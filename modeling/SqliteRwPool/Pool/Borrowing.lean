import Mathlib.Logic.Function.Basic
import SqliteRwPool.Pool.Holder

/-!
# The transaction state of a pooled connection, from borrower to borrower

SQLite allows one transaction per connection at a time: `BEGIN` fails while one is open.
`ReadConnection::run_with_transaction` and `WriteConnection::run` begin one and `expect` that to
succeed; `ReadConnection::run` hands out `&Connection`, on which a closure may send any SQL.  A
connection then goes back to r2d2, which checks on the next checkout that it still answers and
otherwise hands it on as it is.

So the transaction state is what the closures of all borrowers so far have made of it.  A closure
given a `Transaction` cannot avoid ending it by returning or panicking, but it can set the drop
behaviour to `Ignore` or `Panic`, or forget the `Transaction`; a closure given `&Connection` can
send `BEGIN` and stop there.  `Run.leavesOpen` says which closures do, and
`findsNoTransaction_iff` that these are exactly the ones that break the `expect` for later
borrowers.  A closure that panics with its transaction open and the drop behaviour `Panic` panics
again while it unwinds, which aborts the process: there are no later borrowers then.
-/

namespace SqliteRwPool

/-- What a closure sends that bears on the transaction state.  A commit may fail and then leaves the
transaction open; another statement may make SQLite roll the transaction back on its own. -/
inductive SqlOp
  | begin
  | commit (succeeds : Bool)
  | rollback
  | statement (rollsBack : Bool)
  deriving DecidableEq, Repr

/-- Whether a transaction is open after the operation; `BEGIN` inside a transaction fails and
changes nothing, like `COMMIT` and `ROLLBACK` outside one. -/
def SqlOp.apply (isOpen : Bool) : SqlOp → Bool
  | .begin => true
  | .commit succeeds => isOpen && !succeeds
  | .rollback => false
  | .statement rollsBack => isOpen && !rollsBack

/-- `rusqlite::DropBehavior`. -/
inductive DropBehavior
  | rollback
  | commit
  | ignore
  | panic
  deriving DecidableEq, Repr

/-- How a closure parts with its `Transaction`: `commit()`, `rollback()`, dropping it on return or
while a panic unwinds, or `mem::forget`. -/
inductive Ending
  | commit (succeeds : Bool)
  | rollback
  | drop
  | unwind
  | forget
  deriving DecidableEq, Repr

/-- A closure given `&Connection`, which returns or panics after sending `ops`. -/
structure ConnectionClosure where
  ops : List SqlOp
  panics : Bool
  deriving DecidableEq, Repr

/-- A closure given a `Transaction`, whose drop behaviour it may have set. -/
structure TransactionClosure where
  ops : List SqlOp
  behavior : DropBehavior
  ending : Ending
  deriving DecidableEq, Repr

/-- What comes of a run: the closure was called, or `expect("internal invariant broken: couldn't
create a transaction")` panicked, because a transaction was open already or for another reason, or
the process was aborted. -/
inductive RunOutcome
  | called
  | alreadyActive
  | blocked
  | aborted
  deriving DecidableEq, Repr

/-- `Transaction::finish_`, which `drop` runs.  With `DropBehavior::Commit` a commit that fails is
followed by a rollback; with `DropBehavior::Panic` it panics and leaves the transaction open. -/
def finish (isOpen : Bool) : DropBehavior → Bool
  | .rollback => false
  | .commit => false
  | .ignore => isOpen
  | .panic => isOpen

/-- `Transaction::commit` and `Transaction::rollback` drop the transaction when they are done.  A
panic of `drop` while another one unwinds aborts the process, and its connections are closed with
it. -/
def TransactionClosure.finish (f : TransactionClosure) (isOpen : Bool) : RunOutcome × Bool :=
  match f.ending with
  | .commit succeeds =>
      (.called, SqliteRwPool.finish (SqlOp.apply isOpen (.commit succeeds)) f.behavior)
  | .rollback => (.called, SqliteRwPool.finish (SqlOp.apply isOpen .rollback) f.behavior)
  | .drop => (.called, SqliteRwPool.finish isOpen f.behavior)
  | .unwind =>
      if isOpen ∧ f.behavior = .panic then (.aborted, false)
      else (.called, SqliteRwPool.finish isOpen f.behavior)
  | .forget => (.called, isOpen)

/-- A call of `ReadConnection::run`, `ReadConnection::run_with_transaction` or
`WriteConnection::run` with its closure.  `blocked` says that `BEGIN` fails because of another
connection, as `BEGIN IMMEDIATE` does after the busy timeout. -/
inductive Run
  | read (f : ConnectionClosure)
  | readWithTransaction (blocked : Bool) (f : TransactionClosure)
  | write (blocked : Bool) (f : TransactionClosure)
  deriving DecidableEq, Repr

/-- `transaction_with_behavior(..).expect(..)`, then the closure. -/
def TransactionClosure.run (f : TransactionClosure) (blocked isOpen : Bool) : RunOutcome × Bool :=
  if isOpen then (.alreadyActive, true)
  else if blocked then (.blocked, false)
  else f.finish (f.ops.foldl SqlOp.apply true)

/-- One run on a connection, from the transaction state it finds to the one it leaves. -/
def Run.exec (isOpen : Bool) : Run → RunOutcome × Bool
  | .read f => (.called, f.ops.foldl SqlOp.apply isOpen)
  | .readWithTransaction blocked f => f.run blocked isOpen
  | .write blocked f => f.run blocked isOpen

/-- One borrowing: the connection that r2d2 hands out and the runs on its holder, in the order in
which they obtain the mutex. -/
structure Borrowing where
  connection : Conn
  runs : List Run
  deriving DecidableEq, Repr

/-- The runs of a holder one after the other, with their outcomes, until one aborts. -/
def execRuns : Bool → List Run → List RunOutcome × Bool
  | isOpen, [] => ([], isOpen)
  | isOpen, r :: rs =>
      let first := r.exec isOpen
      if first.1 = .aborted then ([first.1], first.2)
      else
        let rest := execRuns first.2 rs
        (first.1 :: rest.1, rest.2)

/-- A sequence of borrowings, from the transaction states of the connections.  The check on checkout
is `SELECT 1`; returning a connection does nothing to it.  Nobody borrows after an abort. -/
def execBorrowings : (Conn → Bool) → List Borrowing → List RunOutcome × (Conn → Bool)
  | states, [] => ([], states)
  | states, b :: bs =>
      let found := SqlOp.apply (states b.connection) (.statement false)
      let runs := execRuns found b.runs
      if .aborted ∈ runs.1 then (runs.1, fun _ => false)
      else
        let rest := execBorrowings (Function.update states b.connection runs.2) bs
        (runs.1 ++ rest.1, rest.2)

/-- What a sequence of borrowings comes to on connections as `create_pool` opens them. -/
def borrow (bs : List Borrowing) : List RunOutcome × (Conn → Bool) :=
  execBorrowings (fun _ => false) bs

/-! ## Which closures leave a transaction open -/

/-- The closure ends without ending the transaction it was given. -/
def TransactionClosure.leavesOpen (f : TransactionClosure) : Bool :=
  f.ops.foldl SqlOp.apply true &&
    match f.ending, f.behavior with
    | .forget, _ => true
    | .rollback, _ => false
    | .commit succeeds, .ignore => !succeeds
    | .commit succeeds, .panic => !succeeds
    | .drop, .ignore => true
    | .drop, .panic => true
    | .unwind, .ignore => true
    | _, _ => false

/-- The closure, started outside a transaction as the run function leaves it, ends inside one. -/
def Run.leavesOpen : Run → Bool
  | .read f => f.ops.foldl SqlOp.apply false
  | .readWithTransaction blocked f => !blocked && f.leavesOpen
  | .write blocked f => !blocked && f.leavesOpen

lemma TransactionClosure.finish_eq (f : TransactionClosure) :
    (f.finish (f.ops.foldl SqlOp.apply true)).2 = f.leavesOpen ∧
      (f.finish (f.ops.foldl SqlOp.apply true)).1 ≠ .alreadyActive := by
  unfold TransactionClosure.finish TransactionClosure.leavesOpen
  generalize f.ops.foldl SqlOp.apply true = isOpen
  rcases f with ⟨ops, behavior, ending⟩
  cases ending <;> cases behavior <;> cases isOpen <;> simp [SqliteRwPool.finish, SqlOp.apply]

lemma TransactionClosure.run_false (f : TransactionClosure) (blocked : Bool) :
    (f.run blocked false).2 = (!blocked && f.leavesOpen) ∧
      (f.run blocked false).1 ≠ .alreadyActive := by
  cases blocked with
  | true => simp [TransactionClosure.run]
  | false => simpa [TransactionClosure.run] using f.finish_eq

/-- A run that finds no transaction open leaves one open exactly when its closure does. -/
lemma Run.exec_false (r : Run) :
    (r.exec false).2 = r.leavesOpen ∧ (r.exec false).1 ≠ .alreadyActive := by
  cases r with
  | read f => exact ⟨rfl, by simp [Run.exec]⟩
  | readWithTransaction blocked f => exact f.run_false blocked
  | write blocked f => exact f.run_false blocked

/-- A run that aborts leaves no connection. -/
lemma Run.exec_aborted (r : Run) (h : (r.exec false).1 = .aborted) : (r.exec false).2 = false := by
  have hrun : ∀ (f : TransactionClosure) (blocked : Bool),
      (f.run blocked false).1 = .aborted → (f.run blocked false).2 = false := by
    rintro ⟨ops, behavior, ending⟩ blocked
    cases blocked with
    | true => simp [TransactionClosure.run]
    | false =>
        cases ending with
        | unwind =>
            simp only [TransactionClosure.run, TransactionClosure.finish]
            split_ifs <;> simp_all
        | commit _ | rollback | drop | forget =>
            simp [TransactionClosure.run, TransactionClosure.finish]
  cases r with
  | read f => cases h
  | readWithTransaction blocked f => exact hrun f blocked h
  | write blocked f => exact hrun f blocked h

/-! ## Runs and borrowings that keep connections outside transactions -/

lemma execRuns_false {rs : List Run} (h : ∀ r ∈ rs, r.leavesOpen = false) :
    (execRuns false rs).2 = false ∧ .alreadyActive ∉ (execRuns false rs).1 := by
  induction rs with
  | nil => exact ⟨rfl, by simp [execRuns]⟩
  | cons r rs ih =>
      obtain ⟨hstate, houtcome⟩ := r.exec_false
      rw [h r List.mem_cons_self] at hstate
      obtain ⟨ih1, ih2⟩ := ih fun x hx => h x (List.mem_cons_of_mem _ hx)
      simp only [execRuns, hstate]
      split_ifs
      · exact ⟨rfl, by simpa using houtcome.symm⟩
      · exact ⟨ih1, by simpa using ⟨houtcome.symm, ih2⟩⟩

lemma execBorrowings_closed {bs : List Borrowing}
    (h : ∀ b ∈ bs, ∀ r ∈ b.runs, r.leavesOpen = false) :
    ∀ {states : Conn → Bool}, (∀ c, states c = false) →
      (∀ c, (execBorrowings states bs).2 c = false) ∧
        .alreadyActive ∉ (execBorrowings states bs).1 := by
  induction bs with
  | nil => exact fun hstates => ⟨hstates, by simp [execBorrowings]⟩
  | cons b bs ih =>
      intro states hstates
      obtain ⟨hstate, houtcome⟩ := execRuns_false (h b List.mem_cons_self)
      have hupdate : ∀ c, Function.update states b.connection false c = false := by
        intro c
        rw [Function.update_apply]
        split_ifs
        · rfl
        · exact hstates c
      obtain ⟨ih1, ih2⟩ := ih (fun x hx => h x (List.mem_cons_of_mem _ hx)) hupdate
      simp only [execBorrowings, SqlOp.apply, hstates, Bool.false_and, hstate]
      split_ifs
      · exact ⟨fun _ => rfl, houtcome⟩
      · exact ⟨ih1, by simpa using ⟨houtcome, ih2⟩⟩

/-- **When every borrower finds its connection outside a transaction.**  Let the closures of an
application be the ones in `K`.  Whatever sequence of borrowings they make, no transaction fails to
open because one is active and no connection is left inside one for a later borrower, if and only
if no closure in `K` leaves a transaction open. -/
theorem findsNoTransaction_iff (K : Run → Prop) :
    (∀ bs, (∀ b ∈ bs, ∀ r ∈ b.runs, K r) →
      .alreadyActive ∉ (borrow bs).1 ∧ ∀ c, (borrow bs).2 c = false) ↔
    ∀ r, K r → r.leavesOpen = false := by
  constructor
  · intro h r hr
    have hone := (h [⟨0, [r]⟩] (by simpa using hr)).2 0
    have hexec : (borrow [⟨0, [r]⟩]).2 0 = (r.exec false).2 := by
      by_cases haborted : (r.exec false).1 = .aborted
      · simp [borrow, execBorrowings, execRuns, SqlOp.apply, haborted, r.exec_aborted haborted]
      · simp [borrow, execBorrowings, execRuns, SqlOp.apply, haborted, Ne.symm haborted]
    rw [hexec, r.exec_false.1] at hone
    exact hone
  · intro h bs hbs
    have hclosed := execBorrowings_closed (fun b hb r hr => h r (hbs b hb r hr)) (fun _ => rfl)
    exact ⟨hclosed.2, hclosed.1⟩

/-- Nobody borrows after a closure that panics over a transaction with the drop behaviour
`Panic`. -/
example : borrow [⟨0, [.write false ⟨[], .panic, .unwind⟩]⟩,
    ⟨0, [.write false ⟨[], .rollback, .commit true⟩]⟩] = ([.aborted], fun _ => false) := rfl

/-- A reader's closure sends `BEGIN` and returns; a later borrower of the same connection asks for
a transaction.  A write closure forgets its `Transaction`; the next writer asks for one. -/
theorem findsTransactionOpen :
    (borrow [⟨0, [.read ⟨[.begin], false⟩]⟩, ⟨1, [.read ⟨[.statement false], false⟩]⟩,
      ⟨0, [.readWithTransaction false ⟨[], .rollback, .drop⟩]⟩]).1 =
        [.called, .called, .alreadyActive] ∧
    (borrow [⟨0, [.write false ⟨[.statement false], .rollback, .forget⟩]⟩,
      ⟨0, [.write false ⟨[.statement false], .rollback, .commit true⟩]⟩]).1 =
        [.called, .alreadyActive] := by
  decide

end SqliteRwPool
