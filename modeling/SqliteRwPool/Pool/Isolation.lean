import SqliteRwPool.Library.SnapshotStore
import SqliteRwPool.Pool.Borrowing
import SqliteRwPool.Pool.Closures

/-!
# What the closures of a pool do to the database

The pool of `Pool/State.lean` over a database.  Polling a run with the mutex starts its closure:
`WriteConnection::run` first sends `BEGIN IMMEDIATE`, `ReadConnection::run_with_transaction` sends
`BEGIN DEFERRED`, and both `expect` that to succeed; `ReadConnection::run` sends nothing.  A closure
then sends statements, and ends its transaction, or not, as it parts with it.  Closures of different
connections interleave statement by statement.

SQLite is the parameter `Sqlite`.  What is relied on is `Sqlite.Refines`: a database in WAL mode,
which is the mode the default pragmas ask for, that only this pool uses, accepts and answers
whatever a store with one writer and snapshot readers does.  Nothing is said of how it treats
an operation that such a store refuses.

`poolIsolates` says that the store never refuses anything to closures that end their transactions,
so that no `expect` panics, and that the closures are serializable.
-/

namespace SqliteRwPool

open SnapshotStore Transition

/-! ## Parting with a transaction -/

/-- What becomes of a transaction. -/
inductive Close
  | commit
  | rollback
  | leftOpen
  deriving DecidableEq, Repr

/-- `Transaction::finish_`; `commits` says whether a `COMMIT` sent here succeeds. -/
def DropBehavior.close (commits : Bool) : DropBehavior → Close
  | .rollback => .rollback
  | .commit => if commits then .commit else .rollback
  | .ignore => .leftOpen
  | .panic => .leftOpen

/-- What a closure makes of its transaction as it parts with it.  Aborting the process does not end
it, so it counts as left open. -/
def Ending.close (behavior : DropBehavior) (commits : Bool) : Ending → Close
  | .commit true => .commit
  | .commit false => behavior.close commits
  | .rollback => .rollback
  | .drop => behavior.close commits
  | .unwind => behavior.close commits
  | .forget => .leftOpen

/-- A transaction is left open here exactly by the closures that leave theirs open, or abort. -/
lemma Ending.close_eq_leftOpen (e : Ending) (b : DropBehavior) (commits : Bool) :
    e.close b commits = .leftOpen ↔ (TransactionClosure.mk [] b e).leavesOpen = true ∨
      ((TransactionClosure.mk [] b e).run false false).1 = .aborted := by
  cases e with
  | commit succeeds => cases succeeds <;> cases b <;> cases commits <;> decide
  | rollback | drop | unwind | forget => cases b <;> cases commits <;> decide

/-! ## The pool over a database -/

section

variable {σ D Q O : Type}

/-- SQLite, as far as the pool's closures use it: connections of the writer's pool begin immediate
transactions, execute statements in them and end them; connections of the readers' pool begin and
end deferred ones and send queries.  Statements neither begin nor end a transaction. -/
structure Sqlite (σ Q O : Type) where
  beginImmediate : Conn → σ → Option σ
  exec : Conn → Q → σ → O × σ
  commit : Conn → σ → σ
  rollback : Conn → σ → σ
  beginDeferred : Conn → σ → Option σ
  query : Conn → Q → σ → O × σ
  endRead : Conn → σ → σ

/-- The engine does what the store that `view` sees in it does. -/
structure Sqlite.Refines (E : Sqlite σ Q O) (L : Language D Q O) (view : σ → Store Conn Conn D) :
    Prop where
  beginImmediate : ∀ c db t, (view db).beginImmediate c = some t →
    ∃ db', E.beginImmediate c db = some db' ∧ view db' = t
  exec : ∀ c q db o t, (view db).exec L c q = some (o, t) →
    (E.exec c q db).1 = o ∧ view (E.exec c q db).2 = t
  commit : ∀ c db t, (view db).commit c = some t → view (E.commit c db) = t
  rollback : ∀ c db t, (view db).rollback c = some t → view (E.rollback c db) = t
  beginDeferred : ∀ c db t, (view db).beginDeferred c = some t →
    ∃ db', E.beginDeferred c db = some db' ∧ view db' = t
  query : ∀ c q db, (E.query c q db).1 = ((view db).query L c q).1 ∧
    view (E.query c q db).2 = ((view db).query L c q).2
  endRead : ∀ c db t, (view db).endRead c = some t → view (E.endRead c db) = t

/-- The pool, its database, the read runs whose closure executes with a `Transaction`, what has been
asked and answered so far, and how often `expect("internal invariant broken: couldn't create a
transaction")` has panicked. -/
structure Application (σ Q O : Type) where
  pool : PoolState
  db : σ
  transactions : List (ℕ × ℕ)
  history : History Conn Q O
  expectPanics : ℕ

/-- Run `r` of call `i` executes with a `Transaction` to read in. -/
def Application.HasTransaction (s : Application σ Q O) (i r : ℕ) : Prop := (i, r) ∈ s.transactions

instance (s : Application σ Q O) (i r : ℕ) : Decidable (s.HasTransaction i r) :=
  inferInstanceAs (Decidable ((i, r) ∈ s.transactions))

/-- A pool right after start-up. -/
def Application.new (maxReadConnections : ℕ) (db : σ) : Application σ Q O :=
  ⟨.new maxReadConnections, db, [], .empty, 0⟩

/-- A step of the pool that starts and ends no closure; the start of the closure of run `r` of call
`i`; a statement of it; its end.  `transaction` tells `ReadConnection::run_with_transaction` from
`ReadConnection::run`, whose closure has no `Transaction` to part with. -/
inductive ApplicationAction (Q : Type)
  | pool (a : PoolAction)
  | startRead (i r : ℕ) (transaction : Bool)
  | startWrite (i r : ℕ)
  | query (i r : ℕ) (q : Q)
  | exec (i r : ℕ) (q : Q)
  | endRead (i r : ℕ) (e : Ending) (b : DropBehavior) (commits : Bool)
  | endWrite (i r : ℕ) (e : Ending) (b : DropBehavior) (commits : Bool)

/-- The step starts or ends a closure. -/
def PoolAction.crosses : PoolAction → Bool
  | .write (.call _ (.holder (.enter _))) => true
  | .write (.call _ (.holder (.leave _))) => true
  | .read (.call _ (.holder (.enter _))) => true
  | .read (.call _ (.holder (.leave _))) => true
  | _ => false

/-- The start of a write closure: `transaction_with_behavior(Immediate).expect(..)`. -/
def Application.startWrite (E : Sqlite σ Q O) (s : Application σ Q O) (i r : ℕ) :
    Option (Application σ Q O) := do
  let c ← s.pool.writer.connection? i
  let p ← s.pool.step (.write (.call i (.holder (.enter r))))
  match E.beginImmediate c s.db with
  | some db => some { s with pool := p, db := db, history := s.history.beginImmediate }
  | none =>
      let p ← p.step (.write (.call i (.holder (.leave r))))
      some { s with pool := p, expectPanics := s.expectPanics + 1 }

/-- The start of a read closure, after `transaction_with_behavior(Deferred).expect(..)` where it is
to have a `Transaction`. -/
def Application.startRead (E : Sqlite σ Q O) (s : Application σ Q O) (i r : ℕ)
    (transaction : Bool) : Option (Application σ Q O) := do
  let c ← s.pool.readers.connection? i
  let p ← s.pool.step (.read (.call i (.holder (.enter r))))
  if transaction then
    match E.beginDeferred c s.db with
    | some db =>
        some { s with
          pool := p, db := db, transactions := (i, r) :: s.transactions,
          history := s.history.beginDeferred c }
    | none =>
        let p ← p.step (.read (.call i (.holder (.leave r))))
        some { s with pool := p, expectPanics := s.expectPanics + 1 }
  else some { s with pool := p }

/-- A statement of a write closure. -/
def Application.exec (E : Sqlite σ Q O) (s : Application σ Q O) (i r : ℕ) (q : Q) :
    Option (Application σ Q O) := do
  let c ← s.pool.writer.executing? i r
  let (o, db) := E.exec c q s.db
  some { s with db := db, history := s.history.exec q o }

/-- A statement of a read closure. -/
def Application.query (E : Sqlite σ Q O) (s : Application σ Q O) (i r : ℕ) (q : Q) :
    Option (Application σ Q O) := do
  let c ← s.pool.readers.executing? i r
  let (o, db) := E.query c q s.db
  let history :=
    if s.HasTransaction i r then s.history.query c q o else s.history.queryAlone q o
  some { s with db := db, history := history }

/-- The end of a write closure. -/
def Application.endWrite (E : Sqlite σ Q O) (s : Application σ Q O) (i r : ℕ) (close : Close) :
    Option (Application σ Q O) := do
  let c ← s.pool.writer.executing? i r
  let p ← s.pool.step (.write (.call i (.holder (.leave r))))
  match close with
  | .commit => some { s with pool := p, db := E.commit c s.db, history := s.history.commit }
  | .rollback => some { s with pool := p, db := E.rollback c s.db, history := s.history.rollback }
  | .leftOpen => some { s with pool := p }

/-- The end of a read closure; a deferred transaction that has only read ends the same way whether
it commits or rolls back. -/
def Application.endRead (E : Sqlite σ Q O) (s : Application σ Q O) (i r : ℕ) (close : Close) :
    Option (Application σ Q O) := do
  let c ← s.pool.readers.executing? i r
  let p ← s.pool.step (.read (.call i (.holder (.leave r))))
  let transactions := s.transactions.filter (· ≠ (i, r))
  if s.HasTransaction i r ∧ close ≠ .leftOpen then
    some { s with
      pool := p, db := E.endRead c s.db, transactions := transactions,
      history := s.history.endRead c }
  else some { s with pool := p, transactions := transactions }

/-- One step of the pool or of one closure. -/
def Application.step (E : Sqlite σ Q O) (s : Application σ Q O) :
    ApplicationAction Q → Option (Application σ Q O)
  | .pool a => if a.crosses then none else (s.pool.step a).map fun p => { s with pool := p }
  | .startRead i r transaction => s.startRead E i r transaction
  | .startWrite i r => s.startWrite E i r
  | .query i r q => s.query E i r q
  | .exec i r q => s.exec E i r q
  | .endRead i r e b commits => s.endRead E i r (e.close b commits)
  | .endWrite i r e b commits => s.endWrite E i r (e.close b commits)

/-- A closure that ends here does not leave its transaction open. -/
def ApplicationAction.EndsTransaction : ApplicationAction Q → Prop
  | .endRead _ _ e b commits => e.close b commits ≠ .leftOpen
  | .endWrite _ _ e b commits => e.close b commits ≠ .leftOpen
  | _ => True

/-! ## Steps of the pool, seen from the closures -/

lemma PoolState.step_write {p p' : PoolState} {a : SideAction} (hs : p.step (.write a) = some p') :
    p.writer.step a = some p'.writer ∧ p'.readers = p.readers := PoolState.step_on true hs

lemma PoolState.step_read {p p' : PoolState} {a : SideAction} (hs : p.step (.read a) = some p') :
    p.readers.step a = some p'.readers ∧ p'.writer = p.writer := PoolState.step_on false hs

/-- A run that is polled with the mutex is not executing. -/
lemma Side.not_executingOn_of_enter {s s' : Side} {i r : ℕ}
    (hs : s.step (.call i (.holder (.enter r))) = some s') (c : Conn) :
    ¬ s.ExecutingOn i r c := by
  rintro ⟨call, h, hget, hholder, hrun, -⟩
  obtain ⟨call', call'', e, t, hget', hcall, -, -⟩ := Side.step_call hs
  rw [hget, Option.some.injEq] at hget'
  subst hget'
  cases call with
  | held h' =>
      cases hholder
      obtain ⟨h'', hh, -⟩ := Option.map_eq_some_iff.mp hcall
      simp only [ConnectionHolder.step, hrun, Option.some.injEq, reduceCtorEq, if_false] at hh
  | dropping h' job => cases job <;> cases hcall
  | acquiring | granted | fetching _ | detached _ | closed => cases hholder

lemma Side.ExecutingOn.executing {s : Side} {i r : ℕ} {c : Conn} (h : s.ExecutingOn i r c) :
    s.Executing i r := by
  obtain ⟨call, holder, hget, hholder, hrun, -⟩ := h
  exact ⟨call, holder, hget, hholder, hrun⟩

/-- A run executes on one connection. -/
lemma Side.ExecutingOn.unique {s : Side} {i r : ℕ} {c c' : Conn} (h : s.ExecutingOn i r c)
    (h' : s.ExecutingOn i r c') : c = c' := by
  rw [← Side.executing?_eq_some] at h h'
  rwa [h, Option.some.injEq] at h'

/-- When a closure starts on a connection, no other closure executes on it. -/
lemma Side.Inv.not_executingOn_of_enter {m k : ℕ} {s s' : Side} (hi : s.Inv m k) {i r : ℕ}
    {c : Conn} (hconn : s.connection? i = some c)
    (hs : s.step (.call i (.holder (.enter r))) = some s') (j q : ℕ) :
    ¬ s.ExecutingOn j q c := by
  intro hex
  have hold : s'.ExecutingOn j q c := (hi.step_executingOn hs j q c).mpr (Or.inl ⟨hex, by simp⟩)
  have hnew : s'.ExecutingOn i r c := (hi.step_executingOn hs i r c).mpr (Or.inr ⟨rfl, hconn⟩)
  obtain ⟨rfl, rfl⟩ := (hi.step hs).exclusive.connections c j q i r hold hnew
  exact Side.not_executingOn_of_enter hs c hex

/-- When a closure starts on a side with one permit, no other closure executes there at all. -/
lemma Side.Inv.idle_of_enter {m : ℕ} {s s' : Side} (hi : s.Inv m 1) {i r : ℕ} {c : Conn}
    (hconn : s.connection? i = some c) (hs : s.step (.call i (.holder (.enter r))) = some s')
    (j q : ℕ) (d : Conn) : ¬ s.ExecutingOn j q d := by
  intro hex
  have hold : s'.ExecutingOn j q d := (hi.step_executingOn hs j q d).mpr (Or.inl ⟨hex, by simp⟩)
  have hnew : s'.ExecutingOn i r c := (hi.step_executingOn hs i r c).mpr (Or.inr ⟨rfl, hconn⟩)
  obtain ⟨rfl, rfl⟩ :=
    (hi.step hs).exclusive.closures (Nat.le_refl 1) j q i r hold.executing hnew.executing
  exact Side.not_executingOn_of_enter hs d hex

/-- A step of a side that starts and ends no closure leaves the executing closures alone. -/
lemma Side.Inv.executingOn_of_not_crosses {m k : ℕ} {s s' : Side} (hi : s.Inv m k)
    {a : SideAction} (hs : s.step a = some s') {j q : ℕ}
    (hleave : a ≠ .call j (.holder (.leave q))) (henter : a ≠ .call j (.holder (.enter q)))
    (c : Conn) : s'.ExecutingOn j q c ↔ s.ExecutingOn j q c := by
  rw [hi.step_executingOn hs]
  simp only [ne_eq, hleave, not_false_eq_true, and_true, henter, false_and, or_false]

/-- So does a step of the pool. -/
lemma PoolState.executingOn_side {m k : ℕ} {p p' : PoolState} {a : PoolAction} (isWrite : Bool)
    (hi : (p.side isWrite).Inv m k) (hs : p.step a = some p') (hcross : a.crosses = false)
    (j q : ℕ) (c : Conn) :
    (p'.side isWrite).ExecutingOn j q c ↔ (p.side isWrite).ExecutingOn j q c := by
  rcases PoolState.step_side isWrite hs with heq | ⟨b, rfl, hb⟩
  · rw [heq]
  · refine hi.executingOn_of_not_crosses hb ?_ ?_ c
    · rintro rfl
      cases isWrite <;> cases hcross
    · rintro rfl
      cases isWrite <;> cases hcross

lemma PoolState.executingOn_of_not_crosses {m : ℕ} {p p' : PoolState} {a : PoolAction}
    (hw : p.writer.Inv 1 1) (hr : p.readers.Inv m m) (hs : p.step a = some p')
    (hcross : a.crosses = false) (j q : ℕ) (c : Conn) :
    (p'.writer.ExecutingOn j q c ↔ p.writer.ExecutingOn j q c) ∧
      (p'.readers.ExecutingOn j q c ↔ p.readers.ExecutingOn j q c) :=
  ⟨PoolState.executingOn_side true hw hs hcross j q c,
    PoolState.executingOn_side false hr hs hcross j q c⟩

/-! ## The joint invariant of pool and database -/

/-- A write transaction is open exactly on the connection of the executing write closure, a read
transaction exactly on the connections of the read closures that were given one, and no `expect`
has panicked. -/
structure Application.Inv (L : Language D Q O) (view : σ → Store Conn Conn D) (d : D) (m : ℕ)
    (s : Application σ Q O) : Prop where
  writer : s.pool.writer.Inv 1 1
  readers : s.pool.readers.Inv m m
  store : SnapshotStore.Inv L d (view s.db, s.history)
  writing : ∀ c, (∃ e, (view s.db).writing = some (c, e)) ↔
    ∃ i r, s.pool.writer.ExecutingOn i r c
  reading : ∀ c, ((view s.db).reading c).isSome ↔
    ∃ i r, s.pool.readers.ExecutingOn i r c ∧ (i, r) ∈ s.transactions
  transactions : ∀ i r, (i, r) ∈ s.transactions → ∃ c, s.pool.readers.ExecutingOn i r c
  expectPanics : s.expectPanics = 0

lemma Application.inv_new (L : Language D Q O) {view : σ → Store Conn Conn D} {d : D} (m : ℕ)
    {db : σ} (hdb : view db = .fresh d) :
    (Application.new m db : Application σ Q O).Inv L view d m := by
  have hnone : ∀ permits i r c, ¬ (Side.new permits permits).ExecutingOn i r c := by
    rintro permits i r c ⟨call, -, hget, -⟩
    simp [Side.new] at hget
  refine ⟨Side.inv_new 1 1, Side.inv_new m m, ?_, fun c => ?_, fun c => ?_, fun i r hmem => ?_, rfl⟩
  · rw [Application.new, hdb]
    exact inv_fresh L d
  · simp only [Application.new, hdb, Store.fresh, reduceCtorEq, exists_false, false_iff]
    rintro ⟨i, r, h⟩
    exact hnone 1 i r c h
  · simp [Application.new, hdb, Store.fresh]
  · simp [Application.new] at hmem

section Step

variable {E : Sqlite σ Q O} {L : Language D Q O} {view : σ → Store Conn Conn D} {d : D} {m : ℕ}
  {s s' : Application σ Q O}

lemma Application.Inv.pool (hi : s.Inv L view d m) {a : PoolAction} {p : PoolState}
    (hcross : a.crosses = false) (hp : s.pool.step a = some p) :
    ({ s with pool := p } : Application σ Q O).Inv L view d m := by
  have hex := PoolState.executingOn_of_not_crosses hi.writer hi.readers hp hcross
  refine ⟨PoolState.inv_side true hi.writer hp, PoolState.inv_side false hi.readers hp, hi.store,
    fun c => ?_, fun c => ?_, fun i r hmem => ?_, hi.expectPanics⟩
  · simp only [hex]
    exact hi.writing c
  · simp only [hex]
    exact hi.reading c
  · simp only [hex]
    exact hi.transactions i r hmem

lemma Application.Inv.startWrite (hE : E.Refines L view) (hi : s.Inv L view d m) {i r : ℕ}
    (hs : s.startWrite E i r = some s') : s'.Inv L view d m := by
  simp only [Application.startWrite, Option.bind_eq_bind, Option.bind_eq_some_iff] at hs
  obtain ⟨c, hc, p, hp, hs⟩ := hs
  obtain ⟨hw, hreaders⟩ := PoolState.step_write hp
  have hidle := hi.writer.idle_of_enter hc hw
  have hnone : (view s.db).writing = none := by
    rcases hwr : (view s.db).writing with - | ⟨c', e⟩
    · rfl
    · obtain ⟨j, q, hex⟩ := (hi.writing c').mp ⟨e, hwr⟩
      exact absurd hex (hidle j q c')
  have hbegin : (view s.db).beginImmediate c =
      some { view s.db with writing := some (c, (view s.db).latest) } := by
    rw [Store.beginImmediate, hnone, Option.isNone_none, if_pos rfl]
  obtain ⟨db', hdb, hview⟩ := hE.beginImmediate c s.db _ hbegin
  simp only [hdb, Option.some.injEq] at hs
  subst hs
  refine ⟨hi.writer.step hw, ?_, ?_, fun c' => ?_, fun c' => ?_, fun j q hmem => ?_,
    hi.expectPanics⟩
  · show p.readers.Inv m m
    rw [hreaders]
    exact hi.readers
  · have hstep : SnapshotStore.step L (view s.db, s.history) (.beginImmediate c) =
        some (view db', s.history.beginImmediate) := by
      rw [SnapshotStore.step, hbegin, Option.map_some, hview]
    exact hi.store.step hstep
  · simp only [hview, hi.writer.step_executingOn hw, hidle, false_and, false_or]
    constructor
    · rintro ⟨e, he⟩
      cases he
      exact ⟨i, r, rfl, hc⟩
    · rintro ⟨j, q, heq, hcc⟩
      cases heq
      rw [hc, Option.some.injEq] at hcc
      subst hcc
      exact ⟨_, rfl⟩
  · simp only [hview, hreaders]
    exact hi.reading c'
  · simp only [hreaders]
    exact hi.transactions j q hmem

lemma Application.Inv.startRead (hE : E.Refines L view) (hi : s.Inv L view d m) {i r : ℕ}
    {transaction : Bool} (hs : s.startRead E i r transaction = some s') :
    s'.Inv L view d m := by
  simp only [Application.startRead, Option.bind_eq_bind, Option.bind_eq_some_iff] at hs
  obtain ⟨c, hc, p, hp, hs⟩ := hs
  obtain ⟨hr, hwriter⟩ := PoolState.step_read hp
  have halone := hi.readers.not_executingOn_of_enter hc hr
  have hex : ∀ j q c', p.readers.ExecutingOn j q c' ↔ s.pool.readers.ExecutingOn j q c' ∨
      ((j = i ∧ q = r) ∧ c' = c) := by
    intro j q c'
    rw [hi.readers.step_executingOn hr]
    simp only [ne_eq, SideAction.call.injEq, CallAction.holder.injEq, reduceCtorEq, and_false,
      not_false_eq_true, and_true, HolderAction.enter.injEq]
    constructor
    · rintro (h | ⟨⟨rfl, rfl⟩, h⟩)
      · exact Or.inl h
      · exact Or.inr ⟨⟨rfl, rfl⟩, by rwa [hc, Option.some.injEq, eq_comm] at h⟩
    · rintro (h | ⟨⟨rfl, rfl⟩, rfl⟩)
      · exact Or.inl h
      · exact Or.inr ⟨⟨rfl, rfl⟩, hc⟩
  have hnew : (i, r) ∉ s.transactions := by
    intro hmem
    obtain ⟨c', hc'⟩ := hi.transactions i r hmem
    exact Side.not_executingOn_of_enter hr c' hc'
  cases transaction with
  | false =>
      simp only [Bool.false_eq_true, if_false, Option.some.injEq] at hs
      subst hs
      refine ⟨?_, hi.readers.step hr, hi.store, fun c' => ?_, fun c' => ?_, fun j q hmem => ?_,
        hi.expectPanics⟩
      · show p.writer.Inv 1 1
        rw [hwriter]
        exact hi.writer
      · simp only [hwriter]
        exact hi.writing c'
      · rw [hi.reading c']
        simp only [hex]
        constructor
        · rintro ⟨j, q, h, hmem⟩
          exact ⟨j, q, Or.inl h, hmem⟩
        · rintro ⟨j, q, h | ⟨⟨rfl, rfl⟩, -⟩, hmem⟩
          · exact ⟨j, q, h, hmem⟩
          · exact absurd hmem hnew
      · obtain ⟨c', h⟩ := hi.transactions j q hmem
        exact ⟨c', (hex j q c').mpr (Or.inl h)⟩
  | true =>
      have hnone : (view s.db).reading c = none := by
        rw [← Option.not_isSome_iff_eq_none, hi.reading c]
        rintro ⟨j, q, h, -⟩
        exact halone j q h
      have hbegin : (view s.db).beginDeferred c = some { view s.db with
          reading := Function.update (view s.db).reading c (some none) } := by
        rw [Store.beginDeferred, hnone, Option.isNone_none, if_pos rfl]
      obtain ⟨db', hdb, hview⟩ := hE.beginDeferred c s.db _ hbegin
      simp only [if_true, hdb, Option.some.injEq] at hs
      subst hs
      refine ⟨?_, hi.readers.step hr, ?_, fun c' => ?_, fun c' => ?_, fun j q hmem => ?_,
        hi.expectPanics⟩
      · show p.writer.Inv 1 1
        rw [hwriter]
        exact hi.writer
      · have hstep : SnapshotStore.step L (view s.db, s.history) (.beginDeferred c) =
            some (view db', s.history.beginDeferred c) := by
          rw [SnapshotStore.step, hbegin, Option.map_some, hview]
        exact hi.store.step hstep
      · simp only [hview, hwriter]
        exact hi.writing c'
      · simp only [hview, hex, List.mem_cons, Prod.mk.injEq]
        by_cases hcc : c' = c
        · subst hcc
          simp only [Function.update_self, Option.isSome_some, true_iff]
          exact ⟨i, r, Or.inr ⟨⟨rfl, rfl⟩, trivial⟩, Or.inl ⟨rfl, rfl⟩⟩
        · rw [Function.update_of_ne hcc, hi.reading c']
          constructor
          · rintro ⟨j, q, h, hmem⟩
            exact ⟨j, q, Or.inl h, Or.inr hmem⟩
          · rintro ⟨j, q, h | ⟨-, rfl⟩, ⟨rfl, rfl⟩ | hmem⟩
            · exact absurd h (Side.not_executingOn_of_enter hr c')
            · exact ⟨j, q, h, hmem⟩
            · exact absurd rfl hcc
            · exact absurd rfl hcc
      · rcases List.mem_cons.mp hmem with heq | hmem
        · cases heq
          exact ⟨c, (hex i r c).mpr (Or.inr ⟨⟨rfl, rfl⟩, rfl⟩)⟩
        · obtain ⟨c', h⟩ := hi.transactions j q hmem
          exact ⟨c', (hex j q c').mpr (Or.inl h)⟩

lemma Application.Inv.exec (hE : E.Refines L view) (hi : s.Inv L view d m) {i r : ℕ} {q : Q}
    (hs : s.exec E i r q = some s') : s'.Inv L view d m := by
  simp only [Application.exec, Option.bind_eq_bind, Option.bind_eq_some_iff,
    Option.some.injEq] at hs
  obtain ⟨c, hc, rfl⟩ := hs
  have hex := Side.executing?_eq_some.mp hc
  obtain ⟨e, he⟩ := (hi.writing c).mpr ⟨i, r, hex⟩
  have hexec : (view s.db).exec L c q =
      some ((L.exec q e).1, { view s.db with writing := some (c, (L.exec q e).2) }) := by
    simp only [Store.exec, he, if_true]
  obtain ⟨hanswer, hview⟩ := hE.exec c q s.db _ _ hexec
  refine ⟨hi.writer, hi.readers, ?_, fun c' => ?_, fun c' => ?_, hi.transactions,
    hi.expectPanics⟩
  · have hstep : SnapshotStore.step L (view s.db, s.history) (.exec c q) =
        some (view (E.exec c q s.db).2, s.history.exec q (E.exec c q s.db).1) := by
      rw [SnapshotStore.step, hexec, Option.map_some, hview, hanswer]
    exact hi.store.step hstep
  · rw [← hi.writing c', hview, he]
    constructor
    · rintro ⟨e', heq⟩
      cases heq
      exact ⟨e, rfl⟩
    · rintro ⟨e', heq⟩
      cases heq
      exact ⟨_, rfl⟩
  · rw [hview]
    exact hi.reading c'

/-- A read closure has a `Transaction` exactly when one is open on its connection. -/
lemma Application.Inv.mem_transactions (hi : s.Inv L view d m) {i r : ℕ} {c : Conn}
    (hex : s.pool.readers.ExecutingOn i r c) :
    s.HasTransaction i r ↔ ((view s.db).reading c).isSome := by
  rw [hi.reading c]
  constructor
  · exact fun hmem => ⟨i, r, hex, hmem⟩
  · rintro ⟨j, q, h, hmem⟩
    obtain ⟨rfl, rfl⟩ := hi.readers.exclusive.connections c j q i r h hex
    exact hmem

lemma Application.Inv.query (hE : E.Refines L view) (hi : s.Inv L view d m) {i r : ℕ} {q : Q}
    (hs : s.query E i r q = some s') : s'.Inv L view d m := by
  simp only [Application.query, Option.bind_eq_bind, Option.bind_eq_some_iff,
    Option.some.injEq] at hs
  obtain ⟨c, hc, rfl⟩ := hs
  have hex := Side.executing?_eq_some.mp hc
  obtain ⟨hanswer, hview⟩ := hE.query c q s.db
  obtain ⟨hwriting, hreading⟩ := (view s.db).query_snd L c q
  refine ⟨hi.writer, hi.readers, ?_, fun c' => ?_, fun c' => ?_, hi.transactions,
    hi.expectPanics⟩
  · have hstep : SnapshotStore.step L (view s.db, s.history) (.query c q) =
        some (view (E.query c q s.db).2,
          if s.HasTransaction i r then s.history.query c q (E.query c q s.db).1
          else s.history.queryAlone q (E.query c q s.db).1) := by
      simp only [SnapshotStore.step, hi.mem_transactions hex, hview, hanswer]
    exact hi.store.step hstep
  · rw [hview, hwriting]
    exact hi.writing c'
  · rw [hview, hreading]
    exact hi.reading c'

/-- When the write closure leaves, the invariant needs no more than that its transaction is over and
the read transactions are what they were. -/
lemma Application.Inv.leaveWrite (hi : s.Inv L view d m) {i r : ℕ} {c : Conn}
    (hex : s.pool.writer.ExecutingOn i r c) {p : PoolState}
    (hp : s.pool.step (.write (.call i (.holder (.leave r)))) = some p) {db : σ}
    {history : History Conn Q O} (hstore : SnapshotStore.Inv L d (view db, history))
    (hwriting : (view db).writing = none) (hreading : (view db).reading = (view s.db).reading) :
    ({ s with pool := p, db := db, history := history } : Application σ Q O).Inv L view d m := by
  obtain ⟨hw, hreaders⟩ := PoolState.step_write hp
  have hidle : ∀ j q c', ¬ p.writer.ExecutingOn j q c' := by
    intro j q c' h
    rcases (hi.writer.step_executingOn hw j q c').mp h with ⟨hold, hne⟩ | ⟨heq, -⟩
    · obtain ⟨rfl, rfl⟩ := hi.writer.exclusive.closures (Nat.le_refl 1) j q i r hold.executing
        hex.executing
      exact hne rfl
    · cases heq
  refine ⟨hi.writer.step hw, ?_, hstore, fun c' => ?_, fun c' => ?_, fun j q hmem => ?_,
    hi.expectPanics⟩
  · show p.readers.Inv m m
    rw [hreaders]
    exact hi.readers
  · simp only [hwriting, reduceCtorEq, exists_false, hidle]
  · simp only [hreading, hreaders]
    exact hi.reading c'
  · simp only [hreaders]
    exact hi.transactions j q hmem

lemma Application.Inv.endWrite (hE : E.Refines L view) (hi : s.Inv L view d m) {i r : ℕ}
    {close : Close} (hclose : close ≠ .leftOpen) (hs : s.endWrite E i r close = some s') :
    s'.Inv L view d m := by
  simp only [Application.endWrite, Option.bind_eq_bind, Option.bind_eq_some_iff] at hs
  obtain ⟨c, hc, p, hp, hs⟩ := hs
  have hex := Side.executing?_eq_some.mp hc
  obtain ⟨e, he⟩ := (hi.writing c).mpr ⟨i, r, hex⟩
  cases close with
  | leftOpen => exact absurd rfl hclose
  | commit =>
      have hcommit : (view s.db).commit c =
          some { view s.db with latest := e, writing := none } := by
        simp only [Store.commit, he, if_true]
      have hview := hE.commit c s.db _ hcommit
      have hstep : SnapshotStore.step L (view s.db, s.history) (.commit c) =
          some (view (E.commit c s.db), s.history.commit) := by
        rw [SnapshotStore.step, hcommit, Option.map_some, hview]
      cases hs
      exact hi.leaveWrite hex hp (hi.store.step hstep) (by rw [hview]) (by rw [hview])
  | rollback =>
      have hrollback : (view s.db).rollback c = some { view s.db with writing := none } := by
        simp only [Store.rollback, he, if_true]
      have hview := hE.rollback c s.db _ hrollback
      have hstep : SnapshotStore.step L (view s.db, s.history) (.rollback c) =
          some (view (E.rollback c s.db), s.history.rollback) := by
        rw [SnapshotStore.step, hrollback, Option.map_some, hview]
      cases hs
      exact hi.leaveWrite hex hp (hi.store.step hstep) (by rw [hview]) (by rw [hview])

/-- When a read closure leaves, no transaction may be left on its connection. -/
lemma Application.Inv.leaveRead (hi : s.Inv L view d m) {i r : ℕ} {c : Conn}
    (hex : s.pool.readers.ExecutingOn i r c) {p : PoolState}
    (hp : s.pool.step (.read (.call i (.holder (.leave r)))) = some p) {db : σ}
    {history : History Conn Q O} (hstore : SnapshotStore.Inv L d (view db, history))
    (hwriting : (view db).writing = (view s.db).writing)
    (hreading : ∀ c', ((view db).reading c').isSome ↔
      ((view s.db).reading c').isSome ∧ c' ≠ c) :
    ({ s with
      pool := p
      db := db
      history := history
      transactions := s.transactions.filter (· ≠ (i, r)) } : Application σ Q O).Inv L view d m := by
  obtain ⟨hr, hwriter⟩ := PoolState.step_read hp
  have hstill : ∀ j q c', p.readers.ExecutingOn j q c' ↔
      s.pool.readers.ExecutingOn j q c' ∧ (j, q) ≠ (i, r) := by
    intro j q c'
    rw [hi.readers.step_executingOn hr]
    simp only [ne_eq, SideAction.call.injEq, CallAction.holder.injEq, HolderAction.leave.injEq,
      reduceCtorEq, and_false, false_and, or_false, Prod.mk.injEq, eq_comm]
  refine ⟨?_, hi.readers.step hr, hstore, fun c' => ?_, fun c' => ?_, fun j q hmem => ?_,
    hi.expectPanics⟩
  · show p.writer.Inv 1 1
    rw [hwriter]
    exact hi.writer
  · simp only [hwriting, hwriter]
    exact hi.writing c'
  · simp only [hreading, hi.reading c', hstill, List.mem_filter]
    constructor
    · rintro ⟨⟨j, q, h, hmem⟩, hcc⟩
      have hne : (j, q) ≠ (i, r) := by
        intro heq
        cases heq
        exact hcc (h.unique hex)
      exact ⟨j, q, ⟨h, hne⟩, hmem, decide_eq_true hne⟩
    · rintro ⟨j, q, ⟨h, hne⟩, hmem, -⟩
      refine ⟨⟨j, q, h, hmem⟩, ?_⟩
      rintro rfl
      obtain ⟨rfl, rfl⟩ := hi.readers.exclusive.connections c' j q i r h hex
      exact hne rfl
  · obtain ⟨hmem, hne⟩ := List.mem_filter.mp hmem
    obtain ⟨c', h⟩ := hi.transactions j q hmem
    exact ⟨c', (hstill j q c').mpr ⟨h, of_decide_eq_true hne⟩⟩

lemma Application.Inv.endRead (hE : E.Refines L view) (hi : s.Inv L view d m) {i r : ℕ}
    {close : Close} (hclose : close ≠ .leftOpen) (hs : s.endRead E i r close = some s') :
    s'.Inv L view d m := by
  simp only [Application.endRead, Option.bind_eq_bind, Option.bind_eq_some_iff] at hs
  obtain ⟨c, hc, p, hp, hs⟩ := hs
  have hex := Side.executing?_eq_some.mp hc
  split_ifs at hs with hcase
  · obtain ⟨snapshot, hsnap⟩ :=
      Option.isSome_iff_exists.mp ((hi.mem_transactions hex).mp hcase.1)
    have hend : (view s.db).endRead c = some { view s.db with
        reading := Function.update (view s.db).reading c none } := by
      rw [Store.endRead, hsnap, Option.isSome_some, if_pos rfl]
    have hview := hE.endRead c s.db _ hend
    have hstep : SnapshotStore.step L (view s.db, s.history) (.endRead c) =
        some (view (E.endRead c s.db), s.history.endRead c) := by
      rw [SnapshotStore.step, hend, Option.map_some, hview]
    cases hs
    refine hi.leaveRead hex hp (hi.store.step hstep) (by rw [hview]) fun c' => ?_
    by_cases hcc : c' = c
    · simp [hview, hcc]
    · simp [hview, hcc]
  · have hnone : (view s.db).reading c = none := by
      rw [← Option.not_isSome_iff_eq_none, ← hi.mem_transactions hex]
      exact fun hmem => hcase ⟨hmem, hclose⟩
    cases hs
    refine hi.leaveRead hex hp hi.store rfl fun c' => ?_
    by_cases hcc : c' = c
    · simp [hnone, hcc]
    · simp [hcc]

/-- **Every step keeps the joint invariant**, as long as closures end their transactions. -/
theorem Application.Inv.step (hE : E.Refines L view) {a : ApplicationAction Q}
    (hi : s.Inv L view d m) (hends : a.EndsTransaction) (hs : s.step E a = some s') :
    s'.Inv L view d m := by
  cases a with
  | pool a =>
      simp only [Application.step] at hs
      split_ifs at hs with hcross
      obtain ⟨p, hp, rfl⟩ := Option.map_eq_some_iff.mp hs
      exact hi.pool (by simpa using hcross) hp
  | startRead i r transaction => exact hi.startRead hE hs
  | startWrite i r => exact hi.startWrite hE hs
  | query i r q => exact hi.query hE hs
  | exec i r q => exact hi.exec hE hs
  | endRead i r e b commits => exact hi.endRead hE hends hs
  | endWrite i r e b commits => exact hi.endWrite hE hends hs

end Step

/-! ## Isolation -/

/-- **The pool isolates its closures.**  Over a WAL-mode database that only this pool uses, whatever
calls, timeouts, cancellations, runs and drops interleave with whatever statements of whatever
closures, as long as closures end the transactions they were given: no `BEGIN` is refused, so no
`expect` panics; the write transactions that committed replay one after the other in the order of
their commits, with the answers their closures saw and up to the database as it is, so that no
update is lost and what was rolled back or unwound has left nothing; and each read transaction that
is over was answered from one committed version, no older than its beginning. -/
theorem poolIsolates {E : Sqlite σ Q O} {L : Language D Q O} {view : σ → Store Conn Conn D}
    (hE : E.Refines L view) {d : D} {db : σ} (hdb : view db = .fresh d) {m : ℕ}
    {s : Application σ Q O}
    (h : ReachableBy (Application.step E) (fun _ a => a.EndsTransaction) (.new m db) s) :
    s.expectPanics = 0 ∧ Serializable L d (view s.db).latest s.history := by
  have hi : s.Inv L view d m :=
    h.invariant (I := Application.Inv L view d m) (Application.inv_new L m hdb)
      fun _ _ _ hi hends hs => hi.step hE hends hs
  exact ⟨hi.expectPanics, hi.store.serializable⟩

/-- The store itself as the engine; what the store refuses changes nothing here. -/
def Sqlite.ofStore (L : Language D Q O) (refused : O) : Sqlite (Store Conn Conn D) Q O where
  beginImmediate c db := db.beginImmediate c
  exec c q db := (db.exec L c q).getD (refused, db)
  commit c db := (db.commit c).getD db
  rollback c db := (db.rollback c).getD db
  beginDeferred c db := db.beginDeferred c
  query c q db := db.query L c q
  endRead c db := (db.endRead c).getD db

lemma Sqlite.ofStore_refines (L : Language D Q O) (refused : O) :
    (Sqlite.ofStore L refused).Refines L id where
  beginImmediate _ _ t h := ⟨t, h, rfl⟩
  exec _ _ _ _ _ h := by simp only [ofStore, id_eq] at h ⊢; simp [h]
  commit _ _ _ h := by simp only [ofStore, id_eq] at h ⊢; simp [h]
  rollback _ _ _ h := by simp only [ofStore, id_eq] at h ⊢; simp [h]
  beginDeferred _ _ t h := ⟨t, h, rfl⟩
  query _ _ _ := ⟨rfl, rfl⟩
  endRead _ _ _ h := by simp only [ofStore, id_eq] at h ⊢; simp [h]

end

/-- A database that is a number: a statement adds to it, a query reads it. -/
def tally : Language ℕ ℕ ℕ where
  exec q d := (d + q, d + q)
  query _ d := d

/-- The steps by which a task obtains a connection and polls a run of it up to its mutex. -/
def connect {Q : Type} (side : SideAction → PoolAction) (i : ℕ) (c : Conn) :
    List (ApplicationAction Q) :=
  [side .get, side (.call i .grant), side (.call i .poll), side (.call i (.lend c)),
    side (.call i .fetchReturns), side (.call i .poll), side (.call i (.holder .run)),
    side (.call i (.holder (.lock 0)))].map .pool

/-- A reader looks twice, before and after a writer commits, and a writer panics halfway. -/
def readerBetweenWriters : List (ApplicationAction ℕ) :=
  List.flatten [connect .write 0 7, connect .read 0 3,
    [.startRead 0 0 true, .startWrite 0 0, .query 0 0 0, .exec 0 0 5,
      .endWrite 0 0 (.commit true) .rollback true, .query 0 0 0],
    [.drop, .dropLocks, .dropReturns, .dropReleases].map fun a => .pool (.write (.call 0 a)),
    connect .write 1 7,
    [.startWrite 1 0, .exec 1 0 30, .endWrite 1 0 .unwind .rollback true,
      .endRead 0 0 .drop .rollback true]]

theorem poolIsolates_readerBetweenWriters : ∃ s,
    run (Application.step (.ofStore tally 0)) (.new 4 (Store.fresh 0)) readerBetweenWriters =
      some s ∧
    s.history.committed = [[(5, 5)]] ∧ s.history.reads = [⟨0, 1, [(0, 0), (0, 0)]⟩] ∧
    s.expectPanics = 0 ∧ Serializable tally 0 s.db.latest s.history := by
  have hrun : ((run (Application.step (.ofStore tally 0)) (.new 4 (Store.fresh 0))
      readerBetweenWriters).map fun s => (s.history.committed, s.history.reads)) =
        some ([[(5, 5)]], [⟨0, 1, [(0, 0), (0, 0)]⟩]) := rfl
  obtain ⟨s, hs, hhistory⟩ := Option.map_eq_some_iff.mp hrun
  obtain ⟨hcommitted, hreads⟩ := Prod.mk.inj hhistory
  have hends : ∀ a ∈ readerBetweenWriters, a.EndsTransaction := by
    simp [readerBetweenWriters, connect, ApplicationAction.EndsTransaction, Ending.close,
      DropBehavior.close]
  exact ⟨s, hs, hcommitted, hreads, poolIsolates (Sqlite.ofStore_refines tally 0) rfl
    (reachableBy_of_run readerBetweenWriters .start (fun a ha _ => hends a ha) hs)⟩

end SqliteRwPool
