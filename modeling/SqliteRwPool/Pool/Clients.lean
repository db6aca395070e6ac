import SqliteRwPool.Library.Clients
import SqliteRwPool.Pool.Serial

/-!
# Closures that commit what has succeeded

The closure of a write call often runs a computation with its transaction, returns early with its
error, which drops the transaction, and commits otherwise.  `Closure.ofClient` is such a closure.

* `Execution.Committed.step` — closures are among those that committed because they chose to commit.
* `Execution.committedClient` — a closure that committed has run its computation from the version
  before it to the version after it, and this returned what it commits on.
-/

namespace SqliteRwPool

open SnapshotStore Transition

section

variable {σ D Q O α : Type}

/-- The closure that runs the client, and parts with its transaction by what the client returns.
The drop behavior of the transaction is the default one. -/
def Closure.ofClient (c : Client Q O α) (ending : α → Ending) : Closure Q O where
  program := c.program
  behavior _ := .rollback
  ending t :=
    match c.resultAfter t with
    | some a => ending a
    | none => .drop

/-- With the default drop behavior, only a `commit()` that succeeds commits. -/
lemma Ending.close_rollback_eq_commit {e : Ending} {commits : Bool} :
    e.close .rollback commits = .commit ↔ e = .commit true := by
  cases e with
  | commit succeeds => cases succeeds <;> cases commits <;> decide
  | rollback | drop | unwind | forget => cases commits <;> decide

/-- The closures that have committed parted with their transactions in a way that commits. -/
def Execution.Committed (closures : Closures Q O) (x : Execution σ Q O) : Prop :=
  List.Forall₂ (fun run t => ∃ commits, ((closures.write run.1 run.2).ending t).close
    ((closures.write run.1 run.2).behavior t) commits = .commit) x.committed
      x.application.history.committed

section Steps

variable {E : Sqlite σ Q O} {s s' : Application σ Q O} {a : ApplicationAction Q}

/-- The transactions that have committed are those of the steps that commit. -/
lemma Application.committed_step (hs : s.step E a = some s')
    (hno : s'.expectPanics = s.expectPanics) :
    s'.history.committed = s.history.committed ++ a.commits.map fun _ => s.history.writing := by
  cases a with
  | pool a =>
      simp only [Application.step] at hs
      split_ifs at hs
      obtain ⟨p, -, rfl⟩ := Option.map_eq_some_iff.mp hs
      exact (List.append_nil _).symm
  | startRead i r transaction =>
      obtain ⟨c, -, -, -, hcases⟩ := Application.startRead_cases hs hno
      rcases hcases with ⟨-, hhistory⟩ | ⟨-, hhistory⟩ <;> rw [hhistory] <;>
        exact (List.append_nil _).symm
  | startWrite i r =>
      obtain ⟨-, -, -, hhistory⟩ := Application.startWrite_cases hs hno
      rw [hhistory]
      exact (List.append_nil _).symm
  | query i r q =>
      obtain ⟨c, o, -, -, -, hhistory⟩ := Application.query_cases hs
      rw [hhistory]
      split_ifs <;> exact (List.append_nil _).symm
  | exec i r q =>
      obtain ⟨c, o, -, -, -, hhistory⟩ := Application.exec_cases hs
      rw [hhistory]
      exact (List.append_nil _).symm
  | endRead i r e b commits =>
      obtain ⟨c, -, -, -, -, hhistory⟩ := Application.endRead_cases hs
      rw [hhistory]
      split_ifs <;> exact (List.append_nil _).symm
  | endWrite i r e b commits =>
      obtain ⟨-, -, -, -, hhistory⟩ := Application.endWrite_cases hs
      rw [hhistory, ApplicationAction.commits]
      cases e.close b commits <;> simp [Close.record, History.commit, History.rollback]

variable {x x' : Execution σ Q O} {closures : Closures Q O}

/-- **A closure commits because it chose to.** -/
theorem Execution.Committed.step (h : x.Committed closures) (hfollows : x.Follows closures a)
    (hs : x.step E a = some x')
    (hno : x'.application.expectPanics = x.application.expectPanics) :
    x'.Committed closures := by
  obtain ⟨s', hs', rfl⟩ := Option.map_eq_some_iff.mp hs
  rw [Execution.Committed, Application.committed_step hs' hno]
  refine List.rel_append h ?_
  cases a with
  | pool _ | startRead _ _ _ | startWrite _ _ | query _ _ _ | exec _ _ _ => exact .nil
  | endRead _ _ _ _ _ => exact .nil
  | endWrite i r e b commits =>
      obtain ⟨-, rfl, rfl⟩ := hfollows
      rw [ApplicationAction.commits]
      split_ifs with hclose
      · exact .cons ⟨commits, hclose⟩ .nil
      · exact .nil

end Steps

section Runs

variable {E : Sqlite σ Q O} {L : Language D Q O} {view : σ → Store Conn Conn D}
  {closures : Closures Q O} {d : D} {m : ℕ} {x : Execution σ Q O}

lemma Execution.inv_committed_of_reachable (hE : E.Refines L view) {db : σ}
    (hdb : view db = .fresh d)
    (h : ReachableBy (Execution.step E) (fun x a => a.EndsTransaction ∧ x.Follows closures a)
      (.new m db) x) : x.Inv L view closures d m ∧ x.Committed closures := by
  refine h.invariant (I := fun x => x.Inv L view closures d m ∧ x.Committed closures)
    ⟨Execution.inv_new L closures m hdb, .nil⟩ fun x x' a hi hok hs => ?_
  have hinv := hi.1.step hE hok.1 hok.2 hs
  exact ⟨hinv, hi.2.step hok.2 hs
    (hinv.application.expectPanics.trans hi.1.application.expectPanics.symm)⟩

/-- **A closure that committed has run its computation**, from the version of the database before it
to the one after it, and parts with its transaction by `commit()` on what that returned. -/
theorem Execution.committedClient (hi : x.Inv L view closures d m) (hc : x.Committed closures)
    {n i r : ℕ} (hn : x.committed[n]? = some (i, r)) {c : Client Q O α} {ending : α → Ending}
    (hclosure : closures.write i r = .ofClient c ending) :
    ∃ a, c.run (fun d q => L.exec q d) (L.version d x.application.history.committed n) =
        (a, L.version d x.application.history.committed (n + 1)) ∧ ending a = .commit true := by
  obtain ⟨t, ht, hperforms⟩ := hi.serial.writes n i r hn
  rw [hclosure] at hperforms
  obtain ⟨hversion, hresult⟩ := Client.eq_run_of_performs hperforms
  refine ⟨_, Prod.ext rfl hversion.symm, ?_⟩
  obtain ⟨t', ht', commits, hcommit⟩ := exists_of_forall₂ hc hn
  rw [ht, Option.some.injEq] at ht'
  subst ht'
  rw [hclosure] at hcommit
  simpa only [Closure.ofClient, hresult, Ending.close_rollback_eq_commit] using hcommit

end Runs

end

end SqliteRwPool
