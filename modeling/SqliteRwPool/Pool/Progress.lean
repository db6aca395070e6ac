import SqliteRwPool.Pool.Ownership

/-!
# The pool never deadlocks

A task waits for a permit, for a connection, for a mutex or for a drop job, and what it waits for
is with another task.  `Side.drained_of_stuck` says that no set of tasks waits for each other: a
state in which no party of any call can advance is one in which nothing is left to do.  Advancing
is meant without the ways out that a wait has: no timeout elapses, no fetch fails or panics and no
future is dropped.

`PoolState.weight` bounds what is left to do.  Every step uses some of it up except the ones that
make new work, which are a new call, a new run and a new clone (`PoolState.step_weight`), so that
the two together make the pool drain under any scheduling (`poolDrains`).
-/

namespace SqliteRwPool

open Ledger Transition

/-! ## What is left to do -/

/-- The steps a run has left. -/
def RunState.weight : RunState → ℕ
  | .locking => 3
  | .locked => 2
  | .executing => 1
  | .finished => 0
  | .connectionMissing => 0

/-- The steps the runs of a holder have left. -/
def ConnectionHolder.weight (h : ConnectionHolder) : ℕ := total RunState.weight h.runs

/-- The steps a call has left. -/
def Call.weight : Call → ℕ
  | .acquiring => 10
  | .granted => 9
  | .fetching .running => 8
  | .fetching (.obtained _) => 7
  | .fetching (.returned _) => 6
  | .fetching .failed => 1
  | .fetching .panicked => 1
  | .detached none => 2
  | .detached (some _) => 1
  | .held h => 5 + h.weight
  | .dropping _ .locking => 4
  | .dropping _ .locked => 3
  | .dropping _ .returned => 2
  | .dropping _ .released => 1
  | .closed => 0

/-- The steps the calls of a side have left. -/
def Side.weight (s : Side) : ℕ := total Call.weight s.calls

/-- The steps a pool has left. -/
def PoolState.weight (p : PoolState) : ℕ := p.writer.weight + p.readers.weight + p.clones

/-- The action makes new work: it calls `get_read` or `get_write`, or `run` on a holder. -/
def SideAction.StartsWork : SideAction → Prop
  | .get => True
  | .call _ (.holder .run) => True
  | _ => False

/-- The action makes new work, or clones the pool. -/
def PoolAction.StartsWork : PoolAction → Prop
  | .write a => a.StartsWork
  | .read a => a.StartsWork
  | .clone => True
  | .dropClone => False

private lemma weight_set {runs : List RunState} {r : ℕ} {old new : RunState}
    (hget : runs[r]? = some old) (hlt : new.weight < old.weight) :
    total RunState.weight (runs.set r new) < total RunState.weight runs := by
  have := total_set RunState.weight new hget
  omega

lemma ConnectionHolder.step_weight {h h' : ConnectionHolder} {a : HolderAction}
    (hs : h.step a = some h') (ha : a ≠ .run) : h'.weight < h.weight := by
  cases a with
  | run => exact absurd rfl ha
  | lock r =>
      simp only [ConnectionHolder.step] at hs
      split_ifs at hs with hc
      cases hs
      exact weight_set hc.2 (by decide)
  | enter r =>
      simp only [ConnectionHolder.step] at hs
      split_ifs at hs with hc
      split at hs <;> cases hs <;> exact weight_set hc (by decide)
  | leave r =>
      simp only [ConnectionHolder.step] at hs
      split_ifs at hs with hc
      cases hs
      exact weight_set hc (by decide)
  | cancel r =>
      simp only [ConnectionHolder.step] at hs
      split_ifs at hs with hc hc'
      · cases hs
        exact weight_set hc (by decide)
      · cases hs
        exact weight_set hc' (by decide)

lemma Call.step_weight {call call' : Call} {a : CallAction} {e : Effect}
    (hs : call.step a = some (call', e)) (ha : a ≠ .holder .run) :
    call'.weight < call.weight := by
  cases call with
  | acquiring | granted | closed => cases a <;> cases hs <;> decide
  | detached obtained => cases obtained <;> cases a <;> cases hs <;> simp [Call.weight]
  | fetching job =>
      cases job <;> cases a <;> cases hs <;>
        simp [Call.weight, ConnectionHolder.weight, ConnectionHolder.new]
  | held h =>
      cases a <;> try cases hs
      case holder b =>
        obtain ⟨h', hh', heq⟩ := Option.map_eq_some_iff.mp hs
        cases heq
        have hlt := ConnectionHolder.step_weight hh' fun hb => ha (by rw [hb])
        simp only [Call.weight]
        omega
      case drop =>
        simp only [Call.step] at hs
        split_ifs at hs
        cases hs
        simp only [Call.weight]
        omega
  | dropping h job =>
      cases job <;> cases a <;> try cases hs
      case locking.dropLocks =>
        simp only [Call.step] at hs
        split_ifs at hs
        cases hs
        simp [Call.weight]
      case locked.dropReturns =>
        simp only [Call.step] at hs
        split at hs <;> cases hs <;> simp [Call.weight]
      all_goals simp [Call.weight]

lemma Side.apply_calls {s t : Side} {e : Effect} (ht : s.apply e = some t) : t.calls = s.calls := by
  cases e with
  | takePermit | lend c =>
      simp only [Side.apply] at ht
      split_ifs at ht
      cases ht
      rfl
  | silent | giveBack c | dropPermit | giveBackDropPermit c =>
      cases ht
      rfl

lemma Side.step_weight {s s' : Side} {a : SideAction} (hs : s.step a = some s')
    (ha : ¬ a.StartsWork) : s'.weight < s.weight := by
  cases a with
  | get => exact absurd trivial ha
  | call i a =>
      obtain ⟨call, call', e, t, hget, hcall, ht, rfl⟩ := Side.step_call hs
      have hlt : call'.weight < call.weight :=
        Call.step_weight hcall fun h => ha (by rw [h]; trivial)
      have hset := total_set Call.weight call' hget
      simp only [Side.weight, Side.apply_calls ht]
      omega

/-- **Every step that makes no new work uses up some of what is left.** -/
theorem PoolState.step_weight {p p' : PoolState} {a : PoolAction} (hs : p.step a = some p')
    (ha : ¬ a.StartsWork) : p'.weight < p.weight := by
  cases a with
  | write b =>
      simp only [PoolState.step] at hs
      split_ifs at hs
      obtain ⟨s, hs', rfl⟩ := Option.map_eq_some_iff.mp hs
      have := Side.step_weight hs' ha
      simp only [PoolState.weight]
      omega
  | read b =>
      simp only [PoolState.step] at hs
      split_ifs at hs
      obtain ⟨s, hs', rfl⟩ := Option.map_eq_some_iff.mp hs
      have := Side.step_weight hs' ha
      simp only [PoolState.weight]
      omega
  | clone => exact absurd trivial ha
  | dropClone =>
      simp only [PoolState.step] at hs
      split_ifs at hs
      cases hs
      simp only [PoolState.weight]
      omega

/-! ## Nothing is stuck -/

/-- The action advances its call without taking a way out. -/
def CallAction.Advances : CallAction → Prop
  | .timeOut => False
  | .fetchFails => False
  | .fetchPanics => False
  | .cancel => False
  | .holder .run => False
  | .holder (.cancel _) => False
  | _ => True

def SideAction.Advances : SideAction → Prop
  | .get => False
  | .call _ a => a.Advances

def PoolAction.Advances : PoolAction → Prop
  | .write a => a.Advances
  | .read a => a.Advances
  | _ => False

/-- Nothing is left to do on a side, and everything is back. -/
structure Side.Drained (permits : ℕ) (s : Side) : Prop where
  calls : ∀ call ∈ s.calls, call = .closed
  available : s.available = permits
  lent : s.lent = []

/-- No run of a dropped holder owns its mutex. -/
def Call.Unlocked : Call → Prop
  | .dropping h _ => h.guard = none
  | _ => True

lemma Call.Unlocked.step {call call' : Call} {a : CallAction} {e : Effect} (hv : call.Valid)
    (hu : call.Unlocked) (hs : call.step a = some (call', e)) : call'.Unlocked := by
  cases call with
  | acquiring | granted | closed => cases a <;> cases hs <;> trivial
  | detached obtained => cases obtained <;> cases a <;> cases hs <;> trivial
  | fetching job => cases job <;> cases a <;> cases hs <;> trivial
  | held h =>
      obtain ⟨-, ⟨b, h', -, rfl⟩ | ⟨hover, rfl⟩⟩ := Call.step_held hs
      · trivial
      · show h.guard = none
        by_contra hne
        obtain ⟨r, hr⟩ := Option.ne_none_iff_exists'.mp hne
        obtain ⟨st, hst, hlock⟩ := (ConnectionHolder.Valid.guard hv r).mp hr
        have := hover st (List.mem_of_getElem? hst)
        cases st <;> simp_all [RunState.isOver, RunState.hasLock]
  | dropping h job =>
      rcases Call.step_dropping hv.2 hs with ⟨-, rfl, -⟩ | ⟨c, -, -, rfl, -⟩ | ⟨-, rfl, -⟩ |
        ⟨-, -, rfl, -⟩
      · exact hu
      · exact hu
      · exact hu
      · trivial

lemma Side.unlocked_of_reachable {m k : ℕ} {s : Side}
    (h : Reachable Side.step (.new m k) s) : ∀ call ∈ s.calls, call.Unlocked := by
  have hboth : s.Inv m k ∧ ∀ call ∈ s.calls, call.Unlocked := by
    refine h.invariant (I := fun s => s.Inv m k ∧ ∀ call ∈ s.calls, call.Unlocked)
      ⟨Side.inv_new m k, by simp [Side.new]⟩ ?_
    rintro s a s' ⟨hi, hu⟩ - hs
    refine ⟨hi.step hs, fun call hmem => ?_⟩
    cases a with
    | get =>
        cases hs
        rcases List.mem_append.mp hmem with hmem | hmem
        · exact hu call hmem
        · rw [List.mem_singleton.mp hmem]
          trivial
    | call i a =>
        obtain ⟨x, x', e, t, hget, hcall, ht, rfl⟩ := Side.step_call hs
        have hx := List.mem_of_getElem? hget
        simp only [Side.apply_calls ht] at hmem
        rcases List.mem_or_eq_of_mem_set hmem with hmem | rfl
        · exact hu call hmem
        · exact (hu x hx).step (hi.valid x hx) hcall
  exact hboth.2

/-- A live holder with a run that is not over has a run that can advance: the one with the mutex,
or one that waits for it. -/
lemma ConnectionHolder.Valid.exists_step {h : ConnectionHolder} (hv : h.Valid)
    (hrun : ¬ ∀ st ∈ h.runs, st.isOver) :
    ∃ a h', (CallAction.holder a).Advances ∧ h.step a = some h' := by
  obtain ⟨c, hconn⟩ := Option.isSome_iff_exists.mp hv.connection
  cases hguard : h.guard with
  | some r =>
      obtain ⟨st, hst, hlock⟩ := (hv.guard r).mp hguard
      cases st with
      | locked =>
          refine ⟨.enter r, { h with runs := h.runs.set r .executing }, trivial, ?_⟩
          simp only [ConnectionHolder.step, hst, if_true, hconn]
      | executing =>
          refine ⟨.leave r, { h with guard := none, runs := h.runs.set r .finished }, trivial, ?_⟩
          simp only [ConnectionHolder.step, hst, if_true]
      | locking | finished | connectionMissing => cases hlock
  | none =>
      simp only [not_forall] at hrun
      obtain ⟨st, hmem, hover⟩ := hrun
      obtain ⟨r, hr⟩ := List.mem_iff_getElem?.mp hmem
      have hfree : st.hasLock = false := by
        by_contra hlock
        have := (hv.guard r).mpr ⟨st, hr, by simpa using hlock⟩
        rw [hguard] at this
        cases this
      cases st with
      | locking =>
          refine ⟨.lock r, { h with guard := some r, runs := h.runs.set r .locked }, trivial, ?_⟩
          simp only [ConnectionHolder.step, hguard, hr, and_self, if_true]
      | locked | executing => cases hfree
      | finished | connectionMissing => exact absurd rfl hover

lemma Call.isFetching_iff {call : Call} :
    call.isFetching ↔ call = .fetching .running ∨ call = .detached none := by
  cases call with
  | fetching job => cases job <;> simp [Call.isFetching]
  | detached obtained => cases obtained <;> simp [Call.isFetching]
  | acquiring | granted | held h | dropping h job | closed => simp [Call.isFetching]

/-- A call that is not over can advance, unless it waits for a permit or for a connection. -/
lemma Call.exists_step {call : Call} (hv : call.Valid) (hu : call.Unlocked) :
    call = .closed ∨ call = .acquiring ∨ call.isFetching ∨
      ∃ a call' e, a.Advances ∧ call.step a = some (call', e) ∧
        ∀ s : Side, ∃ t, s.apply e = some t := by
  cases call with
  | closed => exact Or.inl rfl
  | acquiring => exact Or.inr (Or.inl rfl)
  | granted => exact Or.inr (Or.inr (Or.inr ⟨.poll, _, _, trivial, rfl, fun s => ⟨_, rfl⟩⟩))
  | fetching job =>
      refine Or.inr (Or.inr ?_)
      cases job with
      | running => exact Or.inl rfl
      | obtained c => exact Or.inr ⟨.fetchReturns, _, _, trivial, rfl, fun s => ⟨_, rfl⟩⟩
      | returned c => exact Or.inr ⟨.poll, _, _, trivial, rfl, fun s => ⟨_, rfl⟩⟩
      | failed => exact Or.inr ⟨.poll, _, _, trivial, rfl, fun s => ⟨_, rfl⟩⟩
      | panicked => exact Or.inr ⟨.poll, _, _, trivial, rfl, fun s => ⟨_, rfl⟩⟩
  | detached obtained =>
      refine Or.inr (Or.inr ?_)
      cases obtained with
      | none => exact Or.inl rfl
      | some c => exact Or.inr ⟨.fetchReturns, _, _, trivial, rfl, fun s => ⟨_, rfl⟩⟩
  | held h =>
      refine Or.inr (Or.inr (Or.inr ?_))
      by_cases hover : ∀ st ∈ h.runs, st.isOver
      · exact ⟨.drop, _, _, trivial, if_pos hover, fun s => ⟨s, rfl⟩⟩
      · obtain ⟨a, h', hadv, hstep⟩ := ConnectionHolder.Valid.exists_step hv hover
        refine ⟨.holder a, .held h', .silent, hadv, ?_, fun s => ⟨s, rfl⟩⟩
        rw [Call.step, hstep, Option.map_some]
  | dropping h job =>
      refine Or.inr (Or.inr (Or.inr ?_))
      cases job with
      | locking => exact ⟨.dropLocks, _, _, trivial, if_pos hu, fun s => ⟨s, rfl⟩⟩
      | locked =>
          obtain ⟨c, hc⟩ := Option.isSome_iff_exists.mp (hv.2.mpr (Or.inr rfl))
          refine ⟨.dropReturns, .dropping { h with connection := none } .returned, .giveBack c,
            trivial, ?_, fun s => ⟨_, rfl⟩⟩
          simp only [Call.step, hc]
      | returned => exact ⟨.dropReleases, _, _, trivial, rfl, fun s => ⟨_, rfl⟩⟩
      | released => exact ⟨.dropEnds, _, _, trivial, rfl, fun s => ⟨s, rfl⟩⟩

lemma Side.step_of_call {s t : Side} {i : ℕ} {call call' : Call} {a : CallAction} {e : Effect}
    (hget : s.calls[i]? = some call) (hcall : call.step a = some (call', e))
    (ht : s.apply e = some t) :
    s.step (.call i a) = some { t with calls := t.calls.set i call' } := by
  simp only [Side.step, hget, hcall, ht, Option.map_some]

/-- **A side in which nothing can advance is drained.** -/
theorem Side.drained_of_stuck {m k : ℕ} (hm : 0 < m) (hk : 0 < k) {s : Side}
    (h : Reachable Side.step (.new m k) s)
    (hstuck : ∀ a : SideAction, a.Advances → s.step a = none) : s.Drained k := by
  have hi := Side.inv_of_reachable h
  have hwaiting : ∀ call ∈ s.calls, call = .closed ∨ call = .acquiring ∨ call.isFetching := by
    intro call hmem
    obtain ⟨i, hget⟩ := List.mem_iff_getElem?.mp hmem
    rcases Call.exists_step (hi.valid call hmem) (Side.unlocked_of_reachable h call hmem) with
      hclosed | hacq | hfetch | ⟨a, call', e, hadv, hcall, happly⟩
    · exact Or.inl hclosed
    · exact Or.inr (Or.inl hacq)
    · exact Or.inr (Or.inr hfetch)
    · obtain ⟨t, ht⟩ := happly s
      have hnone := hstuck (.call i a) hadv
      rw [Side.step_of_call hget hcall ht] at hnone
      cases hnone
  have hlent : s.lent = [] := by
    have hconns := hi.conns
    rw [total_eq_zero fun call hmem => ?_] at hconns
    · exact (Multiset.coe_eq_zero s.lent).mp hconns
    · rcases hwaiting call hmem with rfl | rfl | hfetch
      · rfl
      · rfl
      · rcases Call.isFetching_iff.mp hfetch with rfl | rfl <;> rfl
  have hidle : ∀ call ∈ s.calls, call = .closed ∨ call = .acquiring := by
    intro call hmem
    obtain ⟨i, hget⟩ := List.mem_iff_getElem?.mp hmem
    have hlend : s.apply (.lend 0) = some { s with lent := 0 :: s.lent } := by
      refine if_pos ⟨?_, ?_⟩
      · rw [hlent, hi.size]
        exact hm
      · simp [hlent]
    rcases hwaiting call hmem with hclosed | hacq | hfetch
    · exact Or.inl hclosed
    · exact Or.inr hacq
    · have hnone := hstuck (.call i (.lend 0)) trivial
      rcases Call.isFetching_iff.mp hfetch with rfl | rfl
      · rw [Side.step_of_call hget rfl hlend] at hnone
        cases hnone
      · rw [Side.step_of_call hget rfl hlend] at hnone
        cases hnone
  have havail : s.available = k := by
    have hpermits := hi.permits
    rw [total_eq_zero fun call hmem => ?_] at hpermits
    · exact hpermits
    · rcases hidle call hmem with rfl | rfl <;> rfl
  refine ⟨fun call hmem => ?_, havail, hlent⟩
  rcases hidle call hmem with hclosed | rfl
  · exact hclosed
  · obtain ⟨i, hget⟩ := List.mem_iff_getElem?.mp hmem
    have htake : s.apply .takePermit = some { s with available := s.available - 1 } := by
      refine if_pos ?_
      rw [havail]
      exact hk
    have hnone := hstuck (.call i .grant) trivial
    rw [Side.step_of_call hget rfl htake] at hnone
    cases hnone

/-- A step of one side is a step of the pool, unless it is a new call. -/
lemma PoolState.step_eq_none {p : PoolState} :
    (∀ a : PoolAction, a.Advances → p.step a = none) →
      (∀ a : SideAction, a.Advances → p.writer.step a = none) ∧
        ∀ a : SideAction, a.Advances → p.readers.step a = none := by
  intro h
  constructor
  · intro a ha
    have hnone := h (.write a) ha
    cases a with
    | get => cases ha
    | call i a => simpa [PoolState.step] using hnone
  · intro a ha
    have hnone := h (.read a) ha
    cases a with
    | get => cases ha
    | call i a => simpa [PoolState.step] using hnone

/-- Where every call is over nothing can advance. -/
lemma Side.stuck_of_closed {s : Side} (h : ∀ call ∈ s.calls, call = .closed) (a : SideAction)
    (ha : a.Advances) : s.step a = none := by
  cases a with
  | get => cases ha
  | call i a =>
      cases hget : s.calls[i]? with
      | none => simp only [Side.step, hget]
      | some call =>
          rw [h call (List.mem_of_getElem? hget)] at hget
          simp only [Side.step, hget, Call.step]

/-- **The pool drains.**  From any state that any interleaving has reached, let the tasks go on in
any order, with timeouts, failures, panics and cancellations where they occur, and without new
calls, runs or clones.  There are at most `weight` steps, and when nothing can advance any more
every call is over, every permit is back with its semaphore and every connection with its r2d2
pool. -/
theorem poolDrains {m : ℕ} (hm : 0 < m) {p p' : PoolState} (h : PoolState.Reached m p)
    (as : List PoolAction) (has : ∀ a ∈ as, ¬ a.StartsWork)
    (hrun : run PoolState.step p as = some p') :
    as.length ≤ p.weight ∧
      ((∀ a : PoolAction, a.Advances → p'.step a = none) →
        p'.writer.Drained 1 ∧ p'.readers.Drained m) := by
  have hdecr : ∀ (q : PoolState) (a : PoolAction) q', ¬ a.StartsWork → q.step a = some q' →
      q'.weight < q.weight := fun _ _ _ ha hs => PoolState.step_weight hs ha
  have hlength := length_le_of_run PoolState.weight hdecr as has hrun
  have h' : PoolState.Reached m p' := reachable_of_run as h hrun
  refine ⟨by omega, fun hstuck => ?_⟩
  obtain ⟨hwriter, hreaders⟩ := PoolState.step_eq_none hstuck
  exact ⟨Side.drained_of_stuck Nat.one_pos Nat.one_pos h'.writer hwriter,
    Side.drained_of_stuck hm hm h'.readers hreaders⟩

/-- After `cancelledWriter` the job of the first call returns its connection unasked, and the second
call, which could not be lent a connection before that, is served to its end. -/
def serveSecondWriter : List PoolAction :=
  [.write (.call 0 .fetchReturns), .write (.call 1 .poll), .write (.call 1 (.lend 7)),
    .write (.call 1 .fetchReturns), .write (.call 1 .poll), .write (.call 1 .drop),
    .write (.call 1 .dropLocks), .write (.call 1 .dropReturns), .write (.call 1 .dropReleases),
    .write (.call 1 .dropEnds)]

theorem poolDrains_serveSecondWriter : ∃ p p',
    run PoolState.step (.new 4) cancelledWriter = some p ∧
    run PoolState.step p serveSecondWriter = some p' ∧ serveSecondWriter.length ≤ p.weight ∧
    p'.writer.Drained 1 ∧ p'.readers.Drained 4 := by
  have hp : run PoolState.step (.new 4) cancelledWriter =
      some ⟨⟨1, 0, [7], [.detached (some 7), .granted]⟩, .new 4 4, 1⟩ := by decide
  have hp' : run PoolState.step ⟨⟨1, 0, [7], [.detached (some 7), .granted]⟩, .new 4 4, 1⟩
      serveSecondWriter = some ⟨⟨1, 1, [], [.closed, .closed]⟩, .new 4 4, 1⟩ := by decide
  obtain ⟨hlength, hdrained⟩ := poolDrains (by decide) (reachable_of_run cancelledWriter .start hp)
    serveSecondWriter (by simp [serveSecondWriter, PoolAction.StartsWork, SideAction.StartsWork])
    hp'
  refine ⟨_, _, hp, hp', hlength, hdrained fun a ha => ?_⟩
  cases a with
  | write b =>
      have hstuck := Side.stuck_of_closed (s := ⟨1, 1, [], [.closed, .closed]⟩) (by simp) b ha
      simp only [PoolState.step, hstuck, Option.map_none, ite_self]
  | read b =>
      have hstuck := Side.stuck_of_closed (s := .new 4 4) (by simp [Side.new]) b ha
      simp only [PoolState.step, hstuck, Option.map_none, ite_self]
  | clone | dropClone => cases ha

end SqliteRwPool
