import Mathlib.Algebra.Order.Group.Multiset
import SqliteRwPool.Pool.Ownership

/-!
# Is a permit released only after its connection?

The drop job of a holder drops the connection first and the permit second, "so it's only released
after the connection is".  If every party kept that order, the connections lent out or being
fetched would never outnumber the permits held, and a task with a permit would never wait inside
r2d2 for a connection that others have.

`get_conn_inner` does not keep it.  The permit is a local of the future, the fetch runs on a
blocking thread: a future dropped at its second await point releases the permit while its job goes
on to obtain a connection (`permitReleasedBeforeConnection`).

Nothing else breaks the order.  In every run in which no future is dropped while its fetch job is
unfinished, the accounts are in the order of that comment in `drop` in every state
(`permitReleasedAfterConnection`), and such a drop always costs exactly one permit of the margin
(`margin_of_detach`).
-/

namespace SqliteRwPool

open Ledger Transition

/-- The connections that are lent out or being fetched by a blocking job. -/
def Side.busy (s : Side) : ℕ := s.lent.length + s.calls.countP Call.isFetching

/-- The semaphore permits that are currently held. -/
def Side.heldPermits (s : Side) : ℕ := total Call.permits s.calls

/-- A permit outlives its connection: there is a permit for every connection in use or on its way,
and no job whose future has a permit finds all connections lent to others. -/
structure Side.Ordered (s : Side) : Prop where
  busy : s.busy ≤ s.heldPermits
  free : ∀ i : ℕ, s.calls[i]? = some (.fetching .running) → s.lent.length < s.maxSize

/-- The fetch job is still going to hand out a connection. -/
def FetchJob.isUnfinished : FetchJob → Bool
  | .running => true
  | .obtained _ => true
  | _ => false

/-- The action does not drop a future whose fetch job is unfinished. -/
def Side.AwaitsFetch (s : Side) : SideAction → Prop
  | .call i .cancel => ∀ job, s.calls[i]? = some (.fetching job) → ¬ job.isUnfinished
  | _ => True

/-- The same for an action on either side of a pool. -/
def PoolState.AwaitsFetch (p : PoolState) : PoolAction → Prop
  | .write a => p.writer.AwaitsFetch a
  | .read a => p.readers.AwaitsFetch a
  | _ => True

/-! ## The order within one call -/

/-- A connection in use or on its way in one call. -/
def Call.busy (call : Call) : ℕ := call.conns.card + if call.isFetching then 1 else 0

def Call.isDetached : Call → Bool
  | .detached _ => true
  | _ => false

/-- A call whose job has not been abandoned has a permit for its connection. -/
lemma Call.Valid.busy_le {call : Call} (hv : call.Valid) (hd : ¬ call.isDetached) :
    call.busy ≤ call.permits := by
  cases call with
  | acquiring | granted | closed => decide
  | fetching job =>
      cases job <;> simp [Call.busy, Call.conns, Call.connsOf, Call.isFetching, Call.permits,
        Call.permitsOf]
  | detached obtained => exact absurd rfl hd
  | held h =>
      obtain ⟨c, hc⟩ := Option.isSome_iff_exists.mp (ConnectionHolder.Valid.connection hv)
      simp [Call.busy, Call.conns, Call.connsOf, Call.isFetching, Call.permits, Call.permitsOf, hc]
  | dropping h job =>
      have hcard : (h.connection.toList).length ≤ 1 := by cases h.connection <;> simp
      have hnone := hv.2
      cases job with
      | locking | locked | returned =>
          simp [Call.busy, Call.conns, Call.connsOf, Call.isFetching, Call.permits,
            Call.permitsOf, hcard]
      | released =>
          have hc : h.connection = none := by simpa using hnone
          simp [Call.busy, Call.conns, Call.connsOf, Call.isFetching, hc]

/-- Only dropping a future with an unfinished job detaches a call. -/
lemma Call.Valid.detached_of_step {call call' : Call} {a : CallAction} {e : Effect}
    (hv : call.Valid) (hd : ¬ call.isDetached) (hs : call.step a = some (call', e))
    (hd' : call'.isDetached) : a = .cancel ∧ ∃ job, call = .fetching job ∧ job.isUnfinished := by
  cases call with
  | acquiring | granted | closed => cases a <;> cases hs <;> cases hd'
  | detached obtained => exact absurd rfl hd
  | fetching job =>
      cases job <;> cases a <;> cases hs <;> first | exact ⟨rfl, _, rfl, rfl⟩ | cases hd'
  | held h =>
      obtain ⟨-, ⟨b, h', -, rfl⟩ | ⟨-, rfl⟩⟩ := Call.step_held hs <;> cases hd'
  | dropping h job =>
      rcases Call.step_dropping hv.2 hs with ⟨-, rfl, -⟩ | ⟨c, -, -, rfl, -⟩ | ⟨-, rfl, -⟩ |
        ⟨-, -, rfl, -⟩ <;> cases hd'

/-! ## The order on one side -/

lemma Side.Inv.busy_eq {m k : ℕ} {s : Side} (hi : s.Inv m k) :
    s.busy = total Call.busy s.calls := by
  have hlent : s.lent.length = total (fun call => call.conns.card) s.calls := by
    rw [← Multiset.coe_card, hi.conns]
    exact total_map Multiset.cardHom Call.conns s.calls
  have hfetch : ∀ calls : List Call,
      calls.countP Call.isFetching =
        total (fun call => if call.isFetching then 1 else 0) calls := by
    intro calls
    induction calls with
    | nil => rfl
    | cons call calls ih =>
        rw [List.countP_cons, total_cons, ih]
        omega
  rw [Side.busy, hlent, hfetch, ← total_add]
  rfl

/-- While no call is detached, the order is kept. -/
lemma Side.Inv.ordered {m k : ℕ} {s : Side} (hi : s.Inv m k) (hkm : k ≤ m)
    (hd : ∀ call ∈ s.calls, ¬ call.isDetached) : s.Ordered := by
  have hle : s.busy ≤ s.heldPermits := by
    rw [hi.busy_eq]
    exact total_le_total fun call hcall => (hi.valid call hcall).busy_le (hd call hcall)
  refine ⟨hle, fun i hget => ?_⟩
  have hpos : 0 < s.calls.countP Call.isFetching :=
    List.countP_pos_iff.mpr ⟨_, List.mem_of_getElem? hget, rfl⟩
  have hpermits := hi.permits
  have hsize := hi.size
  simp only [Side.busy, Side.heldPermits] at hle
  omega

/-- A step that awaits fetch jobs detaches no call. -/
lemma Side.Inv.not_detached_step {m k : ℕ} {s s' : Side} {a : SideAction} (hi : s.Inv m k)
    (hd : ∀ call ∈ s.calls, ¬ call.isDetached) (hok : s.AwaitsFetch a)
    (hs : s.step a = some s') : ∀ call ∈ s'.calls, ¬ call.isDetached := by
  intro x hx
  cases a with
  | get =>
      cases hs
      rcases List.mem_append.mp hx with hmem | hmem
      · exact hd x hmem
      · rw [List.mem_singleton] at hmem
        rw [hmem]
        decide
  | call i a =>
      obtain ⟨call, call', e, t, hget, hcall, ht, rfl⟩ := Side.step_call hs
      have hmem : call ∈ s.calls := List.mem_of_getElem? hget
      rw [(Side.apply_spec ht (hi.lent_of_givenBack hget hcall)).1] at hx
      rcases List.mem_or_eq_of_mem_set hx with hmem' | rfl
      · exact hd x hmem'
      · intro hx'
        obtain ⟨rfl, job, rfl, hjob⟩ :=
          (hi.valid call hmem).detached_of_step (hd call hmem) hcall hx'
        exact hok job hget hjob

/-- The order in every state of a run that awaits fetch jobs. -/
lemma Side.ordered_of_reachable {m : ℕ} {s : Side}
    (h : ReachableBy Side.step Side.AwaitsFetch (.new m m) s) : s.Ordered := by
  have hboth : s.Inv m m ∧ ∀ call ∈ s.calls, ¬ call.isDetached := by
    refine h.invariant (I := fun t => t.Inv m m ∧ ∀ call ∈ t.calls, ¬ call.isDetached)
      ⟨Side.inv_new m m, by simp [Side.new]⟩ ?_
    rintro t a t' ⟨hi, hd⟩ hok hs
    exact ⟨hi.step hs, hi.not_detached_step hd hok hs⟩
  exact hboth.1.ordered (le_refl m) hboth.2

/-- Dropping a future with an unfinished job takes a permit off the ones that are held and leaves
the connections in use or on their way as many as they were. -/
theorem Side.Inv.margin_of_detach {m k : ℕ} {s s' : Side} (hi : s.Inv m k) {i : ℕ} {job : FetchJob}
    (hget : s.calls[i]? = some (.fetching job)) (hjob : job.isUnfinished)
    (hs : s.step (.call i .cancel) = some s') :
    s'.busy = s.busy ∧ s'.heldPermits + 1 = s.heldPermits := by
  have hi' := hi.step hs
  obtain ⟨call, call', e, t, hget', hcall, ht, rfl⟩ := Side.step_call hs
  rw [hget, Option.some.injEq] at hget'
  subst hget'
  have hcalls := (Side.apply_spec ht (hi.lent_of_givenBack hget hcall)).1
  rw [hi'.busy_eq, hi.busy_eq]
  simp only [Side.heldPermits, hcalls]
  have hbusy := total_set Call.busy call' hget
  have hpermits := total_set Call.permits call' hget
  have hlocal : call'.busy = Call.busy (.fetching job) ∧ call'.permits = 0 := by
    cases job with
    | running | obtained c =>
        cases hcall
        exact ⟨rfl, rfl⟩
    | returned c | failed | panicked => cases hjob
  have hone : Call.permits (.fetching job) = 1 := rfl
  rw [hlocal.1] at hbusy
  rw [hlocal.2, hone] at hpermits
  omega

/-! ## The order on both sides -/

/-- **A permit is released only after its connection**, as long as no future of `get_read` or
`get_write` is dropped while its fetch job is unfinished. -/
theorem permitReleasedAfterConnection {m : ℕ} {p : PoolState}
    (h : ReachableBy PoolState.step PoolState.AwaitsFetch (.new m) p) :
    p.writer.Ordered ∧ p.readers.Ordered := by
  have hside : ∀ isWrite, ReachableBy Side.step Side.AwaitsFetch
      ((PoolState.new m).side isWrite) (p.side isWrite) := by
    intro isWrite
    refine h.project (fun q => q.side isWrite) fun q a q' hok hs => ?_
    rcases PoolState.step_side isWrite hs with heq | ⟨b, rfl, hb⟩
    · exact Or.inl heq
    · refine Or.inr ⟨b, ?_, hb⟩
      cases isWrite <;> exact hok
  exact ⟨Side.ordered_of_reachable (hside true), Side.ordered_of_reachable (hside false)⟩

/-- Two readers, one of them dropped after its run; the order holds with the drop job halfway. -/
def twoReaders : List PoolAction :=
  [.read .get, .read .get, .read (.call 1 .grant), .read (.call 0 .grant), .read (.call 1 .poll),
    .read (.call 1 (.lend 3)), .read (.call 1 .fetchReturns), .read (.call 0 .poll),
    .read (.call 1 .poll), .read (.call 1 .drop), .read (.call 1 .dropLocks),
    .read (.call 1 .dropReturns)]

theorem permitReleasedAfterConnection_twoReaders :
    ∃ p, run PoolState.step (.new 2) twoReaders = some p ∧ p.writer.Ordered ∧ p.readers.Ordered :=
  ⟨_, rfl, permitReleasedAfterConnection (m := 2)
    (reachableBy_of_run twoReaders .start (by simp [twoReaders, PoolState.AwaitsFetch,
      Side.AwaitsFetch]) rfl)⟩

/-- A future of `get_write` is dropped while its job waits inside r2d2; the job of the next one
then waits for the only connection, which the first job was lent. -/
def detachedWriter : List PoolAction :=
  [.write .get, .write (.call 0 .grant), .write (.call 0 .poll), .write (.call 0 .cancel),
    .write .get, .write (.call 1 .grant), .write (.call 1 .poll), .write (.call 0 (.lend 7))]

theorem permitReleasedBeforeConnection : ∃ p, PoolState.Reached 1 p ∧
    p.writer.heldPermits < p.writer.busy ∧
    p.writer.calls[1]? = some (.fetching .running) ∧ p.writer.lent.length = p.writer.maxSize :=
  ⟨_, reachable_of_run detachedWriter .start rfl, by decide, rfl, rfl⟩

end SqliteRwPool
