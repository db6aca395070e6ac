import SqliteRwPool.Pool.State

/-!
# Who owns permits and connections, and who uses them

The joint invariant of `Pool/State.lean`, read party by party.

**Nothing leaks.**  Every permit is with the semaphore, a future, a live holder or a drop job, and
every connection r2d2 has lent is with exactly one party of one call
(`poolNeverLeaks`).  When no future, holder or job is left, everything is back.

**Use is exclusive.**  A live connection owns a permit, so there are no more of them than permits;
a closure executes only in a run of a live holder that owns the mutex, and the holder's connection
is lent to nobody else (`poolUseExclusive`).
-/

namespace SqliteRwPool

open Ledger Transition

/-- Party `owner.2` of call `owner.1` owns the connection. -/
def Side.Owns (s : Side) (owner : ℕ × Party) (c : Conn) : Prop :=
  ∃ call, s.calls[owner.1]? = some call ∧ c ∈ call.connsOf owner.2

/-- Run `r` of the holder of call `i` is inside its closure. -/
def Side.Executing (s : Side) (i r : ℕ) : Prop :=
  ∃ call h, s.calls[i]? = some call ∧ call.holder? = some h ∧ h.runs[r]? = some .executing

/-- Run `r` of the holder of call `i` is inside its closure, on connection `c`. -/
def Side.ExecutingOn (s : Side) (i r : ℕ) (c : Conn) : Prop :=
  ∃ call h, s.calls[i]? = some call ∧ call.holder? = some h ∧ h.runs[r]? = some .executing ∧
    h.connection = some c

/-! ## Ownership within one call -/

lemma Call.mem_conns {call : Call} {c : Conn} :
    c ∈ call.conns ↔ ∃ party, c ∈ call.connsOf party := by
  simp only [Call.conns, Multiset.mem_add]
  constructor
  · rintro (((h | h) | h) | h)
    · exact ⟨.fetchJob, h⟩
    · exact ⟨.getFuture, h⟩
    · exact ⟨.holder, h⟩
    · exact ⟨.dropJob, h⟩
  · rintro ⟨party, h⟩
    cases party with
    | getFuture => exact Or.inl (Or.inl (Or.inr h))
    | fetchJob => exact Or.inl (Or.inl (Or.inl h))
    | holder => exact Or.inl (Or.inr h)
    | dropJob => exact Or.inr h

/-- At most one party of a call owns connections. -/
lemma Call.party_unique {call : Call} {c d : Conn} {p q : Party} (hp : c ∈ call.connsOf p)
    (hq : d ∈ call.connsOf q) : p = q := by
  cases call with
  | acquiring | granted | closed => cases p <;> simp [Call.connsOf] at hp
  | fetching job =>
      cases job <;> cases p <;> simp [Call.connsOf] at hp
      all_goals cases q <;> simp [Call.connsOf] at hq
      all_goals rfl
  | detached obtained =>
      cases obtained <;> cases p <;> simp [Call.connsOf] at hp
      cases q <;> simp [Call.connsOf] at hq
      rfl
  | held h | dropping h _ =>
      cases p <;> simp [Call.connsOf] at hp
      cases q <;> simp [Call.connsOf] at hq
      rfl

/-! ## Nothing leaks -/

/-- The accounts of one side with `permits` permits. -/
structure Side.Accounted (permits : ℕ) (s : Side) : Prop where
  balance : s.available + total (Call.permitsOf .getFuture) s.calls +
    total (Call.permitsOf .holder) s.calls + total (Call.permitsOf .dropJob) s.calls = permits
  owned : ∀ c ∈ s.lent, ∃! owner, s.Owns owner c
  lent : ∀ c owner, s.Owns owner c → c ∈ s.lent
  drained : (∀ call ∈ s.calls, call = .closed) → s.available = permits ∧ s.lent = []

lemma Side.Inv.mem_lent {m k : ℕ} {s : Side} (hi : s.Inv m k) {i : ℕ} {call : Call} {c : Conn}
    (hget : s.calls[i]? = some call) (hc : c ∈ call.conns) : c ∈ s.lent := by
  rw [← Multiset.mem_coe, hi.conns]
  exact mem_total.mpr ⟨call, List.mem_of_getElem? hget, hc⟩

/-- Two calls that own the same connection are the same call. -/
lemma Side.Inv.call_unique {m k : ℕ} {s : Side} (hi : s.Inv m k) {i j : ℕ} {x y : Call} {c : Conn}
    (hx : s.calls[i]? = some x) (hy : s.calls[j]? = some y) (hcx : c ∈ x.conns)
    (hcy : c ∈ y.conns) : i = j := by
  have hnodup : (total Call.conns s.calls).Nodup := by
    rw [← hi.conns, Multiset.coe_nodup]
    exact hi.nodup
  exact holder_unique hnodup hx hy hcx hcy

theorem Side.Inv.accounted {m k : ℕ} {s : Side} (hi : s.Inv m k) : s.Accounted k := by
  refine ⟨?_, fun c hc => ?_, ?_, fun hclosed => ?_⟩
  · have hsplit : total Call.permits s.calls = total (Call.permitsOf .getFuture) s.calls +
        total (Call.permitsOf .holder) s.calls + total (Call.permitsOf .dropJob) s.calls := by
      rw [← total_add, ← total_add]
      rfl
    have := hi.permits
    omega
  · have hc' : c ∈ total Call.conns s.calls := by
      rw [← hi.conns]
      exact Multiset.mem_coe.mpr hc
    obtain ⟨call, hmem, hcall⟩ := mem_total.mp hc'
    obtain ⟨i, hget⟩ := List.mem_iff_getElem?.mp hmem
    obtain ⟨party, hparty⟩ := Call.mem_conns.mp hcall
    refine ⟨(i, party), ⟨call, hget, hparty⟩, ?_⟩
    rintro ⟨j, q⟩ ⟨call', hget', hq⟩
    have hij : i = j := hi.call_unique hget hget' hcall (Call.mem_conns.mpr ⟨q, hq⟩)
    subst hij
    rw [hget, Option.some.injEq] at hget'
    subst hget'
    rw [Call.party_unique hparty hq]
  · rintro c ⟨i, party⟩ ⟨call, hget, hc⟩
    exact hi.mem_lent hget (Call.mem_conns.mpr ⟨party, hc⟩)
  · have hpermits := hi.permits
    have hconns := hi.conns
    rw [total_eq_zero fun call hcall => by rw [hclosed call hcall]; rfl] at hpermits
    rw [total_eq_zero fun call hcall => by rw [hclosed call hcall]; rfl] at hconns
    exact ⟨hpermits, (Multiset.coe_eq_zero s.lent).mp hconns⟩

/-- **No permit or connection is ever leaked**, on either side, in any state that an interleaving
of calls, timeouts, failures, panics, cancellations, runs, drops and drop jobs reaches. -/
theorem poolNeverLeaks {m : ℕ} {p : PoolState} (h : PoolState.Reached m p) :
    p.writer.Accounted 1 ∧ p.readers.Accounted m :=
  ⟨(Side.inv_of_reachable h.writer).accounted, (Side.inv_of_reachable h.readers).accounted⟩

/-- A writer is cancelled while its job runs, a second one takes its place, and the job of the
first still owns the connection it was lent. -/
def cancelledWriter : List PoolAction :=
  [.write .get, .write (.call 0 .grant), .write (.call 0 .poll), .write (.call 0 (.lend 7)),
    .write (.call 0 .cancel), .clone, .write .get, .write (.call 1 .grant), .dropClone]

theorem poolNeverLeaks_cancelledWriter : ∃ p, run PoolState.step (.new 4) cancelledWriter = some p ∧
    p.writer.Accounted 1 ∧ p.readers.Accounted 4 :=
  ⟨_, rfl, poolNeverLeaks (reachable_of_run cancelledWriter .start rfl)⟩

/-! ## Use is exclusive -/

/-- A closure executes only in a live holder, which has its connection. -/
lemma Side.Inv.held_of_executing {m k : ℕ} {s : Side} (hi : s.Inv m k) {i r : ℕ}
    (hex : s.Executing i r) : ∃ h c, s.calls[i]? = some (.held h) ∧ h.Valid ∧
      h.runs[r]? = some .executing ∧ h.connection = some c ∧ c ∈ s.lent := by
  obtain ⟨call, h, hget, hholder, hrun⟩ := hex
  have hv := hi.valid call (List.mem_of_getElem? hget)
  cases call with
  | held h' =>
      cases hholder
      obtain ⟨c, hc⟩ := Option.isSome_iff_exists.mp (ConnectionHolder.Valid.connection hv)
      refine ⟨h, c, hget, hv, hrun, hc, hi.mem_lent hget ?_⟩
      simp [Call.conns, Call.connsOf, hc]
  | dropping h' job =>
      cases hholder
      have hfin := hv.1 _ (List.mem_of_getElem? hrun)
      cases hfin
  | acquiring | granted | fetching _ | detached _ | closed => cases hholder

/-- A live connection owns a permit. -/
lemma Side.Inv.alive_le {m k : ℕ} {s : Side} (hi : s.Inv m k) :
    s.calls.countP Call.isAlive ≤ k := by
  have hle : s.calls.countP Call.isAlive ≤ total Call.permits s.calls := by
    refine countP_le_total fun call _ halive => ?_
    cases call <;> first | exact le_refl _ | cases halive
  have := hi.permits
  omega

/-- What exclusive use means on one side with `permits` permits. -/
structure Side.Exclusive (permits : ℕ) (s : Side) : Prop where
  alive : s.calls.countP Call.isAlive ≤ permits
  closures : permits ≤ 1 → ∀ i r j r', s.Executing i r → s.Executing j r' → i = j ∧ r = r'
  connections : ∀ c i r j r', s.ExecutingOn i r c → s.ExecutingOn j r' c → i = j ∧ r = r'
  lent : ∀ i r, s.Executing i r →
    ∃ h c, s.calls[i]? = some (.held h) ∧ h.connection = some c ∧ c ∈ s.lent
  expected : ∀ call ∈ s.calls, ∀ h, call.holder? = some h → .connectionMissing ∉ h.runs

theorem Side.Inv.exclusive {m k : ℕ} {s : Side} (hi : s.Inv m k) : s.Exclusive k := by
  have hsame : ∀ {i r r'}, s.Executing i r → s.Executing i r' → r = r' := by
    intro i r r' hr hr'
    obtain ⟨h, c, hget, hv, hrun, -⟩ := hi.held_of_executing hr
    obtain ⟨h', c', hget', -, hrun', -⟩ := hi.held_of_executing hr'
    rw [hget, Option.some.injEq, Call.held.injEq] at hget'
    subst hget'
    exact hv.executing_unique hrun hrun'
  refine ⟨hi.alive_le, fun hk i r j r' hr hr' => ?_, fun c i r j r' hr hr' => ?_,
    fun i r hr => ?_, fun call hmem h hholder hbad => ?_⟩
  · have hij : i = j := by
      obtain ⟨h, c, hget, -⟩ := hi.held_of_executing hr
      obtain ⟨h', c', hget', -⟩ := hi.held_of_executing hr'
      have hle : total Call.permits s.calls ≤ 1 := by
        have := hi.permits
        omega
      exact index_unique hle hget hget' Nat.one_pos Nat.one_pos
    subst hij
    exact ⟨rfl, hsame hr hr'⟩
  · obtain ⟨x, h, hx, hholder, hrun, hc⟩ := hr
    obtain ⟨y, h', hy, hholder', hrun', hc'⟩ := hr'
    have hconns : ∀ {z : Call} {g : ConnectionHolder}, z.holder? = some g →
        g.connection = some c → c ∈ z.conns := by
      intro z g hz hg
      cases z <;> cases hz <;> simp [Call.conns, Call.connsOf, hg]
    have hij : i = j := hi.call_unique hx hy (hconns hholder hc) (hconns hholder' hc')
    subst hij
    exact ⟨rfl, hsame ⟨x, h, hx, hholder, hrun⟩ ⟨y, h', hy, hholder', hrun'⟩⟩
  · obtain ⟨h, c, hget, -, -, hc, hlent⟩ := hi.held_of_executing hr
    exact ⟨h, c, hget, hc, hlent⟩
  · have hv := hi.valid call hmem
    cases call with
    | held h' =>
        cases hholder
        exact ConnectionHolder.Valid.expected hv _ hbad rfl
    | dropping h' job =>
        cases hholder
        cases hv.1 _ hbad
    | acquiring | granted | fetching _ | detached _ | closed => cases hholder

/-- **Exclusive use of connections.**  In every state any interleaving reaches, at most one
`WriteConnection` and at most `max_read_connections` `ReadConnection`s are alive, at most one write
closure executes, each connection is in use by at most one closure, and only while its holder lives
and r2d2 has it lent; so the `expect` of `ConnectionHolder::run` finds a connection. -/
theorem poolUseExclusive {m : ℕ} {p : PoolState} (h : PoolState.Reached m p) :
    p.writer.Exclusive 1 ∧ p.readers.Exclusive m :=
  ⟨(Side.inv_of_reachable h.writer).exclusive, (Side.inv_of_reachable h.readers).exclusive⟩

/-- One `WriteConnection` with a closure executing and another run waiting for its mutex. -/
def twoRuns : List PoolAction :=
  [.write .get, .write (.call 0 .grant), .write (.call 0 .poll), .write (.call 0 (.lend 7)),
    .write (.call 0 .fetchReturns), .write (.call 0 .poll), .write (.call 0 (.holder .run)),
    .write (.call 0 (.holder .run)), .write (.call 0 (.holder (.lock 1))),
    .write (.call 0 (.holder (.enter 1)))]

theorem poolUseExclusive_twoRuns : ∃ p, run PoolState.step (.new 4) twoRuns = some p ∧
    p.writer.Exclusive 1 ∧ p.readers.Exclusive 4 :=
  ⟨_, rfl, poolUseExclusive (reachable_of_run twoRuns .start rfl)⟩

end SqliteRwPool
