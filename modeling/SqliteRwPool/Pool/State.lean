import Mathlib.Data.Multiset.OrderedMonoid
import SqliteRwPool.Library.Ledger
import SqliteRwPool.Library.Transition
import SqliteRwPool.Pool.Call

/-!
# The state of a `ConnectionPool` and its steps

Each side of a `ConnectionPool` — the writer and the readers — is a tokio semaphore, an r2d2 pool
and the calls of `get_conn_inner` that any tasks have made on any clone of the pool.  `Side.step`
lets one call take one step; interleavings are lists of such steps.  What is assumed of tokio and
r2d2 is in `Side.apply`: a permit is handed out only while one is free, and a connection is lent
only when it is not lent already and fewer than `max_size` are.

`Side.Inv` is the joint invariant of semaphore, r2d2 pool, holders and jobs, and
`Side.Inv.step` says that every step keeps it.
-/

namespace SqliteRwPool

open Ledger Transition

/-- One side of a pool: the r2d2 pool's `max_size` and lent connections, the semaphore's free
permits, and the calls made so far. -/
structure Side where
  maxSize : ℕ
  available : ℕ
  lent : List Conn
  calls : List Call
  deriving DecidableEq, Repr

/-- A side right after start-up. -/
def Side.new (maxSize permits : ℕ) : Side := ⟨maxSize, permits, [], []⟩

/-- What a step of a call does to the semaphore and the r2d2 pool. -/
def Side.apply (s : Side) : Effect → Option Side
  | .silent => some s
  | .takePermit =>
      if 0 < s.available then some { s with available := s.available - 1 } else none
  | .lend c =>
      if s.lent.length < s.maxSize ∧ c ∉ s.lent then some { s with lent := c :: s.lent } else none
  | .giveBack c => some { s with lent := s.lent.erase c }
  | .dropPermit => some { s with available := s.available + 1 }
  | .giveBackDropPermit c =>
      some { s with lent := s.lent.erase c, available := s.available + 1 }

/-- A task calls `get_read` or `get_write`, or call number `i` takes a step. -/
inductive SideAction
  | get
  | call (i : ℕ) (a : CallAction)
  deriving DecidableEq, Repr

def Side.step (s : Side) : SideAction → Option Side
  | .get => some { s with calls := s.calls ++ [.acquiring] }
  | .call i a =>
      match s.calls[i]? with
      | none => none
      | some call =>
          match call.step a with
          | none => none
          | some (call', e) =>
              (s.apply e).map fun s' => { s' with calls := s'.calls.set i call' }

/-- Both sides of one `ConnectionPool`, and the number of its clones that have not been dropped. -/
structure PoolState where
  writer : Side
  readers : Side
  clones : ℕ
  deriving DecidableEq, Repr

/-- `ConnectionPool::new`: one permit and one connection for the writer, `max_read_connections`
of each for the readers. -/
def PoolState.new (maxReadConnections : ℕ) : PoolState :=
  ⟨Side.new 1 1, Side.new maxReadConnections maxReadConnections, 1⟩

inductive PoolAction
  | write (a : SideAction)
  | read (a : SideAction)
  | clone
  | dropClone
  deriving DecidableEq, Repr

/-- One step on either side, or of the clones.  A call needs a clone to be made on; its clone
shares the semaphores and the r2d2 pools with all others. -/
def PoolState.step (p : PoolState) : PoolAction → Option PoolState
  | .write a =>
      if a = .get ∧ p.clones = 0 then none
      else (p.writer.step a).map fun s => { p with writer := s }
  | .read a =>
      if a = .get ∧ p.clones = 0 then none
      else (p.readers.step a).map fun s => { p with readers := s }
  | .clone => if p.clones = 0 then none else some { p with clones := p.clones + 1 }
  | .dropClone => if p.clones = 0 then none else some { p with clones := p.clones - 1 }

/-- The states any interleaving reaches after start-up. -/
def PoolState.Reached (maxReadConnections : ℕ) : PoolState → Prop :=
  Reachable PoolState.step (.new maxReadConnections)

/-! ## The two sides run independently -/

/-- The side of the writer, or that of the readers. -/
def PoolState.side (p : PoolState) : (isWrite : Bool) → Side
  | true => p.writer
  | false => p.readers

/-- A step on one of the sides. -/
def PoolAction.on : (isWrite : Bool) → SideAction → PoolAction
  | true => .write
  | false => .read

/-- A step on one side leaves the other alone. -/
lemma PoolState.step_on {p p' : PoolState} (isWrite : Bool) {a : SideAction}
    (hs : p.step (.on isWrite a) = some p') :
    (p.side isWrite).step a = some (p'.side isWrite) ∧ p'.side (!isWrite) = p.side (!isWrite) := by
  cases isWrite with
  | true | false =>
      simp only [PoolAction.on, PoolState.step] at hs
      split_ifs at hs
      obtain ⟨s, hs', rfl⟩ := Option.map_eq_some_iff.mp hs
      exact ⟨hs', rfl⟩

/-- A step of the pool is a step of a side or leaves it alone. -/
lemma PoolState.step_side {p p' : PoolState} {a : PoolAction} (isWrite : Bool)
    (hs : p.step a = some p') : p'.side isWrite = p.side isWrite ∨
      ∃ b, a = .on isWrite b ∧ (p.side isWrite).step b = some (p'.side isWrite) := by
  cases a with
  | write b =>
      obtain ⟨hstep, hother⟩ := PoolState.step_on true hs
      cases isWrite with
      | true => exact Or.inr ⟨b, rfl, hstep⟩
      | false => exact Or.inl hother
  | read b =>
      obtain ⟨hstep, hother⟩ := PoolState.step_on false hs
      cases isWrite with
      | true => exact Or.inl hother
      | false => exact Or.inr ⟨b, rfl, hstep⟩
  | clone | dropClone =>
      simp only [PoolState.step] at hs
      split_ifs at hs
      cases hs
      cases isWrite <;> exact Or.inl rfl

lemma PoolState.step_writer {p p' : PoolState} {a : PoolAction} (hs : p.step a = some p') :
    p'.writer = p.writer ∨ ∃ b, a = .write b ∧ p.writer.step b = some p'.writer :=
  PoolState.step_side true hs

lemma PoolState.step_readers {p p' : PoolState} {a : PoolAction} (hs : p.step a = some p') :
    p'.readers = p.readers ∨ ∃ b, a = .read b ∧ p.readers.step b = some p'.readers :=
  PoolState.step_side false hs

/-- A side of a reachable pool is reachable on its own. -/
lemma PoolState.Reached.side {m : ℕ} {p : PoolState} (h : PoolState.Reached m p)
    (isWrite : Bool) : Reachable Side.step ((PoolState.new m).side isWrite) (p.side isWrite) :=
  h.project (fun q => q.side isWrite) fun _ _ _ _ hs =>
    (PoolState.step_side isWrite hs).imp id fun ⟨b, _, hb⟩ => ⟨b, trivial, hb⟩

lemma PoolState.Reached.writer {m : ℕ} {p : PoolState} (h : PoolState.Reached m p) :
    Reachable Side.step (.new 1 1) p.writer := h.side true

lemma PoolState.Reached.readers {m : ℕ} {p : PoolState} (h : PoolState.Reached m p) :
    Reachable Side.step (.new m m) p.readers := h.side false

/-! ## The joint invariant of one side -/

/-- Permits and connections are where the calls say they are. -/
structure Side.Inv (maxSize permits : ℕ) (s : Side) : Prop where
  valid : ∀ call ∈ s.calls, call.Valid
  size : s.maxSize = maxSize
  permits : s.available + total Call.permits s.calls = permits
  conns : (s.lent : Multiset Conn) = total Call.conns s.calls
  nodup : s.lent.Nodup

lemma Side.inv_new (maxSize permits : ℕ) : (Side.new maxSize permits).Inv maxSize permits :=
  ⟨by simp [Side.new], rfl, by simp [Side.new], by simp [Side.new], by simp [Side.new]⟩

/-- What applying an effect changes, when it returns only what is lent. -/
lemma Side.apply_spec {s s' : Side} {e : Effect} (ha : s.apply e = some s')
    (hback : ∀ c ∈ e.givenBack, c ∈ s.lent) :
    s'.calls = s.calls ∧ s'.maxSize = s.maxSize ∧
      s'.available + e.taken = s.available + e.dropped ∧
      (s'.lent : Multiset Conn) + e.givenBack = s.lent + e.lent ∧
      (s.lent.Nodup → s'.lent.Nodup) := by
  have herase : ∀ c ∈ s.lent,
      ((s.lent.erase c : List Conn) : Multiset Conn) + {c} = s.lent + 0 := by
    intro c hc
    rw [← Multiset.coe_erase, add_comm, Multiset.singleton_add, add_zero]
    exact Multiset.cons_erase (Multiset.mem_coe.mpr hc)
  cases e with
  | silent =>
      cases ha
      exact ⟨rfl, rfl, rfl, rfl, id⟩
  | takePermit =>
      simp only [Side.apply] at ha
      split_ifs at ha with hpos
      cases ha
      refine ⟨rfl, rfl, ?_, rfl, id⟩
      simp only [Effect.taken, Effect.dropped]
      omega
  | lend c =>
      simp only [Side.apply] at ha
      split_ifs at ha with hfree
      cases ha
      refine ⟨rfl, rfl, rfl, ?_, fun hn => List.nodup_cons.mpr ⟨hfree.2, hn⟩⟩
      simp only [Effect.givenBack, Effect.lent, add_zero]
      rw [← Multiset.cons_coe, add_comm, Multiset.singleton_add]
  | giveBack c =>
      cases ha
      exact ⟨rfl, rfl, rfl, herase c (hback c (Multiset.mem_singleton_self c)),
        fun hn => hn.erase c⟩
  | dropPermit =>
      cases ha
      exact ⟨rfl, rfl, rfl, rfl, id⟩
  | giveBackDropPermit c =>
      cases ha
      exact ⟨rfl, rfl, rfl, herase c (hback c (Multiset.mem_singleton_self c)),
        fun hn => hn.erase c⟩

/-- A step of call `i`, taken apart. -/
lemma Side.step_call {s s' : Side} {i : ℕ} {a : CallAction} (hs : s.step (.call i a) = some s') :
    ∃ call call' e t, s.calls[i]? = some call ∧ call.step a = some (call', e) ∧
      s.apply e = some t ∧ s' = { t with calls := t.calls.set i call' } := by
  simp only [Side.step] at hs
  split at hs
  · cases hs
  · rename_i call hget
    split at hs
    · cases hs
    · rename_i call' e hcall
      obtain ⟨t, ht, rfl⟩ := Option.map_eq_some_iff.mp hs
      exact ⟨call, call', e, t, hget, hcall, ht, rfl⟩

/-- A step returns only connections the call has, and a call has only lent ones. -/
lemma Side.Inv.lent_of_givenBack {m k : ℕ} {s : Side} (hi : s.Inv m k) {i : ℕ}
    {call call' : Call} {a : CallAction} {e : Effect} (hget : s.calls[i]? = some call)
    (hs : call.step a = some (call', e)) : ∀ c ∈ e.givenBack, c ∈ s.lent := by
  intro c hc
  have hmem : call ∈ s.calls := List.mem_of_getElem? hget
  have hle : e.givenBack ≤ total Call.conns s.calls := by
    refine le_trans ?_ (hold_le_total hmem)
    have hmove := (hi.valid call hmem).step_conns hs
    cases e with
    | giveBack c | giveBackDropPermit c =>
        simp only [Effect.lent, add_zero] at hmove
        rw [← hmove]
        exact Multiset.le_add_left _ _
    | silent | takePermit | lend _ | dropPermit => exact Multiset.zero_le _
  rw [← hi.conns] at hle
  exact Multiset.mem_coe.mp (Multiset.mem_of_le hle hc)

/-- **Every step keeps the joint invariant.** -/
theorem Side.Inv.step {m k : ℕ} {s s' : Side} {a : SideAction} (hi : s.Inv m k)
    (hs : s.step a = some s') : s'.Inv m k := by
  cases a with
  | get =>
      cases hs
      refine ⟨fun call hcall => ?_, hi.size, ?_, ?_, hi.nodup⟩
      · rcases List.mem_append.mp hcall with hmem | hmem
        · exact hi.valid call hmem
        · rw [List.mem_singleton] at hmem
          rw [hmem]
          trivial
      · rw [total_append]
        exact hi.permits
      · rw [total_append, ← hi.conns, total_cons, total_nil]
        simp [Call.conns, Call.connsOf]
  | call i a =>
      obtain ⟨call, call', e, t, hget, hcall, ht, rfl⟩ := Side.step_call hs
      have hv : call.Valid := hi.valid call (List.mem_of_getElem? hget)
      have hpermits := hv.step_permits hcall
      have hconns := hv.step_conns hcall
      obtain ⟨hcalls, hsize, havail, hlent, hnodup⟩ :=
        Side.apply_spec ht (hi.lent_of_givenBack hget hcall)
      refine ⟨fun x hx => ?_, hsize.trans hi.size, ?_, ?_, hnodup hi.nodup⟩
      · rw [hcalls] at hx
        rcases List.mem_or_eq_of_mem_set hx with hmem | rfl
        · exact hi.valid x hmem
        · exact hv.step hcall
      · have hlocal : t.available + call'.permits = s.available + call.permits := by omega
        show t.available + total Call.permits (t.calls.set i call') = k
        rw [hcalls, conserved_set hget hlocal]
        exact hi.permits
      · show (t.lent : Multiset Conn) = total Call.conns (t.calls.set i call')
        rw [hcalls]
        refine recorded_set hget hi.conns ?_
        refine add_right_cancel (b := e.givenBack) ?_
        calc (t.lent : Multiset Conn) + call.conns + e.givenBack
            = (t.lent + e.givenBack) + call.conns := by abel
          _ = (s.lent + e.lent) + call.conns := by rw [hlent]
          _ = s.lent + (call.conns + e.lent) := by abel
          _ = s.lent + (call'.conns + e.givenBack) := by rw [hconns]
          _ = s.lent + call'.conns + e.givenBack := by abel

/-- A step of the pool keeps the joint invariant of a side. -/
lemma PoolState.inv_side {m k : ℕ} {p p' : PoolState} {a : PoolAction} (isWrite : Bool)
    (hi : (p.side isWrite).Inv m k) (hs : p.step a = some p') : (p'.side isWrite).Inv m k := by
  rcases PoolState.step_side isWrite hs with heq | ⟨b, -, hb⟩
  · rw [heq]
    exact hi
  · exact hi.step hb

/-- The joint invariant holds in every state a side reaches. -/
theorem Side.inv_of_reachable {m k : ℕ} {s : Side} (h : Reachable Side.step (.new m k) s) :
    s.Inv m k :=
  h.invariant (Side.inv_new m k) fun _ _ _ hi _ hs => hi.step hs

end SqliteRwPool
