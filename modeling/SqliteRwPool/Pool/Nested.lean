import Mathlib.Data.Fintype.EquivFin
import SqliteRwPool.Library.Allocation
import SqliteRwPool.Pool.Progress

/-!
# Tasks that hold several connections

A request whose handler takes two `ReadConnection`s, or asks the `Connector` for one while it has
another, holds a permit while it waits for the next.  `Tasks` is one side of a pool with the tasks
that use it: task `t` asks for `needs t` connections, one after the other, keeps each until it has
all of them and then drops them; a task one of whose calls came to nothing drops what it has.

Such tasks can wait for each other until their timeouts elapse.  They can exactly if the connections
that a task may hold while it waits for another, `needs t - 1`, are together as many as there are
(`tasksDeadlock_iff`): a state in which nothing can advance then accounts for every permit, and
otherwise `Tasks.Inv.drained_of_stuck` finds all tasks served.
-/

namespace SqliteRwPool

open Allocation Ledger Transition

/-! ## Tasks -/

/-- One side of a pool, with the task that made each of its calls. -/
structure Tasks where
  side : Side
  madeBy : List ℕ

/-- No task has made a call yet. -/
def Tasks.new (m : ℕ) : Tasks := ⟨Side.new m m, []⟩

/-- The calls of a task. -/
def Tasks.callsOf (s : Tasks) (t : ℕ) : List Call :=
  ((s.madeBy.zip s.side.calls).filter fun x => x.1 == t).map Prod.snd

/-- The future of the call has not come to an end. -/
def Call.isArriving : Call → Bool
  | .acquiring => true
  | .granted => true
  | .fetching _ => true
  | _ => false

/-- A task calls `get_read` or `get_write`, or call number `i` takes a step. -/
inductive TaskAction
  | request (t : ℕ)
  | call (i : ℕ) (a : CallAction)

/-- The task of call `i` drops its connections: no future of it is left, and it has got all that it
needs, or one of its calls came to nothing or has been dropped already. -/
def Tasks.MayDrop (needs : ℕ → ℕ) (s : Tasks) (i : ℕ) : Prop :=
  ∀ t, s.madeBy[i]? = some t → (∀ call ∈ s.callsOf t, ¬ call.isArriving) ∧
    (s.madeBy.count t = needs t ∨ ∃ call ∈ s.callsOf t, ¬ call.isAlive)

instance (needs : ℕ → ℕ) (s : Tasks) (i : ℕ) : Decidable (s.MayDrop needs i) :=
  inferInstanceAs (Decidable (∀ t ∈ s.madeBy[i]?, (∀ call ∈ s.callsOf t, ¬ call.isArriving) ∧
    (s.madeBy.count t = needs t ∨ ∃ call ∈ s.callsOf t, ¬ call.isAlive)))

/-- A task asks for a connection when it has all that it asked for before. -/
def Tasks.step (n : ℕ) (needs : ℕ → ℕ) (s : Tasks) : TaskAction → Option Tasks
  | .request t =>
      if t < n ∧ s.madeBy.count t < needs t ∧ ∀ call ∈ s.callsOf t, call.isAlive then
        (s.side.step .get).map fun side => ⟨side, s.madeBy ++ [t]⟩
      else none
  | .call i a =>
      if a = .drop ∧ ¬ s.MayDrop needs i then none
      else (s.side.step (.call i a)).map fun side => { s with side := side }

/-- The action advances its task without taking a way out. -/
def TaskAction.Advances : TaskAction → Prop
  | .request _ => True
  | .call _ a => a.Advances

/-- Nothing can advance, and something is left to do: a call is not over, or a task has not
begun. -/
structure Tasks.Deadlocked (n : ℕ) (needs : ℕ → ℕ) (s : Tasks) : Prop where
  stuck : ∀ a : TaskAction, a.Advances → s.step n needs a = none
  waiting : (∃ call ∈ s.side.calls, call ≠ .closed) ∨ ∃ t < n, 0 < needs t ∧ t ∉ s.madeBy

/-- The states the tasks reach. -/
def Tasks.Reached (m n : ℕ) (needs : ℕ → ℕ) : Tasks → Prop :=
  Reachable (Tasks.step n needs) (.new m)

/-! ## The calls of a task -/

lemma mem_zip {α β : Type*} {as : List α} {bs : List β} {x : α × β} :
    x ∈ as.zip bs ↔ ∃ i : ℕ, as[i]? = some x.1 ∧ bs[i]? = some x.2 := by
  rw [List.mem_iff_getElem?]
  exact exists_congr fun i => List.getElem?_zip_eq_some

lemma Tasks.mem_callsOf {s : Tasks} {t : ℕ} {call : Call} : call ∈ s.callsOf t ↔
    ∃ i : ℕ, s.madeBy[i]? = some t ∧ s.side.calls[i]? = some call := by
  simp only [callsOf, List.mem_map, List.mem_filter, mem_zip, beq_iff_eq]
  constructor
  · rintro ⟨⟨t', call'⟩, ⟨h, rfl⟩, rfl⟩
    exact h
  · intro h
    exact ⟨(t, call), ⟨h, rfl⟩, rfl⟩

/-- A task has made as many calls as `madeBy` says. -/
lemma Tasks.length_callsOf {s : Tasks} (h : s.madeBy.length = s.side.calls.length) (t : ℕ) :
    (s.callsOf t).length = s.madeBy.count t := by
  have hzip : (s.madeBy.zip s.side.calls).map Prod.fst = s.madeBy := List.map_fst_zip h.le
  calc (s.callsOf t).length
      = (s.madeBy.zip s.side.calls).countP ((· == t) ∘ Prod.fst) := by
        rw [callsOf, List.length_map, List.countP_eq_length_filter]
        rfl
    _ = s.madeBy.count t := by rw [← List.countP_map, hzip, List.count]

/-- The tasks of the live connections, one entry for each connection. -/
def Tasks.holders (s : Tasks) : List ℕ :=
  ((s.madeBy.zip s.side.calls).filter fun x => x.2.isAlive).map Prod.fst

lemma Tasks.length_holders {s : Tasks} (h : s.madeBy.length = s.side.calls.length) :
    s.holders.length = s.side.calls.countP Call.isAlive := by
  have hzip : (s.madeBy.zip s.side.calls).map Prod.snd = s.side.calls := List.map_snd_zip h.ge
  calc s.holders.length
      = (s.madeBy.zip s.side.calls).countP (Call.isAlive ∘ Prod.snd) := by
        rw [holders, List.length_map, List.countP_eq_length_filter]
        rfl
    _ = s.side.calls.countP Call.isAlive := by rw [← List.countP_map, hzip]

lemma Tasks.count_holders (s : Tasks) (t : ℕ) :
    s.holders.count t = (s.callsOf t).countP Call.isAlive := by
  rw [holders, callsOf, List.count, List.countP_map, List.countP_map, List.countP_filter,
    List.countP_filter]
  exact List.countP_congr fun x _ => by simp [and_comm]

/-! ## Every step keeps to what the tasks need -/

/-- The side is one that calls reach, every call has a task, and no task made more than it needs. -/
structure Tasks.Inv (m n : ℕ) (needs : ℕ → ℕ) (s : Tasks) : Prop where
  side : Reachable Side.step (.new m m) s.side
  length : s.madeBy.length = s.side.calls.length
  tasks : ∀ t ∈ s.madeBy, t < n
  bounded : ∀ t, s.madeBy.count t ≤ needs t

lemma Tasks.inv_new (m n : ℕ) (needs : ℕ → ℕ) : (Tasks.new m).Inv m n needs :=
  ⟨.start, rfl, by simp [Tasks.new], by simp [Tasks.new]⟩

theorem Tasks.Inv.step {m n : ℕ} {needs : ℕ → ℕ} {s s' : Tasks} {a : TaskAction}
    (hi : s.Inv m n needs) (hs : s.step n needs a = some s') : s'.Inv m n needs := by
  cases a with
  | request t =>
      simp only [Tasks.step] at hs
      split_ifs at hs with hok
      obtain ⟨htask, hlt, -⟩ := hok
      cases hs
      have hget : s.side.step .get = some _ := rfl
      refine ⟨hi.side.next trivial hget, ?_, fun t' ht' => ?_, fun t' => ?_⟩
      · simp only [List.length_append, hi.length, List.length_singleton]
      · rcases List.mem_append.mp ht' with hmem | hmem
        · exact hi.tasks t' hmem
        · rw [List.mem_singleton.mp hmem]
          exact htask
      · rw [List.count_append, List.count_singleton]
        by_cases heq : t = t'
        · subst heq
          simp only [beq_self_eq_true, if_true]
          omega
        · rw [if_neg (by simpa using heq)]
          exact hi.bounded t'
  | call i a =>
      simp only [Tasks.step] at hs
      split_ifs at hs
      obtain ⟨side, hside, rfl⟩ := Option.map_eq_some_iff.mp hs
      refine ⟨hi.side.next trivial hside, ?_, hi.tasks, hi.bounded⟩
      obtain ⟨call, call', e, t, hget, hcall, ht, rfl⟩ := Side.step_call hside
      simp only [List.length_set, Side.apply_calls ht, hi.length]

lemma Tasks.Reached.inv {m n : ℕ} {needs : ℕ → ℕ} {s : Tasks} (h : Tasks.Reached m n needs s) :
    s.Inv m n needs :=
  ReachableBy.invariant h (Tasks.inv_new m n needs) fun _ _ _ hi _ hs => hi.step hs

/-! ## Where nothing can advance -/

/-- The call is over, waits for a permit or for a connection, or is held and not used. -/
def Call.IsIdle : Call → Prop
  | .acquiring => True
  | .fetching .running => True
  | .detached none => True
  | .held h => ∀ st ∈ h.runs, st.isOver
  | .closed => True
  | _ => False

/-- A call that is not idle can advance, and by something else than a drop of its holder. -/
lemma Call.idle_or_step {call : Call} (hv : call.Valid) (hu : call.Unlocked) :
    call.IsIdle ∨ ∃ a call' e, a.Advances ∧ a ≠ .drop ∧ call.step a = some (call', e) ∧
      ∀ s : Side, ∃ t, s.apply e = some t := by
  rcases Call.exists_step hv hu with rfl | rfl | hfetch | ⟨a, call', e, hadv, hcall, happly⟩
  · exact Or.inl trivial
  · exact Or.inl trivial
  · rcases Call.isFetching_iff.mp hfetch with rfl | rfl <;> exact Or.inl trivial
  · by_cases ha : a = .drop
    · subst ha
      cases call with
      | held h =>
          simp only [Call.step] at hcall
          split_ifs at hcall with hover
          exact Or.inl hover
      | fetching job => cases job <;> cases hcall
      | detached obtained => cases obtained <;> cases hcall
      | dropping h job => cases job <;> cases hcall
      | acquiring | granted | closed => cases hcall
    · exact Or.inr ⟨a, call', e, hadv, ha, hcall, happly⟩

/-- An idle call has a connection only as long as its holder lives. -/
lemma Call.IsIdle.card_conns {call : Call} (hidle : call.IsIdle) (hv : call.Valid) :
    call.conns.card = if call.isAlive then 1 else 0 := by
  cases call with
  | held h =>
      obtain ⟨c, hc⟩ := Option.isSome_iff_exists.mp (ConnectionHolder.Valid.connection hv)
      simp [Call.conns, Call.connsOf, Call.isAlive, hc]
  | fetching job => cases job <;> first | rfl | cases hidle
  | detached obtained => cases obtained <;> first | rfl | cases hidle
  | acquiring | closed => rfl
  | granted | dropping h job => cases hidle

/-- An idle call has a permit as long as its holder lives, or while it fetches a connection. -/
lemma Call.IsIdle.permits {call : Call} (hidle : call.IsIdle) :
    call.permits = if call.isAlive ∨ call = .fetching .running then 1 else 0 := by
  cases call with
  | fetching job => cases job <;> first | rfl | cases hidle
  | detached obtained => rfl
  | acquiring | held h | closed => rfl
  | granted | dropping h job => cases hidle

lemma Side.Inv.length_lent {m k : ℕ} {s : Side} (hi : s.Inv m k) :
    s.lent.length = total (fun call => call.conns.card) s.calls := by
  rw [← Multiset.coe_card, hi.conns]
  exact total_map Multiset.cardHom Call.conns s.calls

/-- r2d2 lends some connection as long as it has not lent all. -/
lemma Side.exists_lend {s : Side} (h : s.lent.length < s.maxSize) :
    ∃ c t, s.apply (.lend c) = some t := by
  obtain ⟨c, hc⟩ := Infinite.exists_notMem_finset s.lent.toFinset
  exact ⟨c, _, if_pos ⟨h, by simpa using hc⟩⟩

section Stuck

variable {m n : ℕ} {needs : ℕ → ℕ} {s : Tasks}

lemma Tasks.step_of_call {i : ℕ} {call call' : Call} {a : CallAction} {e : Effect} {t : Side}
    (hget : s.side.calls[i]? = some call) (hcall : call.step a = some (call', e))
    (ht : s.side.apply e = some t) (ha : a = .drop → s.MayDrop needs i) :
    s.step n needs (.call i a) = some ⟨{ t with calls := t.calls.set i call' }, s.madeBy⟩ := by
  simp only [Tasks.step, Side.step_of_call hget hcall ht, Option.map_some]
  exact if_neg fun hdrop => hdrop.2 (ha hdrop.1)

/-- What can advance is not stuck. -/
lemma Tasks.not_stuck_of_call (hstuck : ∀ a : TaskAction, a.Advances → s.step n needs a = none)
    {i : ℕ} {call call' : Call} (a : CallAction) {e : Effect} {t : Side}
    (hget : s.side.calls[i]? = some call) (hcall : call.step a = some (call', e))
    (ht : s.side.apply e = some t) (hadv : a.Advances) (ha : a = .drop → s.MayDrop needs i) :
    False := by
  have hnone := hstuck (.call i a) hadv
  rw [Tasks.step_of_call hget hcall ht ha] at hnone
  cases hnone

lemma Tasks.Inv.idle_of_stuck (hi : s.Inv m n needs)
    (hstuck : ∀ a : TaskAction, a.Advances → s.step n needs a = none) :
    ∀ call ∈ s.side.calls, call.IsIdle := by
  intro call hmem
  obtain ⟨i, hget⟩ := List.mem_iff_getElem?.mp hmem
  rcases Call.idle_or_step ((Side.inv_of_reachable hi.side).valid call hmem)
    (Side.unlocked_of_reachable hi.side call hmem) with
    hidle | ⟨a, call', e, hadv, hdrop, hcall, happly⟩
  · exact hidle
  · obtain ⟨t, ht⟩ := happly s.side
    exact (Tasks.not_stuck_of_call hstuck a hget hcall ht hadv fun h => absurd h hdrop).elim

/-- A fetch job with a permit gets its connection: the others that r2d2 has lent have permits,
too. -/
lemma Tasks.Inv.not_fetching_of_stuck (hi : s.Inv m n needs)
    (hstuck : ∀ a : TaskAction, a.Advances → s.step n needs a = none) :
    .fetching .running ∉ s.side.calls := by
  intro hmem
  have hside := Side.inv_of_reachable hi.side
  have hidle := hi.idle_of_stuck hstuck
  have hlt : s.side.lent.length < total Call.permits s.side.calls := by
    rw [hside.length_lent]
    refine List.sum_lt_sum _ _ (fun call hcall => ?_) ⟨_, hmem, by decide⟩
    rw [(hidle call hcall).card_conns (hside.valid call hcall), (hidle call hcall).permits]
    by_cases halive : call.isAlive <;> simp [halive]
  have hpermits := hside.permits
  have hfree : s.side.lent.length < s.side.maxSize := by
    rw [hside.size]
    omega
  obtain ⟨i, hget⟩ := List.mem_iff_getElem?.mp hmem
  obtain ⟨c, t, ht⟩ := Side.exists_lend hfree
  exact Tasks.not_stuck_of_call hstuck (.lend c) hget rfl ht trivial nofun

/-- A task that keeps a connection waits for one of its calls. -/
lemma Tasks.Inv.arriving_of_stuck (hi : s.Inv m n needs)
    (hstuck : ∀ a : TaskAction, a.Advances → s.step n needs a = none) {i t : ℕ} {call : Call}
    (ht : s.madeBy[i]? = some t) (hget : s.side.calls[i]? = some call) (halive : call.isAlive) :
    ∃ call' ∈ s.callsOf t, call'.isArriving := by
  by_contra hnone
  simp only [not_exists, not_and] at hnone
  cases call with
  | held h =>
      have hover : ∀ st ∈ h.runs, st.isOver :=
        hi.idle_of_stuck hstuck (.held h) (List.mem_of_getElem? hget)
      refine Tasks.not_stuck_of_call hstuck .drop hget (if_pos hover) rfl trivial fun _ t' ht' => ?_
      rw [ht, Option.some.injEq] at ht'
      subst ht'
      refine ⟨hnone, ?_⟩
      by_contra hmore
      simp only [not_or, not_exists, not_and, not_not] at hmore
      have hlt : s.madeBy.count t < needs t := lt_of_le_of_ne (hi.bounded t) hmore.1
      have hrequest := hstuck (.request t) trivial
      simp only [Tasks.step, Side.step, Option.map_some] at hrequest
      rw [if_pos ⟨hi.tasks t (List.mem_of_getElem? ht), hlt, hmore.2⟩] at hrequest
      cases hrequest
  | acquiring | granted | fetching job | detached obtained | dropping h job | closed =>
      cases halive

/-- While the tasks together may not hold all connections and wait, none of them waits. -/
lemma Tasks.Inv.not_acquiring_of_stuck (hsum : ∑ t ∈ Finset.range n, (needs t - 1) < m)
    (hi : s.Inv m n needs) (hstuck : ∀ a : TaskAction, a.Advances → s.step n needs a = none) :
    .acquiring ∉ s.side.calls := by
  intro hmem
  have hside := Side.inv_of_reachable hi.side
  have hnone : s.side.available = 0 := by
    by_contra hpos
    obtain ⟨i, hget⟩ := List.mem_iff_getElem?.mp hmem
    exact Tasks.not_stuck_of_call hstuck .grant hget rfl (if_pos (Nat.pos_of_ne_zero hpos)) trivial
      nofun
  have hheld : m ≤ s.holders.length := by
    rw [Tasks.length_holders hi.length, ← hside.permits, hnone, Nat.zero_add]
    refine total_le_countP fun call hcall => ?_
    rw [(hi.idle_of_stuck hstuck call hcall).permits]
    have hne : call ≠ .fetching .running := fun heq =>
      hi.not_fetching_of_stuck hstuck (heq ▸ hcall)
    simp only [hne, or_false, Nat.le_refl]
  have hwithin : Within n (fun t => needs t - 1) s.holders := by
    refine ⟨fun t ht => ?_, fun t => ?_⟩
    · obtain ⟨⟨t', call⟩, hmem', rfl⟩ := List.mem_map.mp ht
      exact hi.tasks t' (List.of_mem_zip (List.mem_of_mem_filter hmem')).1
    · have hbounded := hi.bounded t
      rw [Tasks.count_holders]
      by_cases hnone : (s.callsOf t).countP Call.isAlive = 0
      · rw [hnone]
        exact Nat.zero_le _
      · obtain ⟨call, hcall, halive⟩ := List.countP_pos_iff.mp (Nat.pos_of_ne_zero hnone)
        obtain ⟨i, ht, hget⟩ := Tasks.mem_callsOf.mp hcall
        obtain ⟨call', hcall', harriving⟩ := hi.arriving_of_stuck hstuck ht hget halive
        have hlt : (s.callsOf t).countP Call.isAlive < (s.callsOf t).length := by
          refine List.countP_lt_length_iff.mpr ⟨call', hcall', ?_⟩
          cases call' <;> first | rfl | cases harriving
        rw [Tasks.length_callsOf hi.length] at hlt
        omega
  have := hwithin.length_le_sum
  omega

/-- **Tasks that together may not hold all connections and wait are all served.** -/
theorem Tasks.Inv.drained_of_stuck (hm : 0 < m)
    (hsum : ∑ t ∈ Finset.range n, (needs t - 1) < m) (hi : s.Inv m n needs)
    (hstuck : ∀ a : TaskAction, a.Advances → s.step n needs a = none) :
    (∀ call ∈ s.side.calls, call = .closed) ∧ ∀ t < n, 0 < needs t → t ∈ s.madeBy := by
  have hside := Side.inv_of_reachable hi.side
  have hacquiring := hi.not_acquiring_of_stuck hsum hstuck
  have hidle := hi.idle_of_stuck hstuck
  have hdead : ∀ call ∈ s.side.calls, ¬ call.isAlive := by
    intro call hmem halive
    obtain ⟨i, hget⟩ := List.mem_iff_getElem?.mp hmem
    have hlt : i < s.madeBy.length := by
      rw [hi.length]
      exact (List.getElem?_eq_some_iff.mp hget).1
    obtain ⟨call', hcall', harriving⟩ :=
      hi.arriving_of_stuck hstuck (List.getElem?_eq_getElem hlt) hget halive
    obtain ⟨j, -, hget'⟩ := Tasks.mem_callsOf.mp hcall'
    have hmem' := List.mem_of_getElem? hget'
    have hidle' := hidle call' hmem'
    cases call' with
    | acquiring => exact hacquiring hmem'
    | fetching job =>
        cases job with
        | running => exact hi.not_fetching_of_stuck hstuck hmem'
        | obtained c | returned c | failed | panicked => cases hidle'
    | granted => cases hidle'
    | detached obtained | held h | dropping h job | closed => cases harriving
  have hlent : s.side.lent.length = 0 := by
    rw [hside.length_lent]
    refine total_eq_zero fun call hcall => ?_
    rw [(hidle call hcall).card_conns (hside.valid call hcall), if_neg (hdead call hcall)]
  have hclosed : ∀ call ∈ s.side.calls, call = .closed := by
    intro call hmem
    have hcall := hidle call hmem
    cases call with
    | closed => rfl
    | acquiring => exact absurd hmem hacquiring
    | fetching job =>
        cases job with
        | running => exact absurd hmem (hi.not_fetching_of_stuck hstuck)
        | obtained c | returned c | failed | panicked => cases hcall
    | detached obtained =>
        cases obtained with
        | none =>
            have hfree : s.side.lent.length < s.side.maxSize := by
              rw [hlent, hside.size]
              exact hm
            obtain ⟨i, hget⟩ := List.mem_iff_getElem?.mp hmem
            obtain ⟨c, t, ht⟩ := Side.exists_lend hfree
            exact (Tasks.not_stuck_of_call hstuck (.lend c) hget rfl ht trivial nofun).elim
        | some c => cases hcall
    | held h => exact absurd rfl (hdead _ hmem)
    | granted | dropping h job => cases hcall
  refine ⟨hclosed, fun t htask hneeds => ?_⟩
  by_contra hnew
  have hcount : s.madeBy.count t = 0 := List.count_eq_zero_of_not_mem hnew
  have hcalls : ∀ call ∈ s.callsOf t, call.isAlive := by
    intro call hcall
    obtain ⟨i, ht, -⟩ := Tasks.mem_callsOf.mp hcall
    exact absurd (List.mem_of_getElem? ht) hnew
  have hrequest := hstuck (.request t) trivial
  simp only [Tasks.step, Side.step, Option.map_some] at hrequest
  rw [if_pos ⟨htask, by omega, hcalls⟩] at hrequest
  cases hrequest

end Stuck

/-! ## Tasks that wait for each other -/

section Waiting

variable {m n : ℕ} {needs : ℕ → ℕ}

/-- The last call takes a step. -/
lemma Tasks.step_last {maxSize available available' : ℕ} {lent lent' : List Conn}
    {calls : List Call} {madeBy : List ℕ} {call call' : Call} {a : CallAction} {e : Effect}
    (hcall : call.step a = some (call', e)) (ha : a ≠ .drop)
    (ht : Side.apply ⟨maxSize, available, lent, calls ++ [call]⟩ e =
      some ⟨maxSize, available', lent', calls ++ [call]⟩) :
    Tasks.step n needs ⟨⟨maxSize, available, lent, calls ++ [call]⟩, madeBy⟩
        (.call calls.length a) =
      some ⟨⟨maxSize, available', lent', calls ++ [call']⟩, madeBy⟩ := by
  rw [Tasks.step_of_call (by simp) hcall ht fun h => absurd h ha]
  simp

/-- Each task in `holders` has a connection, and no call is left beside them. -/
def Tasks.holding (m : ℕ) (holders : List ℕ) : Tasks :=
  ⟨⟨m, m - holders.length, (List.range holders.length).reverse,
    (List.range holders.length).map fun c => .held (.new c)⟩, holders⟩

lemma Tasks.isAlive_of_holding {holders : List ℕ} {t : ℕ} :
    ∀ call ∈ (Tasks.holding m holders).callsOf t, call.isAlive := by
  intro call hcall
  obtain ⟨i, -, hget⟩ := Tasks.mem_callsOf.mp hcall
  obtain ⟨c, -, rfl⟩ := List.mem_map.mp (List.mem_of_getElem? hget)
  rfl

/-- Tasks can come to hold as many connections as there are, within what they need. -/
lemma Tasks.reached_holding (holders : List ℕ) : holders.length ≤ m → Within n needs holders →
    Tasks.Reached m n needs (Tasks.holding m holders) := by
  induction holders using List.reverseRecOn with
  | nil => exact fun _ _ => .start
  | append_singleton holders t ih =>
      intro hlength hwithin
      rw [List.length_append, List.length_singleton] at hlength
      have hbefore : Within n needs holders := by
        refine ⟨fun t' ht' => hwithin.agents t' (List.mem_append_left _ ht'), fun t' => ?_⟩
        have := hwithin.bounded t'
        rw [List.count_append] at this
        omega
      have hlt : holders.count t < needs t := by
        have := hwithin.bounded t
        rw [List.count_append, List.count_singleton_self] at this
        omega
      have htask : t < n := hwithin.agents t (by simp)
      have hpos : 0 < m - holders.length := by omega
      have hnew : holders.length ∉ (List.range holders.length).reverse := by simp
      have hfree : (List.range holders.length).reverse.length < m := by
        rw [List.length_reverse, List.length_range]
        exact hlength
      let calls : List Call := (List.range holders.length).map fun c => .held (.new c)
      have hrequest : Tasks.step n needs (Tasks.holding m holders) (.request t) =
          some ⟨⟨m, m - holders.length, (List.range holders.length).reverse,
            calls ++ [.acquiring]⟩, holders ++ [t]⟩ :=
        if_pos ⟨htask, hlt, Tasks.isAlive_of_holding⟩
      have hreached := (ih (by omega) hbefore).next trivial hrequest
        |>.next trivial (Tasks.step_last (a := .grant) rfl nofun (if_pos hpos))
        |>.next trivial (Tasks.step_last (a := .poll) rfl nofun rfl)
        |>.next trivial (Tasks.step_last (a := .lend holders.length) rfl nofun
          (if_pos ⟨hfree, hnew⟩))
        |>.next trivial (Tasks.step_last (a := .fetchReturns) rfl nofun rfl)
        |>.next trivial (Tasks.step_last (a := .poll) rfl nofun rfl)
      have heq : Tasks.holding m (holders ++ [t]) =
          ⟨⟨m, m - holders.length - 1, holders.length :: (List.range holders.length).reverse,
            calls ++ [.held (.new holders.length)]⟩, holders ++ [t]⟩ := by
        simp only [Tasks.holding, List.length_append, List.length_singleton, List.range_succ,
          List.reverse_append, List.reverse_singleton, List.singleton_append, List.map_append,
          List.map_singleton, Nat.sub_sub, calls]
      rw [heq]
      exact hreached

/-- The state after a task has asked for one more connection. -/
def Tasks.request (s : Tasks) (t : ℕ) : Tasks :=
  ⟨{ s.side with calls := s.side.calls ++ [.acquiring] }, s.madeBy ++ [t]⟩

lemma Tasks.callsOf_request {s : Tasks} (h : s.madeBy.length = s.side.calls.length) (t t' : ℕ) :
    (s.request t).callsOf t' = s.callsOf t' ++ if t = t' then [.acquiring] else [] := by
  simp only [callsOf, request, List.zip_append h, List.filter_append, List.map_append,
    List.zip_cons_cons, List.zip_nil_right, List.filter_cons, List.filter_nil, beq_iff_eq]
  split_ifs <;> rfl

/-- Tasks that have all they asked for can each ask for one more. -/
lemma Tasks.Reached.request (ts : List ℕ) : ∀ {s : Tasks}, Tasks.Reached m n needs s → ts.Nodup →
    (∀ t ∈ ts, t < n ∧ s.madeBy.count t < needs t ∧ ∀ call ∈ s.callsOf t, call.isAlive) →
      Tasks.Reached m n needs (ts.foldl Tasks.request s) := by
  induction ts with
  | nil => exact fun h _ _ => h
  | cons t ts ih =>
      intro s h hnodup hask
      rw [List.nodup_cons] at hnodup
      rw [List.forall_mem_cons] at hask
      have hstep : Tasks.step n needs s (.request t) = some (s.request t) := if_pos hask.1
      refine ih (h.next trivial hstep) hnodup.2 fun t' ht' => ?_
      have hne : t ≠ t' := fun heq => hnodup.1 (heq ▸ ht')
      obtain ⟨htask, hcount, hcalls⟩ := hask.2 t' ht'
      refine ⟨htask, ?_, ?_⟩
      · rw [Tasks.request, List.count_append, List.count_singleton, if_neg (by simpa using hne)]
        exact hcount
      · rw [Tasks.callsOf_request h.inv.length, if_neg hne, List.append_nil]
        exact hcalls

/-- What the requests of a list of tasks leave as it was, and what they add. -/
lemma Tasks.foldl_request (ts : List ℕ) : ∀ s : Tasks,
    (ts.foldl Tasks.request s).side.available = s.side.available ∧
      (ts.foldl Tasks.request s).side.calls =
        s.side.calls ++ List.replicate ts.length .acquiring ∧
      (ts.foldl Tasks.request s).madeBy = s.madeBy ++ ts := by
  induction ts with
  | nil => exact fun s => ⟨rfl, by simp, by simp⟩
  | cons t ts ih =>
      intro s
      obtain ⟨havailable, hcalls, hmade⟩ := ih (s.request t)
      refine ⟨havailable, ?_, ?_⟩
      · rw [List.foldl_cons, hcalls]
        simp [Tasks.request, List.replicate_succ]
      · rw [List.foldl_cons, hmade]
        simp [Tasks.request]

/-- Tasks that all hold connections or nothing, and wait for a permit while there is none. -/
lemma Tasks.Inv.stuck_of_waiting {s : Tasks} (hi : s.Inv m n needs)
    (hnone : s.side.available = 0)
    (hcalls : ∀ call ∈ s.side.calls, call = .acquiring ∨ ∃ c, call = .held (.new c))
    (hwait : ∀ t < n, 0 < needs t → .acquiring ∈ s.callsOf t) :
    ∀ a : TaskAction, a.Advances → s.step n needs a = none := by
  intro a hadv
  cases a with
  | request t =>
      refine if_neg ?_
      rintro ⟨htask, hcount, halive⟩
      cases halive .acquiring (hwait t htask (by omega))
  | call i a =>
      have hdrop : ¬ s.MayDrop needs i ∨ s.side.calls[i]? = none := by
        cases hget : s.madeBy[i]? with
        | none =>
            rw [List.getElem?_eq_none_iff, hi.length] at hget
            exact Or.inr (List.getElem?_eq_none_iff.mpr hget)
        | some t =>
            have hmem := List.mem_of_getElem? hget
            have hpos : 0 < needs t :=
              (List.count_pos_iff.mpr hmem).trans_le (hi.bounded t)
            refine Or.inl fun hmay => ?_
            exact (hmay t hget).1 .acquiring (hwait t (hi.tasks t hmem) hpos) rfl
      simp only [Tasks.step]
      split_ifs with hok
      · rfl
      · cases hget : s.side.calls[i]? with
        | none => simp only [Side.step, hget, Option.map_none]
        | some call =>
            rw [hget] at hdrop
            have hne : a ≠ .drop := by
              intro heq
              rcases hdrop with hdrop | hdrop
              · exact hok ⟨heq, hdrop⟩
              · cases hdrop
            rcases hcalls call (List.mem_of_getElem? hget) with rfl | ⟨c, rfl⟩
            · cases a with
              | grant => simp only [Side.step, hget, Call.step, Side.apply, hnone, lt_irrefl,
                  if_false, Option.map_none]
              | timeOut | cancel => cases hadv
              | drop => exact absurd rfl hne
              | _ => simp only [Side.step, hget, Call.step, Option.map_none]
            · cases a with
              | holder b =>
                  cases b with
                  | run | cancel r => cases hadv
                  | lock r | enter r | leave r =>
                      simp [Side.step, hget, Call.step, ConnectionHolder.step,
                        ConnectionHolder.new]
              | drop => exact absurd rfl hne
              | _ => simp only [Side.step, hget, Call.step, Option.map_none]

/-- **Tasks that together may hold all connections and wait can deadlock.** -/
theorem Tasks.exists_deadlock (hm : 0 < m) (hsum : m ≤ ∑ t ∈ Finset.range n, (needs t - 1)) :
    ∃ s, Tasks.Reached m n needs s ∧ s.Deadlocked n needs := by
  obtain ⟨holders, hlength, hwithin⟩ := exists_holders (fun t => needs t - 1) hsum
  let ts := (List.range n).filter fun t => 0 < needs t
  have hts : ∀ {t}, t ∈ ts ↔ t < n ∧ 0 < needs t := by
    intro t
    simp [ts]
  have hneeds : Within n needs holders :=
    ⟨hwithin.agents, fun t => (hwithin.bounded t).trans (Nat.sub_le _ _)⟩
  have hreached : Tasks.Reached m n needs (ts.foldl Tasks.request (Tasks.holding m holders)) := by
    refine Tasks.Reached.request ts (Tasks.reached_holding holders hlength.le hneeds)
      (List.nodup_range.filter _) fun t ht => ⟨(hts.mp ht).1, ?_, Tasks.isAlive_of_holding⟩
    have hbounded := hwithin.bounded t
    have hpos := (hts.mp ht).2
    show holders.count t < needs t
    omega
  obtain ⟨havailable, hcalls, hmade⟩ := Tasks.foldl_request ts (Tasks.holding m holders)
  refine ⟨_, hreached, hreached.inv.stuck_of_waiting ?_ ?_ ?_, Or.inl ?_⟩
  · rw [havailable]
    show m - holders.length = 0
    omega
  · intro call hmem
    rw [hcalls] at hmem
    rcases List.mem_append.mp hmem with hmem | hmem
    · obtain ⟨c, -, rfl⟩ := List.mem_map.mp hmem
      exact Or.inr ⟨c, rfl⟩
    · exact Or.inl (List.eq_of_mem_replicate hmem)
  · intro t htask hneeds
    obtain ⟨j, hj⟩ := List.mem_iff_getElem?.mp (hts.mpr ⟨htask, hneeds⟩)
    have hlt : j < ts.length := (List.getElem?_eq_some_iff.mp hj).1
    refine Tasks.mem_callsOf.mpr ⟨holders.length + j, ?_, ?_⟩
    · rw [hmade, Tasks.holding, List.getElem?_append_right (Nat.le_add_right _ _),
        Nat.add_sub_cancel_left, hj]
    · rw [hcalls, List.getElem?_append_right (by simp [Tasks.holding])]
      simp [Tasks.holding, hlt]
  · refine ⟨.held (.new 0), ?_, nofun⟩
    rw [hcalls]
    refine List.mem_append_left _ (List.mem_map.mpr ⟨0, ?_, rfl⟩)
    simp [hlength, hm]

end Waiting

/-- **When tasks that hold several connections deadlock.**  Let `n` tasks use a side of a pool with
`m` permits and `m` connections, each asking for the connections it needs one after the other.  They
can come to wait for each other, so that nothing but timeouts and dropped futures helps them,
exactly if the connections they may hold while they wait for another are together at least `m`. -/
theorem tasksDeadlock_iff {m : ℕ} (hm : 0 < m) (n : ℕ) (needs : ℕ → ℕ) :
    (∃ s, Tasks.Reached m n needs s ∧ s.Deadlocked n needs) ↔
      m ≤ ∑ t ∈ Finset.range n, (needs t - 1) := by
  refine ⟨?_, Tasks.exists_deadlock hm⟩
  rintro ⟨s, hs, hdeadlocked⟩
  by_contra hlt
  obtain ⟨hclosed, hbegun⟩ := hs.inv.drained_of_stuck hm (not_le.mp hlt) hdeadlocked.stuck
  rcases hdeadlocked.waiting with ⟨call, hmem, hne⟩ | ⟨t, htask, hneeds, hnew⟩
  · exact hne (hclosed call hmem)
  · exact hnew (hbegun t htask hneeds)

/-- Two handlers with two `ReadConnection`s each deadlock on a pool of two, and not on one of
three. -/
theorem tasksDeadlock_iff_twoHandlers :
    (∃ s, Tasks.Reached 2 2 (fun _ => 2) s ∧ s.Deadlocked 2 fun _ => 2) ∧
      ¬ ∃ s, Tasks.Reached 3 2 (fun _ => 2) s ∧ s.Deadlocked 2 fun _ => 2 :=
  ⟨(tasksDeadlock_iff (by decide) 2 _).mpr (by decide),
    fun h => absurd ((tasksDeadlock_iff (by decide) 2 _).mp h) (by decide)⟩

end SqliteRwPool
