import SqliteRwPool.Pool.Ownership

/-!
# Which steps start and end closures

A closure starts when its run is polled with the mutex (`HolderAction.enter`) and ends when it
returns or panics (`HolderAction.leave`).  `Side.Inv.step_executingOn` says that no other step of a
side changes which closures execute, or the connections they execute on.
-/

namespace SqliteRwPool

open Ledger Transition

/-- The connection of the holder that call `i` has returned. -/
def Side.connection? (s : Side) (i : ℕ) : Option Conn :=
  (s.calls[i]?.bind Call.holder?).bind ConnectionHolder.connection

/-- The connection that run `r` of the holder of call `i` executes its closure on. -/
def Side.executing? (s : Side) (i r : ℕ) : Option Conn :=
  match s.calls[i]?.bind Call.holder? with
  | some h => if h.runs[r]? = some .executing then h.connection else none
  | none => none

lemma Side.executing?_eq_some {s : Side} {i r : ℕ} {c : Conn} :
    s.executing? i r = some c ↔ s.ExecutingOn i r c := by
  unfold Side.executing? Side.ExecutingOn
  constructor
  · intro h
    split at h
    · rename_i holder hholder
      obtain ⟨call, hget, hcall⟩ := Option.bind_eq_some_iff.mp hholder
      split_ifs at h with hrun
      exact ⟨call, holder, hget, hcall, hrun, h⟩
    · cases h
  · rintro ⟨call, holder, hget, hcall, hrun, hconn⟩
    rw [hget, Option.bind_some, hcall]
    simp only [hrun, if_true, hconn]

/-! ## Within one holder -/

private lemma executing_set {runs : List RunState} {r : ℕ} {old new : RunState}
    (hget : runs[r]? = some old) (q : ℕ) :
    (runs.set r new)[q]? = some .executing ↔
      (q = r ∧ new = .executing) ∨ (q ≠ r ∧ runs[q]? = some .executing) := by
  have hlt : r < runs.length := (List.getElem?_eq_some_iff.mp hget).1
  rw [List.getElem?_set]
  by_cases hq : r = q
  · subst hq
    simp [hlt]
  · simp [hq, Ne.symm hq]

lemma ConnectionHolder.Valid.step_executing {h h' : ConnectionHolder} {a : HolderAction}
    (hv : h.Valid) (hs : h.step a = some h') (q : ℕ) :
    h'.runs[q]? = some .executing ↔
      (h.runs[q]? = some .executing ∧ a ≠ .leave q) ∨ a = .enter q := by
  cases a with
  | run =>
      simp only [ConnectionHolder.step, Option.some.injEq] at hs
      subst hs
      rw [List.getElem?_append]
      split
      · simp
      · rename_i hge
        have hnone : h.runs[q]? = none := List.getElem?_eq_none (Nat.le_of_not_lt hge)
        simp only [hnone, List.getElem?_singleton]
        split <;> simp
  | lock r =>
      simp only [ConnectionHolder.step] at hs
      split_ifs at hs with hc
      rw [Option.some.injEq] at hs
      subst hs
      rw [executing_set hc.2]
      by_cases hq : q = r
      · subst hq
        simp [hc.2]
      · simp [hq]
  | enter r =>
      simp only [ConnectionHolder.step] at hs
      split_ifs at hs with hc
      obtain ⟨c, hconn⟩ := Option.isSome_iff_exists.mp hv.connection
      simp only [hconn, Option.some.injEq] at hs
      subst hs
      rw [executing_set hc]
      by_cases hq : q = r
      · simp [hq]
      · simp [hq, Ne.symm hq]
  | leave r =>
      simp only [ConnectionHolder.step] at hs
      split_ifs at hs with hc
      rw [Option.some.injEq] at hs
      subst hs
      rw [executing_set hc]
      by_cases hq : q = r
      · simp [hq]
      · simp [hq, Ne.symm hq]
  | cancel r =>
      simp only [ConnectionHolder.step] at hs
      split_ifs at hs with hc hc'
      all_goals
        rw [Option.some.injEq] at hs
        subst hs
      · rw [executing_set hc]
        by_cases hq : q = r
        · subst hq
          simp [hc]
        · simp [hq]
      · rw [executing_set hc']
        by_cases hq : q = r
        · subst hq
          simp [hc']
        · simp [hq]

/-! ## Within one call -/

/-- Run `r` of the call's holder executes its closure on connection `c`. -/
def Call.ExecutingOn (call : Call) (r : ℕ) (c : Conn) : Prop :=
  ∃ h, call.holder? = some h ∧ h.runs[r]? = some .executing ∧ h.connection = some c

lemma Call.not_executingOn_of_dropping {h : ConnectionHolder} (job : DropJob)
    (hfin : ∀ st ∈ h.runs, st = .finished) (r : ℕ) (c : Conn) :
    ¬ (Call.dropping h job).ExecutingOn r c := by
  rintro ⟨h', heq, hrun, -⟩
  cases heq
  cases hfin _ (List.mem_of_getElem? hrun)

/-- A call without a holder executes nothing, and neither does the holder it may step to. -/
private lemma Call.not_executingOn_of_fetching {call call' : Call} {a : CallAction} {e : Effect}
    (hnone : call.holder? = none) (hs : call.step a = some (call', e)) (r : ℕ) (c : Conn) :
    ¬ call'.ExecutingOn r c := by
  rintro ⟨h', heq, hrun, -⟩
  have hnew : ∃ d, h' = .new d := by
    cases call with
    | acquiring | granted | closed => cases a <;> cases hs <;> cases heq
    | detached obtained => cases obtained <;> cases a <;> cases hs <;> cases heq
    | fetching job =>
        cases job <;> cases a <;> cases hs <;> cases heq
        exact ⟨_, rfl⟩
    | held h | dropping h _ => cases hnone
  obtain ⟨d, rfl⟩ := hnew
  simp [ConnectionHolder.new] at hrun

lemma Call.Valid.step_executingOn {call call' : Call} {a : CallAction} {e : Effect}
    (hv : call.Valid) (hs : call.step a = some (call', e)) (q : ℕ) (c : Conn) :
    call'.ExecutingOn q c ↔ (call.ExecutingOn q c ∧ a ≠ .holder (.leave q)) ∨
      (a = .holder (.enter q) ∧ call.holder?.bind ConnectionHolder.connection = some c) := by
  cases call with
  | acquiring | granted | closed | fetching job | detached obtained =>
      have hnot := Call.not_executingOn_of_fetching rfl hs q c
      simp only [hnot, false_iff]
      rintro (⟨⟨h, heq, -⟩, -⟩ | ⟨-, heq⟩) <;> cases heq
  | held h =>
      cases a <;> try cases hs
      case holder b =>
        obtain ⟨h', hh', heq⟩ := Option.map_eq_some_iff.mp hs
        cases heq
        have hrun := ConnectionHolder.Valid.step_executing hv hh' q
        have hconn := ConnectionHolder.Valid.step_connection hv hh'
        simp only [Call.ExecutingOn, Call.holder?, Option.some.injEq, exists_eq_left', hrun, hconn,
          CallAction.holder.injEq, ne_eq, Option.bind_some]
        tauto
      case drop =>
        simp only [Call.step] at hs
        split_ifs at hs with hover
        cases hs
        have hfin := ConnectionHolder.Valid.finished hv hover
        have hnot := Call.not_executingOn_of_dropping .locking hfin q c
        simp only [hnot, false_iff]
        rintro (⟨⟨h', heq, hrun, -⟩, -⟩ | ⟨heq, -⟩)
        · cases heq
          cases hfin _ (List.mem_of_getElem? hrun)
        · cases heq
  | dropping h job =>
      have hnot := Call.not_executingOn_of_dropping job hv.1 q c
      have hnot' : ¬ call'.ExecutingOn q c := by
        rcases Call.step_dropping hv.2 hs with ⟨-, rfl, -⟩ | ⟨d, -, -, rfl, -⟩ | ⟨-, rfl, -⟩ |
          ⟨-, -, rfl, -⟩
        · exact Call.not_executingOn_of_dropping .locked hv.1 q c
        · exact Call.not_executingOn_of_dropping (h := { h with connection := none }) _ hv.1 q c
        · exact Call.not_executingOn_of_dropping .released hv.1 q c
        · rintro ⟨h', heq, -⟩
          cases heq
      have hentry : a ≠ .holder (.enter q) := by
        rintro rfl
        cases job <;> cases hs
      simp only [hnot, hnot', hentry, false_and, or_self]

/-! ## Within one side -/

lemma Side.executingOn_iff {s : Side} {i r : ℕ} {c : Conn} :
    s.ExecutingOn i r c ↔ ∃ call, s.calls[i]? = some call ∧ call.ExecutingOn r c := by
  constructor
  · rintro ⟨call, h, hget, hrest⟩
    exact ⟨call, hget, h, hrest⟩
  · rintro ⟨call, hget, h, hrest⟩
    exact ⟨call, h, hget, hrest⟩

/-- **Closures start by entering and end by leaving.**  After a step of the side, run `q` of call
`j` executes on `c` if it did before and has not just left, or if it has just entered and the
holder's connection is `c`. -/
theorem Side.Inv.step_executingOn {m k : ℕ} {s s' : Side} {a : SideAction} (hi : s.Inv m k)
    (hs : s.step a = some s') (j q : ℕ) (c : Conn) :
    s'.ExecutingOn j q c ↔ (s.ExecutingOn j q c ∧ a ≠ .call j (.holder (.leave q))) ∨
      (a = .call j (.holder (.enter q)) ∧ s.connection? j = some c) := by
  cases a with
  | get =>
      cases hs
      simp only [Side.executingOn_iff, ne_eq, reduceCtorEq, not_false_eq_true, and_true, false_and,
        or_false]
      constructor
      · rintro ⟨call, hget, hex⟩
        rw [List.getElem?_append] at hget
        split at hget
        · exact ⟨call, hget, hex⟩
        · rw [List.getElem?_singleton] at hget
          split at hget
          · cases hget
            obtain ⟨h, heq, -⟩ := hex
            cases heq
          · cases hget
      · rintro ⟨call, hget, hex⟩
        have hlt : j < s.calls.length := (List.getElem?_eq_some_iff.mp hget).1
        exact ⟨call, by rw [List.getElem?_append_left hlt]; exact hget, hex⟩
  | call i a =>
      obtain ⟨call, call', e, t, hget, hcall, ht, rfl⟩ := Side.step_call hs
      have hv : call.Valid := hi.valid call (List.mem_of_getElem? hget)
      have hlt : i < s.calls.length := (List.getElem?_eq_some_iff.mp hget).1
      have hcalls : t.calls = s.calls :=
        (Side.apply_spec ht (hi.lent_of_givenBack hget hcall)).1
      simp only [Side.executingOn_iff, hcalls, List.getElem?_set, SideAction.call.injEq]
      by_cases hij : i = j
      · subst hij
        have hstep := hv.step_executingOn hcall q c
        simp only [hlt, if_true, Option.some.injEq, exists_eq_left', hstep, hget, true_and,
          Side.connection?, Option.bind_some, ne_eq, SideAction.call.injEq]
      · simp [hij]

end SqliteRwPool
