import SqliteRwPool.Library.Chunks

/-!
# Steps that may fail, taken in atomic batches

Items are processed one after the other by a step that may fail.  Taken in groups, each of which is
undone when one of its items fails, they leave the state in which the last complete group ended.

* `exists_failsFirst` — a run that fails has an item that fails first.
* `runGroups_of_some` — groups make no difference to a run that succeeds.
* `runGroups_of_failsFirst` — if the item `k` fails first, then groups of `n` leave the state after
  `n * (k / n)` items.
-/

namespace AtomicBatches

open Chunks

variable {σ α : Type*} (step : σ → α → Option σ)

/-- Process the items. -/
def run (s : σ) (items : List α) : Option σ := items.foldlM step s

/-- Process the groups, each as a whole or not at all, until one fails. -/
def runGroups : σ → List (List α) → Bool × σ
  | s, [] => (true, s)
  | s, group :: groups =>
      match run step s group with
      | none => (false, s)
      | some s => runGroups s groups

/-- The item with index `k` is the first one that fails. -/
structure FailsFirst (s : σ) (items : List α) (k : ℕ) : Prop where
  completed : (run step s (items.take k)).isSome
  fails : run step s (items.take (k + 1)) = none

variable {step}

@[simp] lemma run_nil (s : σ) : run step s [] = some s := rfl

lemma run_cons (s : σ) (item : α) (items : List α) :
    run step s (item :: items) = (step s item).bind fun s => run step s items := by
  rw [run, List.foldlM_cons]
  rfl

lemma run_append (s : σ) (items items' : List α) :
    run step s (items ++ items') = (run step s items).bind fun s => run step s items' := by
  rw [run, List.foldlM_append]
  rfl

/-- What is processed completely is processed completely from its start on. -/
lemma isSome_run_of_append {s : σ} {items items' : List α}
    (h : (run step s (items ++ items')).isSome) : (run step s items).isSome := by
  rw [run_append] at h
  cases hitems : run step s items with
  | none =>
      rw [hitems] at h
      exact h
  | some s' => rfl

lemma isSome_run_take {s : σ} {items : List α} (n : ℕ) (h : (run step s items).isSome) :
    (run step s (items.take n)).isSome :=
  isSome_run_of_append (by rwa [List.take_append_drop])

/-- **A run that fails has an item that fails first.** -/
theorem exists_failsFirst {s : σ} {items : List α} (h : run step s items = none) :
    ∃ k < items.length, FailsFirst step s items k := by
  induction items generalizing s with
  | nil => cases h
  | cons item items ih =>
      cases hstep : step s item with
      | none =>
          refine ⟨0, Nat.succ_pos _, rfl, ?_⟩
          rw [List.take_succ_cons, run_cons, hstep, Option.bind_none]
      | some s' =>
          rw [run_cons, hstep, Option.bind_some] at h
          obtain ⟨k, hk, hcompleted, hfails⟩ := ih h
          refine ⟨k + 1, Nat.succ_lt_succ hk, ?_, ?_⟩
          · rwa [List.take_succ_cons, run_cons, hstep, Option.bind_some]
          · rwa [List.take_succ_cons, run_cons, hstep, Option.bind_some]

/-- An item that fails lies in every run that goes so far. -/
lemma FailsFirst.run_take {s : σ} {items : List α} {k n : ℕ} (h : FailsFirst step s items k)
    (hn : k < n) : run step s (items.take n) = none := by
  cases hrun : run step s (items.take n) with
  | none => rfl
  | some s' =>
      have htake : (items.take n).take (k + 1) = items.take (k + 1) := by
        rw [List.take_take, Nat.min_eq_left hn]
      have hsome := isSome_run_take (k + 1) (Option.isSome_of_eq_some hrun)
      rw [htake, h.fails] at hsome
      cases hsome

/-- After a complete group, the item that fails first comes so much sooner. -/
lemma FailsFirst.drop {s t : σ} {items : List α} {k n : ℕ} (h : FailsFirst step s items k)
    (hn : n ≤ k) (hgroup : run step s (items.take n) = some t) :
    FailsFirst step t (items.drop n) (k - n) := by
  have hsplit : ∀ m, run step t ((items.drop n).take m) = run step s (items.take (n + m)) := by
    intro m
    rw [List.take_add, run_append, hgroup, Option.bind_some]
  refine ⟨?_, ?_⟩
  · rw [hsplit, Nat.add_sub_cancel' hn]
    exact h.completed
  · rw [hsplit, show n + (k - n + 1) = k + 1 by omega]
    exact h.fails

/-- **Groups make no difference to a run that succeeds.** -/
theorem runGroups_of_some {n : ℕ} (hn : 0 < n) (items : List α) : ∀ {s t : σ},
    run step s items = some t → runGroups step s (chunks n items) = (true, t) := by
  refine chunks_induction hn (P := fun items groups => ∀ {s t : σ},
    run step s items = some t → runGroups step s groups = (true, t)) ?_ ?_ items
  · intro s t h
    cases h
    rfl
  · intro items hitems ih s t h
    rw [← List.take_append_drop n items, run_append] at h
    obtain ⟨u, hu, hrest⟩ := Option.bind_eq_some_iff.mp h
    rw [runGroups, hu]
    exact ih hrest

/-- **A failure keeps exactly the completed groups.** -/
theorem runGroups_of_failsFirst {n : ℕ} (hn : 0 < n) (items : List α) : ∀ {s : σ} {k : ℕ},
    FailsFirst step s items k →
      ∃ t, run step s (items.take (n * (k / n))) = some t ∧
        runGroups step s (chunks n items) = (false, t) := by
  refine chunks_induction hn (P := fun items groups => ∀ {s : σ} {k : ℕ},
    FailsFirst step s items k →
      ∃ t, run step s (items.take (n * (k / n))) = some t ∧
        runGroups step s groups = (false, t)) ?_ ?_ items
  · intro s k h
    cases h.fails
  · intro items hitems ih s k h
    rcases Nat.lt_or_ge k n with hlt | hge
    · refine ⟨s, ?_, ?_⟩
      · rw [Nat.div_eq_of_lt hlt, Nat.mul_zero, List.take_zero, run_nil]
      · rw [runGroups, h.run_take hlt]
    · obtain ⟨u, hu⟩ : ∃ u, run step s (items.take n) = some u := by
        have hsome := isSome_run_take n h.completed
        rw [List.take_take, Nat.min_eq_left hge] at hsome
        exact Option.isSome_iff_exists.mp hsome
      obtain ⟨t, ht, hgroups⟩ := ih (h.drop hge hu)
      refine ⟨t, ?_, ?_⟩
      · have hindex : n * (k / n) = n + n * ((k - n) / n) := by
          rw [Nat.div_eq_sub_div hn hge, Nat.mul_succ, Nat.add_comm]
        rw [hindex, List.take_add, run_append, hu, Option.bind_some, ht]
      · rw [runGroups, hu]
        exact hgroups

end AtomicBatches
