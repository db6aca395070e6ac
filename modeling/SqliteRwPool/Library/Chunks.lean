import Mathlib.Tactic.Common

/-!
# A sequence in groups of a fixed size

`chunks n l` is `l` in consecutive groups of `n`, the last of which may be smaller: what the
`chunks` adaptor of an iterator hands out.

* `chunks_induction` — a relation between lists and their groups, group by group.
* `flatten_chunks` — the groups, one after the other, are the list.
* `length_chunks` — there are as many of them as it takes.
* `length_of_mem_dropLast_chunks` — all but the last are full.
-/

namespace Chunks

variable {α : Type*}

/-- At most `fuel` groups. -/
def takeChunks (n : ℕ) : (fuel : ℕ) → List α → List (List α)
  | 0, _ => []
  | _ + 1, [] => []
  | fuel + 1, a :: l => (a :: l).take n :: takeChunks n fuel ((a :: l).drop n)

/-- Consecutive groups of `n`.  No group is empty, so there are no more of them than elements. -/
def chunks (n : ℕ) (l : List α) : List (List α) := takeChunks n l.length l

/-- More fuel than there are elements makes no difference. -/
lemma takeChunks_fuel {n : ℕ} (hn : 0 < n) (fuel : ℕ) :
    ∀ {fuel' : ℕ} {l : List α}, l.length ≤ fuel → l.length ≤ fuel' →
      takeChunks n fuel l = takeChunks n fuel' l := by
  induction fuel with
  | zero =>
      intro fuel' l hl _
      rw [List.length_eq_zero_iff.mp (Nat.le_zero.mp hl)]
      cases fuel' <;> rfl
  | succ fuel ih =>
      intro fuel' l hl hl'
      cases l with
      | nil => cases fuel' <;> rfl
      | cons a l =>
          cases fuel' with
          | zero => simp at hl'
          | succ fuel' =>
              rw [List.length_cons] at hl hl'
              have hdrop : ((a :: l).drop n).length ≤ l.length := by
                rw [List.length_drop, List.length_cons]
                omega
              rw [takeChunks, takeChunks, ih (by omega) (by omega : _ ≤ fuel')]

@[simp] lemma chunks_nil (n : ℕ) : chunks n ([] : List α) = [] := rfl

/-- The first group is split off. -/
lemma chunks_eq_cons {n : ℕ} (hn : 0 < n) {l : List α} (hl : l ≠ []) :
    chunks n l = l.take n :: chunks n (l.drop n) := by
  cases l with
  | nil => exact absurd rfl hl
  | cons a l =>
      have hdrop : ((a :: l).drop n).length ≤ l.length := by
        rw [List.length_drop, List.length_cons]
        omega
      rw [chunks, List.length_cons, takeChunks, takeChunks_fuel hn l.length hdrop (Nat.le_refl _),
        chunks]

/-- **Induction over the groups.**  What holds of no groups, and of a list if it holds of what is
left after its first group, holds of every list and its groups. -/
theorem chunks_induction {n : ℕ} (hn : 0 < n) {P : List α → List (List α) → Prop}
    (nil : P [] [])
    (cons : ∀ l, l ≠ [] → P (l.drop n) (chunks n (l.drop n)) →
      P l (l.take n :: chunks n (l.drop n))) :
    ∀ l, P l (chunks n l) := by
  intro l
  induction hlength : l.length using Nat.strongRecOn generalizing l with
  | _ length ih =>
      rcases eq_or_ne l [] with rfl | hl
      · exact nil
      · have hpos : 0 < l.length := List.length_pos_iff.mpr hl
        have hdrop : (l.drop n).length < length := by
          rw [List.length_drop]
          omega
        rw [chunks_eq_cons hn hl]
        exact cons l hl (ih _ hdrop _ rfl)

/-- **The groups make up the list.** -/
theorem flatten_chunks {n : ℕ} (hn : 0 < n) (l : List α) : (chunks n l).flatten = l := by
  refine chunks_induction hn (P := fun l groups => groups.flatten = l) rfl ?_ l
  intro l _ ih
  rw [List.flatten_cons, ih, List.take_append_drop]

/-- Groups that are all full are the groups of what they make up. -/
theorem chunks_flatten {n : ℕ} (hn : 0 < n) {groups : List (List α)}
    (h : ∀ group ∈ groups, group.length = n) : chunks n groups.flatten = groups := by
  induction groups with
  | nil => rfl
  | cons group groups ih =>
      rw [List.forall_mem_cons] at h
      have hne : group ++ groups.flatten ≠ [] := by
        apply List.append_ne_nil_of_left_ne_nil
        exact List.length_pos_iff.mp (by omega)
      rw [List.flatten_cons, chunks_eq_cons hn hne, List.take_left' h.1, List.drop_left' h.1,
        ih h.2]

/-- **There are as many groups as it takes.** -/
theorem length_chunks {n : ℕ} (hn : 0 < n) (l : List α) :
    (chunks n l).length = (l.length + n - 1) / n := by
  refine chunks_induction hn (P := fun l groups => groups.length = (l.length + n - 1) / n) ?_ ?_ l
  · rw [List.length_nil, List.length_nil, Nat.div_eq_of_lt]
    omega
  · intro l hl ih
    have hpos : 0 < l.length := List.length_pos_iff.mpr hl
    rw [List.length_cons, ih, List.length_drop]
    rcases Nat.le_total n l.length with hle | hle
    · have hsplit : l.length + n - 1 = l.length - n + n - 1 + n := by omega
      rw [hsplit, Nat.add_div_right _ hn]
    · have hfirst : l.length + n - 1 = l.length - 1 + n := by omega
      rw [Nat.sub_eq_zero_of_le hle, hfirst, Nat.add_div_right _ hn,
        Nat.div_eq_of_lt (by omega : 0 + n - 1 < n), Nat.div_eq_of_lt (by omega)]

/-- No group is empty, and none is too large. -/
theorem length_of_mem_chunks {n : ℕ} (hn : 0 < n) (l : List α) :
    ∀ group ∈ chunks n l, 0 < group.length ∧ group.length ≤ n := by
  refine chunks_induction hn
    (P := fun _ groups => ∀ group ∈ groups, 0 < group.length ∧ group.length ≤ n) (by simp) ?_ l
  intro l hl ih group hgroup
  rcases List.mem_cons.mp hgroup with rfl | hmem
  · have hpos : 0 < l.length := List.length_pos_iff.mpr hl
    rw [List.length_take]
    omega
  · exact ih group hmem

/-- **All groups but the last are full.** -/
theorem length_of_mem_dropLast_chunks {n : ℕ} (hn : 0 < n) (l : List α) :
    ∀ group ∈ (chunks n l).dropLast, group.length = n := by
  refine chunks_induction hn
    (P := fun _ groups => ∀ group ∈ groups.dropLast, group.length = n) (by simp) ?_ l
  intro l hl ih group hgroup
  rcases eq_or_ne (l.drop n) [] with hdrop | hdrop
  · rw [hdrop] at hgroup
    simp at hgroup
  · rw [List.dropLast_cons_of_ne_nil (by rw [chunks_eq_cons hn hdrop]; exact List.cons_ne_nil _ _)]
      at hgroup
    rcases List.mem_cons.mp hgroup with rfl | hmem
    · have hlong : n < l.length := by
        by_contra hshort
        exact hdrop (List.drop_eq_nil_of_le (by omega))
      rw [List.length_take]
      omega
    · exact ih group hmem

end Chunks
