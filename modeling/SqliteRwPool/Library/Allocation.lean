import Mathlib.Algebra.BigOperators.Group.Finset.Basic
import Mathlib.Algebra.Order.BigOperators.Group.Finset
import Mathlib.Algebra.Order.Ring.Nat

/-!
# Tokens shared by agents with bounded holdings

Agents are numbered from 0 to `n - 1`, and `holders` lists the agent of each token that is out.

* `length_le_sum` — when no agent holds more than its bound, no more tokens are out than the bounds
  allow together.
* `exists_holders` — as many can be out.
-/

namespace Allocation

/-- The tokens that are out belong to agents below `n`, none of which holds more than its bound. -/
structure Within (n : ℕ) (bound : ℕ → ℕ) (holders : List ℕ) : Prop where
  agents : ∀ t ∈ holders, t < n
  bounded : ∀ t, holders.count t ≤ bound t

/-- No more tokens are out than the bounds allow together. -/
theorem Within.length_le_sum {n : ℕ} {bound : ℕ → ℕ} {holders : List ℕ}
    (h : Within n bound holders) : holders.length ≤ ∑ t ∈ Finset.range n, bound t := by
  have hcount : ∑ t ∈ Finset.range n, (holders : Multiset ℕ).count t =
      (holders : Multiset ℕ).card :=
    Multiset.sum_count_eq_card fun t ht =>
      Finset.mem_range.mpr (h.agents t (Multiset.mem_coe.mp ht))
  rw [Multiset.coe_card] at hcount
  rw [← hcount]
  refine Finset.sum_le_sum fun t _ => ?_
  rw [Multiset.coe_count]
  exact h.bounded t

/-- As many tokens as the bounds allow together can be out. -/
theorem exists_holders (bound : ℕ → ℕ) : ∀ {n m : ℕ}, m ≤ ∑ t ∈ Finset.range n, bound t →
    ∃ holders : List ℕ, holders.length = m ∧ Within n bound holders
  | 0, m, hm => by
      rw [Finset.range_zero, Finset.sum_empty] at hm
      exact ⟨[], (Nat.le_zero.mp hm).symm, by simp, by simp⟩
  | n + 1, m, hm => by
      rw [Finset.sum_range_succ] at hm
      obtain ⟨holders, hlength, hwithin⟩ :=
        exists_holders bound (Nat.min_le_right m (∑ t ∈ Finset.range n, bound t))
      have hnone : holders.count n = 0 :=
        List.count_eq_zero_of_not_mem fun hmem => absurd (hwithin.agents n hmem) (lt_irrefl n)
      refine ⟨holders ++ List.replicate (m - holders.length) n, ?_, fun t ht => ?_, fun t => ?_⟩
      · rw [List.length_append, List.length_replicate]
        omega
      · rcases List.mem_append.mp ht with ht | ht
        · exact (hwithin.agents t ht).trans n.lt_succ_self
        · rw [List.eq_of_mem_replicate ht]
          exact n.lt_succ_self
      · rw [List.count_append, List.count_replicate]
        by_cases htn : n = t
        · subst htn
          rw [hnone, beq_self_eq_true, if_pos rfl]
          omega
        · rw [if_neg (by simpa using htn), Nat.add_zero]
          exact hwithin.bounded t

end Allocation
