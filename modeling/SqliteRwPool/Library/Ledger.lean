import Mathlib.Algebra.Order.BigOperators.Group.List
import Mathlib.Algebra.Order.Ring.Nat
import Mathlib.Data.Multiset.OrderedMonoid
import Mathlib.Tactic.Abel
import Mathlib.Tactic.Common

/-!
# Ledgers: what a list of agents holds altogether

Agents stand in a list, each holds something in a commutative monoid (a number of tokens, a
multiset of resources), and a step of the system replaces one agent.  `total hold agents` is what
they hold together.

* `total_set` — replacing one agent changes the total by the difference of the two.
* `conserved_set` — a store that gains what the agent loses keeps `store + total` constant.
* `recorded_set` — a register that follows the agent stays equal to the total.
-/

namespace Ledger

variable {α M : Type*}

section Monoid

variable [AddCommMonoid M]

/-- What the agents hold together. -/
def total (hold : α → M) (agents : List α) : M := (agents.map hold).sum

@[simp] lemma total_nil (hold : α → M) : total hold [] = 0 := rfl

@[simp] lemma total_cons (hold : α → M) (a : α) (agents : List α) :
    total hold (a :: agents) = hold a + total hold agents := by
  simp [total]

@[simp] lemma total_append (hold : α → M) (l₁ l₂ : List α) :
    total hold (l₁ ++ l₂) = total hold l₁ + total hold l₂ := by
  simp [total]

/-- Replacing one agent changes the total by the difference of the two. -/
theorem total_set (hold : α → M) (b : α) :
    ∀ {agents : List α} {i : ℕ} {a : α}, agents[i]? = some a →
      total hold (agents.set i b) + hold a = total hold agents + hold b
  | [], i, a, h => by simp at h
  | x :: agents, 0, a, h => by
      rw [List.getElem?_cons_zero, Option.some.injEq] at h
      subst h
      rw [List.set_cons_zero, total_cons, total_cons]
      abel
  | x :: agents, i + 1, a, h => by
      rw [List.getElem?_cons_succ] at h
      have ih := total_set hold b h
      rw [List.set_cons_succ, total_cons, total_cons, add_assoc, ih, add_assoc]

/-- Nothing is held by agents that each hold nothing. -/
lemma total_eq_zero {hold : α → M} {agents : List α} (h : ∀ a ∈ agents, hold a = 0) :
    total hold agents = 0 := by
  induction agents with
  | nil => rfl
  | cons a agents ih =>
      rw [total_cons, h a List.mem_cons_self, ih fun x hx => h x (List.mem_cons_of_mem _ hx),
        add_zero]

/-- Totals add up agent by agent. -/
lemma total_add (f g : α → M) (agents : List α) :
    total (fun a => f a + g a) agents = total f agents + total g agents := by
  induction agents with
  | nil => simp
  | cons a agents ih => rw [total_cons, total_cons, total_cons, ih]; abel

/-- A homomorphism of holdings is one of totals. -/
lemma total_map {N : Type*} [AddCommMonoid N] (φ : M →+ N) (hold : α → M) (agents : List α) :
    φ (total hold agents) = total (fun a => φ (hold a)) agents := by
  induction agents with
  | nil => simp
  | cons a agents ih => rw [total_cons, total_cons, map_add, ih]

end Monoid

section Cancel

variable [AddCancelCommMonoid M]

/-- **Conservation.**  When the store gains exactly what the replaced agent loses, store and
holdings together stay what they were. -/
theorem conserved_set {hold : α → M} {agents : List α} {i : ℕ} {a b : α} {store store' : M}
    (hget : agents[i]? = some a) (hlocal : store' + hold b = store + hold a) :
    store' + total hold (agents.set i b) = store + total hold agents := by
  have hset := total_set hold b hget
  refine add_right_cancel (b := hold a + hold b) ?_
  calc store' + total hold (agents.set i b) + (hold a + hold b)
      = (store' + hold b) + (total hold (agents.set i b) + hold a) := by abel
    _ = (store + hold a) + (total hold agents + hold b) := by rw [hlocal, hset]
    _ = store + total hold agents + (hold a + hold b) := by abel

/-- **Recording.**  A register that equals the total and follows the replaced agent still equals
the total. -/
theorem recorded_set {hold : α → M} {agents : List α} {i : ℕ} {a b : α} {register register' : M}
    (hget : agents[i]? = some a) (hreg : register = total hold agents)
    (hlocal : register' + hold a = register + hold b) :
    register' = total hold (agents.set i b) := by
  have hset := total_set hold b hget
  refine add_right_cancel (b := hold a) ?_
  rw [hlocal, hset, hreg]

end Cancel

section Order

variable [AddCommMonoid M] [PartialOrder M] [IsOrderedAddMonoid M]

/-- Agents that each hold at most as much hold at most as much together. -/
lemma total_le_total {f g : α → M} {agents : List α} (h : ∀ a ∈ agents, f a ≤ g a) :
    total f agents ≤ total g agents :=
  List.sum_le_sum h

/-- One agent holds at most what all do. -/
lemma hold_le_total [CanonicallyOrderedAdd M] {hold : α → M} {agents : List α} {a : α}
    (h : a ∈ agents) : hold a ≤ total hold agents :=
  List.single_le_sum (fun _ _ => zero_le) _ (List.mem_map_of_mem h)

end Order

/-! ## Counting holders -/

/-- Agents that each hold a token are at most as many as the tokens held. -/
lemma countP_le_total {p : α → Bool} {hold : α → ℕ} {agents : List α}
    (h : ∀ a ∈ agents, p a → 1 ≤ hold a) : agents.countP p ≤ total hold agents := by
  induction agents with
  | nil => simp
  | cons a agents ih =>
      have ih' := ih fun x hx => h x (List.mem_cons_of_mem _ hx)
      have ha := h a List.mem_cons_self
      rw [List.countP_cons, total_cons]
      split_ifs with hp
      · have := ha hp
        omega
      · omega

/-- The agents that hold a token are at least as many as the tokens, when each holds at most one. -/
lemma total_le_countP {p : α → Bool} {hold : α → ℕ} {agents : List α}
    (h : ∀ a ∈ agents, hold a ≤ if p a then 1 else 0) : total hold agents ≤ agents.countP p := by
  induction agents with
  | nil => simp
  | cons a agents ih =>
      have ih' := ih fun x hx => h x (List.mem_cons_of_mem _ hx)
      have ha := h a List.mem_cons_self
      rw [List.countP_cons, total_cons]
      omega

/-- **At most one holder.**  Where at most one token is held, only one agent holds any. -/
theorem index_unique {hold : α → ℕ} :
    ∀ {agents : List α} {i j : ℕ} {a b : α}, total hold agents ≤ 1 →
      agents[i]? = some a → agents[j]? = some b → 0 < hold a → 0 < hold b → i = j
  | [], i, _, a, _, _, hi, _, _, _ => by simp at hi
  | x :: agents, 0, 0, _, _, _, _, _, _, _ => rfl
  | x :: agents, 0, j + 1, a, b, hle, hi, hj, ha, hb => by
      rw [List.getElem?_cons_zero, Option.some.injEq] at hi
      rw [List.getElem?_cons_succ] at hj
      have hb' : hold b ≤ total hold agents := hold_le_total (List.mem_of_getElem? hj)
      rw [total_cons, hi] at hle
      omega
  | x :: agents, i + 1, 0, a, b, hle, hi, hj, ha, hb => by
      rw [List.getElem?_cons_zero, Option.some.injEq] at hj
      rw [List.getElem?_cons_succ] at hi
      have ha' : hold a ≤ total hold agents := hold_le_total (List.mem_of_getElem? hi)
      rw [total_cons, hj] at hle
      omega
  | x :: agents, i + 1, j + 1, a, b, hle, hi, hj, ha, hb => by
      rw [List.getElem?_cons_succ] at hi hj
      rw [total_cons] at hle
      rw [index_unique (by omega) hi hj ha hb]

/-- A resource that is held is held by some agent. -/
lemma mem_total {β : Type*} {hold : α → Multiset β} {agents : List α} {x : β} :
    x ∈ total hold agents ↔ ∃ a ∈ agents, x ∈ hold a := by
  induction agents with
  | nil => simp
  | cons a agents ih => simp [ih]

/-- **Exclusive holding.**  Of resources that are all different, each is held by one agent. -/
theorem holder_unique {β : Type*} [DecidableEq β] {hold : α → Multiset β} {agents : List α}
    (hnodup : (total hold agents).Nodup) {i j : ℕ} {a b : α} {x : β}
    (hi : agents[i]? = some a) (hj : agents[j]? = some b) (ha : x ∈ hold a) (hb : x ∈ hold b) :
    i = j := by
  have hcount : total (fun a => (hold a).count x) agents ≤ 1 := by
    have hmap := total_map (Multiset.countAddMonoidHom x) hold agents
    simp only [Multiset.coe_countAddMonoidHom] at hmap
    rw [← hmap]
    exact Multiset.nodup_iff_count_le_one.mp hnodup x
  exact index_unique hcount hi hj (Multiset.count_pos.mpr ha) (Multiset.count_pos.mpr hb)

end Ledger
