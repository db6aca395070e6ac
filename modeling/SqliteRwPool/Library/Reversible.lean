import Mathlib.Data.List.Induction

/-!
# Steps that can be taken back

A list of steps leads from a starting state upwards, each step may fail, and `down` takes a step
back.  Where `down` undoes every step from the state that the steps before it lead to, a walk up and
down the list is at every moment where the direct way up leads.

* `climb`, `descend` — steps upwards in order, and back in reverse order.
* `Undoes` — taking a step back restores the state before it.
* `Undoes.descend`, `climb_append` — a walk downwards or upwards from where a way up leads.
-/

namespace Reversible

variable {α S : Type*}

/-- Take the steps in order. -/
def climb (up : α → S → Option S) (steps : List α) (s : S) : Option S :=
  steps.foldlM (fun s a => up a s) s

/-- Take the steps back, the last one first. -/
def descend (down : α → S → Option S) (steps : List α) (s : S) : Option S :=
  steps.reverse.foldlM (fun s a => down a s) s

lemma climb_append (up : α → S → Option S) (xs ys : List α) (s : S) :
    climb up (xs ++ ys) s = (climb up xs s).bind (climb up ys) := by
  rw [climb, List.foldlM_append]
  rfl

lemma climb_concat (up : α → S → Option S) (xs : List α) (a : α) (s : S) :
    climb up (xs ++ [a]) s = (climb up xs s).bind (up a) := by
  rw [climb_append]
  congr 1
  funext t
  exact bind_pure _

@[simp] lemma descend_nil (down : α → S → Option S) (s : S) : descend down [] s = some s := rfl

lemma descend_concat (down : α → S → Option S) (xs : List α) (a : α) (s : S) :
    descend down (xs ++ [a]) s = (down a s).bind (descend down xs) := by
  rw [descend, List.reverse_concat, List.foldlM_cons]
  rfl

/-- A step that is taken back from where the steps up to it lead leaves the state before it. -/
def Undoes (up down : α → S → Option S) (start : S) (steps : List α) : Prop :=
  ∀ before a after, steps = before ++ a :: after → ∀ s s' t, climb up before start = some s →
    up a s = some s' → down a s' = some t → t = s

/-- Steps that are undone from wherever they are taken. -/
lemma undoes_of_forall {up down : α → S → Option S} {start : S} {steps : List α}
    (h : ∀ a ∈ steps, ∀ s s' t, up a s = some s' → down a s' = some t → t = s) :
    Undoes up down start steps := by
  intro before a after hsteps s s' t _ hup hdown
  exact h a (by simp [hsteps]) s s' t hup hdown

/-- **A walk downwards ends where the direct way up to its end leads.** -/
theorem Undoes.descend {up down : α → S → Option S} {start : S} {steps : List α}
    (h : Undoes up down start steps) {before : List α} (leg : List α) :
    ∀ {after : List α} {s t : S}, steps = before ++ leg ++ after →
      climb up (before ++ leg) start = some s → Reversible.descend down leg s = some t →
      climb up before start = some t := by
  induction leg using List.reverseRecOn with
  | nil =>
      intro after s t _ hup hdown
      rw [descend_nil, Option.some.injEq] at hdown
      rwa [List.append_nil, hdown] at hup
  | append_singleton leg a ih =>
      intro after s t hsteps hup hdown
      rw [← List.append_assoc, climb_concat, Option.bind_eq_some_iff] at hup
      obtain ⟨r, hr, ha⟩ := hup
      rw [descend_concat, Option.bind_eq_some_iff] at hdown
      obtain ⟨r', ha', hrest⟩ := hdown
      have hback : r' = r := h (before ++ leg) a after (by simp [hsteps]) r s r' hr ha ha'
      rw [hback] at hrest
      have hparts : steps = before ++ leg ++ a :: after := by simp [hsteps]
      exact ih hparts hr hrest

end Reversible
