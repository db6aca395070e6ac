import Mathlib.Tactic.Common

/-!
# Transition systems given by a step function

A system is a step function `S → A → Option S`: `none` says that the action is not enabled in
the state.  `ReachableBy step ok s₀` is the set of states that runs from `s₀` reach when every
step of the run meets `ok` in the state it is taken from; `Reachable` is the case without a
condition.

* `ReachableBy.invariant` — the invariant rule: what holds at the start and is kept by one
  admitted step holds in every state reached.
* `ReachableBy.project` — a state function that maps every step to a step of a second system, or
  to no step at all, maps reachable states to reachable states.
* `run` executes a list of actions, so that a concrete run can be evaluated.
* `length_le_of_run` — where every step uses up some of a measure, a run is no longer than the
  measure allows.
-/

namespace Transition

variable {S A T B : Type*}

/-- The states reached from `s₀` by steps that all meet `ok`. -/
inductive ReachableBy (step : S → A → Option S) (ok : S → A → Prop) (s₀ : S) : S → Prop
  | start : ReachableBy step ok s₀ s₀
  | next {s s' : S} {a : A} : ReachableBy step ok s₀ s → ok s a → step s a = some s' →
      ReachableBy step ok s₀ s'

/-- The states reached from `s₀` by any steps. -/
abbrev Reachable (step : S → A → Option S) : S → S → Prop :=
  ReachableBy step fun _ _ => True

/-- **The invariant rule.** -/
theorem ReachableBy.invariant {step : S → A → Option S} {ok : S → A → Prop} {s₀ s : S}
    {I : S → Prop} (h : ReachableBy step ok s₀ s) (hstart : I s₀)
    (hstep : ∀ s a s', I s → ok s a → step s a = some s' → I s') : I s := by
  induction h with
  | start => exact hstart
  | next _ hok hs ih => exact hstep _ _ _ ih hok hs

/-- **Projection.**  If `f` maps each admitted step to an admitted step of the second system or
leaves the second state alone, it maps reachable states to reachable states. -/
theorem ReachableBy.project {step : S → A → Option S} {ok : S → A → Prop}
    {step' : T → B → Option T} {ok' : T → B → Prop} {s₀ s : S} (f : S → T)
    (h : ReachableBy step ok s₀ s)
    (hstep : ∀ s a s', ok s a → step s a = some s' →
      f s' = f s ∨ ∃ b, ok' (f s) b ∧ step' (f s) b = some (f s')) :
    ReachableBy step' ok' (f s₀) (f s) := by
  induction h with
  | start => exact .start
  | next _ hok hs ih =>
      rcases hstep _ _ _ hok hs with heq | ⟨b, hok', hs'⟩
      · rw [heq]; exact ih
      · exact .next ih hok' hs'

/-- Execute a list of actions, stopping with `none` at the first one that is not enabled. -/
def run (step : S → A → Option S) : S → List A → Option S
  | s, [] => some s
  | s, a :: as => (step s a).bind fun s' => run step s' as

/-- What a list of actions that are admitted in every state reaches is reachable by admitted
steps. -/
lemma reachableBy_of_run {step : S → A → Option S} {ok : S → A → Prop} {s₀ : S} :
    ∀ (as : List A) {s s' : S}, ReachableBy step ok s₀ s → (∀ a ∈ as, ∀ s, ok s a) →
      run step s as = some s' → ReachableBy step ok s₀ s'
  | [], s, s', h, _, hrun => by
      rw [run, Option.some.injEq] at hrun
      rwa [← hrun]
  | a :: as, s, s', h, hok, hrun => by
      obtain ⟨t, ht, hrest⟩ := Option.bind_eq_some_iff.mp hrun
      have hnext := h.next (hok a List.mem_cons_self s) ht
      exact reachableBy_of_run as hnext (fun b hb => hok b (List.mem_cons_of_mem _ hb)) hrest

lemma reachable_of_run {step : S → A → Option S} {s₀ s s' : S} (as : List A)
    (h : Reachable step s₀ s) (hrun : run step s as = some s') : Reachable step s₀ s' :=
  reachableBy_of_run as h (fun _ _ _ => trivial) hrun

/-- Execute a list of actions, each admitted in the state it is taken from. -/
def runWhere (step : S → A → Option S) (ok : S → A → Prop) [∀ s a, Decidable (ok s a)] :
    S → List A → Option S
  | s, [] => some s
  | s, a :: as => if ok s a then (step s a).bind fun s' => runWhere step ok s' as else none

lemma reachableBy_of_runWhere {step : S → A → Option S} {ok : S → A → Prop}
    [∀ s a, Decidable (ok s a)] {s₀ : S} :
    ∀ (as : List A) {s s' : S}, ReachableBy step ok s₀ s → runWhere step ok s as = some s' →
      ReachableBy step ok s₀ s'
  | [], s, s', h, hrun => by
      rw [runWhere, Option.some.injEq] at hrun
      rwa [← hrun]
  | a :: as, s, s', h, hrun => by
      rw [runWhere] at hrun
      split_ifs at hrun with hok
      obtain ⟨t, ht, hrest⟩ := Option.bind_eq_some_iff.mp hrun
      exact reachableBy_of_runWhere as (h.next hok ht) hrest

/-- **Termination.**  When every step that meets `ok` decreases `μ`, a run of such steps is no
longer than `μ` at its start. -/
theorem length_le_of_run {step : S → A → Option S} {ok : A → Prop} (μ : S → ℕ)
    (hdecr : ∀ s a s', ok a → step s a = some s' → μ s' < μ s) :
    ∀ (as : List A) {s s' : S}, (∀ a ∈ as, ok a) → run step s as = some s' →
      as.length + μ s' ≤ μ s
  | [], s, s', _, hrun => by
      rw [run, Option.some.injEq] at hrun
      simp only [hrun, List.length_nil, Nat.zero_add, Nat.le_refl]
  | a :: as, s, s', hok, hrun => by
      obtain ⟨t, ht, hrest⟩ := Option.bind_eq_some_iff.mp hrun
      have hstep := hdecr s a t (hok a List.mem_cons_self) ht
      have ih := length_le_of_run μ hdecr as (fun b hb => hok b (List.mem_cons_of_mem _ hb)) hrest
      rw [List.length_cons]
      omega

end Transition
