import Mathlib.Logic.Function.Basic
import Mathlib.Tactic.Common

/-!
# Maps keyed by type whose entries are set once

A `TypeMap V` holds at most one value `V k` for each type `k`.  `set` leaves an entry that is
already there alone, and `getOrInit` initialises a missing entry by a function that may itself
initialise others.

* `set_of_some` — an entry that is set is final.
* `get_getOrInit` — what `getOrInit` returns is what the entry holds from then on.
* `insertAll_iff`, `get_insertAll` — entries that are put in one after the other go in exactly when
  they are distinct and were all missing, and then they are what is there in addition.
-/

/-- At most one value for each type. -/
structure TypeMap {K : Type*} (V : K → Type*) where
  get : (k : K) → Option (V k)

namespace TypeMap

variable {K : Type*} {V : K → Type*}

def empty : TypeMap V := ⟨fun _ => none⟩

@[simp] lemma get_empty (k : K) : (empty : TypeMap V).get k = none := rfl

variable [DecidableEq K]

/-- Set an entry unless it is set already. -/
def set (m : TypeMap V) (k : K) (v : V k) : TypeMap V :=
  match m.get k with
  | some _ => m
  | none => ⟨Function.update m.get k (some v)⟩

/-- Get an entry, after setting it to what `init` returns if it is missing. -/
def getOrInit (m : TypeMap V) (k : K) (init : TypeMap V → V k × TypeMap V) : V k × TypeMap V :=
  match m.get k with
  | some v => (v, m)
  | none => (((init m).2.get k).getD (init m).1, (init m).2.set k (init m).1)

lemma set_of_some {m : TypeMap V} {k : K} {w : V k} (h : m.get k = some w) (v : V k) :
    m.set k v = m := by
  simp only [set, h]

lemma get_set_self (m : TypeMap V) (k : K) (v : V k) :
    (m.set k v).get k = some ((m.get k).getD v) := by
  cases h : m.get k with
  | none => simp [set, h]
  | some w => rw [set_of_some h, h, Option.getD_some]

lemma get_set_of_ne (m : TypeMap V) {k k' : K} (v : V k) (hne : k' ≠ k) :
    (m.set k v).get k' = m.get k' := by
  cases h : m.get k with
  | none => simp [set, h, hne]
  | some w => rw [set_of_some h]

lemma getOrInit_of_some {m : TypeMap V} {k : K} {v : V k} (h : m.get k = some v)
    (init : TypeMap V → V k × TypeMap V) : m.getOrInit k init = (v, m) := by
  simp only [getOrInit, h]

lemma getOrInit_of_none {m : TypeMap V} {k : K} (h : m.get k = none)
    (init : TypeMap V → V k × TypeMap V) :
    m.getOrInit k init = (((init m).2.get k).getD (init m).1, (init m).2.set k (init m).1) := by
  simp only [getOrInit, h]

/-- What `getOrInit` returns is what the entry holds afterwards. -/
lemma get_getOrInit (m : TypeMap V) (k : K) (init : TypeMap V → V k × TypeMap V) :
    (m.getOrInit k init).2.get k = some (m.getOrInit k init).1 := by
  cases h : m.get k with
  | none => simp only [getOrInit_of_none h, get_set_self]
  | some v => simp only [getOrInit_of_some h, h]

/-! ## Several entries -/

/-- Set the entries of a list in order, each of which must be missing when its turn comes. -/
def insertAll : TypeMap V → List (Sigma V) → Option (TypeMap V)
  | m, [] => some m
  | m, e :: es => if (m.get e.1).isSome then none else insertAll (m.set e.1 e.2) es

lemma get_set_of_none {m : TypeMap V} {k : K} (h : m.get k = none) (v : V k) (k' : K) (w : V k') :
    (m.set k v).get k' = some w ↔ m.get k' = some w ∨ (⟨k', w⟩ : Sigma V) = ⟨k, v⟩ := by
  by_cases hk : k' = k
  · subst hk
    simp [get_set_self, h, eq_comm]
  · simp [get_set_of_ne m v hk, hk]

lemma insertAll_cons_eq_some {m m' : TypeMap V} {e : Sigma V} {es : List (Sigma V)} :
    m.insertAll (e :: es) = some m' ↔
      m.get e.1 = none ∧ (m.set e.1 e.2).insertAll es = some m' := by
  rw [insertAll]
  split_ifs with h
  · simp [Option.isSome_iff_ne_none.mp h]
  · simp [Option.not_isSome_iff_eq_none.mp h]

/-- **Entries go in exactly when they are distinct and were all missing.** -/
theorem insertAll_iff {es : List (Sigma V)} : ∀ {m : TypeMap V},
    (∃ m', m.insertAll es = some m') ↔
      (es.map Sigma.fst).Nodup ∧ ∀ e ∈ es, m.get e.1 = none := by
  induction es with
  | nil => simp [insertAll]
  | cons e es ih =>
      intro m
      simp only [insertAll_cons_eq_some, exists_and_left, ih, List.map_cons, List.nodup_cons,
        List.forall_mem_cons, List.mem_map, not_exists, not_and]
      constructor
      · rintro ⟨hmissing, hnodup, hrest⟩
        have hne : ∀ e' ∈ es, e'.1 ≠ e.1 := by
          intro e' he' heq
          have hset := hrest e' he'
          rw [heq, get_set_self] at hset
          cases hset
        refine ⟨⟨hne, hnodup⟩, hmissing, fun e' he' => ?_⟩
        rw [← get_set_of_ne m e.2 (hne e' he')]
        exact hrest e' he'
      · rintro ⟨⟨hne, hnodup⟩, hmissing, hrest⟩
        refine ⟨hmissing, hnodup, fun e' he' => ?_⟩
        rw [get_set_of_ne m e.2 (hne e' he')]
        exact hrest e' he'

/-- **They are what is there in addition.** -/
theorem get_insertAll {es : List (Sigma V)} : ∀ {m m' : TypeMap V}, m.insertAll es = some m' →
    ∀ (k : K) (w : V k), m'.get k = some w ↔ m.get k = some w ∨ ⟨k, w⟩ ∈ es := by
  induction es with
  | nil =>
      rintro m m' h k w
      cases h
      simp
  | cons e es ih =>
      intro m m' h k w
      obtain ⟨hmissing, hrest⟩ := insertAll_cons_eq_some.mp h
      rw [ih hrest, get_set_of_none hmissing, List.mem_cons, or_assoc]

end TypeMap
