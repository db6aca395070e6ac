import Mathlib.Data.List.Forall2

/-!
# Computations that may return an error or panic

A function that returns a `Result` either returns it, with a value or an error, or unwinds.
`Fallible ε α` keeps the three apart: an error can be matched on and turned into something else,
a panic passes through.

* `attempt` — the `Result` as a value, which the caller is free to store.
* `mapError` — `map_err`.
* `bind_eq_ok`, `bind_eq_error`, `mapM_eq_ok` — how a sequence of computations succeeds and fails.
* `attempt_eq_ok`, `exists_eq_ofExcept` — an attempt gives the `Result` unless there is a panic.
-/

/-- Why a computation has no value. -/
inductive Failure (ε : Type*)
  | error (e : ε)
  | panic
  deriving DecidableEq, Repr

abbrev Fallible (ε α : Type*) := Except (Failure ε) α

namespace Fallible

universe u

variable {ε ε' : Type*} {α β : Type u}

/-- Return an error. -/
abbrev fail (e : ε) : Fallible ε α := .error (.error e)

abbrev panic : Fallible ε α := .error .panic

/-- The value or the error as a value. -/
def attempt {ε : Type u} : Fallible ε α → Fallible ε' (Except ε α)
  | .ok a => .ok (.ok a)
  | .error (.error e) => .ok (.error e)
  | .error .panic => .error .panic

def mapError (f : ε → ε') : Fallible ε α → Fallible ε' α
  | .ok a => .ok a
  | .error (.error e) => .error (.error (f e))
  | .error .panic => .error .panic

def ofExcept : Except ε α → Fallible ε α
  | .ok a => .ok a
  | .error e => .error (.error e)

/-- Subtraction on an unsigned type, with overflow checks. -/
def checkedSub (a b : ℕ) : Fallible ε ℕ := if b ≤ a then .ok (a - b) else panic

def checkedDiv (a b : ℕ) : Fallible ε ℕ := if b = 0 then panic else .ok (a / b)

/-- The computation panics. -/
def Panics (x : Fallible ε α) : Prop := x = .error .panic

/-! ## Sequences of computations -/

@[simp] lemma ok_bind (a : α) (f : α → Except ε β) : (Except.ok a >>= f) = f a := rfl

@[simp] lemma error_bind (e : ε) (f : α → Except ε β) :
    ((Except.error e : Except ε α) >>= f) = .error e := rfl

@[simp] lemma ok_map (f : α → β) (a : α) : f <$> (Except.ok a : Except ε α) = .ok (f a) := rfl

@[simp] lemma error_map (f : α → β) (e : ε) :
    f <$> (Except.error e : Except ε α) = .error e := rfl

lemma bind_eq_ok {x : Except ε α} {f : α → Except ε β} {b : β} :
    (x >>= f) = .ok b ↔ ∃ a, x = .ok a ∧ f a = .ok b := by
  cases x with
  | error e => simp
  | ok a => simp

lemma bind_eq_error {x : Except ε α} {f : α → Except ε β} {e : ε} :
    (x >>= f) = .error e ↔ x = .error e ∨ ∃ a, x = .ok a ∧ f a = .error e := by
  cases x with
  | error e' => simp
  | ok a => simp

lemma map_eq_ok {f : α → β} {x : Except ε α} {b : β} :
    f <$> x = .ok b ↔ ∃ a, x = .ok a ∧ f a = b := by
  cases x with
  | error e => simp
  | ok a => simp

lemma map_eq_error {f : α → β} {x : Except ε α} {e : ε} :
    f <$> x = .error e ↔ x = .error e := by
  cases x with
  | error e' => simp
  | ok a => simp

lemma attempt_eq_ok {ε α : Type u} {x : Fallible ε α} {result : Except ε α} :
    (attempt x : Fallible ε' (Except ε α)) = .ok result ↔ x = ofExcept result := by
  rcases x with (e | -) | a <;> cases result <;> simp [attempt, ofExcept]

lemma exists_eq_ofExcept {ε α : Type u} {x : Fallible ε α} :
    (∃ result, x = ofExcept result) ↔ ¬ Panics x := by
  constructor
  · rintro ⟨result, rfl⟩ hpanics
    cases result <;> cases hpanics
  · intro hnot
    rcases x with (e | -) | a
    · exact ⟨.error e, rfl⟩
    · exact absurd rfl hnot
    · exact ⟨.ok a, rfl⟩

lemma mapM_eq_ok {f : α → Except ε β} {as : List α} : ∀ {bs : List β},
    as.mapM f = .ok bs ↔ List.Forall₂ (fun a b => f a = .ok b) as bs := by
  induction as with
  | nil =>
      intro bs
      simp [pure, Except.pure, eq_comm]
  | cons a as ih =>
      intro bs
      simp only [List.mapM_cons, bind_pure_comp, bind_eq_ok, map_eq_ok, ih,
        List.forall₂_cons_left_iff]
      constructor
      · rintro ⟨b, hb, bs, hbs, rfl⟩
        exact ⟨b, bs, hb, hbs, rfl⟩
      · rintro ⟨b, bs, hb, hbs, rfl⟩
        exact ⟨b, hb, bs, hbs, rfl⟩

lemma exists_mapM_eq_ok {f : α → Except ε β} {as : List α} (h : ∀ a ∈ as, ∃ b, f a = .ok b) :
    ∃ bs, as.mapM f = .ok bs := by
  induction as with
  | nil => exact ⟨[], rfl⟩
  | cons a as ih =>
      rw [List.forall_mem_cons] at h
      obtain ⟨b, hb⟩ := h.1
      obtain ⟨bs, hbs⟩ := ih h.2
      exact ⟨b :: bs, by simp [hb, hbs]⟩

end Fallible
