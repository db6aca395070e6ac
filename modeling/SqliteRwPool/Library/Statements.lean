import Mathlib.Tactic.Common

/-!
# Scripts of several statements

A script is read from left to right, and a reader knows from what it has read whether the next
character ends a statement.  What follows the last such character is one more statement, unless
there is nothing in it but blanks.

* `Reader.EndsWith` — a text is one statement, which its last character ends.
* `Reader.statements_iff` — a script made of texts has these texts for its statements exactly if
  each of them is one.
* `foldlM_eq_iff` — scripts that run alike on all engines have the same statements.
-/

namespace Statements

universe u

variable {S α : Type*}

/-- How scripts are read: what the next character makes of the state (`none` if it ends a statement)
and whether only blanks have been read. -/
structure Reader (S α : Type*) where
  start : S
  step : S → α → Option S
  isBlank : S → Bool

namespace Reader

variable (R : Reader S α)

/-- Cut a script after each character that ends a statement; `read` has been read of the next one.
Returns the statements, what is left over and the state that it is left in. -/
def cut : S → (read : List α) → List α → List (List α) × List α × S
  | s, read, [] => ([], read, s)
  | s, read, c :: rest =>
      match R.step s c with
      | some s => cut s (read ++ [c]) rest
      | none => ((read ++ [c]) :: (cut R.start [] rest).1, (cut R.start [] rest).2)

/-- The statements of a script. -/
def statements (script : List α) : List (List α) :=
  if R.isBlank (R.cut R.start [] script).2.2 then (R.cut R.start [] script).1
  else (R.cut R.start [] script).1 ++ [(R.cut R.start [] script).2.1]

/-- Reading the text from the state, the last character ends the statement and none before it. -/
def endsFrom : S → List α → Bool
  | _, [] => false
  | s, c :: rest =>
      match R.step s c with
      | some s => endsFrom s rest
      | none => rest.isEmpty

/-- The text is one statement, which its last character ends. -/
def EndsWith (text : List α) : Prop := R.endsFrom R.start text

instance (text : List α) : Decidable (R.EndsWith text) :=
  inferInstanceAs (Decidable (R.endsFrom R.start text = true))

/-- There are only blanks in the text. -/
def Blank (text : List α) : Prop := ∃ s, text.foldlM R.step R.start = some s ∧ R.isBlank s

variable {R} {s : S} {read text rest : List α}

/-! ## Cutting -/

lemma cut_append (h : R.endsFrom s text) :
    R.cut s read (text ++ rest) =
      ((read ++ text) :: (R.cut R.start [] rest).1, (R.cut R.start [] rest).2) := by
  induction text generalizing s read with
  | nil => cases h
  | cons c text ih =>
      rw [endsFrom] at h
      rw [List.cons_append, cut]
      cases hs : R.step s c with
      | none =>
          simp only [hs, List.isEmpty_iff] at h
          subst h
          rfl
      | some s' =>
          simp only [hs] at h
          simp only [ih h, List.append_assoc, List.singleton_append]

/-- Nothing is lost. -/
lemma flatten_cut (R : Reader S α) (s : S) (read text : List α) :
    (R.cut s read text).1.flatten ++ (R.cut s read text).2.1 = read ++ text := by
  induction text generalizing s read with
  | nil => simp [cut]
  | cons c text ih =>
      rw [cut]
      cases R.step s c with
      | none => simp [ih R.start []]
      | some s' => simp [ih s' (read ++ [c])]

/-- What is cut off is one statement: the first of them with what had been read of it. -/
lemma endsWith_of_mem_cut (hread : ∀ text, R.endsFrom s text → R.EndsWith (read ++ text))
    {statement : List α} (h : statement ∈ (R.cut s read text).1) : R.EndsWith statement := by
  induction text generalizing s read with
  | nil => cases h
  | cons c text ih =>
      rw [cut] at h
      cases hs : R.step s c with
      | none =>
          simp only [hs, List.mem_cons] at h
          rcases h with rfl | h
          · exact hread [c] (by simp [endsFrom, hs])
          · exact ih (fun _ => id) h
      | some s' =>
          simp only [hs] at h
          refine ih (fun text htext => ?_) h
          rw [List.append_assoc]
          exact hread (c :: text) (by simpa [endsFrom, hs] using htext)

/-- What is left over is what was read, if no character ends a statement. -/
lemma cut_of_foldlM {s' : S} (h : text.foldlM R.step s = some s') :
    R.cut s read text = ([], read ++ text, s') := by
  induction text generalizing s read with
  | nil =>
      cases h
      rw [cut, List.append_nil]
  | cons c text ih =>
      obtain ⟨s₁, hs₁, h⟩ := Option.bind_eq_some_iff.mp h
      simp only [cut, hs₁, ih h, List.append_assoc, List.singleton_append]

lemma cut_flatten {texts : List (List α)} (h : ∀ text ∈ texts, R.EndsWith text)
    (rest : List α) : R.cut R.start [] (texts.flatten ++ rest) =
      (texts ++ (R.cut R.start [] rest).1, (R.cut R.start [] rest).2) := by
  induction texts with
  | nil => rfl
  | cons text texts ih =>
      rw [List.forall_mem_cons] at h
      rw [List.flatten_cons, List.append_assoc, cut_append h.1, ih h.2]
      rfl

/-! ## The statements of a script -/

/-- **A script made of texts, with blanks behind them, has these texts for its statements exactly if
each of them is one.** -/
theorem statements_iff {texts : List (List α)} (hblank : R.Blank rest) (hrest : rest ≠ []) :
    R.statements (texts.flatten ++ rest) = texts ↔ ∀ text ∈ texts, R.EndsWith text := by
  constructor
  · intro h
    have hends : ∀ statement ∈ (R.cut R.start [] (texts.flatten ++ rest)).1,
        R.EndsWith statement := fun _ => endsWith_of_mem_cut fun _ => id
    have hflatten := R.flatten_cut R.start [] (texts.flatten ++ rest)
    rw [statements] at h
    generalize R.cut R.start [] (texts.flatten ++ rest) = pieces at h hends hflatten
    split_ifs at h with hb
    · rwa [← h]
    · -- the last of the texts would be the end of the script, and there is more behind it
      have hlast := congrArg List.flatten h
      rw [List.flatten_append, List.flatten_singleton, hflatten, List.nil_append] at hlast
      exact absurd (List.append_right_eq_self.mp hlast) hrest
  · intro h
    obtain ⟨s', hs', hb⟩ := hblank
    rw [statements, cut_flatten h, cut_of_foldlM hs', List.append_nil]
    exact if_pos hb

end Reader

/-! ## Running a script -/

/-- **Scripts that run alike on all engines have the same statements.** -/
theorem foldlM_eq_iff {ε : Type*} {α : Type u} {xs ys : List α} :
    (∀ (κ : Type u) (run : κ → α → Except ε κ) (c : κ), xs.foldlM run c = ys.foldlM run c) ↔
      xs = ys := by
  constructor
  · intro h
    -- an engine that keeps a list of what it was asked
    have hlog : ∀ zs log : List α,
        zs.foldlM (fun log z => (Except.ok (log ++ [z]) : Except ε _)) log = .ok (log ++ zs) := by
      intro zs
      induction zs with
      | nil => simp [pure, Except.pure]
      | cons z zs ih => simp [bind, Except.bind, ih]
    have heq := h (List α) (fun log z => .ok (log ++ [z])) []
    rw [hlog, hlog] at heq
    simpa using heq
  · rintro rfl κ run c
    rfl

end Statements
