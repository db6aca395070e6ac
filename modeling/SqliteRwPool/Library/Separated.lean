import Mathlib.Data.List.Forall2
import Mathlib.Tactic.Common

/-!
# Grammars of lists with a separator, and their readers

A rule of a grammar relates values and the texts that stand for them.  A reader takes a value off
the start of a text and returns what is left.  `Reads` connects the two: a reader reads a rule if it
finds what the rule derives and nothing else, whatever follows it, as long as `follow` allows that.

* `Reads.between` — a rule between two fixed words.
* `Reads.separated` — a list of items with a separator; the separator must not follow.
* `Reads.readAll` — a whole text: it is read exactly if the rule derives it, so it stands for one
  value at most.
-/

namespace Grammar

universe u v w

variable {α : Type u} {β : Type v} {γ : Type w}

/-- The texts that stand for each value. -/
abbrev Rule (α : Type u) (β : Type v) := β → List α → Prop

/-- Reads a value, and returns the rest of the text. -/
abbrev Reader (α : Type u) (β : Type v) := List α → Option (β × List α)

/-- The reader finds what the rule derives, and nothing else. -/
structure Reads (follow : List α → Prop) (read : Reader α β) (rule : Rule α β) : Prop where
  sound : ∀ {input b rest}, read input = some (b, rest) →
    ∃ text, rule b text ∧ input = text ++ rest
  complete : ∀ {b text rest}, rule b text → follow rest → read (text ++ rest) = some (b, rest)

/-! ## Rules -/

/-- Items with a separator between them, at least one. -/
inductive Separated (sep : α) (item : Rule α β) : Rule α (List β)
  | one {b : β} {text : List α} : item b text → Separated sep item [b] text
  | cons {b : β} {bs : List β} {text rest : List α} :
      item b text → Separated sep item bs rest → Separated sep item (b :: bs) (text ++ sep :: rest)

/-- Between two fixed words. -/
def Between (before after : List α) (rule : Rule α β) : Rule α β :=
  fun b text => ∃ inner, rule b inner ∧ text = before ++ inner ++ after

/-- What is kept of the value. -/
def Mapped (f : β → γ) (rule : Rule α β) : Rule α γ :=
  fun c text => ∃ b, rule b text ∧ f b = c

/-- Joining texts with a separator derives the list of what they stand for. -/
theorem separated_intercalate {sep : α} {item : Rule α β} {bs : List β} {texts : List (List α)}
    (h : List.Forall₂ item bs texts) (hne : bs ≠ []) :
    Separated sep item bs ([sep].intercalate texts) := by
  induction h with
  | nil => exact absurd rfl hne
  | @cons b text bs texts hitem hrest ih =>
      cases hrest with
      | nil =>
          rw [List.intercalate_singleton]
          exact .one hitem
      | cons hnext hrest =>
          rw [List.intercalate_cons_of_ne_nil (List.cons_ne_nil _ _), List.append_assoc,
            List.singleton_append]
          exact .cons hitem (ih (List.cons_ne_nil _ _))

/-- Repeating an item. -/
lemma separated_replicate (sep : α) {item : Rule α β} {b : β} {text : List α} (h : item b text)
    {n : ℕ} (hn : 0 < n) :
    Separated sep item (List.replicate n b) ([sep].intercalate (List.replicate n text)) := by
  have hitems : ∀ n, List.Forall₂ item (List.replicate n b) (List.replicate n text) := by
    intro n
    induction n with
    | zero => exact .nil
    | succ n ih => exact .cons h ih
  refine separated_intercalate (hitems n) ?_
  rw [ne_eq, List.replicate_eq_nil_iff]
  exact Nat.pos_iff_ne_zero.mp hn

/-! ## Readers -/

section Readers

def readMapped (f : β → γ) (read : Reader α β) : Reader α γ := fun input =>
  (read input).map fun found => (f found.1, found.2)

/-- Read a whole text. -/
def readAll (read : Reader α β) (input : List α) : Option β :=
  match read input with
  | some (b, []) => some b
  | _ => none

variable [DecidableEq α]

def readBetween (before after : List α) (read : Reader α β) : Reader α β := fun input =>
  (input.dropPrefix? before).bind fun inner =>
    (read inner).bind fun found =>
      (found.2.dropPrefix? after).map fun rest => (found.1, rest)

/-- Read at most `fuel` items. -/
def readItems (sep : α) (read : Reader α β) : (fuel : ℕ) → Reader α (List β)
  | 0, _ => none
  | fuel + 1, input =>
      match read input with
      | none => none
      | some (b, []) => some ([b], [])
      | some (b, c :: rest) =>
          if c = sep then
            (readItems sep read fuel rest).map fun found => (b :: found.1, found.2)
          else some ([b], c :: rest)

/-- Read items as long as a separator follows.  There are no more separators than tokens. -/
def readSeparated (sep : α) (read : Reader α β) : Reader α (List β) := fun input =>
  readItems sep read (input.length + 1) input

end Readers

/-! ## What they read -/

section Correctness

variable {follow : List α → Prop} {read : Reader α β} {rule : Rule α β}

theorem Reads.mapped (f : β → γ) (h : Reads follow read rule) :
    Reads follow (readMapped f read) (Mapped f rule) where
  sound {input c rest} hread := by
    simp only [readMapped, Option.map_eq_some_iff] at hread
    obtain ⟨⟨b, found⟩, hfound, heq⟩ := hread
    cases heq
    obtain ⟨text, hrule, rfl⟩ := h.sound hfound
    exact ⟨text, ⟨b, hrule, rfl⟩, rfl⟩
  complete {c text rest} hrule hfollow := by
    obtain ⟨b, hb, rfl⟩ := hrule
    rw [readMapped, h.complete hb hfollow, Option.map_some]

/-- **A whole text is read exactly if the rule derives it.** -/
theorem Reads.readAll (h : Reads follow read rule) (hend : follow []) {input : List α} {b : β} :
    readAll read input = some b ↔ rule b input := by
  constructor
  · intro hread
    rw [Grammar.readAll] at hread
    split at hread
    · rename_i b' hfound
      cases hread
      obtain ⟨text, hrule, rfl⟩ := h.sound hfound
      rwa [List.append_nil]
    · cases hread
  · intro hrule
    have hread := h.complete hrule hend
    rw [List.append_nil] at hread
    rw [Grammar.readAll, hread]

/-- **A text stands for one value at most.** -/
theorem Reads.unique (h : Reads follow read rule) (hend : follow []) {input : List α} {b b' : β}
    (hb : rule b input) (hb' : rule b' input) : b = b' :=
  Option.some.inj (((h.readAll hend).mpr hb).symm.trans ((h.readAll hend).mpr hb'))

variable [DecidableEq α]

theorem Reads.between {before after : List α} (h : Reads follow read rule)
    (hafter : ∀ rest, follow (after ++ rest)) :
    Reads (fun _ => True) (readBetween before after read) (Between before after rule) where
  sound {input b rest} hread := by
    simp only [readBetween, Option.bind_eq_some_iff, Option.map_eq_some_iff] at hread
    obtain ⟨inner, hbefore, ⟨b', found⟩, hfound, rest', hrest, heq⟩ := hread
    cases heq
    obtain ⟨text, hrule, rfl⟩ := h.sound hfound
    simp only [List.dropPrefix?_eq_some_iff, beq_iff_eq] at hbefore hrest
    obtain ⟨_, rfl, rfl⟩ := hbefore
    obtain ⟨_, hrest, rfl⟩ := hrest
    exact ⟨_, ⟨text, hrule, rfl⟩, by simp [hrest]⟩
  complete {b text rest} hrule _ := by
    obtain ⟨inner, hinner, rfl⟩ := hrule
    have hread := h.complete hinner (hafter rest)
    simp [readBetween, List.append_assoc, List.dropPrefix?_append_of_beq, hread]

lemma readItems_sound {sep : α} (h : Reads follow read rule) (fuel : ℕ) :
    ∀ {input : List α} {bs : List β} {rest : List α},
      readItems sep read fuel input = some (bs, rest) →
        ∃ text, Separated sep rule bs text ∧ input = text ++ rest := by
  induction fuel with
  | zero =>
      intro input bs rest hread
      cases hread
  | succ fuel ih =>
      intro input bs rest hread
      rw [readItems] at hread
      split at hread
      · cases hread
      · rename_i b hitem
        cases hread
        obtain ⟨text, hrule, rfl⟩ := h.sound hitem
        exact ⟨text, .one hrule, rfl⟩
      · rename_i b c rest' hitem
        obtain ⟨text, hrule, rfl⟩ := h.sound hitem
        split_ifs at hread with hsep
        · obtain ⟨⟨bs', rest''⟩, hrest, heq⟩ := Option.map_eq_some_iff.mp hread
          cases heq
          obtain ⟨text', hitems, rfl⟩ := ih hrest
          exact ⟨text ++ sep :: text', .cons hrule hitems, by simp [hsep]⟩
        · cases hread
          exact ⟨text, .one hrule, rfl⟩

lemma readItems_complete {sep : α} (h : Reads (fun _ => True) read rule) {bs : List β}
    {text : List α} (hitems : Separated sep rule bs text) :
    ∀ {fuel : ℕ} {rest : List α}, text.length < fuel → rest.head? ≠ some sep →
      readItems sep read fuel (text ++ rest) = some (bs, rest) := by
  induction hitems with
  | @one b text hitem =>
      intro fuel rest hfuel hrest
      cases fuel with
      | zero => exact absurd hfuel (Nat.not_lt_zero _)
      | succ fuel =>
          rw [readItems, h.complete hitem trivial]
          cases rest with
          | nil => rfl
          | cons c rest =>
              rw [List.head?_cons, ne_eq, Option.some.injEq] at hrest
              simp only [if_neg hrest]
  | @cons b bs text items hitem hitems ih =>
      intro fuel rest hfuel hrest
      cases fuel with
      | zero => exact absurd hfuel (Nat.not_lt_zero _)
      | succ fuel =>
          rw [List.length_append, List.length_cons] at hfuel
          rw [List.append_assoc, List.cons_append, readItems, h.complete hitem trivial]
          simp only [if_true, ih (by omega : items.length < fuel) hrest, Option.map_some]

/-- **Lists with a separator are read**, if the items are read whatever follows them. -/
theorem Reads.separated (sep : α) (h : Reads (fun _ => True) read rule) :
    Reads (fun rest => rest.head? ≠ some sep) (readSeparated sep read) (Separated sep rule) where
  sound hread := readItems_sound h _ hread
  complete {bs text rest} hitems hrest := by
    refine readItems_complete h hitems ?_ hrest
    rw [List.length_append]
    omega

end Correctness

end Grammar
