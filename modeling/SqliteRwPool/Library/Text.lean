import Mathlib.Algebra.Group.Nat.Defs
import Mathlib.Tactic.Common

/-!
# Text functions of Rust's standard library

What `str`, `Path` and `String` do on the way from a file name to a number, an extension and a
text, on lists of characters, and how a text is repeated.  Paths are those of Unix.

* `dropLast_flatten_replicate` — repeating with a trailing separator, which is then removed, is
  joining.
-/

namespace Text

/-- `splitn(2, c)` when it gives two parts: what stands before and after the first `c`. -/
def splitFirst (c : Char) : List Char → Option (List Char × List Char)
  | [] => none
  | d :: rest =>
      if d = c then some ([], rest)
      else (splitFirst c rest).map fun parts => (d :: parts.1, parts.2)

/-- One digit more of a number below `2 ^ 64`. -/
def addDigit (value : ℕ) (c : Char) : Option ℕ :=
  if c.isDigit then
    let value := value * 10 + (c.toNat - '0'.toNat)
    if value < 2 ^ 64 then some value else none
  else none

def parseDigits (digits : List Char) : Option ℕ :=
  if digits = [] then none else digits.foldlM addDigit 0

/-- `str::parse::<usize>`: an optional plus sign and at least one digit. -/
def parseUsize : List Char → Option ℕ
  | '+' :: digits => parseDigits digits
  | digits => parseDigits digits

/-- `Path::file_name`: the last component, unless it is the parent directory. -/
def fileName (path : List Char) : Option (List Char) :=
  match ((path.splitOn '/').filter fun part => part ≠ [] ∧ part ≠ ['.']).getLast? with
  | some name => if name = ['.', '.'] then none else some name
  | none => none

/-- `Path::extension`: what follows the last dot of the file name, unless that is its first
character. -/
def extension (path : List Char) : Option (List Char) := do
  let name ← fileName path
  let (after, before) ← splitFirst '.' name.reverse
  if before = [] then none else some after.reverse

def eqIgnoreAsciiCase (a b : List Char) : Bool := a.map Char.toLower == b.map Char.toLower

/-- `char::is_whitespace`. -/
def isWhitespace (c : Char) : Bool :=
  let code := c.toNat
  0x9 ≤ code && code ≤ 0xD || code == 0x20 || code == 0x85 || code == 0xA0 || code == 0x1680 ||
    0x2000 ≤ code && code ≤ 0x200A || code == 0x2028 || code == 0x2029 || code == 0x202F ||
    code == 0x205F || code == 0x3000

/-- `str::trim`. -/
def trim (s : String) : String :=
  let start := s.toList.dropWhile isWhitespace
  String.ofList (start.reverse.dropWhile isWhitespace).reverse

/-- Trimming removes nothing but white space. -/
lemma count_dropWhile_isWhitespace {c : Char} (hc : isWhitespace c = false) (l : List Char) :
    (l.dropWhile isWhitespace).count c = l.count c := by
  induction l with
  | nil => rfl
  | cons d l ih =>
      rw [List.dropWhile_cons]
      split_ifs with hd
      · have hne : d ≠ c := by
          rintro rfl
          rw [hc] at hd
          cases hd
        rw [ih, List.count_cons_of_ne hne]
      · rfl

lemma count_trim {c : Char} (hc : isWhitespace c = false) (s : String) :
    (trim s).toList.count c = s.toList.count c := by
  rw [trim, String.toList_ofList, List.count_reverse, count_dropWhile_isWhitespace hc,
    List.count_reverse, count_dropWhile_isWhitespace hc]

/-! ## UTF-8 -/

/-- The bits that a first byte contributes, and the ranges of the bytes that must follow it. -/
def leadByte (b : UInt8) : Option (ℕ × List (UInt8 × UInt8)) :=
  let tail : UInt8 × UInt8 := (0x80, 0xBF)
  if b ≤ 0x7F then some (b.toNat, [])
  else if 0xC2 ≤ b ∧ b ≤ 0xDF then some (b.toNat % 32, [tail])
  else if b = 0xE0 then some (0, [(0xA0, 0xBF), tail])
  else if b = 0xED then some (0xD, [(0x80, 0x9F), tail])
  else if 0xE1 ≤ b ∧ b ≤ 0xEF then some (b.toNat % 16, [tail, tail])
  else if b = 0xF0 then some (0, [(0x90, 0xBF), tail, tail])
  else if 0xF1 ≤ b ∧ b ≤ 0xF3 then some (b.toNat % 8, [tail, tail, tail])
  else if b = 0xF4 then some (4, [(0x80, 0x8F), tail, tail])
  else none

def replacementCharacter : Char := Char.ofNat 0xFFFD

/-- Read the bytes that follow a first byte.  A byte out of its range ends the character, which is
replaced, and is read as a first byte again. -/
def continuationBytes (bits : ℕ) : List (UInt8 × UInt8) → List UInt8 → Char × List UInt8
  | [], bytes => (Char.ofNat bits, bytes)
  | _ :: _, [] => (replacementCharacter, [])
  | (lo, hi) :: ranges, b :: bytes =>
      if lo ≤ b ∧ b ≤ hi then continuationBytes (bits * 64 + b.toNat % 64) ranges bytes
      else (replacementCharacter, b :: bytes)

/-- Decode at most `fuel` characters. -/
def decodeLossy : (fuel : ℕ) → List UInt8 → List Char
  | 0, _ => []
  | _ + 1, [] => []
  | fuel + 1, b :: bytes =>
      match leadByte b with
      | none => replacementCharacter :: decodeLossy fuel bytes
      | some (bits, ranges) =>
          let (c, rest) := continuationBytes bits ranges bytes
          c :: decodeLossy fuel rest

/-- `String::from_utf8_lossy`: every maximal beginning of a character that does not go on as one is
replaced by U+FFFD.  Each character takes a byte at least, so there are no more than bytes. -/
def fromUtf8Lossy (bytes : List UInt8) : String := String.ofList (decodeLossy bytes.length bytes)

/-! ## Repetition -/

/-- `str::repeat`. -/
def repeatText (s : String) (n : ℕ) : String :=
  String.ofList (List.replicate n s.toList).flatten

/-- `String::pop`, when the character it returns is not used. -/
def pop (s : String) : String := String.ofList s.toList.dropLast

lemma intercalate_replicate_succ {α : Type*} (l sep : List α) (n : ℕ) :
    sep.intercalate (List.replicate (n + 2) l) =
      l ++ sep ++ sep.intercalate (List.replicate (n + 1) l) := by
  rw [List.replicate_succ, List.intercalate_cons_of_ne_nil (by simp)]

/-- Repeating a text with a separator after it and removing the last separator is joining. -/
lemma dropLast_flatten_replicate {α : Type*} (l : List α) (sep : α) (n : ℕ) :
    (List.replicate (n + 1) (l ++ [sep])).flatten.dropLast =
      [sep].intercalate (List.replicate (n + 1) l) := by
  induction n with
  | zero => simp
  | succ n ih =>
      have hne : (List.replicate (n + 1) (l ++ [sep])).flatten ≠ [] := by simp
      rw [List.replicate_succ, List.flatten_cons, List.dropLast_append_of_ne_nil hne, ih,
        intercalate_replicate_succ]

/-- Joining with a separator adds nothing to the count of anything else. -/
lemma count_intercalate_replicate {α : Type*} [DecidableEq α] {a sep : α} (h : a ≠ sep)
    (l : List α) (n : ℕ) :
    ([sep].intercalate (List.replicate n l)).count a = n * l.count a := by
  have hsep : [sep].count a = 0 := List.count_eq_zero.mpr (by simpa using h)
  match n with
  | 0 => simp
  | 1 => simp
  | n + 2 =>
      rw [intercalate_replicate_succ, List.count_append, List.count_append, hsep,
        count_intercalate_replicate h l (n + 1), Nat.succ_mul (n + 1)]
      omega

end Text
