import SqliteRwPool.Library.Text

/-!
# Texts as bytes and numbers as digits

What writes the texts that `from_utf8_lossy` and `str::parse` read, and that these read it back.

* `encode` — UTF-8, character by character.
* `fromUtf8Lossy_encode` — decoding what is encoded loses nothing.
* `parseUsize_digits` — a number is read from its decimal digits with any zeros before them.
* `extension_append` — the extension of a name is what is put behind its last dot.
-/

namespace Text

/-! ## UTF-8 -/

/-- `str::as_bytes`. -/
def encode (s : String) : List UInt8 := s.toList.flatMap String.utf8EncodeChar

/-- A byte in the range of those that may follow adds its last six bits. -/
lemma continuationBytes_cons {bits m : ℕ} {lo hi : UInt8} (hm : m < 64)
    (hlo : lo.toNat ≤ m + 0x80) (hhi : m + 0x80 ≤ hi.toNat) (ranges : List (UInt8 × UInt8))
    (bytes : List UInt8) :
    continuationBytes bits ((lo, hi) :: ranges) (UInt8.ofNat (m + 0x80) :: bytes) =
      continuationBytes (bits * 64 + m) ranges bytes := by
  have hbyte : (UInt8.ofNat (m + 0x80)).toNat = m + 0x80 := by
    rw [UInt8.toNat_ofNat', Nat.mod_eq_of_lt (by omega)]
  have hrange : lo ≤ UInt8.ofNat (m + 0x80) ∧ UInt8.ofNat (m + 0x80) ≤ hi := by
    rw [UInt8.le_iff_toNat_le, UInt8.le_iff_toNat_le, hbyte]
    exact ⟨hlo, hhi⟩
  rw [continuationBytes, if_pos hrange, hbyte, show (m + 0x80) % 64 = m by omega]

/-- The first byte of a character of one byte. -/
lemma leadByte_one : ∀ n < 0x80, leadByte (UInt8.ofNat n) = some (n, []) := by decide

/-- The first byte of a character of two bytes, unless that has a shorter form. -/
lemma leadByte_two : ∀ n < 30,
    leadByte (UInt8.ofNat (n + 2 + 0xC0)) = some (n + 2, [(0x80, 0xBF)]) := by decide

/-- The first byte of a character of three bytes.  Shorter forms and surrogates are excluded by the
second byte. -/
lemma leadByte_three : ∀ n < 16, leadByte (UInt8.ofNat (n + 0xE0)) =
    some (n, [(if n = 0 then 0xA0 else 0x80, if n = 0xD then 0x9F else 0xBF), (0x80, 0xBF)]) := by
  decide

/-- The first byte of a character of four bytes. -/
lemma leadByte_four : ∀ n < 5, leadByte (UInt8.ofNat (n + 0xF0)) =
    some (n, [(if n = 0 then 0x90 else 0x80, if n = 4 then 0x8F else 0xBF), (0x80, 0xBF),
      (0x80, 0xBF)]) := by
  decide

/-- What a character is decoded to, its own bytes first. -/
def decodeChar : List UInt8 → Option (Char × List UInt8)
  | [] => none
  | b :: bytes =>
      match leadByte b with
      | none => some (replacementCharacter, bytes)
      | some (bits, ranges) => some (continuationBytes bits ranges bytes)

lemma decodeLossy_succ (fuel : ℕ) (bytes : List UInt8) :
    decodeLossy (fuel + 1) bytes =
      match decodeChar bytes with
      | none => []
      | some (c, rest) => c :: decodeLossy fuel rest := by
  cases bytes with
  | nil => rfl
  | cons b bytes =>
      simp only [decodeLossy, decodeChar]
      cases leadByte b <;> rfl

/-- A character of three bytes, once the first is read. -/
lemma continuationBytes_two {c : Char} {bits : ℕ} {lo hi : UInt8} (rest : List UInt8)
    (hbits : bits = c.toNat / 4096) (hlo : lo.toNat ≤ c.toNat / 64 % 0x40 + 0x80)
    (hhi : c.toNat / 64 % 0x40 + 0x80 ≤ hi.toNat) :
    continuationBytes bits [(lo, hi), (0x80, 0xBF)]
      (UInt8.ofNat (c.toNat / 64 % 0x40 + 0x80) :: UInt8.ofNat (c.toNat % 0x40 + 0x80) :: rest) =
        (c, rest) := by
  rw [continuationBytes_cons (by omega) hlo hhi,
    continuationBytes_cons (by omega) (by simp) (by simp; omega), continuationBytes,
    show (bits * 64 + c.toNat / 64 % 0x40) * 64 + c.toNat % 0x40 = c.toNat by omega,
    Char.ofNat_toNat]

/-- A character of four bytes, once the first is read. -/
lemma continuationBytes_three {c : Char} {bits : ℕ} {lo hi : UInt8} (rest : List UInt8)
    (hbits : bits = c.toNat / 262144) (hlo : lo.toNat ≤ c.toNat / 4096 % 0x40 + 0x80)
    (hhi : c.toNat / 4096 % 0x40 + 0x80 ≤ hi.toNat) :
    continuationBytes bits [(lo, hi), (0x80, 0xBF), (0x80, 0xBF)]
      (UInt8.ofNat (c.toNat / 4096 % 0x40 + 0x80) :: UInt8.ofNat (c.toNat / 64 % 0x40 + 0x80) ::
        UInt8.ofNat (c.toNat % 0x40 + 0x80) :: rest) = (c, rest) := by
  rw [continuationBytes_cons (by omega) hlo hhi]
  exact continuationBytes_two rest (by omega) (by simp) (by simp; omega)

/-- **An encoded character is decoded to itself**, and nothing of what follows it is read. -/
theorem decodeChar_utf8EncodeChar (c : Char) (rest : List UInt8) :
    decodeChar (String.utf8EncodeChar c ++ rest) = some (c, rest) := by
  have hvalid : c.toNat < 0xD800 ∨ 0xDFFF < c.toNat ∧ c.toNat < 0x110000 := c.valid
  have hval : c.val.toNat = c.toNat := rfl
  simp only [String.utf8EncodeChar, hval]
  split_ifs with h₁ h₂ h₃
  · simp only [List.cons_append, List.nil_append, decodeChar, leadByte_one c.toNat (by omega)]
    rw [continuationBytes, Char.ofNat_toNat]
  · have hlead := leadByte_two (c.toNat / 64 % 0x20 - 2) (by omega)
    rw [show c.toNat / 64 % 0x20 - 2 + 2 = c.toNat / 64 % 0x20 by omega] at hlead
    simp only [List.cons_append, List.nil_append, decodeChar, hlead]
    rw [continuationBytes_cons (by omega) (by simp) (by simp; omega), continuationBytes,
      show c.toNat / 64 % 0x20 * 64 + c.toNat % 0x40 = c.toNat by omega, Char.ofNat_toNat]
  · simp only [List.cons_append, List.nil_append, decodeChar,
      leadByte_three (c.toNat / 4096 % 0x10) (by omega)]
    refine congrArg some (continuationBytes_two rest (by omega) ?_ ?_)
    · split_ifs
      · simp
        omega
      · simp
    · split_ifs <;> (simp; omega)
  · simp only [List.cons_append, List.nil_append, decodeChar,
      leadByte_four (c.toNat / 262144 % 8) (by omega)]
    refine congrArg some (continuationBytes_three rest (by omega) ?_ ?_)
    · split_ifs
      · simp
        omega
      · simp
    · split_ifs <;> (simp; omega)

lemma length_le_length_encode (l : List Char) :
    l.length ≤ (l.flatMap String.utf8EncodeChar).length := by
  induction l with
  | nil => simp
  | cons c l ih =>
      have hpos := c.utf8Size_pos
      rw [List.flatMap_cons, List.length_append, String.length_utf8EncodeChar, List.length_cons]
      omega

lemma decodeLossy_encode (l : List Char) : ∀ fuel, l.length ≤ fuel →
    decodeLossy fuel (l.flatMap String.utf8EncodeChar) = l := by
  induction l with
  | nil =>
      intro fuel _
      cases fuel <;> rfl
  | cons c l ih =>
      intro fuel hfuel
      obtain ⟨fuel, rfl⟩ : ∃ n, fuel = n + 1 := ⟨fuel - 1, by simp at hfuel; omega⟩
      simp only [List.flatMap_cons, decodeLossy_succ, decodeChar_utf8EncodeChar]
      rw [ih fuel (by simpa using hfuel)]

/-- **Decoding what is encoded loses nothing.** -/
theorem fromUtf8Lossy_encode (s : String) : fromUtf8Lossy (encode s) = s := by
  rw [fromUtf8Lossy, encode, decodeLossy_encode _ _ (length_le_length_encode _),
    String.ofList_toList]

/-- Of what is encoded nothing is lost, and what is cut off or out of range is replaced. -/
example : fromUtf8Lossy (encode "Sé") = "Sé" ∧
    fromUtf8Lossy [0x53, 0xC3, 0xA9, 0xE2, 0x82, 0x53, 0xED, 0xA0, 0x53] = "Sé�S��S" := by
  decide +kernel

/-! ## Numbers -/

/-- Digits are read one after the other, as long as the number stays below `2 ^ 64`. -/
lemma foldlM_addDigit {digits : List Char} (hdigits : ∀ c ∈ digits, c.isDigit) :
    ∀ value, Nat.ofDigitChars 10 digits value < 2 ^ 64 →
      digits.foldlM addDigit value = some (Nat.ofDigitChars 10 digits value) := by
  induction digits with
  | nil =>
      intro value _
      simp
  | cons c digits ih =>
      rw [List.forall_mem_cons] at hdigits
      intro value hlt
      rw [Nat.ofDigitChars_cons] at hlt ⊢
      have hmono := @Nat.ofDigitChars_eq_ofDigitChars_zero digits
        (10 * value + (c.toNat - '0'.toNat))
      have hpow : 1 * (10 * value + (c.toNat - '0'.toNat)) ≤
          10 ^ digits.length * (10 * value + (c.toNat - '0'.toNat)) :=
        Nat.mul_le_mul_right _ (Nat.pow_pos (by omega))
      have hvalue : value * 10 + (c.toNat - '0'.toNat) < 2 ^ 64 := by omega
      have hdigit : addDigit value c = some (10 * value + (c.toNat - '0'.toNat)) := by
        simp only [addDigit, hdigits.1, if_true, if_pos hvalue, Nat.mul_comm]
      rw [List.foldlM_cons, hdigit]
      exact ih hdigits.2 _ hlt

lemma parseUsize_eq_parseDigits {digits : List Char} (hdigits : ∀ c ∈ digits, c.isDigit) :
    parseUsize digits = parseDigits digits := by
  rw [parseUsize.eq_def]
  split
  · exact absurd (hdigits '+' List.mem_cons_self) (by decide)
  · rfl

/-- **A number is read from its decimal digits**, with any zeros before them. -/
theorem parseUsize_digits (zeros : ℕ) {n : ℕ} (hn : n < 2 ^ 64) :
    parseUsize (List.replicate zeros '0' ++ Nat.toDigits 10 n) = some n := by
  set digits := List.replicate zeros '0' ++ Nat.toDigits 10 n with hdef
  have hdigits : ∀ c ∈ digits, c.isDigit := by
    intro c hc
    rcases List.mem_append.mp hc with hzero | hdigit
    · rw [List.eq_of_mem_replicate hzero]
      rfl
    · exact Nat.isDigit_of_mem_toDigits (by omega) (by omega) hdigit
  have hne : digits ≠ [] := by simp [hdef]
  have hvalue : Nat.ofDigitChars 10 digits 0 = n := by
    simp [hdef, Nat.ofDigitChars_append]
  rw [parseUsize_eq_parseDigits hdigits, parseDigits, if_neg hne,
    foldlM_addDigit hdigits 0 (by omega), hvalue]

/-- Below `2 ^ 64`, that is; a plus sign is allowed. -/
example : parseUsize "0018446744073709551615".toList = some (2 ^ 64 - 1) ∧
    parseUsize "18446744073709551616".toList = none ∧ parseUsize "+01".toList = some 1 := by
  decide +kernel

/-! ## File names -/

lemma splitFirst_append {c : Char} {before : List Char} (h : c ∉ before) (after : List Char) :
    splitFirst c (before ++ c :: after) = some (before, after) := by
  induction before with
  | nil => simp [splitFirst]
  | cons d before ih =>
      rw [List.mem_cons, not_or] at h
      have hne : d ≠ c := fun heq => h.1 heq.symm
      rw [List.cons_append, splitFirst, if_neg hne, ih h.2]
      rfl

/-- A path without a slash is a file name, unless it stands for a directory. -/
lemma fileName_of_not_mem {path : List Char} (hslash : '/' ∉ path) (hlength : 3 ≤ path.length) :
    fileName path = some path := by
  have hsplit : path.splitOn '/' = [path] := by
    refine List.splitOnP_eq_singleton fun c hc => ?_
    rw [beq_eq_false_iff_ne]
    rintro rfl
    exact hslash hc
  have hne : path ≠ [] ∧ path ≠ ['.'] ∧ path ≠ ['.', '.'] := by
    refine ⟨?_, ?_, ?_⟩ <;> rintro rfl <;> simp at hlength
  simp [fileName, hsplit, hne]

/-- **The extension of a name is what is put behind its last dot**, when there is something before
it. -/
theorem extension_append {name ext : List Char} (hname : name ≠ []) (hslash : '/' ∉ name ++ ext)
    (hdot : '.' ∉ ext) (hext : ext ≠ []) : extension (name ++ '.' :: ext) = some ext := by
  have hlength : 3 ≤ (name ++ '.' :: ext).length := by
    have := List.length_pos_iff.mpr hname
    have := List.length_pos_iff.mpr hext
    rw [List.length_append, List.length_cons]
    omega
  have hfile : fileName (name ++ '.' :: ext) = some (name ++ '.' :: ext) := by
    refine fileName_of_not_mem ?_ hlength
    simpa using hslash
  have hreverse : (name ++ '.' :: ext).reverse = ext.reverse ++ '.' :: name.reverse := by simp
  have hbefore : name.reverse ≠ [] := by simpa using hname
  have hsplit := @splitFirst_append '.' ext.reverse (by simpa using hdot) name.reverse
  simp [extension, hfile, hreverse, hsplit, hbefore]

/-- The last dot counts, and only if there is something before it. -/
example : extension "b.up.sql".toList = some "sql".toList ∧ extension ".sql".toList = none := by
  decide +kernel

end Text
