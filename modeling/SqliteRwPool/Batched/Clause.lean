import SqliteRwPool.Library.Fallible
import SqliteRwPool.Library.Text

/-!
# The VALUES clause

`valuesClause` builds the text by repetition, and removes the trailing comma on both levels;
`valuesText` says what the text is: tuples of question marks, joined by commas.

* `valuesClause_eq` — the one is the other, and zero columns or rows panic.
* `valuesText_injective` — the text determines the shape.
-/

namespace SqliteRwPool

open Fallible Text

/-- `values_clause`, for any type of errors: it returns none. -/
def valuesClause {ε : Type*} (cols rows : ℕ) : Fallible ε String :=
  if cols = 0 then panic
  else if rows = 0 then panic
  else
    let singleRow := pop ("(" ++ repeatText "?," cols) ++ "),"
    .ok (pop ("VALUES " ++ repeatText singleRow rows) ++ " ")

/-- A tuple of placeholders. -/
def tupleText (cols : ℕ) : String := "(" ++ String.intercalate "," (List.replicate cols "?") ++ ")"

/-- `VALUES`, and as many tuples of placeholders. -/
def valuesText (cols rows : ℕ) : String :=
  "VALUES " ++ String.intercalate "," (List.replicate rows (tupleText cols)) ++ " "

lemma toList_tupleText (cols : ℕ) :
    (tupleText cols).toList = ['('] ++ [','].intercalate (List.replicate cols ['?']) ++ [')'] := by
  simp [tupleText]

lemma toList_valuesText (cols rows : ℕ) :
    (valuesText cols rows).toList = "VALUES ".toList ++
      [','].intercalate (List.replicate rows (tupleText cols).toList) ++ [' '] := by
  simp [valuesText]

/-! ## The text that is built -/

/-- Repetitions of a text that ends in a comma, after something else, without the last comma. -/
lemma pop_repeatText (start s : String) (item : List Char) (n : ℕ) (hs : s.toList = item ++ [',']) :
    (pop (start ++ repeatText s (n + 1))).toList =
      start.toList ++ [','].intercalate (List.replicate (n + 1) item) := by
  have hne : (List.replicate (n + 1) (item ++ [','])).flatten ≠ [] := by simp
  rw [pop, repeatText, hs, String.toList_ofList, String.toList_append, String.toList_ofList,
    List.dropLast_append_of_ne_nil hne, dropLast_flatten_replicate]

/-- **The clause has the requested shape**, and a clause without columns or rows panics. -/
theorem valuesClause_eq {ε : Type*} (cols rows : ℕ) :
    (valuesClause cols rows : Fallible ε String) =
      if 0 < cols ∧ 0 < rows then .ok (valuesText cols rows) else Fallible.panic := by
  match cols, rows with
  | 0, _ => simp [valuesClause]
  | cols + 1, 0 => simp [valuesClause]
  | cols + 1, rows + 1 =>
      have hrow : (pop ("(" ++ repeatText "?," (cols + 1)) ++ "),").toList =
          (tupleText (cols + 1)).toList ++ [','] := by
        rw [String.toList_append, pop_repeatText "(" "?," ['?'] cols (by decide), toList_tupleText]
        simp
      have hrows := pop_repeatText "VALUES " _ _ rows hrow
      rw [valuesClause, if_neg (Nat.succ_ne_zero _), if_neg (Nat.succ_ne_zero _),
        if_pos ⟨Nat.succ_pos _, Nat.succ_pos _⟩, Except.ok.injEq, ← String.toList_inj,
        String.toList_append, hrows, toList_valuesText]
      simp

/-! ## What the text determines -/

/-- Each tuple of a clause counts alike. -/
lemma count_valuesText {c : Char} (hsep : c ≠ ',') (hword : "VALUES ".toList.count c = 0)
    (hspace : [' '].count c = 0) (cols rows : ℕ) :
    (valuesText cols rows).toList.count c = rows * (tupleText cols).toList.count c := by
  rw [toList_valuesText, List.count_append, List.count_append, hword, hspace,
    count_intercalate_replicate hsep, Nat.zero_add, Nat.add_zero]

/-- The placeholders of a clause. -/
lemma count_placeholder (cols rows : ℕ) :
    (valuesText cols rows).toList.count '?' = rows * cols := by
  have htuple : (tupleText cols).toList.count '?' = cols := by
    rw [toList_tupleText, List.count_append, List.count_append,
      count_intercalate_replicate (by decide)]
    simp
  rw [count_valuesText (by decide) (by decide) (by decide), htuple]

/-- The tuples of a clause. -/
lemma count_open (cols rows : ℕ) : (valuesText cols rows).toList.count '(' = rows := by
  have htuple : (tupleText cols).toList.count '(' = 1 := by
    rw [toList_tupleText, List.count_append, List.count_append,
      count_intercalate_replicate (by decide)]
    simp
  rw [count_valuesText (by decide) (by decide) (by decide), htuple, Nat.mul_one]

/-- **Clauses of different shapes have different texts.** -/
theorem valuesText_injective {cols cols' rows rows' : ℕ} (hrows : 0 < rows)
    (h : valuesText cols rows = valuesText cols' rows') : cols = cols' ∧ rows = rows' := by
  have hopen : rows = rows' := by
    rw [← count_open cols rows, h, count_open]
  have hplaceholders : rows * cols = rows' * cols' := by
    rw [← count_placeholder, h, count_placeholder]
  subst hopen
  exact ⟨Nat.eq_of_mul_eq_mul_left hrows hplaceholders, rfl⟩

end SqliteRwPool
