import SqliteRwPool.Batched.Exact
import SqliteRwPool.Library.Separated

/-!
# The shape of the VALUES clause

The clause is `'VALUES ' tuple (',' tuple)* ' '`, where a tuple is `'(' '?' (',' '?')* ')'`, and its
value is the list of the widths of its tuples.

* `parseClause_eq_some` — `parseClause` reads exactly this grammar.
* `valuesClause_shape` — `values_clause` builds the clause of the requested shape and of no other,
  and no two shapes share a place in the statement cache.
-/

namespace SqliteRwPool

open Fallible Grammar Text

/-- A question mark. -/
def Placeholder : Rule Char Unit := fun _ text => text = ['?']

/-- Question marks between brackets; the value is their number. -/
def Tuple : Rule Char ℕ := Mapped List.length (Between ['('] [')'] (Separated ',' Placeholder))

/-- The clause; its value is the widths of its tuples. -/
def ValuesClause : Rule Char (List ℕ) := Between "VALUES ".toList [' '] (Separated ',' Tuple)

def readPlaceholder : Reader Char Unit
  | '?' :: rest => some ((), rest)
  | _ => none

def readTuple : Reader Char ℕ :=
  readMapped List.length (readBetween ['('] [')'] (readSeparated ',' readPlaceholder))

def parseClause : List Char → Option (List ℕ) :=
  readAll (readBetween "VALUES ".toList [' '] (readSeparated ',' readTuple))

lemma reads_placeholder : Reads (fun _ => True) readPlaceholder Placeholder where
  sound {input b rest} hread := by
    unfold readPlaceholder at hread
    split at hread
    · cases hread
      exact ⟨['?'], rfl, rfl⟩
    · cases hread
  complete {b text rest} hrule _ := by
    rw [show text = ['?'] from hrule]
    rfl

lemma reads_tuple : Reads (fun _ => True) readTuple Tuple :=
  ((reads_placeholder.separated ',').between (by simp)).mapped List.length

/-- **The parser accepts the grammar**, and finds the widths that it derives. -/
theorem parseClause_eq_some {text : List Char} {widths : List ℕ} :
    parseClause text = some widths ↔ ValuesClause widths text :=
  ((reads_tuple.separated ',').between (by simp)).readAll trivial

lemma tuple_tupleText {cols : ℕ} (hcols : 0 < cols) : Tuple cols (tupleText cols).toList :=
  have hmark : Placeholder () ['?'] := rfl
  ⟨List.replicate cols (), ⟨_, separated_replicate ',' hmark hcols, toList_tupleText cols⟩,
    List.length_replicate⟩

/-- The text of `rows` tuples of `cols` question marks is such a clause. -/
lemma valuesClause_valuesText {cols rows : ℕ} (hcols : 0 < cols) (hrows : 0 < rows) :
    ValuesClause (List.replicate rows cols) (valuesText cols rows).toList :=
  ⟨_, separated_replicate ',' (tuple_tupleText hcols) hrows, toList_valuesText cols rows⟩

lemma valuesClause_eq_ok {ε : Type*} {cols rows : ℕ} {text : String} :
    (valuesClause cols rows : Fallible ε String) = .ok text ↔
      0 < cols ∧ 0 < rows ∧ text = valuesText cols rows := by
  rw [valuesClause_eq]
  split_ifs with hpos
  · simp [hpos, eq_comm]
  · simp only [false_iff]
    exact fun h => hpos ⟨h.1, h.2.1⟩

/-! ## The statement cache -/

/-- Statements are cached by their text, up to white space around it. -/
structure KeyedByText (key : String → String) : Prop where
  count : ∀ {c : Char}, isWhitespace c = false →
    ∀ query : String, (key query).toList.count c = query.toList.count c

lemma keyedByText_trim : KeyedByText trim where
  count := count_trim

/-- Two clauses of different shapes, embedded in the same way, are never cached in one place. -/
theorem KeyedByText.shape_eq {key : String → String} (hkey : KeyedByText key)
    {before after : String} {cols cols' rows rows' : ℕ} (hrows : 0 < rows)
    (h : key (before ++ valuesText cols rows ++ after) =
      key (before ++ valuesText cols' rows' ++ after)) : cols = cols' ∧ rows = rows' := by
  have hcount : ∀ c, isWhitespace c = false →
      (valuesText cols rows).toList.count c = (valuesText cols' rows').toList.count c := by
    intro c hc
    have hkeys := congrArg (fun text => text.toList.count c) h
    simp only [hkey.count hc, String.toList_append, List.count_append] at hkeys
    omega
  have hopen := hcount '(' (by decide)
  have hplaceholders := hcount '?' (by decide)
  rw [count_open, count_open] at hopen
  rw [count_placeholder, count_placeholder, hopen] at hplaceholders
  rw [hopen] at hrows
  exact ⟨Nat.eq_of_mul_eq_mul_left hrows hplaceholders, hopen⟩

/-- **`values_clause` builds exactly the requested shape.**  For at least one column and one row,
its text is a clause of `rows` tuples of `cols` placeholders and of nothing else, the parser finds
these, and no other shape has this text.  The statement that a batch is given has the text with this
clause; where the query creator embeds the clause, it is not cached in the place of a batch of
another shape. -/
theorem valuesClause_shape {cols rows : ℕ} (hcols : 1 ≤ cols) (hrows : 1 ≤ rows) :
    ∃ text : String, (valuesClause cols rows : Fallible SqlError String) = .ok text ∧
      (∀ widths, ValuesClause widths text.toList ↔ widths = List.replicate rows cols) ∧
      parseClause text.toList = some (List.replicate rows cols) ∧
      text.toList.count '?' = cols * rows ∧
      (∀ cols' rows', (valuesClause cols' rows' : Fallible SqlError String) = .ok text →
        cols' = cols ∧ rows' = rows) ∧
      ∀ {σ V Row : Type} [Serialize Row V] (engine : Engine σ V)
        (clause : BatchedBulkValuesClause V) (db : σ) (batch : List Row) (statement : Statement V),
        clause.create engine db rows cols batch = .ok statement →
          statement.query = clause.queryCreator text ∧
          ∀ key : String → String, KeyedByText key →
            (∃ before after : String, ∀ values,
              clause.queryCreator values = before ++ values ++ after) →
            ∀ cols' rows' text', (valuesClause cols' rows' : Fallible SqlError String) = .ok text' →
              key statement.query = key (clause.queryCreator text') →
                cols' = cols ∧ rows' = rows := by
  have hclause := valuesClause_valuesText hcols hrows
  have hparse := parseClause_eq_some.mpr hclause
  refine ⟨valuesText cols rows, valuesClause_eq_ok.mpr ⟨hcols, hrows, rfl⟩, ?_, hparse, ?_, ?_, ?_⟩
  · intro widths
    constructor
    · intro hwidths
      exact Option.some.inj ((parseClause_eq_some.mpr hwidths).symm.trans hparse)
    · rintro rfl
      exact hclause
  · rw [count_placeholder, Nat.mul_comm]
  · intro cols' rows' htext
    obtain ⟨-, hrows', htext⟩ := valuesClause_eq_ok.mp htext
    exact valuesText_injective hrows' htext.symm
  · intro σ V Row _ engine clause db batch statement hcreate
    have htext := (BatchedBulkValuesClause.create_ok hcreate).query
    refine ⟨htext, ?_⟩
    intro key hkey hembeds cols' rows' text' htext' hsame
    obtain ⟨before, after, hquery⟩ := hembeds
    obtain ⟨-, hrows', rfl⟩ := valuesClause_eq_ok.mp htext'
    rw [htext, hquery, hquery] at hsame
    exact hkey.shape_eq hrows' hsame.symm

/-- Six placeholders for three rows of two, not for two rows of three. -/
theorem valuesClause_shape_sixPlaceholders :
    parseClause "VALUES (?,?),(?,?),(?,?) ".toList = some [2, 2, 2] ∧
      trim "INSERT INTO t VALUES (?,?),(?,?),(?,?) " ≠
        trim (BatchedBulkValuesClause.insertClause.queryCreator "VALUES (?,?,?),(?,?,?) ") := by
  obtain ⟨text, htext, -, hparse, -, -, hcache⟩ :=
    valuesClause_shape (by decide : 1 ≤ 2) (by decide : 1 ≤ 3)
  have hthree : (valuesClause 2 3 : Fallible SqlError String) =
      .ok "VALUES (?,?),(?,?),(?,?) " := by
    decide +kernel
  cases hthree.symm.trans htext
  refine ⟨hparse, fun hsame => ?_⟩
  have hcreate : BatchedBulkValuesClause.insertClause.create BatchedBulkValuesClause.tableEngine []
      3 2 BatchedBulkValuesClause.threeRows =
      .ok ⟨"INSERT INTO t VALUES (?,?),(?,?),(?,?) ",
        [(1, 1), (2, 2), (3, 3), (4, 4), (5, 5), (6, 6)]⟩ := by
    decide +kernel
  have hshape := (hcache _ _ _ _ _ hcreate).2 trim keyedByText_trim
    BatchedBulkValuesClause.insertClause_embedsOnce.text 3 2 _ (by decide +kernel) hsame
  exact absurd hshape.1 (by decide)

end SqliteRwPool
