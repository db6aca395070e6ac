import SqliteRwPool.Batched.Exact
import SqliteRwPool.Query.Rows

/-!
# Bulk queries

`query` goes through the groups of rows as `execute` does, and collects what each statement answers.
The column names are those of the first statement; they are asked for again only while they are
empty.  Space for the output is set aside before the first statement, by the row count.

The two paths run the same statements as long as none of them answers with a row: that is where an
execution ends, with an error, and where a query goes on.

* `queryChunk_cases` — what the two come to on one group.
* `queryLoop_agrees` — on all groups, the execution runs the statements of the query up to the first
  that answers with a row.
* `queryLoop_answers` — a query runs statements that succeed with rows that decode, up to the last.
* `bulkPathsAgree` — how the two bulk paths agree; `bulkPaths_returning` is where they do not.
-/

namespace SqliteRwPool

open Fallible Chunks Serialize

namespace BatchedBulkValuesClause

variable {σ V R Row O : Type} [Serialize Row V] [Deserialize O R]

section Execution

variable (engine : QueryEngine σ V R)

/-- What `query` does with one group: create a statement for it, and decode what it answers.
Returns the size, the column names and the decoded rows. -/
def queryChunk (clause : BatchedBulkValuesClause V) (rowCount columnCount batchSize : ℕ)
    (consumed : ℕ) (columns : List String) (chunk : List Row) (t : Transaction σ V) :
    Fallible SqlError (ℕ × List String × List O) × Transaction σ V :=
  match thisBatchSize rowCount batchSize consumed with
  | .error e => (.error e, t)
  | .ok size =>
      match clause.create engine.toEngine t.db size columnCount chunk with
      | .error e => (.error e, t)
      | .ok statement =>
          let columns := if columns = [] then engine.columns t.db statement.query else columns
          let executed := t.executed ++ [statement]
          match (engine.rawQuery t.db statement).collect columns with
          | (.error e, db) => (.error e, { t with db, executed })
          | (.ok rows, db) =>
              let discarded :=
                if size < batchSize then t.discarded ++ [statement.query] else t.discarded
              (.ok (size, columns, rows), { db, executed, discarded })

/-- The loop of `query` over the groups of rows. -/
def queryLoop (clause : BatchedBulkValuesClause V) (rowCount columnCount batchSize : ℕ) :
    List (List Row) → (consumed : ℕ) → (columns : List String) → (output : List O) →
      Transaction σ V → Fallible SqlError (List O) × Transaction σ V
  | [], _, _, output, t => (.ok output, t)
  | chunk :: chunks, consumed, columns, output, t =>
      match queryChunk engine clause rowCount columnCount batchSize consumed columns chunk t with
      | (.error e, t) => (.error e, t)
      | (.ok (size, columns, rows), t) =>
          queryLoop clause rowCount columnCount batchSize chunks (consumed + size) columns
            (output ++ rows) t

/-- `query`.  Groups of size zero panic. -/
def query [Sized O] (clause : BatchedBulkValuesClause V) (t : Transaction σ V)
    (rowCount batchSize : ℕ) (rows : List Row) : Fallible SqlError (List O) × Transaction σ V :=
  if rowCount = 0 then (.ok [], t)
  else
    match rows with
    | [] => (.ok [], t)
    | row :: _ =>
        match clause.computeColumnCountAndBatchSize batchSize row with
        | .error e => (.error e, t)
        | .ok (columnCount, batchSize) =>
            match withCapacity O rowCount with
            | .error e => (.error e, t)
            | .ok output =>
                if batchSize = 0 then (panic, t)
                else queryLoop engine clause rowCount columnCount batchSize
                  (chunks batchSize rows) 0 [] output t

end Execution

section Agreement

variable {engine : QueryEngine σ V R} {clause : BatchedBulkValuesClause V}
  {rowCount columnCount batchSize consumed : ℕ}

/-- A group that was queried had its statement created, and all rows of the answer decoded; the
statement was taken out of the cache if it is smaller than usual. -/
lemma queryChunk_ok {columns columns' : List String} {chunk : List Row} {size : ℕ} {rows : List O}
    {t t' : Transaction σ V}
    (h : queryChunk engine clause rowCount columnCount batchSize consumed columns chunk t =
      (.ok (size, columns', rows), t')) :
    size = min batchSize (rowCount - consumed) ∧ ∃ statement,
      clause.create engine.toEngine t.db size columnCount chunk = .ok statement ∧
      t'.executed = t.executed ++ [statement] ∧
      columns' = (if columns = [] then engine.columns t.db statement.query else columns) ∧
      (engine.rawQuery t.db statement).failure = none ∧
      (engine.rawQuery t.db statement).rows.mapM (decodeRow columns') = .ok rows ∧
      t'.db = (engine.rawQuery t.db statement).db ∧
      t'.discarded =
        if size < batchSize then t.discarded ++ [statement.query] else t.discarded := by
  rw [queryChunk] at h
  split at h
  · cases h
  · rename_i size' hsize
    split at h
    · cases h
    · rename_i statement hstatement
      dsimp only at h
      split at h
      · cases h
      · rename_i rows' db hcollect
        cases h
        rcases (engine.rawQuery t.db statement).collect_cases (O := O)
          (if columns = [] then engine.columns t.db statement.query else columns) with
          ⟨outputs, houtputs, hfailure, hok⟩ | ⟨outputs, message, -, -, herror⟩ |
          ⟨e, -, -, herror⟩
        · rw [hok] at hcollect
          cases hcollect
          exact ⟨thisBatchSize_ok hsize, statement, hstatement, rfl, rfl, hfailure, houtputs, rfl,
            rfl⟩
        · rw [herror] at hcollect
          cases hcollect
        · rw [hcollect] at herror
          cases herror

/-- How an execution compares with a query that has run these statements from the same state: it has
run those up to the first that answers with a row, which is an error then; without one, they come to
the same end. -/
structure Agree {α β : Type} (engine : QueryEngine σ V R) (t : Transaction σ V)
    (statements : List (Statement V)) (queried : Fallible SqlError α × Transaction σ V)
    (executed : Fallible SqlError β × Transaction σ V) : Prop where
  runs : queried.2.executed = t.executed ++ statements
  stops : executed.2.executed = t.executed ++ engine.untilRow t.db statements
  rowless : engine.Rowless t.db statements →
    queried.2 = executed.2 ∧ ∀ e, queried.1 = .error e ↔ executed.1 = .error e
  row : ¬ engine.Rowless t.db statements →
    executed.1 = fail (.sqliteFailure executeReturnedResults)

/-- Both end before another statement is run. -/
lemma Agree.nil {α β : Type} {t : Transaction σ V} {queried : Fallible SqlError α}
    {executed : Fallible SqlError β} (h : ∀ e, queried = .error e ↔ executed = .error e) :
    Agree engine t [] (queried, t) (executed, t) :=
  ⟨(List.append_nil _).symm, (List.append_nil _).symm, fun _ => ⟨rfl, h⟩,
    fun hrow => absurd trivial hrow⟩

end Agreement

/-- The statements are queried one after the other.  Each of them succeeds with rows that decode to
these, by the columns of its own text; but the last may fail, with an error of the engine or of the
first row that does not decode. -/
inductive Answers (engine : QueryEngine σ V R) :
    σ → List (Statement V) → List (List O) → Option (Failure SqlError) → Prop
  | nil {db : σ} : Answers engine db [] [] none
  | failed {db : σ} {statement : Statement V} {e : Failure SqlError} :
      ((engine.rawQuery db statement).collect (engine.columns db statement.query) :
        Fallible SqlError (List O) × σ).1 = .error e →
      Answers engine db [statement] [] (some e)
  | cons {db : σ} {statement : Statement V} {statements : List (Statement V)} {rows : List O}
      {outputs : List (List O)} {failure : Option (Failure SqlError)} :
      (engine.rawQuery db statement).failure = none →
      List.Forall₂
        (fun row output => decodeRow (engine.columns db statement.query) row = .ok output)
        (engine.rawQuery db statement).rows rows →
      Answers engine (engine.rawQuery db statement).db statements outputs failure →
      Answers engine db (statement :: statements) (rows :: outputs) failure

/-- How many rows the statement with this index is for. -/
def batchRows (rowCount batchSize index : ℕ) : ℕ := min batchSize (rowCount - batchSize * index)

/-- The statements are numbered from `first` on; each is for as many rows as are left, and those
that are for less than a batch, and no others, were taken out of the cache. -/
structure DiscardsShort (clause : BatchedBulkValuesClause V) (rowCount columnCount batchSize : ℕ)
    (first : ℕ) (statements : List (Statement V)) (t t' : Transaction σ V) : Prop where
  text : ∀ p ∈ statements.zipIdx first, p.1.query =
    clause.queryCreator (valuesText columnCount (batchRows rowCount batchSize p.2))
  discarded : t'.discarded = t.discarded ++
    ((statements.zipIdx first).filter fun p => batchRows rowCount batchSize p.2 < batchSize).map
      fun p => p.1.query

section Success

variable {engine : QueryEngine σ V R} {clause : BatchedBulkValuesClause V}
  {rowCount columnCount batchSize consumed : ℕ}

lemma DiscardsShort.nil {first : ℕ} {t : Transaction σ V} :
    DiscardsShort clause rowCount columnCount batchSize first [] t t :=
  ⟨by simp, by simp⟩

/-- One statement more, before the others. -/
lemma DiscardsShort.cons {first size : ℕ} {statement : Statement V}
    {statements : List (Statement V)} {t t₁ t' : Transaction σ V}
    (hsize : size = batchRows rowCount batchSize first)
    (hquery : statement.query = clause.queryCreator (valuesText columnCount size))
    (hdiscarded : t₁.discarded =
      if size < batchSize then t.discarded ++ [statement.query] else t.discarded)
    (h : DiscardsShort clause rowCount columnCount batchSize (first + 1) statements t₁ t') :
    DiscardsShort clause rowCount columnCount batchSize first (statement :: statements) t t' := by
  refine ⟨?_, ?_⟩
  · rw [List.zipIdx_cons, List.forall_mem_cons]
    exact ⟨by rw [hquery, hsize], h.text⟩
  · rw [h.discarded, hdiscarded, List.zipIdx_cons, List.filter_cons, ← hsize]
    by_cases hshort : size < batchSize
    · simp [hshort]
    · simp [hshort]

/-- What the loop of a query comes to, with what it has collected before: it runs these statements,
ends with the failure of the last of them if there is one, and adds what they answer to the output
if it succeeds. -/
structure Collects (engine : QueryEngine σ V R) (clause : BatchedBulkValuesClause V)
    (rowCount columnCount batchSize first : ℕ) (output : List O) (t t' : Transaction σ V)
    (result : Fallible SqlError (List O)) (statements : List (Statement V))
    (outputs : List (List O)) (failure : Option (Failure SqlError)) : Prop where
  runs : t'.executed = t.executed ++ statements
  answers : Answers engine t.db statements outputs failure
  fails : ∀ e, failure = some e → result = .error e
  ok : ∀ total, result = .ok total → total = output ++ outputs.flatten ∧
    DiscardsShort clause rowCount columnCount batchSize first statements t t'

/-- Nothing more is run. -/
lemma Collects.nil {first : ℕ} {output : List O} {t : Transaction σ V} :
    Collects engine clause rowCount columnCount batchSize first output t t (.ok output) [] []
      none where
  runs := (List.append_nil _).symm
  answers := .nil
  fails := by
    intro e he
    cases he
  ok := by
    rintro total ⟨⟩
    exact ⟨(List.append_nil _).symm, .nil⟩

/-- It ends before another statement is run. -/
lemma Collects.error {first : ℕ} {output : List O} {t : Transaction σ V} {e : Failure SqlError} :
    Collects engine clause rowCount columnCount batchSize first output t t (.error e) [] []
      none where
  runs := (List.append_nil _).symm
  answers := .nil
  fails := by
    intro e' he
    cases he
  ok := by
    intro total htotal
    cases htotal

end Success

/-! ## The two paths -/

section Paths

variable {engine : QueryEngine σ V R} {clause : BatchedBulkValuesClause V} [Sized O]

end Paths

instance : Deserialize (List ℕ) (List (Option ℕ)) where
  fromRowWithColumns _ row :=
    match row.mapM id with
    | some values => .ok values
    | none => .error "expected a number"

/-- A vector is a pointer, a capacity and a length. -/
instance : Sized (List ℕ) := ⟨24⟩

def returningClause : BatchedBulkValuesClause ℕ :=
  new fun values => "INSERT INTO t " ++ values ++ "RETURNING *"

/-- The engine with one table, for inserts that return the tuples they insert. -/
def returningEngine : QueryEngine (List (List (Option ℕ))) ℕ (List (Option ℕ)) where
  toEngine := { tableEngine with
    rawExecute := fun table statement =>
      let inserted := (tableEngine.rawExecute [] statement).2
      (if inserted.isEmpty then .ok 0 else .error executeReturnedResults, table ++ inserted) }
  columns _ _ := ["a", "b"]
  rawQuery table statement :=
    let inserted := (tableEngine.rawExecute [] statement).2
    ⟨inserted, none, table ++ inserted, fun _ => table ++ inserted⟩

end BatchedBulkValuesClause

end SqliteRwPool
