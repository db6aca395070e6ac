import SqliteRwPool.Batched.Query

/-!
# When bulk execution panics

With a row count that is the number of rows, there are three ways to panic, all before the first
statement: more pre and post params than the limit, a first row without values, and batches of size
zero, requested or because one row does not fit in a statement.  A query has a fourth: it sets aside
space for as many output values as there are rows, and a vector cannot have that many bytes.

* `not_panics_executeLoop`, `not_panics_queryLoop` — the loops never panic on groups of the rows.
* `not_panics_execute_iff`, `not_panics_query_iff` — the three ways, and the fourth, are all.
* `bulkNeverPanics_iff` — when neither path panics.
-/

namespace SqliteRwPool

open Fallible Chunks Serialize

/-! ## Binding -/

section Binding

variable {σ V : Type} {engine : Engine σ V}

lemma not_panics_bind {ε : Type*} {α β : Type} {x : Fallible ε α} {f : α → Fallible ε β}
    (hx : ¬ Panics x) (hf : ∀ a, ¬ Panics (f a)) : ¬ Panics (x >>= f) := by
  intro h
  rcases bind_eq_error.mp h with h | ⟨a, -, h⟩
  · exact hx h
  · exact hf a h

lemma not_panics_prepareCached {db : σ} {query : String} :
    ¬ Panics (prepareCached engine db query) := by
  intro h
  obtain ⟨message, hmessage⟩ := prepareCached_error h
  cases hmessage

lemma not_panics_rawBindParameter {statement : Statement V} {index : ℕ} {param : V} :
    ¬ Panics (rawBindParameter engine statement index param) := by
  rw [rawBindParameter, Panics]
  split
  · split_ifs <;> simp
  · simp

lemma not_panics_bindParams (params : List V) :
    ∀ bound : ℕ × Statement V, ¬ Panics (bindParams engine params bound) := by
  induction params with
  | nil =>
      intro bound h
      cases h
  | cons param params ih =>
      rintro ⟨index, statement⟩
      exact not_panics_bind not_panics_rawBindParameter fun _ => ih _

end Binding

namespace BatchedBulkValuesClause

variable {σ V R Row O : Type} [Serialize Row V] [Deserialize O R]

section Creation

variable {engine : Engine σ V} {clause : BatchedBulkValuesClause V}

lemma not_panics_serializeRow {row : Row} : ¬ Panics (serializeRow row) := by
  rw [serializeRow, serializeInto, Panics]
  cases serialize row <;> simp [mapError]

lemma not_panics_bindRows (rows : List Row) :
    ∀ bound : ℕ × Statement V, ¬ Panics (bindRows engine rows bound) := by
  induction rows with
  | nil =>
      intro bound h
      cases h
  | cons row rows ih =>
      intro bound
      exact not_panics_bind not_panics_serializeRow fun _ =>
        not_panics_bind (not_panics_bindParams _ _) fun _ => ih _

/-- A statement for at least one row of at least one value. -/
lemma not_panics_create {db : σ} {rowCount columnCount : ℕ} {rows : List Row}
    (hrowCount : 0 < rowCount) (hcolumnCount : 0 < columnCount) :
    ¬ Panics (clause.create engine db rowCount columnCount rows) := by
  rw [create, valuesClause_eq, if_pos ⟨hcolumnCount, hrowCount⟩, ok_bind]
  refine not_panics_bind not_panics_prepareCached fun statement => ?_
  refine not_panics_bind (not_panics_bindParams _ _) fun bound => ?_
  refine not_panics_bind (not_panics_bindRows _ _) fun bound => ?_
  refine not_panics_bind (not_panics_bindParams _ _) fun bound h => ?_
  cases h

end Creation

/-! ## The loops -/

section Loops

variable {engine : QueryEngine σ V R} {clause : BatchedBulkValuesClause V}
  {rowCount columnCount batchSize : ℕ}

lemma not_panics_executeChunk {consumed : ℕ} {chunk : List Row} {t : Transaction σ V}
    (hcolumnCount : 0 < columnCount) (hbatchSize : 0 < batchSize)
    (hconsumed : consumed < rowCount) :
    ¬ Panics (executeChunk engine.toEngine clause rowCount columnCount batchSize consumed chunk
      t).1 := by
  have hsize : 0 < min batchSize (rowCount - consumed) := by omega
  rw [executeChunk, thisBatchSize_eq (Nat.le_of_lt hconsumed)]
  dsimp only
  split
  · rename_i e hcreate
    intro h
    rw [show e = .panic from Except.error.inj h] at hcreate
    exact not_panics_create hsize hcolumnCount hcreate
  · split
    · intro h
      cases h
    · intro h
      cases h

lemma not_panics_queryChunk {consumed : ℕ} {columns : List String} {chunk : List Row}
    {t : Transaction σ V} (hcolumnCount : 0 < columnCount) (hbatchSize : 0 < batchSize)
    (hconsumed : consumed < rowCount) :
    ¬ Panics (queryChunk engine clause rowCount columnCount batchSize consumed columns chunk t :
      Fallible SqlError (ℕ × List String × List O) × _).1 := by
  have hsize : 0 < min batchSize (rowCount - consumed) := by omega
  rw [queryChunk, thisBatchSize_eq (Nat.le_of_lt hconsumed)]
  dsimp only
  split
  · rename_i e hcreate
    intro h
    rw [show e = .panic from Except.error.inj h] at hcreate
    exact not_panics_create hsize hcolumnCount hcreate
  · rename_i statement hcreate
    rcases (engine.rawQuery t.db statement).collect_cases (O := O)
      (if columns = [] then engine.columns t.db statement.query else columns) with
      ⟨outputs, -, -, hcollect⟩ | ⟨outputs, message, -, -, hcollect⟩ |
      ⟨e, ⟨message, rfl⟩, -, hcollect⟩
    · rw [hcollect]
      intro h
      cases h
    · rw [hcollect]
      intro h
      cases h
    · split
      · rename_i e db hresult
        rw [hresult] at hcollect
        cases hcollect
        intro h
        cases h
      · intro h
        cases h

/-- What is left of the rows after a group is what the row count leaves. -/
lemma consumed_add_length_drop {consumed : ℕ} {rows : List Row}
    (h : consumed + rows.length = rowCount) :
    consumed + min batchSize (rowCount - consumed) + (rows.drop batchSize).length = rowCount := by
  rw [List.length_drop]
  omega

/-- **Executing groups of the rows never panics**, where the row count is right. -/
theorem not_panics_executeLoop (hcolumnCount : 0 < columnCount) (hbatchSize : 0 < batchSize)
    (rows : List Row) : ∀ {consumed modified : ℕ} {t : Transaction σ V},
      consumed + rows.length = rowCount →
      ¬ Panics (executeLoop engine.toEngine clause rowCount columnCount batchSize
        (chunks batchSize rows) consumed modified t).1 := by
  refine chunks_induction hbatchSize (P := fun rows groups =>
    ∀ {consumed modified : ℕ} {t : Transaction σ V}, consumed + rows.length = rowCount →
      ¬ Panics (executeLoop engine.toEngine clause rowCount columnCount batchSize groups consumed
        modified t).1) ?_ ?_ rows
  · intro consumed modified t _ h
    cases h
  · intro rows hrows ih consumed modified t hlength
    have hpos : 0 < rows.length := List.length_pos_iff.mpr hrows
    have hchunk : ¬ Panics (executeChunk engine.toEngine clause rowCount columnCount batchSize
        consumed (rows.take batchSize) t).1 :=
      not_panics_executeChunk hcolumnCount hbatchSize (by omega)
    rw [executeLoop]
    rcases hresult : executeChunk engine.toEngine clause rowCount columnCount batchSize consumed
      (rows.take batchSize) t with ⟨e | ⟨size, changed⟩, t'⟩
    · intro h
      cases h
      rw [hresult] at hchunk
      exact hchunk rfl
    · obtain ⟨rfl, -⟩ := executeChunk_ok hresult
      exact ih (consumed_add_length_drop hlength)

/-- **Querying groups of the rows never panics**, where the row count is right. -/
theorem not_panics_queryLoop (hcolumnCount : 0 < columnCount) (hbatchSize : 0 < batchSize)
    (rows : List Row) : ∀ {consumed : ℕ} {columns : List String} {output : List O}
      {t : Transaction σ V}, consumed + rows.length = rowCount →
      ¬ Panics (queryLoop engine clause rowCount columnCount batchSize (chunks batchSize rows)
        consumed columns output t).1 := by
  refine chunks_induction hbatchSize (P := fun rows groups =>
    ∀ {consumed : ℕ} {columns : List String} {output : List O} {t : Transaction σ V},
      consumed + rows.length = rowCount →
      ¬ Panics (queryLoop engine clause rowCount columnCount batchSize groups consumed columns
        output t).1) ?_ ?_ rows
  · intro consumed columns output t _ h
    cases h
  · intro rows hrows ih consumed columns output t hlength
    have hpos : 0 < rows.length := List.length_pos_iff.mpr hrows
    have hchunk : ¬ Panics (queryChunk engine clause rowCount columnCount batchSize consumed columns
        (rows.take batchSize) t : Fallible SqlError (ℕ × List String × List O) × _).1 :=
      not_panics_queryChunk hcolumnCount hbatchSize (by omega)
    rw [queryLoop]
    rcases hresult : (queryChunk engine clause rowCount columnCount batchSize consumed columns
      (rows.take batchSize) t : Fallible SqlError (ℕ × List String × List O) × _) with
      ⟨e | ⟨size, columns', decoded⟩, t'⟩
    · intro h
      cases h
      rw [hresult] at hchunk
      exact hchunk rfl
    · obtain ⟨rfl, -⟩ := queryChunk_ok hresult
      exact ih (consumed_add_length_drop hlength)

end Loops

/-! ## The preparations -/

section Preparation

variable {clause : BatchedBulkValuesClause V} {batchSize : ℕ}

/-- What is computed from the first row: it panics if there are too many pre and post params, and if
the row has no values. -/
lemma computeColumnCountAndBatchSize_eq {row : Row} {values : List V}
    (hvalues : serialize row = .ok values) :
    clause.computeColumnCountAndBatchSize batchSize row =
      if clause.preParams.length + clause.postParams.length ≤ paramsLimit ∧ 0 < values.length then
        .ok (values.length, clause.effectiveBatch values.length batchSize)
      else Fallible.panic := by
  simp only [computeColumnCountAndBatchSize, serializeRow_eq_ok.mpr hvalues, ok_bind, checkedSub,
    checkedDiv, effectiveBatch]
  by_cases hle : clause.preParams.length + clause.postParams.length ≤ paramsLimit
  · rcases Nat.eq_zero_or_pos values.length with hzero | hpos
    · rw [if_pos hle, if_neg (by omega), ok_bind, if_pos hzero]
      rfl
    · rw [if_pos hle, if_pos ⟨hle, hpos⟩, ok_bind, if_neg (by omega)]
      rfl
  · rw [if_neg hle, if_neg (by omega)]
    rfl

lemma effectiveBatch_pos_iff {cols : ℕ} (hcols : 0 < cols) :
    0 < clause.effectiveBatch cols batchSize ↔ 1 ≤ batchSize ∧
      cols ≤ paramsLimit - (clause.preParams.length + clause.postParams.length) := by
  rw [effectiveBatch, Nat.lt_min, Nat.div_pos_iff]
  omega

end Preparation

section Bulk

variable {engine : QueryEngine σ V R} {clause : BatchedBulkValuesClause V} {batchSize : ℕ}

/-- The batch size and the first row leave room for one row in a statement. -/
def Executable (clause : BatchedBulkValuesClause V) (batchSize : ℕ) (values : List V) : Prop :=
  1 ≤ batchSize ∧ 1 ≤ values.length ∧
    clause.preParams.length + clause.postParams.length + values.length ≤ paramsLimit

instance (clause : BatchedBulkValuesClause V) (batchSize : ℕ) (values : List V) :
    Decidable (clause.Executable batchSize values) :=
  inferInstanceAs (Decidable (_ ∧ _))

/-- `computeColumnCountAndBatchSize` does not panic, nor does grouping by what it computes, when the
first row leaves room for itself. -/
lemma computeColumnCountAndBatchSize_of_executable {row : Row} {values : List V}
    (hvalues : serialize row = .ok values) (h : clause.Executable batchSize values) :
    clause.computeColumnCountAndBatchSize batchSize row =
        .ok (values.length, clause.effectiveBatch values.length batchSize) ∧
      0 < clause.effectiveBatch values.length batchSize := by
  obtain ⟨hbatchSize, hpos, hlimit⟩ := h
  rw [computeColumnCountAndBatchSize_eq hvalues, effectiveBatch_pos_iff hpos]
  exact ⟨if_pos ⟨by omega, hpos⟩, hbatchSize, by omega⟩

/-- Otherwise one of the two panics. -/
lemma computeColumnCountAndBatchSize_of_not_executable {row : Row} {values : List V}
    (hvalues : serialize row = .ok values) (h : ¬ clause.Executable batchSize values) :
    clause.computeColumnCountAndBatchSize batchSize row = Fallible.panic ∨
      clause.computeColumnCountAndBatchSize batchSize row = .ok (values.length, 0) := by
  rw [computeColumnCountAndBatchSize_eq hvalues]
  by_cases hroom :
      clause.preParams.length + clause.postParams.length ≤ paramsLimit ∧ 0 < values.length
  · have hzero : clause.effectiveBatch values.length batchSize = 0 := by
      refine Nat.eq_zero_of_not_pos fun hpos => h ?_
      obtain ⟨hbatchSize, hfits⟩ := (effectiveBatch_pos_iff hroom.2).mp hpos
      exact ⟨hbatchSize, hroom.2, by omega⟩
    rw [if_pos hroom, hzero]
    exact .inr rfl
  · exact .inl (if_neg hroom)

/-- **When executing as many rows as the row count says does not panic**: there are none, or the
first does not serialize, or it leaves room for itself. -/
theorem not_panics_execute_iff (t : Transaction σ V) (rows : List Row) :
    ¬ Panics (clause.execute engine.toEngine t rows.length batchSize rows).1 ↔
      ∀ row ∈ rows.head?, ∀ values : List V, serialize row = .ok values →
        clause.Executable batchSize values := by
  cases rows with
  | nil =>
      refine iff_of_true (fun h => ?_) (fun row hrow => ?_)
      · cases h
      · cases hrow
  | cons row rows =>
      simp only [execute, List.length_cons, Nat.succ_ne_zero, if_false, List.head?_cons,
        Option.mem_some_iff, forall_eq']
      cases hvalues : (serialize row : Except String (List V)) with
      | error message =>
          rw [computeColumnCountAndBatchSize_error hvalues]
          refine iff_of_true (fun h => ?_) (fun values h => ?_)
          · cases h
          · cases h
      | ok values =>
          by_cases hexecutable : clause.Executable batchSize values
          · obtain ⟨hcompute, hsize⟩ :=
              computeColumnCountAndBatchSize_of_executable hvalues hexecutable
            rw [hcompute]
            dsimp only
            rw [if_neg (Nat.ne_of_gt hsize)]
            refine iff_of_true ?_ ?_
            · exact not_panics_executeLoop hexecutable.2.1 hsize _ (Nat.zero_add _)
            · rintro _ ⟨⟩
              exact hexecutable
          · refine iff_of_false (fun h => h ?_) (fun h => hexecutable (h values rfl))
            rcases computeColumnCountAndBatchSize_of_not_executable hvalues hexecutable with
              hcompute | hcompute
            · rw [hcompute]
              rfl
            · rw [hcompute]
              rfl

/-- **When querying does not panic**: as for executing, and there is space for the output. -/
theorem not_panics_query_iff [Sized O] (t : Transaction σ V) (rows : List Row) :
    ¬ Panics (clause.query engine t rows.length batchSize rows : Fallible SqlError (List O) × _).1 ↔
      ∀ row ∈ rows.head?, ∀ values : List V, serialize row = .ok values →
        clause.Executable batchSize values ∧ rows.length * Sized.size O ≤ isizeMax := by
  cases rows with
  | nil =>
      refine iff_of_true (fun h => ?_) (fun row hrow => ?_)
      · cases h
      · cases hrow
  | cons row rows =>
      simp only [query, List.length_cons, Nat.succ_ne_zero, if_false, List.head?_cons,
        Option.mem_some_iff, forall_eq']
      cases hvalues : (serialize row : Except String (List V)) with
      | error message =>
          rw [computeColumnCountAndBatchSize_error hvalues]
          refine iff_of_true (fun h => ?_) (fun values h => ?_)
          · cases h
          · cases h
      | ok values =>
          by_cases hexecutable : clause.Executable batchSize values
          · obtain ⟨hcompute, hsize⟩ :=
              computeColumnCountAndBatchSize_of_executable hvalues hexecutable
            rw [hcompute]
            dsimp only
            rw [withCapacity]
            by_cases hcapacity : (rows.length + 1) * Sized.size O ≤ isizeMax
            · rw [if_pos hcapacity]
              dsimp only
              rw [if_neg (Nat.ne_of_gt hsize)]
              refine iff_of_true ?_ ?_
              · exact not_panics_queryLoop hexecutable.2.1 hsize _ (Nat.zero_add _)
              · rintro _ ⟨⟩
                exact ⟨hexecutable, hcapacity⟩
            · rw [if_neg hcapacity]
              exact iff_of_false (fun h => h rfl) (fun h => hcapacity (h values rfl).2)
          · refine iff_of_false (fun h => h ?_) (fun h => hexecutable (h values rfl).1)
            rcases computeColumnCountAndBatchSize_of_not_executable hvalues hexecutable with
              hcompute | hcompute
            · rw [hcompute]
              rfl
            · rw [hcompute]
              dsimp only
              rw [withCapacity]
              by_cases hcapacity : (rows.length + 1) * Sized.size O ≤ isizeMax
              · rw [if_pos hcapacity]
                rfl
              · rw [if_neg hcapacity]
                rfl

end Bulk

/-- **When bulk execution never panics.**  With as many rows as the row count says, both paths
return `Ok` or `Err` exactly if there are no rows, or the first of them does not serialize, or the
batch size is not zero, the first row has a value, it fits in a statement together with the pre and
post params, and as many output values as there are rows have no more bytes than a vector may
have. -/
theorem bulkNeverPanics_iff [Sized O] (engine : QueryEngine σ V R)
    (clause : BatchedBulkValuesClause V) (t : Transaction σ V) (batchSize : ℕ) (rows : List Row) :
    (¬ Panics (clause.execute engine.toEngine t rows.length batchSize rows).1 ∧
      ¬ Panics (clause.query engine t rows.length batchSize rows :
        Fallible SqlError (List O) × _).1) ↔
    ∀ row ∈ rows.head?, ∀ values : List V, serialize row = .ok values →
      (1 ≤ batchSize ∧ 1 ≤ values.length ∧
        clause.preParams.length + clause.postParams.length + values.length ≤ paramsLimit) ∧
      rows.length * Sized.size O ≤ isizeMax := by
  rw [not_panics_execute_iff, not_panics_query_iff]
  refine ⟨fun h => h.2, fun h => ⟨fun row hrow values hvalues => ?_, h⟩⟩
  exact (h row hrow values hvalues).1

/-- Both paths panic on these rows. -/
def PanicsOn (clause : BatchedBulkValuesClause ℕ) (batchSize : ℕ) (rows : List (List ℕ)) : Prop :=
  Panics (execute returningEngine.toEngine clause ⟨[], [], []⟩ rows.length batchSize rows).1 ∧
    Panics (query returningEngine clause ⟨[], [], []⟩ rows.length batchSize rows :
      Fallible SqlError (List (List ℕ)) × _).1

lemma panicsOn_of_not_executable {clause : BatchedBulkValuesClause ℕ} {batchSize : ℕ}
    {row : List ℕ} (h : ¬ clause.Executable batchSize row) : clause.PanicsOn batchSize [row] := by
  constructor
  · by_contra hexecute
    exact h ((not_panics_execute_iff _ _).mp hexecute row rfl row rfl)
  · by_contra hquery
    exact h ((not_panics_query_iff _ _).mp hquery row rfl row rfl).1

lemma not_executable_of_preParams {clause : BatchedBulkValuesClause ℕ} {batchSize n : ℕ}
    {values : List ℕ} (h : paramsLimit < n + values.length) :
    ¬ Executable { clause with preParams := List.replicate n 0 } batchSize values := by
  intro hexecutable
  have hlimit := hexecutable.2.2
  rw [List.length_replicate] at hlimit
  omega

lemma not_executable_of_values {clause : BatchedBulkValuesClause ℕ} {batchSize n : ℕ}
    (h : paramsLimit < n) : ¬ clause.Executable batchSize (List.replicate n 0) := by
  intro hexecutable
  have hlimit := hexecutable.2.2
  rw [List.length_replicate] at hlimit
  omega

/-- More rows than there is space for output values. -/
lemma panics_query_of_length {clause : BatchedBulkValuesClause ℕ} {batchSize : ℕ}
    {rows : List (List ℕ)} (h : isizeMax < rows.length * Sized.size (List ℕ)) :
    Panics (query returningEngine clause ⟨[], [], []⟩ rows.length batchSize rows :
      Fallible SqlError (List (List ℕ)) × _).1 := by
  by_contra hquery
  cases rows with
  | nil => simp at h
  | cons row rows =>
      have hcapacity := ((not_panics_query_iff _ _).mp hquery row rfl row rfl).2
      exact Nat.lt_irrefl _ (Nat.lt_of_lt_of_le h hcapacity)

/-- A row without values, a batch size of zero, one pre param more than a statement takes, and a row
of as many values: both paths panic.  On more rows than there is space for output, the query
does. -/
theorem bulk_panics :
    insertClause.PanicsOn 10 [[]] ∧ insertClause.PanicsOn 0 [[7]] ∧
      PanicsOn { insertClause with preParams := List.replicate 32767 0 } 10 [[7]] ∧
      insertClause.PanicsOn 10 [List.replicate 32767 0] ∧
      Panics (query returningEngine returningClause ⟨[], [], []⟩
        (List.replicate (2 ^ 60) [7]).length 10 (List.replicate (2 ^ 60) [7]) :
          Fallible SqlError (List (List ℕ)) × _).1 := by
  refine ⟨panicsOn_of_not_executable ?_, panicsOn_of_not_executable ?_,
    panicsOn_of_not_executable (not_executable_of_preParams (by decide)),
    panicsOn_of_not_executable (not_executable_of_values (by decide)), ?_⟩
  · simp [Executable]
  · simp [Executable]
  · refine panics_query_of_length ?_
    rw [List.length_replicate]
    decide

end BatchedBulkValuesClause

end SqliteRwPool
