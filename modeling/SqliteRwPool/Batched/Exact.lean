import SqliteRwPool.Batched.Bulk

/-!
# What a bulk insert stores

A batch is stored exactly when its statement has one tuple for each of its rows and every
placeholder is bound once, in order, to the pre params, the values of the rows and the post params.

* `storesExactly_iff` — a bulk insert that returns `Ok` has stored the rows exactly if they are
  equally wide and as many as the row count, or fewer and all in full batches; and not otherwise.
* `bulkInsertExact` — rows that are equally wide and as many as the row count are stored in as few
  statements as the batch size allows, unless the engine fails.
-/

namespace SqliteRwPool

open Fallible Chunks Serialize

namespace BatchedBulkValuesClause

variable {σ V Row : Type} [Serialize Row V]

/-- The query creator embeds the clause once, and the engine counts a placeholder for every question
mark of the clause, and for each of the pre and post params one before and after it. -/
structure EmbedsOnce (engine : Engine σ V) (clause : BatchedBulkValuesClause V) : Prop where
  text : ∃ before after : String, ∀ values, clause.queryCreator values = before ++ values ++ after
  count : ∀ cols rows, 0 < cols → 0 < rows →
    engine.parameterCount (clause.queryCreator (valuesText cols rows)) =
      clause.preParams.length + (valuesText cols rows).toList.count '?' + clause.postParams.length

/-- All rows serialize to `cols` values. -/
def Uniform (cols : ℕ) (rows : List Row) : Prop :=
  ∀ row ∈ rows, ∃ values : List V, serialize row = .ok values ∧ values.length = cols

/-- Every placeholder of the statement is bound once, and they are bound to these values in
order. -/
structure BoundExactly (engine : Engine σ V) (statement : Statement V) (values : List V) :
    Prop where
  indices : statement.bindings.map Prod.snd =
    List.range' 1 (engine.parameterCount statement.query)
  values : statement.bindings.map Prod.fst = values

/-- The statement has a tuple of `cols` placeholders for each row of the batch, and its placeholders
are bound to the pre params, the values of each row in its tuple, and the post params. -/
structure StoresBatch (engine : Engine σ V) (clause : BatchedBulkValuesClause V) (cols : ℕ)
    (batch : List Row) (statement : Statement V) : Prop where
  text : statement.query = clause.queryCreator (valuesText cols batch.length)
  bound : ∃ serialized, SerializesTo batch serialized ∧
    (∀ values ∈ serialized, values.length = cols) ∧
    BoundExactly engine statement (clause.params serialized)

/-- The statements store the rows: batch by batch, none is dropped and none invented. -/
def StoresExactly (engine : Engine σ V) (clause : BatchedBulkValuesClause V)
    (statements : List (Statement V)) (rows : List Row) : Prop :=
  ∃ batches : List (List Row), batches.flatten = rows ∧
    List.Forall₂ (fun batch statement => ∃ cols, StoresBatch engine clause cols batch statement)
      batches statements

/-- The rows are equally wide, and as many as the row count, or fewer and all in full batches. -/
def Fits (clause : BatchedBulkValuesClause V) (rowCount batchSize : ℕ) (rows : List Row) : Prop :=
  ∃ cols, Uniform cols rows ∧ (rows.length = rowCount ∨
    rows.length < rowCount ∧ clause.effectiveBatch cols batchSize ∣ rows.length)

section Batches

variable {engine : Engine σ V} {clause : BatchedBulkValuesClause V}
  {rowCount columnCount batchSize consumed cols : ℕ}

lemma Uniform.exists_serializesTo {rows : List Row} (h : Uniform cols rows) :
    ∃ serialized, SerializesTo rows serialized ∧ ∀ values ∈ serialized, values.length = cols := by
  induction rows with
  | nil => exact ⟨[], .nil, by simp⟩
  | cons row rows ih =>
      rw [Uniform, List.forall_mem_cons] at h
      obtain ⟨values, hvalues, hwidth⟩ := h.1
      obtain ⟨serialized, hserialized, hwidths⟩ := ih h.2
      exact ⟨values :: serialized, .cons hvalues hserialized, by simpa [hwidth] using hwidths⟩

lemma Uniform.take {rows : List Row} (h : Uniform cols rows) (n : ℕ) :
    Uniform cols (rows.take n) := fun row hrow => h row (List.mem_of_mem_take hrow)

lemma Uniform.drop {rows : List Row} (h : Uniform cols rows) (n : ℕ) :
    Uniform cols (rows.drop n) := fun row hrow => h row (List.mem_of_mem_drop hrow)

lemma SerializesTo.unique {rows : List Row} {serialized serialized' : List (List V)}
    (h : SerializesTo rows serialized) (h' : SerializesTo rows serialized') :
    serialized = serialized' :=
  List.right_unique_forall₂' (fun _ _ _ h h' => Except.ok.inj (h.symm.trans h')) h h'

lemma length_flatten_of_uniform {serialized : List (List V)}
    (h : ∀ values ∈ serialized, values.length = cols) :
    serialized.flatten.length = serialized.length * cols := by
  induction serialized with
  | nil => simp
  | cons values serialized ih =>
      rw [List.forall_mem_cons] at h
      rw [List.flatten_cons, List.length_append, h.1, ih h.2, List.length_cons, Nat.succ_mul,
        Nat.add_comm]

/-- The parameters of a statement for a batch are as many as its placeholders. -/
lemma length_params (hembeds : EmbedsOnce engine clause) {batch : List Row}
    {serialized : List (List V)} (hserialized : SerializesTo batch serialized)
    (hwidths : ∀ values ∈ serialized, values.length = cols) (hcols : 0 < cols)
    (hbatch : 0 < batch.length) :
    (clause.params serialized).length =
      engine.parameterCount (clause.queryCreator (valuesText cols batch.length)) := by
  rw [hembeds.count _ _ hcols hbatch, count_placeholder, params, List.length_append,
    List.length_append, length_flatten_of_uniform hwidths, ← hserialized.length_eq]

/-- **A statement that was created for as many rows as it was given stores them.** -/
theorem Created.storesBatch (hembeds : EmbedsOnce engine clause) {batch : List Row}
    {statement : Statement V} (h : Created engine clause batch.length cols batch statement)
    (huniform : Uniform cols batch) : StoresBatch engine clause cols batch statement := by
  obtain ⟨hbatch, hcols, hquery, serialized, hserialized, hbindings, -⟩ := h
  obtain ⟨serialized', hserialized', hwidths⟩ := huniform.exists_serializesTo
  obtain rfl := hserialized.unique hserialized'
  have hlength := length_params hembeds hserialized hwidths hcols hbatch
  rw [← hquery] at hlength
  refine ⟨hquery, serialized, hserialized, hwidths, ?_, ?_⟩
  · rw [hbindings, List.zipIdx_map_snd, hlength]
  · rw [hbindings, List.zipIdx_map_fst]

/-- A batch that a statement stores is as large as the statement was created for. -/
lemma StoresBatch.length_eq (hembeds : EmbedsOnce engine clause) {rows batch : List Row}
    {statement : Statement V} {size : ℕ}
    (hcreated : Created engine clause size columnCount rows statement)
    (h : StoresBatch engine clause cols batch statement) :
    columnCount = cols ∧ size = batch.length := by
  obtain ⟨before, after, hquery⟩ := hembeds.text
  have htext := hcreated.query.symm.trans h.text
  rw [hquery, hquery] at htext
  exact valuesText_injective hcreated.rowCount_pos (by simpa using htext)

lemma StoresBatch.uniform {statement : Statement V} {batch : List Row}
    (h : StoresBatch engine clause cols batch statement) : Uniform cols batch := by
  obtain ⟨serialized, hserialized, hwidths, -⟩ := h.bound
  clear h
  induction hserialized with
  | nil => intro row hrow; cases hrow
  | cons hrow _ ih =>
      rw [List.forall_mem_cons] at hwidths
      rw [Uniform, List.forall_mem_cons]
      exact ⟨⟨_, hrow, hwidths.1⟩, ih hwidths.2⟩

end Batches

section Stored

variable {engine : Engine σ V} {clause : BatchedBulkValuesClause V}
  {rowCount columnCount batchSize consumed cols : ℕ} {statements : List (Statement V)}

/-- The batches that the statements of a run store are equally wide, and they have as many rows as
the statements were created for: as many as the row count, or full batches throughout. -/
lemma Issued.stored (hembeds : EmbedsOnce engine clause) {groups batches : List (List Row)}
    (hissued : Issued engine clause rowCount columnCount batchSize consumed groups statements)
    (hconsumed : consumed ≤ rowCount)
    (hstores : List.Forall₂
      (fun batch statement => ∃ cols, StoresBatch engine clause cols batch statement)
      batches statements) :
    Uniform columnCount batches.flatten ∧
      consumed + batches.flatten.length = min rowCount (consumed + batchSize * groups.length) := by
  induction hissued generalizing batches with
  | nil =>
      cases hstores
      exact ⟨by simp [Uniform], by simpa using (Nat.min_eq_right hconsumed).symm⟩
  | cons hcreated _ ih =>
      cases hstores with
      | cons hbatch hrest =>
          obtain ⟨cols, hbatch⟩ := hbatch
          obtain ⟨rfl, hsize⟩ := hbatch.length_eq hembeds hcreated
          obtain ⟨huniform, hlength⟩ := ih (by omega) hrest
          refine ⟨?_, ?_⟩
          · rw [List.flatten_cons, Uniform, List.forall_mem_append]
            exact ⟨hbatch.uniform, huniform⟩
          · rw [List.flatten_cons, List.length_append, List.length_cons, Nat.mul_succ]
            omega

/-- **What is stored exactly fits**: rows that a run has stored exactly are equally wide, and as
many as the row count or all in full batches. -/
theorem fits_of_storesExactly (hembeds : EmbedsOnce engine clause) {rows : List Row} {total : ℕ}
    {t t' : Transaction σ V}
    (hok : clause.execute engine t rowCount batchSize rows = (.ok total, t'))
    (hexecuted : t'.executed = t.executed ++ statements)
    (hstores : StoresExactly engine clause statements rows) :
    Fits clause rowCount batchSize rows := by
  obtain ⟨batches, rfl, hbatches⟩ := hstores
  obtain ⟨statements', hexecuted', hcases⟩ := execute_ok hok
  obtain rfl := List.append_cancel_left (hexecuted.symm.trans hexecuted')
  rcases hcases with ⟨rfl, hnone⟩ | ⟨columnCount, row, values, -, -, -, hpos, hissued⟩
  · cases hbatches
    refine ⟨0, by simp [Uniform], ?_⟩
    rcases Nat.eq_zero_or_pos rowCount with rfl | hpos
    · exact .inl rfl
    · exact .inr ⟨hpos, Nat.dvd_zero _⟩
  · obtain ⟨huniform, hlength⟩ := hissued.stored hembeds (Nat.zero_le _) hbatches
    rw [Nat.zero_add, Nat.zero_add] at hlength
    refine ⟨columnCount, huniform, ?_⟩
    set size := clause.effectiveBatch columnCount batchSize
    rcases Nat.le_total rowCount (size * (chunks size batches.flatten).length) with hle | hle
    · exact .inl (hlength.trans (Nat.min_eq_left hle))
    · rw [Nat.min_eq_right hle] at hlength
      rcases Nat.lt_or_ge batches.flatten.length rowCount with hlt | hge
      · exact .inr ⟨hlt, _, hlength⟩
      · exact .inl (by omega)

/-- What is left of rows that fit, when a full batch of them, or all, were stored. -/
lemma fits_drop {n rest : ℕ} (hn : 0 < n)
    (h : n = rest ∨ n < rest ∧ batchSize ∣ n) :
    min batchSize rest = min batchSize n ∧
      (n - batchSize = rest - min batchSize rest ∨
        n - batchSize < rest - min batchSize rest ∧ batchSize ∣ n - batchSize) := by
  rcases h with rfl | ⟨hlt, hdvd⟩
  · exact ⟨rfl, .inl (by omega)⟩
  · have hle : batchSize ≤ n := Nat.le_of_dvd hn hdvd
    exact ⟨by omega, .inr ⟨by omega, Nat.dvd_sub hdvd (Nat.dvd_refl _)⟩⟩

/-- **What fits is stored group by group.** -/
lemma Issued.stores_chunks (hembeds : EmbedsOnce engine clause) (hbatchSize : 0 < batchSize)
    (rows : List Row) :
    ∀ {consumed : ℕ} {statements : List (Statement V)},
      Uniform cols rows →
      rows.length = rowCount - consumed ∨
        rows.length < rowCount - consumed ∧ batchSize ∣ rows.length →
      Issued engine clause rowCount cols batchSize consumed (chunks batchSize rows) statements →
      List.Forall₂ (StoresBatch engine clause cols) (chunks batchSize rows) statements := by
  refine chunks_induction hbatchSize (P := fun rows groups =>
    ∀ {consumed : ℕ} {statements : List (Statement V)}, Uniform cols rows →
      rows.length = rowCount - consumed ∨
        rows.length < rowCount - consumed ∧ batchSize ∣ rows.length →
      Issued engine clause rowCount cols batchSize consumed groups statements →
      List.Forall₂ (StoresBatch engine clause cols) groups statements) ?_ ?_ rows
  · intro consumed statements _ _ hissued
    cases hissued
    exact .nil
  · intro rows hrows ih consumed statements huniform hfits hissued
    obtain ⟨hsize, hrest⟩ := fits_drop (List.length_pos_iff.mpr hrows) hfits
    cases hissued with
    | cons hcreated hissued =>
        rw [hsize, ← List.length_take] at hcreated
        refine .cons (hcreated.storesBatch hembeds (huniform.take _))
          (ih (huniform.drop _) ?_ hissued)
        rw [List.length_drop, ← Nat.sub_sub]
        exact hrest

/-- **What fits is stored exactly** by a run that succeeds. -/
theorem storesExactly_of_fits (hembeds : EmbedsOnce engine clause) {rows : List Row} {total : ℕ}
    {t t' : Transaction σ V}
    (hok : clause.execute engine t rowCount batchSize rows = (.ok total, t'))
    (hexecuted : t'.executed = t.executed ++ statements)
    (hfits : Fits clause rowCount batchSize rows) :
    StoresExactly engine clause statements rows := by
  obtain ⟨cols, huniform, hlength⟩ := hfits
  obtain ⟨statements', hexecuted', hcases⟩ := execute_ok hok
  obtain rfl := List.append_cancel_left (hexecuted.symm.trans hexecuted')
  rcases hcases with ⟨rfl, hnone⟩ | ⟨columnCount, row, values, hrow, hvalues, rfl, hpos, hissued⟩
  · have hrows : rows = [] := by
      rcases hnone with rfl | hrows
      · exact List.length_eq_zero_iff.mp (by omega)
      · exact hrows
    exact ⟨[], hrows.symm, .nil⟩
  · obtain ⟨values', hvalues', rfl⟩ := huniform row hrow
    rw [hvalues, Except.ok.injEq] at hvalues'
    subst hvalues'
    exact ⟨_, flatten_chunks hpos rows,
      (hissued.stores_chunks hembeds hpos rows huniform (by simpa using hlength)).imp
        fun _ _ h => ⟨_, h⟩⟩

end Stored

/-! ## An engine with one table -/

instance : Serialize (List ℕ) ℕ := ⟨.ok⟩

/-- An engine for inserts into one table without other parameters.  Placeholders that are not bound
are NULL. -/
def tableEngine : Engine (List (List (Option ℕ))) ℕ where
  prepare _ _ := .ok ()
  parameterCount query := query.toList.count '?'
  toSql _ := .ok ()
  rawExecute table statement :=
    let rows := statement.query.toList.count '('
    let cols := statement.query.toList.count '?' / rows
    let value := fun index =>
      (statement.bindings.find? fun binding => binding.2 = index).map Prod.fst
    (.ok rows, table ++ (List.range rows).map fun i =>
      (List.range cols).map fun j => value (i * cols + j + 1))

def insertClause : BatchedBulkValuesClause ℕ := new fun values => "INSERT INTO t " ++ values

lemma insertClause_embedsOnce : EmbedsOnce tableEngine insertClause where
  text := ⟨"INSERT INTO t ", "", fun values => by simp [insertClause, new]⟩
  count cols rows _ _ := by
    have hbefore : "INSERT INTO t ".toList.count '?' = 0 := by decide
    simp only [tableEngine, insertClause, new, String.toList_append, List.count_append, hbefore,
      List.length_nil, Nat.zero_add, Nat.add_zero]

def threeRows : List (List ℕ) := [[1, 2], [3, 4], [5, 6]]

/-- In batches of two, the last row comes alone. -/
lemma execute_threeRows :
    insertClause.execute tableEngine ⟨[], [], []⟩ 3 2 threeRows =
      (.ok 3,
        { db := [[some 1, some 2], [some 3, some 4], [some 5, some 6]]
          executed := [⟨"INSERT INTO t VALUES (?,?),(?,?) ", [(1, 1), (2, 2), (3, 3), (4, 4)]⟩,
            ⟨"INSERT INTO t VALUES (?,?) ", [(5, 1), (6, 2)]⟩]
          discarded := ["INSERT INTO t VALUES (?,?) "] }) := by
  decide +kernel

lemma threeRows_uniform : Uniform 2 threeRows := by
  intro row hrow
  simp only [threeRows, List.mem_cons, List.not_mem_nil, or_false] at hrow
  exact ⟨row, rfl, by rcases hrow with rfl | rfl | rfl <;> rfl⟩

/-- **When a bulk insert stores the rows exactly.**  If it returns `Ok`, then every row has been
stored as it is, and nothing else, exactly if the rows are equally wide and as many as the row
count, or fewer and all in full batches. -/
theorem storesExactly_iff {engine : Engine σ V} {clause : BatchedBulkValuesClause V}
    (hembeds : EmbedsOnce engine clause) {rowCount batchSize total : ℕ} {rows : List Row}
    {t t' : Transaction σ V}
    (hok : clause.execute engine t rowCount batchSize rows = (.ok total, t')) :
    ∃ statements, t'.executed = t.executed ++ statements ∧
      (StoresExactly engine clause statements rows ↔ Fits clause rowCount batchSize rows) := by
  obtain ⟨statements, hexecuted, -⟩ := execute_ok hok
  exact ⟨statements, hexecuted, fits_of_storesExactly hembeds hok hexecuted,
    storesExactly_of_fits hembeds hok hexecuted⟩

theorem storesExactly_iff_threeRows :
    StoresExactly tableEngine insertClause
      (insertClause.execute tableEngine ⟨[], [], []⟩ 3 2 threeRows).2.executed threeRows := by
  obtain ⟨statements, hexecuted, hiff⟩ :=
    storesExactly_iff insertClause_embedsOnce execute_threeRows
  rw [execute_threeRows, hexecuted]
  exact hiff.mpr ⟨2, threeRows_uniform, .inl rfl⟩

/-- Three bulk inserts that return `Ok` and store something else than the rows: a NULL for the row
that the row count promises and the iterator lacks, no row for a row count of zero, and values that
slide into the next tuple where rows are not equally wide. -/
theorem bulkInsert_corrupts :
    EmbedsOnce tableEngine insertClause ∧
    (∃ t, insertClause.execute tableEngine ⟨[], [], []⟩ 2 10 [[7]] = (.ok 2, t) ∧
      t.db = [[some 7], [none]] ∧ ¬ StoresExactly tableEngine insertClause t.executed [[7]]) ∧
    (∃ t, insertClause.execute tableEngine ⟨[], [], []⟩ 0 10 [[7]] = (.ok 0, t) ∧
      t.db = [] ∧ ¬ StoresExactly tableEngine insertClause t.executed [[7]]) ∧
    (∃ t, insertClause.execute tableEngine ⟨[], [], []⟩ 3 10 [[1, 2], [3], [4, 5, 6]] = (.ok 3, t) ∧
      t.db = [[some 1, some 2], [some 3, some 4], [some 5, some 6]] ∧
      ¬ StoresExactly tableEngine insertClause t.executed [[1, 2], [3], [4, 5, 6]]) := by
  have hshort : insertClause.execute tableEngine ⟨[], [], []⟩ 2 10 [[7]] =
      (.ok 2, ⟨[[some 7], [none]], [⟨"INSERT INTO t VALUES (?),(?) ", [(7, 1)]⟩],
        ["INSERT INTO t VALUES (?),(?) "]⟩) := by
    decide +kernel
  have hzero : insertClause.execute tableEngine ⟨[], [], []⟩ 0 10 [[7]] =
      (.ok 0, ⟨[], [], []⟩) := rfl
  have hragged : insertClause.execute tableEngine ⟨[], [], []⟩ 3 10 [[1, 2], [3], [4, 5, 6]] =
      (.ok 3, ⟨[[some 1, some 2], [some 3, some 4], [some 5, some 6]],
        [⟨"INSERT INTO t VALUES (?,?),(?,?),(?,?) ",
          [(1, 1), (2, 2), (3, 3), (4, 4), (5, 5), (6, 6)]⟩],
        ["INSERT INTO t VALUES (?,?),(?,?),(?,?) "]⟩) := by
    decide +kernel
  refine ⟨insertClause_embedsOnce, ⟨_, hshort, rfl, ?_⟩, ⟨_, hzero, rfl, ?_⟩, ⟨_, hragged, rfl, ?_⟩⟩
  · intro hstores
    obtain ⟨cols, huniform, hlength⟩ :=
      fits_of_storesExactly insertClause_embedsOnce hshort rfl hstores
    obtain ⟨values, hvalues, rfl⟩ := huniform [7] List.mem_cons_self
    cases hvalues
    revert hlength
    decide
  · intro hstores
    obtain ⟨cols, -, hlength⟩ := fits_of_storesExactly insertClause_embedsOnce hzero rfl hstores
    simp at hlength
  · intro hstores
    obtain ⟨cols, huniform, -⟩ := fits_of_storesExactly insertClause_embedsOnce hragged rfl hstores
    simp only [Uniform, List.forall_mem_cons] at huniform
    obtain ⟨⟨first, hfirst, rfl⟩, ⟨second, hsecond, hwidth⟩, -⟩ := huniform
    cases hfirst
    cases hsecond
    cases hwidth

/-! ## A bulk insert whose row count is right -/

section Progress

variable {engine : Engine σ V} {clause : BatchedBulkValuesClause V} {cols batchSize rowCount : ℕ}

/-- With as many equally wide rows as there are left to insert, only the engine can fail. -/
lemma executeLoop_error (hembeds : EmbedsOnce engine clause) (hcols : 0 < cols)
    (hbatchSize : 0 < batchSize) {e : Failure SqlError} {t' : Transaction σ V} (rows : List Row) :
    ∀ {consumed modified : ℕ} {t : Transaction σ V}, Uniform cols rows →
      consumed + rows.length = rowCount →
      executeLoop engine clause rowCount cols batchSize (chunks batchSize rows) consumed modified
        t = (.error e, t') →
      ∃ message, e = .error (.sqliteFailure message) := by
  refine chunks_induction hbatchSize (P := fun rows groups =>
    ∀ {consumed modified : ℕ} {t : Transaction σ V}, Uniform cols rows →
      consumed + rows.length = rowCount →
      executeLoop engine clause rowCount cols batchSize groups consumed modified t =
        (.error e, t') →
      ∃ message, e = .error (.sqliteFailure message)) ?_ ?_ rows
  · intro consumed modified t _ _ h
    cases h
  · intro rows hrows ih consumed modified t huniform hlength h
    have hpos : 0 < rows.length := List.length_pos_iff.mpr hrows
    have hsize : min batchSize (rowCount - consumed) = (rows.take batchSize).length := by
      rw [List.length_take]
      omega
    rw [executeLoop] at h
    split at h
    · rename_i hchunk
      cases h
      rcases executeChunk_error (by omega) hchunk with hcreate | hengine
      · obtain ⟨serialized, hserialized, hwidths⟩ :=
          (huniform.take batchSize).exists_serializesTo
        rw [hsize] at hcreate
        have hsize' : 0 < (rows.take batchSize).length := by omega
        exact create_error hsize' hcols hserialized
          (Nat.le_of_eq (length_params hembeds hserialized hwidths hcols hsize')) hcreate
      · exact hengine
    · rename_i size changed t₁ hchunk
      obtain ⟨rfl, -⟩ := executeChunk_ok hchunk
      refine ih (huniform.drop _) ?_ h
      rw [List.length_drop]
      omega

lemma effectiveBatch_pos (hcols : 0 < cols) (hbatchSize : 0 < batchSize)
    (hlimit : clause.preParams.length + clause.postParams.length + cols ≤ paramsLimit) :
    0 < clause.effectiveBatch cols batchSize := by
  have hmax : 0 < (paramsLimit - (clause.preParams.length + clause.postParams.length)) / cols :=
    Nat.div_pos (by omega) hcols
  rw [effectiveBatch]
  omega

/-- A batch of the effective size has no more parameters than the limit. -/
lemma params_le_limit {size : ℕ}
    (hlimit : clause.preParams.length + clause.postParams.length ≤ paramsLimit)
    (hsize : size ≤ clause.effectiveBatch cols batchSize) :
    clause.preParams.length + size * cols + clause.postParams.length ≤ paramsLimit := by
  have hmax : size ≤ (paramsLimit - (clause.preParams.length + clause.postParams.length)) / cols :=
    Nat.le_trans hsize (Nat.min_le_right _ _)
  have hmul := Nat.le_trans (Nat.mul_le_mul_right cols hmax) (Nat.div_mul_le_self _ _)
  omega

/-- A run is its loop, when the first row leaves room for one row in a statement. -/
lemma execute_cons (engine : Engine σ V) {row : Row} (rows : List Row) {values : List V}
    (t : Transaction σ V) (hvalues : serialize row = .ok values) (hcols : 0 < values.length)
    (hbatchSize : 0 < batchSize)
    (hlimit : clause.preParams.length + clause.postParams.length + values.length ≤ paramsLimit) :
    clause.execute engine t (row :: rows).length batchSize (row :: rows) =
      executeLoop engine clause (row :: rows).length values.length
        (clause.effectiveBatch values.length batchSize)
        (chunks (clause.effectiveBatch values.length batchSize) (row :: rows)) 0 0 t := by
  have hcompute : clause.computeColumnCountAndBatchSize batchSize row =
      .ok (values.length, clause.effectiveBatch values.length batchSize) :=
    computeColumnCountAndBatchSize_eq_ok.mpr ⟨values, hvalues, by omega, hcols, rfl⟩
  have hpos := effectiveBatch_pos hcols hbatchSize hlimit
  simp only [execute, List.length_cons, Nat.succ_ne_zero, if_false, hcompute,
    Nat.pos_iff_ne_zero.mp hpos]

/-- A run on equally wide rows, as many as the row count says, is its loop. -/
lemma execute_eq (engine : Engine σ V) {rows : List Row} (t : Transaction σ V) (hcols : 0 < cols)
    (hbatchSize : 0 < batchSize)
    (hlimit : clause.preParams.length + clause.postParams.length + cols ≤ paramsLimit)
    (hrows : rows ≠ []) (huniform : Uniform cols rows) :
    clause.execute engine t rows.length batchSize rows =
      executeLoop engine clause rows.length cols (clause.effectiveBatch cols batchSize)
        (chunks (clause.effectiveBatch cols batchSize) rows) 0 0 t := by
  cases rows with
  | nil => exact absurd rfl hrows
  | cons row rows =>
      obtain ⟨values, hvalues, rfl⟩ := huniform row List.mem_cons_self
      exact execute_cons engine rows t hvalues hcols hbatchSize hlimit

end Progress

/-- **A bulk insert loses, duplicates and misplaces nothing.**  Unless the engine fails, equally
wide rows, as many as the row count says, are stored batch by batch, in as few statements as the
effective batch size allows, each with no more parameters than the limit; all statements but the
last are for a full batch, and have the same text. -/
theorem bulkInsertExact {engine : Engine σ V} {clause : BatchedBulkValuesClause V}
    (hembeds : EmbedsOnce engine clause) {cols batchSize : ℕ} {rows : List Row}
    (t : Transaction σ V) (hcols : 1 ≤ cols) (hbatchSize : 1 ≤ batchSize)
    (hlimit : clause.preParams.length + clause.postParams.length + cols ≤ paramsLimit)
    (hrows : 1 ≤ rows.length) (huniform : Uniform cols rows)
    (hengine : ∀ message,
      (clause.execute engine t rows.length batchSize rows).1 ≠ fail (.sqliteFailure message)) :
    ∃ modified t' statements batches,
      clause.execute engine t rows.length batchSize rows = (.ok modified, t') ∧
      t'.executed = t.executed ++ statements ∧
      statements.length = (rows.length + clause.effectiveBatch cols batchSize - 1) /
        clause.effectiveBatch cols batchSize ∧
      batches.flatten = rows ∧
      List.Forall₂ (fun batch statement => StoresBatch engine clause cols batch statement ∧
        engine.parameterCount statement.query = clause.preParams.length + batch.length * cols +
          clause.postParams.length ∧
        engine.parameterCount statement.query ≤ paramsLimit) batches statements ∧
      List.Forall₂ (fun batch statement => batch.length = clause.effectiveBatch cols batchSize ∧
        statement.query = clause.queryCreator
          (valuesText cols (clause.effectiveBatch cols batchSize)))
        batches.dropLast statements.dropLast := by
  have hpos := effectiveBatch_pos hcols hbatchSize hlimit
  have hne : rows ≠ [] := List.length_pos_iff.mp hrows
  have hrun := execute_eq engine t hcols hbatchSize hlimit hne huniform
  obtain ⟨modified, t', hok⟩ : ∃ modified t',
      clause.execute engine t rows.length batchSize rows = (.ok modified, t') := by
    rcases hresult : clause.execute engine t rows.length batchSize rows with ⟨_ | modified, t'⟩
    · rename_i e
      rw [hrun] at hresult
      obtain ⟨message, rfl⟩ :=
        executeLoop_error hembeds hcols hpos rows huniform (Nat.zero_add _) hresult
      exact absurd (by rw [hrun, hresult]) (hengine message)
    · exact ⟨modified, t', rfl⟩
  rw [hrun] at hok ⊢
  obtain ⟨statements, hexecuted, hissued⟩ := executeLoop_ok hok
  have hstores := hissued.stores_chunks hembeds hpos rows huniform (.inl rfl)
  refine ⟨modified, t', statements, _, hok, hexecuted, ?_, flatten_chunks hpos rows, ?_, ?_⟩
  · rw [← hstores.length_eq, length_chunks hpos]
  · refine ((List.forall₂_and_left _ _).mpr ⟨length_of_mem_chunks hpos rows, hstores⟩).imp ?_
    rintro batch statement ⟨⟨hnonempty, hle⟩, hbatch⟩
    have hcount : engine.parameterCount statement.query = clause.preParams.length +
        batch.length * cols + clause.postParams.length := by
      rw [hbatch.text, hembeds.count _ _ hcols hnonempty, count_placeholder]
    refine ⟨hbatch, hcount, ?_⟩
    rw [hcount]
    exact params_le_limit (by omega) hle
  · have hinit := List.forall₂_take (statements.length - 1) hstores
    rw [← List.dropLast_eq_take, ← hstores.length_eq, ← List.dropLast_eq_take] at hinit
    refine ((List.forall₂_and_left _ _).mpr ⟨length_of_mem_dropLast_chunks hpos rows, hinit⟩).imp ?_
    rintro batch statement ⟨hfull, hbatch⟩
    exact ⟨hfull, by rw [hbatch.text, hfull]⟩

theorem bulkInsertExact_threeRows :
    ∃ statements batches,
      (insertClause.execute tableEngine ⟨[], [], []⟩ 3 2 threeRows).2.executed = statements ∧
      statements.length = 2 ∧ batches.flatten = threeRows ∧
      List.Forall₂ (StoresBatch tableEngine insertClause 2) batches statements := by
  obtain ⟨modified, t', statements, batches, hrun, hexecuted, hlength, hflatten, hstores, -⟩ :=
    bulkInsertExact insertClause_embedsOnce ⟨[], [], []⟩ (by decide) (by decide : 1 ≤ 2) (by decide)
      (by decide) threeRows_uniform fun message => by
        rw [show threeRows.length = 3 from rfl, execute_threeRows]
        intro h
        cases h
  exact ⟨statements, batches, by rw [show 3 = threeRows.length from rfl, hrun, hexecuted]; rfl,
    hlength, hflatten, hstores.imp fun _ _ h => h.1⟩

end BatchedBulkValuesClause

end SqliteRwPool
