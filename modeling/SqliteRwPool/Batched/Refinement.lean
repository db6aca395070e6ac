import SqliteRwPool.Batched.Panics
import SqliteRwPool.Library.AtomicBatches

/-!
# Batching is transparent

For an engine that applies a step to the tuples of a bulk statement one by one, all or nothing, a
bulk insert is the row by row fold of that step, in atomic batches.

* `executeChunk_refines` — one group is the fold over its rows, all or nothing.
* `executeLoop_refines` — the loop is a run in atomic batches.
* `batchingTransparent` — a bulk insert gives the fold over all rows, or over the complete batches
  before the first row that fails.
-/

namespace SqliteRwPool

open Fallible Chunks Serialize AtomicBatches

namespace BatchedBulkValuesClause

variable {σ V Row : Type} [Serialize Row V]

/-- Apply the step of the engine to one tuple, and add up the number of changes. -/
def applyTuple (step : σ → List V → Except String (σ × ℕ)) (s : σ × ℕ) (values : List V) :
    Except String (σ × ℕ) :=
  (step s.1 values).map fun result => (result.1, s.2 + result.2)

/-- Serialize a row and apply the step to it. -/
def applyRow (step : σ → List V → Except String (σ × ℕ)) (s : σ × ℕ) (row : Row) :
    Option (σ × ℕ) :=
  match serialize row with
  | .ok values => (applyTuple step s values).toOption
  | .error _ => none

/-- The engine accepts the bulk statements with no more parameters than the limit, and applies the
step to their tuples in order; if it fails on one of them, the state stays as it was before the
statement. -/
structure AppliesTuples (engine : Engine σ V) (clause : BatchedBulkValuesClause V) (cols : ℕ)
    (step : σ → List V → Except String (σ × ℕ)) : Prop where
  prepare : ∀ db rows, 0 < rows →
    clause.preParams.length + rows * cols + clause.postParams.length ≤ paramsLimit →
    engine.prepare db (clause.queryCreator (valuesText cols rows)) = .ok ()
  toSql : ∀ value, engine.toSql value = .ok ()
  run : ∀ db (tuples : List (List V)), 0 < tuples.length →
    (∀ tuple ∈ tuples, tuple.length = cols) →
    clause.preParams.length + tuples.length * cols + clause.postParams.length ≤ paramsLimit →
    engine.rawExecute db ⟨clause.queryCreator (valuesText cols tuples.length),
        (clause.params tuples).zipIdx 1⟩ =
      match tuples.foldlM (applyTuple step) (db, 0) with
      | .ok (db', changed) => (.ok changed, db')
      | .error message => (.error message, db)

section Folds

variable {step : σ → List V → Except String (σ × ℕ)}

lemma applyTuple_add (db : σ) (n m : ℕ) (values : List V) :
    applyTuple step (db, n + m) values =
      (applyTuple step (db, m) values).map fun s => (s.1, n + s.2) := by
  simp only [applyTuple]
  cases step db values with
  | error e => rfl
  | ok result => simp [Except.map, Nat.add_assoc]

/-- Changes that were counted before do not matter. -/
lemma foldlM_applyTuple (tuples : List (List V)) : ∀ (db : σ) (n m : ℕ),
    tuples.foldlM (applyTuple step) (db, n + m) =
      (tuples.foldlM (applyTuple step) (db, m)).map fun s => (s.1, n + s.2) := by
  induction tuples with
  | nil =>
      intro db n m
      rfl
  | cons values tuples ih =>
      intro db n m
      rw [List.foldlM_cons, List.foldlM_cons, applyTuple_add]
      cases applyTuple step (db, m) values with
      | error e => rfl
      | ok s => exact ih s.1 n s.2

lemma applyRow_eq {row : Row} {values : List V} (h : serialize row = .ok values) (s : σ × ℕ) :
    applyRow step s row = (applyTuple step s values).toOption := by
  rw [applyRow, h]

/-- Rows that serialize are folded over as their values. -/
lemma run_applyRow {rows : List Row} {serialized : List (List V)}
    (h : SerializesTo rows serialized) (s : σ × ℕ) :
    AtomicBatches.run (applyRow step) s rows =
      (serialized.foldlM (applyTuple step) s).toOption := by
  induction h generalizing s with
  | nil => rfl
  | @cons row values rows serialized hrow _ ih =>
      rw [run_cons, List.foldlM_cons, applyRow_eq hrow]
      cases applyTuple step s values with
      | error e => rfl
      | ok s' => exact ih s'

/-- All rows serialize, if the fold over them succeeds. -/
lemma exists_serializesTo_of_run {rows : List Row} {s t : σ × ℕ}
    (h : AtomicBatches.run (applyRow step) s rows = some t) :
    ∃ serialized : List (List V), SerializesTo rows serialized := by
  induction rows generalizing s with
  | nil => exact ⟨[], .nil⟩
  | cons row rows ih =>
      rw [run_cons] at h
      obtain ⟨s', hstep, hrest⟩ := Option.bind_eq_some_iff.mp h
      obtain ⟨serialized, hserialized⟩ := ih hrest
      rw [applyRow] at hstep
      split at hstep
      · rename_i values hvalues
        exact ⟨values :: serialized, .cons hvalues hserialized⟩
      · cases hstep

end Folds

section Groups

variable {engine : Engine σ V} {clause : BatchedBulkValuesClause V} {cols : ℕ}
  {step : σ → List V → Except String (σ × ℕ)}

/-- Binding succeeds if the engine converts all parameters and there are enough placeholders. -/
lemma bindParams_eq (htoSql : ∀ value, engine.toSql value = .ok ()) (params : List V) :
    ∀ {index : ℕ} {statement : Statement V}, 0 < index →
      index + params.length ≤ engine.parameterCount statement.query + 1 →
      bindParams engine params (index, statement) =
        .ok (index + params.length, statement.bind index params) := by
  induction params with
  | nil =>
      intro index statement _ _
      simp [bindParams]
  | cons param params ih =>
      intro index statement hindex hend
      rw [List.length_cons] at hend
      have hbind : rawBindParameter engine statement index param =
          .ok (statement.bind index [param]) := by
        rw [rawBindParameter, htoSql]
        dsimp only
        rw [if_pos ⟨hindex, by omega⟩]
        simp [Statement.bind]
      rw [bindParams, hbind, ok_bind, ih (Nat.succ_pos _) (by rw [Statement.query_bind]; omega),
        Statement.bind_cons statement index param params, List.length_cons]
      congr 2
      omega

/-- The statement for rows that serialize is created. -/
lemma create_of_serializesTo (hembeds : EmbedsOnce engine clause)
    (happlies : AppliesTuples engine clause cols step) (hcols : 0 < cols) {db : σ}
    {rows : List Row} {serialized : List (List V)} (hserialized : SerializesTo rows serialized)
    (hwidths : ∀ values ∈ serialized, values.length = cols) (hrows : 0 < rows.length)
    (hroom : clause.preParams.length + rows.length * cols + clause.postParams.length ≤
      paramsLimit) :
    clause.create engine db rows.length cols rows =
      .ok ⟨clause.queryCreator (valuesText cols serialized.length),
        (clause.params serialized).zipIdx 1⟩ := by
  have hcount := length_params hembeds hserialized hwidths hcols hrows
  have hend : 1 + (clause.params serialized).length ≤
      engine.parameterCount (clause.queryCreator (valuesText cols rows.length)) + 1 := by omega
  rw [create_eq hrows hcols hserialized, prepareCached, happlies.prepare _ _ hrows hroom]
  dsimp only
  rw [ok_bind, bindParams_eq happlies.toSql _ Nat.one_pos hend, ok_map, ← hserialized.length_eq]
  simp [Statement.bind]

/-- The rows that serialize have `cols` values. -/
def Width (cols : ℕ) (rows : List Row) : Prop :=
  ∀ row ∈ rows, ∀ values : List V, serialize row = .ok values → values.length = cols

lemma Width.take {rows : List Row} (h : Width cols rows) (n : ℕ) : Width cols (rows.take n) :=
  fun row hrow => h row (List.mem_of_mem_take hrow)

lemma Width.drop {rows : List Row} (h : Width cols rows) (n : ℕ) : Width cols (rows.drop n) :=
  fun row hrow => h row (List.mem_of_mem_drop hrow)

lemma Width.serialized {rows : List Row} {serialized : List (List V)} (h : Width cols rows)
    (hserialized : SerializesTo rows serialized) :
    ∀ values ∈ serialized, values.length = cols := by
  induction hserialized with
  | nil => simp
  | cons hrow _ ih =>
      rw [Width, List.forall_mem_cons] at h
      rw [List.forall_mem_cons]
      exact ⟨h.1 _ hrow, ih h.2⟩

/-- **One group is the fold over its rows, all or nothing.** -/
theorem executeChunk_refines (hembeds : EmbedsOnce engine clause)
    (happlies : AppliesTuples engine clause cols step) (hcols : 0 < cols)
    {rowCount batchSize consumed : ℕ} (modified : ℕ) {chunk : List Row} (t : Transaction σ V)
    (hconsumed : consumed ≤ rowCount) (hsize : min batchSize (rowCount - consumed) = chunk.length)
    (hchunk : 0 < chunk.length) (hwidth : Width cols chunk)
    (hroom : clause.preParams.length + chunk.length * cols + clause.postParams.length ≤
      paramsLimit) :
    match AtomicBatches.run (applyRow step) (t.db, modified) chunk with
    | some s => ∃ changed t', executeChunk engine clause rowCount cols batchSize consumed chunk t =
        (.ok (chunk.length, changed), t') ∧ s = (t'.db, modified + changed)
    | none => ∃ e t', executeChunk engine clause rowCount cols batchSize consumed chunk t =
        (.error (.error e), t') ∧ t'.db = t.db := by
  rw [executeChunk, thisBatchSize_eq hconsumed, hsize]
  dsimp only
  cases hrun : AtomicBatches.run (applyRow step) (t.db, modified) chunk with
  | some s =>
      obtain ⟨serialized, hserialized⟩ := exists_serializesTo_of_run hrun
      have hwidths := hwidth.serialized hserialized
      rw [run_applyRow hserialized, ← Nat.add_zero modified, foldlM_applyTuple] at hrun
      rw [create_of_serializesTo hembeds happlies hcols hserialized hwidths hchunk hroom]
      dsimp only
      rw [hserialized.length_eq] at hchunk hroom
      rw [happlies.run _ _ hchunk hwidths hroom]
      cases hfold : serialized.foldlM (applyTuple step) (t.db, 0) with
      | error message =>
          rw [hfold] at hrun
          cases hrun
      | ok result =>
          rw [hfold] at hrun
          cases hrun
          exact ⟨_, _, by rw [hserialized.length_eq], rfl⟩
  | none =>
      cases hcreate : clause.create engine t.db chunk.length cols chunk with
      | error e =>
          cases e with
          | panic => exact absurd hcreate (not_panics_create hchunk hcols)
          | error e => exact ⟨e, t, rfl, rfl⟩
      | ok statement =>
          obtain ⟨-, -, hquery, serialized, hserialized, hbindings, -⟩ := create_ok hcreate
          have hwidths := hwidth.serialized hserialized
          rw [run_applyRow hserialized, ← Nat.add_zero modified, foldlM_applyTuple] at hrun
          have hstatement : statement =
              ⟨clause.queryCreator (valuesText cols serialized.length),
                (clause.params serialized).zipIdx 1⟩ := by
            rw [← hserialized.length_eq, ← hquery, ← hbindings]
          dsimp only
          rw [hserialized.length_eq] at hchunk hroom
          rw [hstatement, happlies.run _ _ hchunk hwidths hroom]
          cases hfold : serialized.foldlM (applyTuple step) (t.db, 0) with
          | error message => exact ⟨_, _, rfl, rfl⟩
          | ok result =>
              rw [hfold] at hrun
              cases hrun

/-- **The loop is a run in atomic batches** of the fold over the rows. -/
theorem executeLoop_refines (hembeds : EmbedsOnce engine clause)
    (happlies : AppliesTuples engine clause cols step) (hcols : 0 < cols) {rowCount batchSize : ℕ}
    (hbatchSize : 0 < batchSize)
    (hroom : clause.preParams.length + batchSize * cols + clause.postParams.length ≤ paramsLimit)
    (rows : List Row) : ∀ {consumed modified : ℕ} {t : Transaction σ V}, Width cols rows →
      consumed + rows.length = rowCount →
      ∃ result t', executeLoop engine clause rowCount cols batchSize (chunks batchSize rows)
          consumed modified t = (result, t') ∧
        match runGroups (applyRow step) (t.db, modified) (chunks batchSize rows) with
        | (true, s) => result = .ok s.2 ∧ t'.db = s.1
        | (false, s) => (∃ e, result = .error (.error e)) ∧ t'.db = s.1 := by
  refine chunks_induction hbatchSize (P := fun rows groups =>
    ∀ {consumed modified : ℕ} {t : Transaction σ V}, Width cols rows →
      consumed + rows.length = rowCount →
      ∃ result t', executeLoop engine clause rowCount cols batchSize groups consumed modified t =
          (result, t') ∧
        match runGroups (applyRow step) (t.db, modified) groups with
        | (true, s) => result = .ok s.2 ∧ t'.db = s.1
        | (false, s) => (∃ e, result = .error (.error e)) ∧ t'.db = s.1) ?_ ?_ rows
  · intro consumed modified t _ _
    exact ⟨.ok modified, t, rfl, rfl, rfl⟩
  · intro rows hrows ih consumed modified t hwidth hlength
    have hpos : 0 < rows.length := List.length_pos_iff.mpr hrows
    have hsize : min batchSize (rowCount - consumed) = (rows.take batchSize).length := by
      rw [List.length_take]
      omega
    have htake : (rows.take batchSize).length ≤ batchSize := List.length_take_le _ _
    have htuples := Nat.mul_le_mul_right cols htake
    have hgroup := executeChunk_refines hembeds happlies hcols modified t
      (by omega : consumed ≤ rowCount) hsize (by omega) (hwidth.take _) (by omega)
    rw [executeLoop, runGroups]
    cases hrun : AtomicBatches.run (applyRow step) (t.db, modified) (rows.take batchSize) with
    | none =>
        rw [hrun] at hgroup
        obtain ⟨e, t', hchunk, hdb⟩ := hgroup
        rw [hchunk]
        exact ⟨_, t', rfl, ⟨e, rfl⟩, hdb⟩
    | some s =>
        rw [hrun] at hgroup
        obtain ⟨changed, t', hchunk, rfl⟩ := hgroup
        rw [hchunk]
        refine ih (hwidth.drop _) ?_
        rw [List.length_drop, List.length_take]
        omega

/-- A bulk insert whose first row serializes is a run in atomic batches. -/
lemma execute_refines (hembeds : EmbedsOnce engine clause)
    (happlies : AppliesTuples engine clause cols step) (t : Transaction σ V) {batchSize : ℕ}
    {row : Row} {rows : List Row} {values : List V} (hvalues : serialize row = .ok values)
    (hcols : 1 ≤ cols) (hbatchSize : 1 ≤ batchSize)
    (hlimit : clause.preParams.length + clause.postParams.length + cols ≤ paramsLimit)
    (hwidth : Width cols (row :: rows)) :
    ∃ result t', clause.execute engine t (row :: rows).length batchSize (row :: rows) =
        (result, t') ∧
      match runGroups (applyRow step) (t.db, 0)
        (chunks (clause.effectiveBatch cols batchSize) (row :: rows)) with
      | (true, s) => result = .ok s.2 ∧ t'.db = s.1
      | (false, s) => (∃ e, result = .error (.error e)) ∧ t'.db = s.1 := by
  obtain rfl := hwidth row List.mem_cons_self values hvalues
  rw [execute_cons engine rows t hvalues hcols hbatchSize hlimit]
  exact executeLoop_refines hembeds happlies hcols (effectiveBatch_pos hcols hbatchSize hlimit)
    (params_le_limit (by omega) (Nat.le_refl _)) _ hwidth (Nat.zero_add _)

end Groups

/-- **Batching is transparent, and a failure keeps exactly the completed batches.**  For an engine
that applies a step to the tuples of a bulk statement, all or nothing, and rows that are as many as
the row count and equally wide, as far as they serialize: if the fold over all rows succeeds, a bulk
insert returns `Ok` with its number of changes and leaves its state, whatever the batch size; and
otherwise there is a row `k` that fails first, and a bulk insert returns an error and leaves the
state after `b * (k / b)` rows, where `b` is the effective batch size. -/
theorem batchingTransparent {engine : Engine σ V} {clause : BatchedBulkValuesClause V} {cols : ℕ}
    {step : σ → List V → Except String (σ × ℕ)} (hembeds : EmbedsOnce engine clause)
    (happlies : AppliesTuples engine clause cols step) (t : Transaction σ V) {batchSize : ℕ}
    {rows : List Row} (hcols : 1 ≤ cols) (hbatchSize : 1 ≤ batchSize)
    (hlimit : clause.preParams.length + clause.postParams.length + cols ≤ paramsLimit)
    (hrows : 1 ≤ rows.length) (hwidth : Width cols rows) :
    (∀ db' changed, AtomicBatches.run (applyRow step) (t.db, 0) rows = some (db', changed) →
      ∃ t', clause.execute engine t rows.length batchSize rows = (.ok changed, t') ∧ t'.db = db') ∧
    (AtomicBatches.run (applyRow step) (t.db, 0) rows = none →
      ∃ k < rows.length, FailsFirst (applyRow step) (t.db, 0) rows k) ∧
    ∀ k, FailsFirst (applyRow step) (t.db, 0) rows k →
      let b := clause.effectiveBatch cols batchSize
      ∃ e t' changed, clause.execute engine t rows.length batchSize rows = (.error (.error e), t') ∧
        AtomicBatches.run (applyRow step) (t.db, 0) (rows.take (b * (k / b))) =
          some (t'.db, changed) := by
  cases rows with
  | nil => exact absurd hrows (Nat.not_succ_le_zero 0)
  | cons row rows =>
      have hpos := effectiveBatch_pos hcols hbatchSize hlimit
      cases hvalues : (serialize row : Except String (List V)) with
      | error message =>
          have hstop : ∀ s : σ × ℕ, applyRow step s row = none := by
            intro s
            rw [applyRow, hvalues]
          refine ⟨?_, exists_failsFirst, ?_⟩
          · intro db' changed hrun
            rw [run_cons, hstop] at hrun
            cases hrun
          · intro k hk b
            have hzero : k = 0 := by
              cases k with
              | zero => rfl
              | succ k =>
                  have hcompleted := hk.completed
                  rw [List.take_succ_cons, run_cons, hstop] at hcompleted
                  cases hcompleted
            subst hzero
            refine ⟨.toSqlConversionFailure (.toSqlConversionFailure (.serialization message)), t,
              0, ?_, ?_⟩
            · simp only [execute, computeColumnCountAndBatchSize_error hvalues, List.length_cons,
                Nat.succ_ne_zero, if_false]
            · rw [Nat.zero_div, Nat.mul_zero, List.take_zero, run_nil]
      | ok values =>
          obtain ⟨result, t', hexecute, hrefines⟩ :=
            execute_refines hembeds happlies t hvalues hcols hbatchSize hlimit hwidth
          refine ⟨?_, exists_failsFirst, ?_⟩
          · intro db' changed hrun
            rw [runGroups_of_some hpos _ hrun] at hrefines
            obtain ⟨rfl, hdb⟩ := hrefines
            exact ⟨t', hexecute, hdb⟩
          · intro k hk b
            obtain ⟨s, hcompleted, hgroups⟩ := runGroups_of_failsFirst hpos _ hk
            rw [hgroups] at hrefines
            obtain ⟨⟨e, rfl⟩, hdb⟩ := hrefines
            exact ⟨e, t', s.2, hexecute, by rw [hcompleted, hdb]⟩

/-! ## A table with a unique key -/

/-- Insert a tuple that is not there yet. -/
def insertUnique (table : List (List ℕ)) (values : List ℕ) :
    Except String (List (List ℕ) × ℕ) :=
  if values ∈ table then .error "UNIQUE constraint failed" else .ok (table ++ [values], 1)

/-- An engine for inserts without other parameters into this table. -/
def uniqueEngine : Engine (List (List ℕ)) ℕ where
  prepare _ _ := .ok ()
  parameterCount query := query.toList.count '?'
  toSql _ := .ok ()
  rawExecute table statement :=
    let rows := statement.query.toList.count '('
    let cols := statement.query.toList.count '?' / rows
    match (chunks cols (statement.bindings.map Prod.fst)).foldlM (applyTuple insertUnique)
      (table, 0) with
    | .ok (table', changed) => (.ok changed, table')
    | .error message => (.error message, table)

lemma uniqueEngine_embedsOnce : EmbedsOnce uniqueEngine insertClause where
  text := insertClause_embedsOnce.text
  count := insertClause_embedsOnce.count

lemma uniqueEngine_appliesTuples {cols : ℕ} (hcols : 0 < cols) :
    AppliesTuples uniqueEngine insertClause cols insertUnique where
  prepare _ _ _ _ := rfl
  toSql _ := rfl
  run db tuples hpos hwidths _ := by
    have hcount : ∀ c, "INSERT INTO t ".toList.count c = 0 →
        (insertClause.queryCreator (valuesText cols tuples.length)).toList.count c =
          (valuesText cols tuples.length).toList.count c := by
      intro c hc
      simp only [insertClause, new, String.toList_append, List.count_append, hc, Nat.zero_add]
    have hrows := (hcount '(' (by decide)).trans (count_open cols tuples.length)
    have hmarks := (hcount '?' (by decide)).trans (count_placeholder cols tuples.length)
    have htuples : chunks (tuples.length * cols / tuples.length) tuples.flatten = tuples := by
      rw [Nat.mul_div_cancel_left _ hpos]
      exact chunks_flatten hcols hwidths
    have hparams : insertClause.params tuples = tuples.flatten := by
      simp [params, insertClause, new]
    simp only [uniqueEngine, hrows, hmarks, hparams, List.zipIdx_map_fst, htuples]
    cases tuples.foldlM (applyTuple insertUnique) (db, 0) with
    | error message => rfl
    | ok result => rfl

/-- In batches of two, the third row is undone with the fourth, which is the first one again. -/
theorem batchingTransparent_duplicate :
    ∃ e t', insertClause.execute uniqueEngine ⟨[], [], []⟩ 4 2 [[1], [2], [3], [1]] =
      (.error (.error e), t') ∧ t'.db = [[1], [2]] := by
  obtain ⟨-, -, hfails⟩ := batchingTransparent uniqueEngine_embedsOnce
    (uniqueEngine_appliesTuples Nat.one_pos) ⟨[], [], []⟩ (Nat.le_refl 1) (by decide : 1 ≤ 2)
    (by decide) (by decide : 1 ≤ [[1], [2], [3], [1]].length) (by
      intro row hrow values hvalues
      cases hvalues
      revert row
      decide)
  have hthird : FailsFirst (applyRow insertUnique) ([], 0) [[1], [2], [3], [1]] 3 :=
    ⟨by decide +kernel, by decide +kernel⟩
  obtain ⟨e, t', changed, hexecute, hrun⟩ := hfails 3 hthird
  have htwo : AtomicBatches.run (applyRow insertUnique) ([], 0)
      ([[1], [2], [3], [1]].take (insertClause.effectiveBatch 1 2 *
        (3 / insertClause.effectiveBatch 1 2))) = some ([[1], [2]], 2) := by
    decide +kernel
  have hstate := congrArg Prod.fst (Option.some.inj (htwo.symm.trans hrun))
  exact ⟨e, t', hexecute, hstate.symm⟩

end BatchedBulkValuesClause

end SqliteRwPool
