import SqliteRwPool.Batched.Refinement
import SqliteRwPool.Query.Helpers

/-!
# Inserting rows one by one

`execute_with_params` prepares a query, converts its parameters, binds them and executes it.  A
caller with many rows can call it for each of them, with a query for one tuple; a bulk insert is
there to save those calls.

* `executeEach_append` — a loop over rows stops at the first call that fails.
* `executeWithParams_refines` — one call is one step of the engine.
* `bulkInsertReplacesLoop` — a bulk insert returns and leaves what the loop does, if the loop
  succeeds; otherwise both fail, and of the rows before the failure the loop keeps all and the bulk
  insert its complete batches.
-/

namespace SqliteRwPool

open Fallible Chunks Serialize AtomicBatches

section Execution

variable {σ V R P T Row : Type} (engine : ConnectionEngine σ V R)

/-- Prepare a query, convert its parameters, bind them and execute it. -/
def executeWith (t : Transaction σ V) (query : String) (params : Fallible SqlError P)
    (bind : Statement V → P → Except String (Statement V)) :
    Fallible SqlError ℕ × Transaction σ V :=
  match bound engine t.db query params bind with
  | .error e => (.error e, t)
  | .ok statement =>
      let executed := t.executed ++ [statement]
      match engine.rawExecute t.db statement with
      | (.error message, db) => (fail (.sqliteFailure message), { t with db, executed })
      | (.ok modified, db) => (.ok modified, { t with db, executed })

def executeWithParams [Serialize T V] (t : Transaction σ V) (query : String) (params : T) :
    Fallible SqlError ℕ × Transaction σ V :=
  executeWith engine t query (toParams params) engine.bindPositional

def executeWithParamsNamed [SerializeNamed T V] (t : Transaction σ V) (query : String)
    (params : T) : Fallible SqlError ℕ × Transaction σ V :=
  executeWith engine t query (toParamsNamed params) engine.bindNamed

/-- A loop over rows with one call for each, which adds up what the calls return and stops at the
first that fails. -/
def executeEach (call : Transaction σ V → Row → Fallible SqlError ℕ × Transaction σ V) :
    List Row → (modified : ℕ) → Transaction σ V → Fallible SqlError ℕ × Transaction σ V
  | [], modified, t => (.ok modified, t)
  | row :: rows, modified, t =>
      match call t row with
      | (.error e, t) => (.error e, t)
      | (.ok changed, t) => executeEach call rows (modified + changed) t

/-- Positional parameters are bound to the placeholders in order, if there are as many of them. -/
def ConnectionEngine.BindsInOrder (engine : ConnectionEngine σ V R) : Prop :=
  ∀ query values, values.length = engine.parameterCount query →
    engine.bindPositional ⟨query, []⟩ values = .ok ⟨query, values.zipIdx 1⟩

end Execution

section Loop

variable {σ V Row : Type}
  {call : Transaction σ V → Row → Fallible SqlError ℕ × Transaction σ V}

/-- **A loop over rows stops at the first call that fails.** -/
theorem executeEach_append (rows rows' : List Row) : ∀ (modified : ℕ) (t : Transaction σ V),
    executeEach call (rows ++ rows') modified t =
      match executeEach call rows modified t with
      | (.error e, t) => (.error e, t)
      | (.ok modified, t) => executeEach call rows' modified t := by
  induction rows with
  | nil =>
      intro modified t
      rfl
  | cons row rows ih =>
      intro modified t
      rw [List.cons_append, executeEach, executeEach]
      rcases call t row with ⟨e | changed, t'⟩
      · rfl
      · exact ih _ _

end Loop

namespace BatchedBulkValuesClause

variable {σ V R T Row : Type} [Serialize Row V] [Serialize T V] {engine : ConnectionEngine σ V R}
  {clause : BatchedBulkValuesClause V} {cols : ℕ} {step : σ → List V → Except String (σ × ℕ)}

/-- A call for each row with the clause's query for one tuple; `pack` puts the row between the pre
and the post params. -/
def insertEach (engine : ConnectionEngine σ V R) (clause : BatchedBulkValuesClause V) (cols : ℕ)
    (pack : Row → T) : List Row → ℕ → Transaction σ V → Fallible SqlError ℕ × Transaction σ V :=
  executeEach fun t row =>
    executeWithParams engine t (clause.queryCreator (valuesText cols 1)) (pack row)

/-- What the parameters of one call are made of. -/
def Packs (clause : BatchedBulkValuesClause V) (pack : Row → T) : Prop :=
  ∀ row, serialize (pack row) = (serialize row).map fun values => clause.params [values]

section Refinement

variable (hembeds : EmbedsOnce engine.toEngine clause)
  (happlies : AppliesTuples engine.toEngine clause cols step) (hbinds : engine.BindsInOrder)
  {pack : Row → T} (hpack : clause.Packs pack) (hcols : 0 < cols)
  (hlimit : clause.preParams.length + clause.postParams.length + cols ≤ paramsLimit)

include hembeds happlies hbinds hpack hcols hlimit

/-- **One call is one step of the engine.** -/
theorem executeWithParams_refines (t : Transaction σ V) (modified : ℕ) {row : Row}
    (hwidth : Width cols [row]) :
    match applyRow step (t.db, modified) row with
    | some s => ∃ changed t', executeWithParams engine t (clause.queryCreator (valuesText cols 1))
        (pack row) = (.ok changed, t') ∧ s = (t'.db, modified + changed)
    | none => ∃ e t', executeWithParams engine t (clause.queryCreator (valuesText cols 1))
        (pack row) = (.error (.error e), t') ∧ t'.db = t.db := by
  have hroom : clause.preParams.length + 1 * cols + clause.postParams.length ≤ paramsLimit := by
    omega
  have hprepare := happlies.prepare t.db 1 Nat.one_pos hroom
  rw [executeWithParams, executeWith, bound, prepareCached, hprepare]
  simp only [ok_bind, toParams, hpack row]
  cases hvalues : (serialize row : Except String (List V)) with
  | error message =>
      rw [applyRow, hvalues]
      exact ⟨_, t, rfl, rfl⟩
  | ok values =>
      have hserialized : SerializesTo [row] [values] := .cons hvalues .nil
      have hwidths := hwidth.serialized hserialized
      have hbind := hbinds _ _ (length_params hembeds hserialized hwidths hcols Nat.one_pos)
      have hrun := happlies.run t.db [values] Nat.one_pos hwidths hroom
      simp only [List.length_singleton] at hbind hrun
      have hfold : [values].foldlM (applyTuple step) (t.db, 0) =
          applyTuple step (t.db, 0) values := by
        rw [List.foldlM_cons]
        cases applyTuple step (t.db, 0) values <;> rfl
      rw [hfold] at hrun
      rw [applyRow_eq hvalues, ← Nat.add_zero modified, applyTuple_add]
      simp only [Except.map, ok_bind, hbind, hrun]
      cases applyTuple step (t.db, 0) values with
      | error message => exact ⟨_, _, rfl, rfl⟩
      | ok result => exact ⟨_, _, rfl, rfl⟩

/-- The loop is the fold over the rows, and a call that fails leaves the state as it was. -/
theorem insertEach_refines {rows : List Row} : ∀ (modified : ℕ) (t : Transaction σ V),
    Width cols rows →
      match AtomicBatches.run (applyRow step) (t.db, modified) rows with
      | some s => ∃ t', insertEach engine clause cols pack rows modified t = (.ok s.2, t') ∧
          t'.db = s.1
      | none => ∃ e t', insertEach engine clause cols pack rows modified t =
          (.error (.error e), t') := by
  induction rows with
  | nil =>
      intro modified t _
      exact ⟨t, rfl, rfl⟩
  | cons row rows ih =>
      intro modified t hwidth
      have hcall := executeWithParams_refines hembeds happlies hbinds hpack hcols hlimit t modified
        (hwidth.take 1)
      rw [run_cons]
      cases hstep : applyRow step (t.db, modified) row with
      | none =>
          rw [hstep] at hcall
          obtain ⟨e, t', hcall, -⟩ := hcall
          exact ⟨e, t', by rw [insertEach, executeEach, hcall]⟩
      | some s =>
          rw [hstep] at hcall
          obtain ⟨changed, t', hcall, rfl⟩ := hcall
          have hloop : insertEach engine clause cols pack (row :: rows) modified t =
              insertEach engine clause cols pack rows (modified + changed) t' := by
            rw [insertEach, executeEach, hcall]
          rw [hloop]
          exact ih _ _ (hwidth.drop 1)

/-- A loop that fails on one row leaves the state as it was. -/
lemma db_of_insertEach_error {t t' : Transaction σ V} {modified : ℕ} {row : Row}
    {e : Failure SqlError} (hwidth : Width cols [row])
    (h : insertEach engine clause cols pack [row] modified t = (.error e, t')) : t'.db = t.db := by
  have hcall :=
    executeWithParams_refines hembeds happlies hbinds hpack hcols hlimit t modified hwidth
  rw [insertEach, executeEach] at h
  cases hstep : applyRow step (t.db, modified) row with
  | none =>
      rw [hstep] at hcall
      obtain ⟨e', next, hcall, hdb⟩ := hcall
      rw [hcall] at h
      cases h
      exact hdb
  | some s =>
      rw [hstep] at hcall
      obtain ⟨changed, next, hcall, -⟩ := hcall
      rw [hcall] at h
      cases h

/-- Where a loop that fails stops: it completes the rows before the one that fails first, and leaves
the state that they lead to. -/
lemma insertEach_of_failsFirst {t t' : Transaction σ V} {rows : List Row} {k : ℕ}
    {e : Failure SqlError} (hwidth : Width cols rows) (hk : k < rows.length)
    (hfails : FailsFirst (applyRow step) (t.db, 0) rows k)
    (h : insertEach engine clause cols pack rows 0 t = (.error e, t')) :
    insertEach engine clause cols pack (rows.take (k + 1)) 0 t = (.error e, t') ∧
      ∃ kept tk, insertEach engine clause cols pack (rows.take k) 0 t = (.ok kept, tk) ∧
        tk.db = t'.db := by
  have hfailed :=
    insertEach_refines hembeds happlies hbinds hpack hcols hlimit 0 t (hwidth.take (k + 1))
  rw [hfails.fails] at hfailed
  obtain ⟨e', next, hfailed⟩ := hfailed
  have hloop : insertEach engine clause cols pack (rows.take (k + 1)) 0 t = (.error e, t') := by
    rw [← List.take_append_drop (k + 1) rows, insertEach, executeEach_append, ← insertEach,
      hfailed] at h
    exact hfailed.trans h
  have hkept := insertEach_refines hembeds happlies hbinds hpack hcols hlimit 0 t (hwidth.take k)
  obtain ⟨s, hs⟩ := Option.isSome_iff_exists.mp hfails.completed
  rw [hs] at hkept
  obtain ⟨tk, hkept, -⟩ := hkept
  refine ⟨hloop, s.2, tk, hkept, ?_⟩
  have hlast := hloop
  rw [← List.take_concat_get hk, List.concat_eq_append, insertEach, executeEach_append,
    ← insertEach, hkept] at hlast
  have hrow : Width cols [rows[k]] := by
    intro row hrow
    rw [List.mem_singleton.mp hrow]
    exact hwidth _ (List.getElem_mem hk)
  exact (db_of_insertEach_error hembeds happlies hbinds hpack hcols hlimit hrow hlast).symm

end Refinement

/-- A bulk insert is a run in atomic batches, whether its first row serializes or not. -/
lemma execute_runGroups {engine : Engine σ V} (hembeds : EmbedsOnce engine clause)
    (happlies : AppliesTuples engine clause cols step) (t : Transaction σ V) {batchSize : ℕ}
    {rows : List Row} (hcols : 1 ≤ cols) (hbatchSize : 1 ≤ batchSize)
    (hlimit : clause.preParams.length + clause.postParams.length + cols ≤ paramsLimit)
    (hwidth : Width cols rows) :
    ∃ result t', clause.execute engine t rows.length batchSize rows = (result, t') ∧
      match runGroups (applyRow step) (t.db, 0)
        (chunks (clause.effectiveBatch cols batchSize) rows) with
      | (true, s) => result = .ok s.2 ∧ t'.db = s.1
      | (false, s) => (∃ e, result = .error (.error e)) ∧ t'.db = s.1 := by
  cases rows with
  | nil => exact ⟨.ok 0, t, rfl, rfl, rfl⟩
  | cons row rows =>
      cases hvalues : (serialize row : Except String (List V)) with
      | ok values => exact execute_refines hembeds happlies t hvalues hcols hbatchSize hlimit hwidth
      | error message =>
          obtain ⟨b, hb⟩ := Nat.exists_eq_add_of_lt (effectiveBatch_pos hcols hbatchSize hlimit)
          have hstop : AtomicBatches.run (applyRow step) (t.db, 0)
              ((row :: rows).take (0 + b + 1)) = none := by
            rw [List.take_succ_cons, run_cons, applyRow, hvalues, Option.bind_none]
          refine ⟨fail (.toSqlConversionFailure (.toSqlConversionFailure (.serialization message))),
            t, ?_, ?_⟩
          · simp only [execute, computeColumnCountAndBatchSize_error hvalues, List.length_cons,
              Nat.succ_ne_zero, if_false]
          · rw [hb, chunks_eq_cons (Nat.succ_pos _) (List.cons_ne_nil _ _), runGroups, hstop]
            exact ⟨⟨_, rfl⟩, rfl⟩

/-- **A bulk insert replaces a loop of `execute_with_params`.**  For an engine that applies a step
to the tuples of a statement, all or nothing, and rows that are equally wide as far as they
serialize: if the loop returns `Ok`, the bulk insert returns the same number and leaves the same
state, whatever the batch size.  If the loop fails, there is a row `k` on which it does, and it
leaves the state after the `k` rows before; the bulk insert fails as well, and leaves the state of
the loop after `b * (k / b)` rows, where `b` is the effective batch size. -/
theorem bulkInsertReplacesLoop (hembeds : EmbedsOnce engine.toEngine clause)
    (happlies : AppliesTuples engine.toEngine clause cols step) (hbinds : engine.BindsInOrder)
    {pack : Row → T} (hpack : clause.Packs pack) (t : Transaction σ V) {batchSize : ℕ}
    {rows : List Row} (hcols : 1 ≤ cols) (hbatchSize : 1 ≤ batchSize)
    (hlimit : clause.preParams.length + clause.postParams.length + cols ≤ paramsLimit)
    (hwidth : Width cols rows) :
    (∀ changed t', insertEach engine clause cols pack rows 0 t = (.ok changed, t') →
      ∃ t'', clause.execute engine.toEngine t rows.length batchSize rows = (.ok changed, t'') ∧
        t''.db = t'.db) ∧
    ∀ e t', insertEach engine clause cols pack rows 0 t = (.error e, t') →
      let b := clause.effectiveBatch cols batchSize
      ∃ k < rows.length,
        insertEach engine clause cols pack (rows.take (k + 1)) 0 t = (.error e, t') ∧
        (∃ kept tk, insertEach engine clause cols pack (rows.take k) 0 t = (.ok kept, tk) ∧
          tk.db = t'.db) ∧
        ∃ e' t'' complete tb,
          clause.execute engine.toEngine t rows.length batchSize rows = (.error (.error e'), t'') ∧
          insertEach engine clause cols pack (rows.take (b * (k / b))) 0 t = (.ok complete, tb) ∧
          t''.db = tb.db := by
  have hpos := effectiveBatch_pos hcols hbatchSize hlimit
  have hloop := insertEach_refines hembeds happlies hbinds hpack hcols hlimit 0 t hwidth
  obtain ⟨result, t'', hexecute, hbulk⟩ :=
    execute_runGroups hembeds happlies t hcols hbatchSize hlimit hwidth
  cases hrun : AtomicBatches.run (applyRow step) (t.db, 0) rows with
  | some s =>
      rw [hrun] at hloop
      rw [runGroups_of_some hpos _ hrun] at hbulk
      obtain ⟨next, hloop, hdb⟩ := hloop
      obtain ⟨rfl, hdb'⟩ := hbulk
      refine ⟨fun changed t' h => ?_, fun e t' h => ?_⟩
      · cases hloop.symm.trans h
        exact ⟨t'', hexecute, hdb'.trans hdb.symm⟩
      · cases hloop.symm.trans h
  | none =>
      rw [hrun] at hloop
      obtain ⟨e', next, hloop⟩ := hloop
      refine ⟨fun changed t' h => ?_, fun e t' h => ?_⟩
      · cases hloop.symm.trans h
      · obtain ⟨k, hk, hfails⟩ := exists_failsFirst hrun
        obtain ⟨s, hcomplete, hgroups⟩ := runGroups_of_failsFirst hpos _ hfails
        rw [hgroups] at hbulk
        obtain ⟨⟨e', rfl⟩, hdb⟩ := hbulk
        have hbatches := insertEach_refines hembeds happlies hbinds hpack hcols hlimit 0 t
          (hwidth.take (clause.effectiveBatch cols batchSize *
            (k / clause.effectiveBatch cols batchSize)))
        rw [hcomplete] at hbatches
        obtain ⟨tb, hbatches, hdb'⟩ := hbatches
        obtain ⟨hfailed, hkept⟩ :=
          insertEach_of_failsFirst hembeds happlies hbinds hpack hcols hlimit hwidth hk hfails h
        exact ⟨k, hk, hfailed, hkept, e', t'', s.2, tb, hexecute, hbatches, hdb.trans hdb'.symm⟩

/-! ## A table with a unique key, row by row -/

/-- The engine for a table with a unique key, on a connection that has nothing to query. -/
def uniqueConnection : ConnectionEngine (List (List ℕ)) ℕ Unit where
  toEngine := uniqueEngine
  columns _ _ := []
  rawQuery table _ := ⟨[], none, table, fun _ => table⟩
  bindPositional statement values := .ok ⟨statement.query, values.zipIdx 1⟩
  bindNamed statement _ := .ok statement

lemma uniqueConnection_bindsInOrder : uniqueConnection.BindsInOrder := fun _ _ _ => rfl

lemma insertClause_packs : insertClause.Packs (id : List ℕ → List ℕ) := by
  intro row
  show Except.ok row = Except.ok ([] ++ [row].flatten ++ [])
  simp

/-- Four rows, of which the last is the first one again. -/
def firstTwice : List (List ℕ) := [[1], [2], [3], [1]]

lemma firstTwice_width : Width 1 firstTwice := by
  intro row hrow values hvalues
  cases hvalues
  revert row
  decide

/-- The loop keeps three of these rows, and a bulk insert in batches of two keeps two. -/
theorem bulkInsertReplacesLoop_firstTwice :
    (insertEach uniqueConnection insertClause 1 id firstTwice 0 ⟨[], [], []⟩).2.db =
      [[1], [2], [3]] ∧
    ∃ e t', insertClause.execute uniqueEngine ⟨[], [], []⟩ 4 2 firstTwice =
      (.error (.error e), t') ∧ t'.db = [[1], [2]] := by
  obtain ⟨last, hloop, hkeeps⟩ : ∃ last : Transaction (List (List ℕ)) ℕ,
      insertEach uniqueConnection insertClause 1 id firstTwice 0 ⟨[], [], []⟩ =
        (fail (.sqliteFailure "UNIQUE constraint failed"), last) ∧ last.db = [[1], [2], [3]] :=
    ⟨_, Prod.ext (by decide +kernel) rfl, by decide +kernel⟩
  obtain ⟨-, hstops⟩ := bulkInsertReplacesLoop uniqueEngine_embedsOnce
    (uniqueEngine_appliesTuples Nat.one_pos) uniqueConnection_bindsInOrder insertClause_packs
    ⟨[], [], []⟩ (Nat.le_refl 1) (by decide : 1 ≤ 2) (by decide) firstTwice_width
  obtain ⟨k, hk, -, ⟨kept, tk, hkept, hdb⟩, e, t', complete, tb, hexecute, hcomplete, hdb'⟩ :=
    hstops _ _ hloop
  have hearly : ∀ k < 3, (insertEach uniqueConnection insertClause 1 id (firstTwice.take k) 0
      ⟨[], [], []⟩).2.db ≠ [[1], [2], [3]] := by
    decide +kernel
  have hlate : ¬ k < 3 := by
    intro hlt
    refine hearly k hlt ?_
    rw [hkept, hdb, hkeeps]
  obtain rfl : k = 3 := by
    have hlength : k < 4 := hk
    omega
  have htwo : (insertEach uniqueConnection insertClause 1 id (firstTwice.take
      (insertClause.effectiveBatch 1 2 * (3 / insertClause.effectiveBatch 1 2))) 0
      ⟨[], [], []⟩).2.db = [[1], [2]] := by
    decide +kernel
  rw [hcomplete] at htwo
  rw [hloop]
  exact ⟨hkeeps, e, t', hexecute, hdb'.trans htwo⟩

end BatchedBulkValuesClause

end SqliteRwPool
