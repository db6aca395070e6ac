import SqliteRwPool.Batched.Refinement
import SqliteRwPool.Pool.Clients

/-!
# Bulk inserts through the pool

A bulk insert that fails has kept its completed batches, in its transaction (`batchingTransparent`).
The closure of a write call that returns with its error drops the transaction, and otherwise
commits.

* `executeClient` — `execute` by what it asks of the engine; `execute_eq_run` says that this is all.
* `bulkInsertsAtomic` — however the calls of the pool interleave, a bulk insert has inserted all of
  its rows, one by one and at one moment, or none.
-/

namespace SqliteRwPool

open Fallible Chunks Serialize AtomicBatches SnapshotStore Transition

section

variable {σ D V Row : Type}

/-- What the engine says of statements and values without looking at the database: whether it
compiles a text, how many placeholders there are in it, and whether it converts a value. -/
structure Compiler (V : Type) where
  prepare : String → Except String Unit
  parameterCount : String → ℕ
  toSql : V → Except String Unit

/-- The engine that compiles so, and runs statements so. -/
def Compiler.engine (C : Compiler V) (rawExecute : σ → Statement V → Except String ℕ × σ) :
    Engine σ V :=
  ⟨fun _ => C.prepare, C.parameterCount, C.toSql, rawExecute⟩

/-- Only compiles. -/
def Compiler.idle (C : Compiler V) : Engine Unit V := C.engine fun s _ => (.ok 0, s)

/-- Executes statements as the language does. -/
def Compiler.executing (C : Compiler V) (L : Language D (Statement V) (Except String ℕ)) :
    Engine D V :=
  C.engine fun d statement => L.exec statement d

namespace BatchedBulkValuesClause

variable [Serialize Row V] (C : Compiler V) (clause : BatchedBulkValuesClause V)

/-- The loop of `execute`, by what it asks. -/
def loopClient (rowCount columnCount batchSize : ℕ) : List (List Row) → (consumed modified : ℕ) →
    Client (Statement V) (Except String ℕ) (Fallible SqlError ℕ)
  | [], _, modified => .done (.ok modified)
  | chunk :: chunks, consumed, modified =>
      match thisBatchSize rowCount batchSize consumed with
      | .error e => .done (.error e)
      | .ok size =>
          match clause.create C.idle () size columnCount chunk with
          | .error e => .done (.error e)
          | .ok statement => .ask statement fun
              | .error message => .done (fail (.sqliteFailure message))
              | .ok changed =>
                  loopClient rowCount columnCount batchSize chunks (consumed + size)
                    (modified + changed)

/-- `execute`, by what it asks. -/
def executeClient (rowCount batchSize : ℕ) (rows : List Row) :
    Client (Statement V) (Except String ℕ) (Fallible SqlError ℕ) :=
  if rowCount = 0 then .done (.ok 0)
  else
    match rows with
    | [] => .done (.ok 0)
    | row :: _ =>
        match clause.computeColumnCountAndBatchSize batchSize row with
        | .error e => .done (.error e)
        | .ok (columnCount, batchSize) =>
            if batchSize = 0 then .done panic
            else clause.loopClient C rowCount columnCount batchSize (chunks batchSize rows) 0 0

/-! ## What `execute` asks -/

variable {C clause} {rawExecute : σ → Statement V → Except String ℕ × σ}

lemma bindParams_engine (params : List V) (bound : ℕ × Statement V) :
    bindParams (C.engine rawExecute) params bound = bindParams C.idle params bound := by
  induction params generalizing bound with
  | nil => rfl
  | cons param params ih =>
      simp only [bindParams, ih]
      rfl

lemma bindRows_engine (rows : List Row) (bound : ℕ × Statement V) :
    bindRows (C.engine rawExecute) rows bound = bindRows C.idle rows bound := by
  induction rows generalizing bound with
  | nil => rfl
  | cons row rows ih => simp only [bindRows, ih, bindParams_engine]

/-- Statements are created without the database. -/
lemma create_engine (db : σ) (rowCount columnCount : ℕ) (rows : List Row) :
    clause.create (C.engine rawExecute) db rowCount columnCount rows =
      clause.create C.idle () rowCount columnCount rows := by
  simp only [create, bindParams_engine, bindRows_engine]
  rfl

lemma executeLoop_eq_run {rowCount columnCount batchSize : ℕ} (chunks : List (List Row)) :
    ∀ (consumed modified : ℕ) (t : Transaction σ V),
      Prod.map id Transaction.db (executeLoop (C.engine rawExecute) clause rowCount columnCount
        batchSize chunks consumed modified t) =
      (clause.loopClient C rowCount columnCount batchSize chunks consumed modified).run rawExecute
        t.db := by
  induction chunks with
  | nil => exact fun _ _ _ => rfl
  | cons chunk chunks ih =>
      intro consumed modified t
      rw [executeLoop, executeChunk, loopClient]
      simp only [create_engine]
      cases thisBatchSize rowCount batchSize consumed with
      | error e => rfl
      | ok size =>
          dsimp only
          cases clause.create C.idle () size columnCount chunk with
          | error e => rfl
          | ok statement =>
              simp only [Compiler.engine, Client.run]
              rcases rawExecute t.db statement with ⟨message | changed, db⟩
              · rfl
              · exact ih _ _ _

/-- **`execute` is its client, run on the engine.** -/
theorem execute_eq_run (rowCount batchSize : ℕ) (rows : List Row) (t : Transaction σ V) :
    Prod.map id Transaction.db (clause.execute (C.engine rawExecute) t rowCount batchSize rows) =
      (clause.executeClient C rowCount batchSize rows).run rawExecute t.db := by
  unfold execute executeClient
  split_ifs
  · rfl
  · cases rows with
    | nil => rfl
    | cons row rows =>
        dsimp only
        cases clause.computeColumnCountAndBatchSize batchSize row with
        | error e => rfl
        | ok result =>
            dsimp only
            split_ifs
            · rfl
            · exact executeLoop_eq_run _ _ _ _

/-! ## A run that succeeds -/

/-- A bulk insert that succeeds was given what fits into a statement. -/
lemma execute_ok_cons {engine : Engine σ V} {clause : BatchedBulkValuesClause V}
    {rowCount batchSize changed : ℕ} {row : Row} {rows : List Row} {t t' : Transaction σ V}
    (hrowCount : rowCount ≠ 0)
    (h : clause.execute engine t rowCount batchSize (row :: rows) = (.ok changed, t')) :
    ∃ values : List V, serialize row = .ok values ∧ 1 ≤ values.length ∧ 1 ≤ batchSize ∧
      clause.preParams.length + clause.postParams.length + values.length ≤ paramsLimit := by
  unfold execute at h
  rw [if_neg hrowCount] at h
  dsimp only at h
  cases hcompute : clause.computeColumnCountAndBatchSize batchSize row with
  | error e =>
      rw [hcompute] at h
      cases h
  | ok result =>
      rw [hcompute] at h
      obtain ⟨values, hvalues, hle, hpos, rfl⟩ := computeColumnCountAndBatchSize_eq_ok.mp hcompute
      dsimp only at h
      split_ifs at h with hzero
      · cases h
      · have hbatch : 0 < clause.effectiveBatch values.length batchSize := Nat.pos_of_ne_zero hzero
        rw [effectiveBatch, Nat.lt_min] at hbatch
        have hdiv := (Nat.div_pos_iff.mp hbatch.2).2
        exact ⟨values, hvalues, hpos, hbatch.1, by omega⟩

/-- **A bulk insert that succeeds has inserted all rows**, one by one. -/
theorem run_of_execute_ok {engine : Engine σ V} {clause : BatchedBulkValuesClause V} {cols : ℕ}
    {step : σ → List V → Except String (σ × ℕ)} (hembeds : EmbedsOnce engine clause)
    (happlies : AppliesTuples engine clause cols step) {batchSize changed : ℕ} {rows : List Row}
    (hwidth : Width cols rows) {t t' : Transaction σ V}
    (h : clause.execute engine t rows.length batchSize rows = (.ok changed, t')) :
    AtomicBatches.run (applyRow step) (t.db, 0) rows = some (t'.db, changed) := by
  cases rows with
  | nil =>
      cases h
      rfl
  | cons row rows =>
      obtain ⟨values, hvalues, hpos, hbatchSize, hlimit⟩ := execute_ok_cons (by simp) h
      obtain rfl := hwidth row List.mem_cons_self values hvalues
      obtain ⟨result, t'', hexecute, hrefines⟩ :=
        execute_refines hembeds happlies t hvalues hpos hbatchSize hlimit hwidth
      rw [h, Prod.mk.injEq] at hexecute
      obtain ⟨rfl, rfl⟩ := hexecute
      have hbatch := effectiveBatch_pos hpos hbatchSize hlimit
      cases hrun : AtomicBatches.run (applyRow step) (t.db, 0) (row :: rows) with
      | some s =>
          rw [runGroups_of_some hbatch _ hrun] at hrefines
          obtain ⟨hchanged, hdb⟩ := hrefines
          cases hchanged
          rw [hdb]
      | none =>
          obtain ⟨k, -, hk⟩ := exists_failsFirst hrun
          obtain ⟨s, -, hgroups⟩ := runGroups_of_failsFirst hbatch _ hk
          rw [hgroups] at hrefines
          obtain ⟨⟨e, herror⟩, -⟩ := hrefines
          cases herror

end BatchedBulkValuesClause

/-! ## The closure of a write call -/

open BatchedBulkValuesClause

/-- A bulk insert in the closure of a write call; `commitSucceeds` says whether its `commit()`
does. -/
structure BulkInsert (V Row : Type) where
  clause : BatchedBulkValuesClause V
  rowCount : ℕ
  batchSize : ℕ
  rows : List Row
  commitSucceeds : Bool

/-- The transaction is committed on `Ok`, and dropped when the closure returns an error or
panics. -/
def BulkInsert.ending (bulk : BulkInsert V Row) : Fallible SqlError ℕ → Ending
  | .ok _ => .commit bulk.commitSucceeds
  | .error (.error _) => .drop
  | .error .panic => .unwind

/-- Only what succeeds is committed. -/
lemma BulkInsert.eq_ok_of_ending {bulk : BulkInsert V Row} {result : Fallible SqlError ℕ}
    (h : bulk.ending result = .commit true) : ∃ changed, result = .ok changed := by
  cases result with
  | ok changed => exact ⟨changed, rfl⟩
  | error e => cases e <;> cases h

/-- The closure executes the bulk insert and commits if that succeeds. -/
def BulkInsert.closure [Serialize Row V] (bulk : BulkInsert V Row) (C : Compiler V) :
    Closure (Statement V) (Except String ℕ) :=
  .ofClient (bulk.clause.executeClient C bulk.rowCount bulk.batchSize bulk.rows) bulk.ending

variable [Serialize Row V]

/-- The row count is that of the rows, which have `cols` values as far as they serialize, and the
engine applies the step to the tuples of the bulk statements. -/
structure BulkInsert.Regular (bulk : BulkInsert V Row) (C : Compiler V)
    (L : Language D (Statement V) (Except String ℕ)) (cols : ℕ)
    (step : D → List V → Except String (D × ℕ)) : Prop where
  rowCount : bulk.rowCount = bulk.rows.length
  width : Width cols bulk.rows
  embeds : EmbedsOnce (C.executing L) bulk.clause
  applies : AppliesTuples (C.executing L) bulk.clause cols step

/-- Run by the language alone, a bulk insert that succeeds has inserted all rows. -/
lemma BulkInsert.Regular.run_of_client {bulk : BulkInsert V Row} {C : Compiler V}
    {L : Language D (Statement V) (Except String ℕ)} {cols : ℕ}
    {step : D → List V → Except String (D × ℕ)} (h : bulk.Regular C L cols step) {d d' : D}
    {changed : ℕ} (hrun : (bulk.clause.executeClient C bulk.rowCount bulk.batchSize bulk.rows).run
      (fun d q => L.exec q d) d = (.ok changed, d')) :
    AtomicBatches.run (applyRow step) (d, 0) bulk.rows = some (d', changed) := by
  have hexecute := (@execute_eq_run D V Row _ C bulk.clause (fun d statement => L.exec statement d)
    bulk.rowCount bulk.batchSize bulk.rows ⟨d, [], []⟩).trans hrun
  obtain ⟨hresult, hdb⟩ := Prod.mk.inj hexecute
  rw [h.rowCount] at hresult hdb
  rw [← hdb]
  exact run_of_execute_ok h.embeds h.applies h.width (t := ⟨d, [], []⟩) (Prod.ext hresult rfl)

/-- **A bulk insert in a write call inserts all of its rows at one moment, or none.**  Over a
WAL-mode database that only this pool uses, let the closure of each call be a program that depends
on the answers it gets and ends its transaction.  However the calls interleave, the database is what
the closures that committed make of it one after the other; and if one of these is a bulk insert,
the version after it is that before it with all of its rows inserted one by one. -/
theorem bulkInsertsAtomic {E : Sqlite σ (Statement V) (Except String ℕ)}
    {L : Language D (Statement V) (Except String ℕ)} {view : σ → Store Conn Conn D}
    (hE : E.Refines L view) (C : Compiler V) (closures : Closures (Statement V) (Except String ℕ))
    {d : D} {db : σ} (hdb : view db = .fresh d) {m : ℕ}
    {x : Execution σ (Statement V) (Except String ℕ)}
    (h : ReachableBy (Execution.step E) (fun x a => a.EndsTransaction ∧ x.Follows closures a)
      (.new m db) x) :
    let version := L.version d x.application.history.committed
    version x.committed.length = (view x.application.db).latest ∧ x.committed.Nodup ∧
      ∀ n i r : ℕ, x.committed[n]? = some (i, r) → ∀ (bulk : BulkInsert V Row) (cols : ℕ)
        (step : D → List V → Except String (D × ℕ)), closures.write i r = bulk.closure C →
          bulk.Regular C L cols step →
            ∃ changed, AtomicBatches.run (applyRow step) (version n, 0) bulk.rows =
              some (version (n + 1), changed) := by
  obtain ⟨hi, hc⟩ := Execution.inv_committed_of_reachable hE hdb h
  refine ⟨hi.serial.latest, hi.serial.once, fun n i r hn bulk cols step hclosure hregular => ?_⟩
  obtain ⟨result, hrun, hending⟩ := Execution.committedClient hi hc hn hclosure
  obtain ⟨changed, rfl⟩ := bulk.eq_ok_of_ending hending
  exact ⟨changed, hregular.run_of_client hrun⟩

end

/-! ## A table with a unique key -/

open BatchedBulkValuesClause

def uniqueLanguage : Language (List (List ℕ)) (Statement ℕ) (Except String ℕ) where
  exec statement table := uniqueEngine.rawExecute table statement
  query _ table := .ok table.length

def uniqueCompiler : Compiler ℕ := ⟨fun _ => .ok (), uniqueEngine.parameterCount, fun _ => .ok ()⟩

/-- The rows in batches of two. -/
def uniqueBulk (rows : List (List ℕ)) : BulkInsert ℕ (List ℕ) :=
  ⟨insertClause, rows.length, 2, rows, true⟩

lemma uniqueBulk_regular {rows : List (List ℕ)} (h : ∀ row ∈ rows, row.length = 1) :
    (uniqueBulk rows).Regular uniqueCompiler uniqueLanguage 1 insertUnique where
  rowCount := rfl
  width row hrow values hvalues := by
    cases hvalues
    exact h row hrow
  embeds := uniqueEngine_embedsOnce
  applies := uniqueEngine_appliesTuples Nat.one_pos

/-- The first bulk insert fails in its second batch, and the second one has a row of its first. -/
def bulkClosures : Closures (Statement ℕ) (Except String ℕ) where
  write i _ :=
    (uniqueBulk (if i = 0 then [[1], [2], [3], [1]] else [[4], [5], [1]])).closure uniqueCompiler
  read _ _ := ⟨fun _ => none, fun _ => .rollback, fun _ => .drop⟩

def twoRows (a b : ℕ) : Statement ℕ := ⟨"INSERT INTO t VALUES (?),(?) ", [(a, 1), (b, 2)]⟩

def twoBulkInserts : List (ApplicationAction (Statement ℕ)) :=
  List.flatten [connect .write 0 7,
    [.startWrite 0 0, .exec 0 0 (twoRows 1 2), .exec 0 0 (twoRows 3 1),
      .endWrite 0 0 .drop .rollback true],
    [.drop, .dropLocks, .dropReturns, .dropReleases].map fun a => .pool (.write (.call 0 a)),
    connect .write 1 7,
    [.startWrite 1 0, .exec 1 0 (twoRows 4 5), .exec 1 0 ⟨"INSERT INTO t VALUES (?) ", [(1, 1)]⟩,
      .endWrite 1 0 (.commit true) .rollback true]]

theorem bulkInsertsAtomic_twoBulkInserts :
    ∃ x : Execution (Store Conn Conn (List (List ℕ))) (Statement ℕ) (Except String ℕ),
      runWhere (Execution.step (.ofStore uniqueLanguage (.error "refused")))
        (fun x a => a.EndsTransaction ∧ x.Follows bulkClosures a) (.new 4 (Store.fresh []))
          twoBulkInserts = some x ∧
      x.committed = [(1, 0)] ∧ x.application.db.latest = [[4], [5], [1]] ∧
      ∃ changed, AtomicBatches.run (applyRow insertUnique) ([], 0) [[4], [5], [1]] =
        some (x.application.db.latest, changed) := by
  have hrun : ((runWhere (Execution.step (.ofStore uniqueLanguage (.error "refused")))
      (fun x a => a.EndsTransaction ∧ x.Follows bulkClosures a) (.new 4 (Store.fresh []))
        twoBulkInserts).map fun x => (x.committed, x.application.db.latest)) =
          some ([(1, 0)], [[4], [5], [1]]) := by
    decide +kernel
  obtain ⟨x, hx, heq⟩ := Option.map_eq_some_iff.mp hrun
  obtain ⟨hcommitted, hlatest⟩ := Prod.mk.inj heq
  obtain ⟨hversion, -, hbulk⟩ := @bulkInsertsAtomic _ _ ℕ (List ℕ) _ _ _ _
    (Sqlite.ofStore_refines uniqueLanguage _) uniqueCompiler bulkClosures _ _ rfl _ _
    (reachableBy_of_runWhere twoBulkInserts .start hx)
  obtain ⟨changed, hrows⟩ := hbulk 0 1 0 (by rw [hcommitted]; rfl) (uniqueBulk [[4], [5], [1]]) 1
    insertUnique rfl (uniqueBulk_regular (by simp))
  rw [hcommitted] at hversion
  exact ⟨x, hx, hcommitted, hlatest, changed,
    hrows.trans (congrArg (fun table => some (table, changed)) hversion)⟩

end SqliteRwPool
