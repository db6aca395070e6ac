import SqliteRwPool.Query.Rows

/-!
# The query helpers

Each helper prepares a query, converts its parameters, binds them, and steps through the rows.  The
helpers for all rows collect them; the helpers for at most one and for exactly one row take the
first row and do not step any further.  The positional and the named variants differ in how
parameters are converted and bound, which is an argument of the functions that they apply.

* `Answer.agree_iff` — the three forms agree on an answer unless something follows a first row that
  decodes.
* `queryHelpersAgree_iff` — so they do for each query, positional and named.
-/

namespace SqliteRwPool

open Fallible

/-- `serde::Serialize`, with the named serializer of serde_rusqlite. -/
class SerializeNamed (T : Type) (V : outParam Type) where
  serializeNamed : T → Except String (List (String × V))

/-- A connection's engine, which binds all parameters of a statement at once. -/
structure ConnectionEngine (σ V R : Type) extends QueryEngine σ V R where
  bindPositional : Statement V → List V → Except String (Statement V)
  bindNamed : Statement V → List (String × V) → Except String (Statement V)

section Conversion

variable {T V : Type}

/-- `to_params`, with its error in rusqlite's. -/
def toParams [Serialize T V] (params : T) : Fallible SqlError (List V) :=
  match Serialize.serialize params with
  | .ok values => .ok values
  | .error message => fail (.toSqlConversionFailure (.serialization message))

/-- `to_params_named`, with its error in rusqlite's. -/
def toParamsNamed [SerializeNamed T V] (params : T) : Fallible SqlError (List (String × V)) :=
  match SerializeNamed.serializeNamed params with
  | .ok values => .ok values
  | .error message => fail (.toSqlConversionFailure (.serialization message))

end Conversion

section Helpers

variable {σ V R O P T : Type} [Deserialize O R]

/-- `Statement::query_row` on the answer: the first row, which there must be. -/
def Answer.queryRow (answer : Answer σ R) (columns : List String) : Fallible SqlError O × σ :=
  match answer.rows with
  | [] =>
      match answer.failure with
      | none => (fail .queryReturnedNoRows, answer.db)
      | some message => (fail (.sqliteFailure message), answer.db)
  | row :: _ => (decodeRow columns row, answer.stopped 1)

/-- `OptionalExtension::optional`. -/
def optional : Fallible SqlError O → Fallible SqlError (Option O)
  | .ok output => .ok (some output)
  | .error (.error .queryReturnedNoRows) => .ok none
  | .error e => .error e

/-- What the helpers for exactly one row make of at most one. -/
def single : Fallible SqlError (Option O) → Fallible SqlError O
  | .ok (some output) => .ok output
  | .ok none => fail .queryReturnedNoRows
  | .error e => .error e

variable (engine : ConnectionEngine σ V R)

/-- Prepare a query, convert the parameters and bind them. -/
def bound (db : σ) (query : String) (params : Fallible SqlError P)
    (bind : Statement V → P → Except String (Statement V)) : Fallible SqlError (Statement V) := do
  let statement ← prepareCached engine.toEngine db query
  let params ← params
  match bind statement params with
  | .ok statement => .ok statement
  | .error message => fail (.sqliteFailure message)

/-- All rows. -/
def queryWith (db : σ) (query : String) (params : Fallible SqlError P)
    (bind : Statement V → P → Except String (Statement V)) : Fallible SqlError (List O) × σ :=
  match bound engine db query params bind with
  | .error e => (.error e, db)
  | .ok statement => (engine.rawQuery db statement).collect (engine.columns db query)

/-- The first row, if there is one. -/
def queryOptionalWith (db : σ) (query : String) (params : Fallible SqlError P)
    (bind : Statement V → P → Except String (Statement V)) : Fallible SqlError (Option O) × σ :=
  match bound engine db query params bind with
  | .error e => (.error e, db)
  | .ok statement =>
      let (result, db) := (engine.rawQuery db statement).queryRow (engine.columns db query)
      (optional result, db)

def queryWithParams [Serialize T V] (db : σ) (query : String) (params : T) :
    Fallible SqlError (List O) × σ :=
  queryWith engine db query (toParams params) engine.bindPositional

def queryWithParamsNamed [SerializeNamed T V] (db : σ) (query : String) (params : T) :
    Fallible SqlError (List O) × σ :=
  queryWith engine db query (toParamsNamed params) engine.bindNamed

def queryWithoutParams (db : σ) (query : String) : Fallible SqlError (List O) × σ :=
  queryWith engine db query (.ok []) engine.bindPositional

def queryOptionalWithParams [Serialize T V] (db : σ) (query : String) (params : T) :
    Fallible SqlError (Option O) × σ :=
  queryOptionalWith engine db query (toParams params) engine.bindPositional

def queryOptionalWithParamsNamed [SerializeNamed T V] (db : σ) (query : String) (params : T) :
    Fallible SqlError (Option O) × σ :=
  queryOptionalWith engine db query (toParamsNamed params) engine.bindNamed

def querySingleWithParams [Serialize T V] (db : σ) (query : String) (params : T) :
    Fallible SqlError O × σ :=
  let (result, db) := queryOptionalWithParams engine db query params
  (single result, db)

def querySingleWithParamsNamed [SerializeNamed T V] (db : σ) (query : String) (params : T) :
    Fallible SqlError O × σ :=
  let (result, db) := queryOptionalWithParamsNamed engine db query params
  (single result, db)

end Helpers

/-! ## Agreement on the number of rows -/

/-- The three forms of a query agree: `None` is no row, and a row is exactly one row. -/
structure CardinalityAgrees {O : Type} (all : Fallible SqlError (List O))
    (atMostOne : Fallible SqlError (Option O)) (exactlyOne : Fallible SqlError O) : Prop where
  none_iff : atMostOne = .ok none ↔ all = .ok []
  some_iff : ∀ output, atMostOne = .ok (some output) ↔ all = .ok [output]
  single_iff : ∀ output, exactlyOne = .ok output ↔ all = .ok [output]
  noRows_iff : exactlyOne = fail .queryReturnedNoRows ↔ all = .ok []

section Agreement

variable {σ R O : Type} [Deserialize O R]

/-- The first row decodes, and something comes after it: another row, or an error. -/
def Answer.HasMore (O : Type) [Deserialize O R] (answer : Answer σ R) (columns : List String) :
    Prop :=
  ∃ row rest, answer.rows = row :: rest ∧
    (∃ output : O, decodeRow columns row = .ok output) ∧ (rest ≠ [] ∨ answer.failure ≠ none)

/-- An error before the first row is reported alike. -/
lemma cardinalityAgrees_error {e : Failure SqlError} (h : e ≠ .error .queryReturnedNoRows) :
    CardinalityAgrees (.error e : Fallible SqlError (List O)) (.error e) (single (.error e)) where
  none_iff := by simp
  some_iff _ := by simp
  single_iff _ := by simp [single]
  noRows_iff := by simpa [single] using h

/-- What the helper for exactly one row returns, by what the one for at most one returns. -/
lemma CardinalityAgrees.of_optional {all : Fallible SqlError (List O)}
    {atMostOne : Fallible SqlError (Option O)}
    (hnone : atMostOne = .ok none ↔ all = .ok [])
    (hsome : ∀ output, atMostOne = .ok (some output) ↔ all = .ok [output])
    (hnoRows : atMostOne ≠ fail .queryReturnedNoRows) :
    CardinalityAgrees all atMostOne (single atMostOne) where
  none_iff := hnone
  some_iff := hsome
  single_iff output := by
    rw [← hsome]
    rcases atMostOne with e | _ | output'
    · simp [single]
    · simp [single]
    · simp [single]
  noRows_iff := by
    rw [← hnone]
    rcases atMostOne with e | _ | output'
    · simpa [single] using hnoRows
    · simp [single]
    · simp [single]

lemma optional_eq_some {result : Fallible SqlError O} {output : O} :
    optional result = .ok (some output) ↔ result = .ok output := by
  rcases result with (e | _) | output'
  · cases e <;> simp [optional]
  · simp [optional]
  · simp [optional]

lemma optional_eq_none {result : Fallible SqlError O} :
    optional result = .ok none ↔ result = fail .queryReturnedNoRows := by
  rcases result with (e | _) | output
  · cases e <;> simp [optional]
  · simp [optional]
  · simp [optional]

lemma optional_ne_noRows {result : Fallible SqlError O} :
    optional result ≠ fail .queryReturnedNoRows := by
  rcases result with (e | _) | output
  · cases e <;> simp [optional]
  · simp [optional]
  · simp [optional]

lemma Answer.queryRow_eq_noRows {answer : Answer σ R} {columns : List String} :
    (answer.queryRow columns : Fallible SqlError O × σ).1 = fail .queryReturnedNoRows ↔
      answer.failure = none ∧ answer.rows = [] := by
  rw [Answer.queryRow]
  cases answer.rows with
  | nil => cases answer.failure <;> simp
  | cons row rest =>
      simp only [reduceCtorEq, and_false, iff_false]
      intro h
      obtain ⟨message, hmessage⟩ := decodeRow_error h
      cases hmessage

lemma Answer.queryRow_eq_ok {answer : Answer σ R} {columns : List String} {output : O} :
    (answer.queryRow columns).1 = .ok output ↔
      ∃ row rest, answer.rows = row :: rest ∧ decodeRow columns row = .ok output := by
  rw [Answer.queryRow]
  cases answer.rows with
  | nil => cases answer.failure <;> simp
  | cons row rest => simp

/-- **The three forms agree on an answer** exactly if nothing follows a first row that decodes. -/
theorem Answer.agree_iff (answer : Answer σ R) (columns : List String) :
    CardinalityAgrees (answer.collect columns : Fallible SqlError (List O) × σ).1
        (optional (answer.queryRow columns).1) (single (optional (answer.queryRow columns).1)) ↔
      ¬ answer.HasMore O columns := by
  have hnone : optional (answer.queryRow columns : Fallible SqlError O × σ).1 = .ok none ↔
      (answer.collect columns : Fallible SqlError (List O) × σ).1 = .ok [] := by
    rw [optional_eq_none, Answer.queryRow_eq_noRows, Answer.collect_eq_ok,
      List.forall₂_nil_right_iff]
  constructor
  · rintro hagrees ⟨row, rest, hrows, ⟨output, houtput⟩, hmore⟩
    have hsome := optional_eq_some.mpr (Answer.queryRow_eq_ok.mpr ⟨row, rest, hrows, houtput⟩)
    obtain ⟨hfailure, hdecoded⟩ := Answer.collect_eq_ok.mp ((hagrees.some_iff output).mp hsome)
    rw [hrows, List.forall₂_cons] at hdecoded
    rcases hmore with hmore | hmore
    · exact hmore (List.forall₂_nil_right_iff.mp hdecoded.2)
    · exact hmore hfailure
  · intro hmore
    refine .of_optional hnone ?_ optional_ne_noRows
    intro output
    rw [optional_eq_some, Answer.queryRow_eq_ok, Answer.collect_eq_ok]
    constructor
    · rintro ⟨row, rest, hrows, houtput⟩
      have hend : rest = [] ∧ answer.failure = none := by
        by_contra hend
        exact hmore ⟨row, rest, hrows, ⟨output, houtput⟩, by tauto⟩
      rw [hrows, hend.1]
      exact ⟨hend.2, .cons houtput .nil⟩
    · rintro ⟨-, hdecoded⟩
      obtain ⟨row, rest, houtput, -, hrows⟩ := List.forall₂_cons_right_iff.mp hdecoded
      exact ⟨row, rest, hrows, houtput⟩

variable {V P T N : Type}

lemma toParams_error [Serialize T V] {params : T} {e : Failure SqlError}
    (h : toParams params = .error e) : e ≠ .error .queryReturnedNoRows := by
  rw [toParams] at h
  split at h
  · cases h
  · cases h
    simp

lemma toParamsNamed_error [SerializeNamed N V] {params : N} {e : Failure SqlError}
    (h : toParamsNamed params = .error e) : e ≠ .error .queryReturnedNoRows := by
  rw [toParamsNamed] at h
  split at h
  · cases h
  · cases h
    simp

variable (engine : ConnectionEngine σ V R)

lemma bound_error {db : σ} {query : String} {params : Fallible SqlError P}
    {bind : Statement V → P → Except String (Statement V)} {e : Failure SqlError}
    (hparams : ∀ e, params = .error e → e ≠ .error .queryReturnedNoRows)
    (h : bound engine db query params bind = .error e) : e ≠ .error .queryReturnedNoRows := by
  simp only [bound, bind_eq_error] at h
  rcases h with h | ⟨statement, -, h | ⟨values, -, h⟩⟩
  · obtain ⟨message, rfl⟩ := prepareCached_error h
    simp
  · exact hparams e h
  · split at h
    · cases h
    · cases h
      simp

/-- The forms of one query agree, unless it is bound and its answer goes on after the first row. -/
lemma queryWith_agrees_iff (db : σ) (query : String) {params : Fallible SqlError P}
    (bind : Statement V → P → Except String (Statement V))
    (hparams : ∀ e, params = .error e → e ≠ .error .queryReturnedNoRows) :
    CardinalityAgrees (queryWith engine db query params bind : Fallible SqlError (List O) × σ).1
        (queryOptionalWith engine db query params bind).1
        (single (queryOptionalWith engine db query params bind).1) ↔
      ∀ statement, bound engine db query params bind = .ok statement →
        ¬ (engine.rawQuery db statement).HasMore O (engine.columns db query) := by
  rw [queryWith, queryOptionalWith]
  cases hbound : bound engine db query params bind with
  | error e =>
      simp only [reduceCtorEq, false_implies, implies_true, iff_true]
      exact cardinalityAgrees_error (bound_error engine hparams hbound)
  | ok statement =>
      simp only [Except.ok.injEq, forall_eq']
      exact Answer.agree_iff _ _

/-- **When the query helpers agree on cardinality.**  For each query, and with positional or named
parameters: the helpers for at most one row and for exactly one row say the same about the number of
rows as the helper for all rows, unless the query yields a first row that decodes, and then another
row or an error. -/
theorem queryHelpersAgree_iff [Serialize T V] [SerializeNamed N V] (db : σ) (query : String)
    (params : T) (named : N) :
    (CardinalityAgrees (queryWithParams engine db query params : Fallible SqlError (List O) × σ).1
        (queryOptionalWithParams engine db query params).1
        (querySingleWithParams engine db query params).1 ↔
      ∀ statement, bound engine db query (toParams params) engine.bindPositional = .ok statement →
        ¬ (engine.rawQuery db statement).HasMore O (engine.columns db query)) ∧
    (CardinalityAgrees
        (queryWithParamsNamed engine db query named : Fallible SqlError (List O) × σ).1
        (queryOptionalWithParamsNamed engine db query named).1
        (querySingleWithParamsNamed engine db query named).1 ↔
      ∀ statement, bound engine db query (toParamsNamed named) engine.bindNamed = .ok statement →
        ¬ (engine.rawQuery db statement).HasMore O (engine.columns db query)) :=
  ⟨queryWith_agrees_iff engine db query _ fun _ => toParams_error,
    queryWith_agrees_iff engine db query _ fun _ => toParamsNamed_error⟩

end Agreement

/-! ## An answer that goes on -/

instance : Serialize Unit ℕ := ⟨fun _ => .ok []⟩

instance : SerializeNamed Unit ℕ := ⟨fun _ => .ok []⟩

instance : Deserialize ℕ ℕ := ⟨fun _ row => .ok row⟩

/-- An engine on which each query yields these rows, and then this error if there is one. -/
def answering (rows : List ℕ) (failure : Option String) : ConnectionEngine Unit ℕ ℕ where
  prepare _ _ := .ok ()
  parameterCount _ := 0
  toSql _ := .ok ()
  rawExecute _ _ := (.ok 0, ())
  columns _ _ := ["n"]
  rawQuery _ _ := ⟨rows, failure, (), fun _ => ()⟩
  bindPositional statement _ := .ok statement
  bindNamed statement _ := .ok statement

/-- A second row, and an error after the first row, are swallowed: the helper for all rows returns
two rows or the error, and the others return the first row. -/
theorem queryHelpers_swallow :
    (queryWithParams (answering [1, 2] none) () "SELECT n FROM t" () : Fallible _ (List ℕ) × _).1 =
        .ok [1, 2] ∧
      (querySingleWithParams (answering [1, 2] none) () "SELECT n FROM t" () :
        Fallible _ ℕ × _).1 = .ok 1 ∧
    (queryWithParams (answering [1] (some "interrupted")) () "SELECT n FROM t" () :
        Fallible _ (List ℕ) × _).1 = fail (.sqliteFailure "interrupted") ∧
      (queryOptionalWithParams (answering [1] (some "interrupted")) () "SELECT n FROM t" () :
        Fallible _ (Option ℕ) × _).1 = .ok (some 1) ∧
    ∀ failure : Option String,
      ¬ CardinalityAgrees
        (queryWithParams (answering [1, 2] failure) () "SELECT n FROM t" () :
          Fallible _ (List ℕ) × _).1
        (queryOptionalWithParams (answering [1, 2] failure) () "SELECT n FROM t" ()).1
        (querySingleWithParams (answering [1, 2] failure) () "SELECT n FROM t" ()).1 ∧
      ¬ CardinalityAgrees
        (queryWithParamsNamed (answering [1, 2] failure) () "SELECT n FROM t" () :
          Fallible _ (List ℕ) × _).1
        (queryOptionalWithParamsNamed (answering [1, 2] failure) () "SELECT n FROM t" ()).1
        (querySingleWithParamsNamed (answering [1, 2] failure) () "SELECT n FROM t" ()).1 := by
  refine ⟨rfl, rfl, rfl, rfl, ?_⟩
  intro failure
  cases failure with
  | none =>
      constructor
      · intro h
        cases (h.single_iff 1).mp rfl
      · intro h
        cases (h.single_iff 1).mp rfl
  | some message =>
      constructor
      · intro h
        cases (h.single_iff 1).mp rfl
      · intro h
        cases (h.single_iff 1).mp rfl

end SqliteRwPool
