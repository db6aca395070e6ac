import SqliteRwPool.Library.Fallible
import Mathlib.Tactic.Common

/-!
# Statements, and the engine that runs them

What rusqlite does with a statement: it prepares a text, counts its placeholders, binds parameters
to them one by one, and runs the statement.  How it does so is a parameter; that a parameter can
only be bound to a placeholder of the statement is not.  A statement from the cache has its
bindings cleared, so every statement starts without any.

* `bindParams_ok` — parameters are bound to consecutive placeholders, all of them of the statement.
* `bindParams_error` — when there are enough placeholders, binding fails in the engine alone.
-/

namespace SqliteRwPool

open Fallible

/-- `rusqlite::types::Type`. -/
inductive SqliteType
  | null
  | integer
  | real
  | text
  | blob
  deriving DecidableEq, Repr

/-- `rusqlite::Error`, and the `serde_rusqlite::Error` that it may box. -/
inductive SqlError
  | serialization (message : String)
  | deserialization (message : String)
  | toSqlConversionFailure (e : SqlError)
  | fromSqlConversionFailure (column : ℕ) (type : SqliteType) (e : SqlError)
  | sqliteFailure (message : String)
  | parameterOutOfRange (index : ℕ)
  | queryReturnedNoRows
  deriving DecidableEq, Repr

/-- `serde::Serialize`, with the positional serializer of serde_rusqlite: the values of `T`, in
order. -/
class Serialize (T : Type) (V : outParam Type) where
  serialize : T → Except String (List V)

/-- A prepared statement: its text, and the values bound so far, each with its placeholder's index,
in the order of binding. -/
structure Statement (V : Type) where
  query : String
  bindings : List (V × ℕ)
  deriving DecidableEq, Repr

/-- The engine behind a connection with state `σ`. -/
structure Engine (σ V : Type) where
  prepare : σ → String → Except String Unit
  parameterCount : String → ℕ
  toSql : V → Except String Unit
  rawExecute : σ → Statement V → Except String ℕ × σ

/-- A transaction: the state of the database in it, the statements that were run, and the texts
that were taken out of the statement cache. -/
structure Transaction (σ V : Type) where
  db : σ
  executed : List (Statement V)
  discarded : List String
  deriving DecidableEq, Repr

section Binding

variable {σ V : Type} (engine : Engine σ V)

/-- `Connection::prepare_cached`. -/
def prepareCached (db : σ) (query : String) : Fallible SqlError (Statement V) :=
  match engine.prepare db query with
  | .ok () => .ok ⟨query, []⟩
  | .error message => fail (.sqliteFailure message)

/-- `Statement::raw_bind_parameter`. -/
def rawBindParameter (statement : Statement V) (index : ℕ) (param : V) :
    Fallible SqlError (Statement V) :=
  match engine.toSql param with
  | .ok () =>
      if 0 < index ∧ index ≤ engine.parameterCount statement.query then
        .ok { statement with bindings := statement.bindings ++ [(param, index)] }
      else fail (.parameterOutOfRange index)
  | .error message => fail (.sqliteFailure message)

/-- Bind parameters from an index on.  Also returns the index after the last one. -/
def bindParams : List V → ℕ × Statement V → Fallible SqlError (ℕ × Statement V)
  | [], bound => .ok bound
  | param :: params, (index, statement) => do
      let statement ← rawBindParameter engine statement index param
      bindParams params (index + 1, statement)

end Binding

/-- Bind consecutive placeholders. -/
def Statement.bind {V : Type} (statement : Statement V) (index : ℕ) (params : List V) :
    Statement V :=
  { statement with bindings := statement.bindings ++ params.zipIdx index }

section Lemmas

variable {σ V : Type} {engine : Engine σ V} {params : List V} {index : ℕ} {statement : Statement V}

@[simp] lemma Statement.query_bind (statement : Statement V) (index : ℕ) (params : List V) :
    (statement.bind index params).query = statement.query := rfl

@[simp] lemma Statement.bind_nil (statement : Statement V) (index : ℕ) :
    statement.bind index [] = statement := by
  simp [Statement.bind]

lemma Statement.bind_cons (statement : Statement V) (index : ℕ) (param : V) (params : List V) :
    statement.bind index (param :: params) =
      (statement.bind index [param]).bind (index + 1) params := by
  simp [Statement.bind]

lemma prepareCached_ok {db : σ} {query : String} {prepared : Statement V}
    (h : prepareCached engine db query = .ok prepared) : prepared = ⟨query, []⟩ := by
  rw [prepareCached] at h
  split at h
  · cases h
    rfl
  · cases h

lemma prepareCached_error {db : σ} {query : String} {e : Failure SqlError}
    (h : prepareCached engine db query = .error e) :
    ∃ message, e = .error (.sqliteFailure message) := by
  rw [prepareCached] at h
  split at h
  · cases h
  · cases h
    exact ⟨_, rfl⟩

lemma bindParams_append (params params' : List V) (bound : ℕ × Statement V) :
    bindParams engine (params ++ params') bound =
      bindParams engine params bound >>= bindParams engine params' := by
  induction params generalizing bound with
  | nil => rfl
  | cons param params ih =>
      obtain ⟨index, statement⟩ := bound
      simp only [List.cons_append, bindParams, ih]
      cases rawBindParameter engine statement index param <;> rfl

lemma rawBindParameter_ok {param : V} {statement' : Statement V}
    (h : rawBindParameter engine statement index param = .ok statement') :
    statement' = statement.bind index [param] ∧ index ≤ engine.parameterCount statement.query := by
  rw [rawBindParameter] at h
  split at h
  · split_ifs at h with hrange
    cases h
    exact ⟨by simp [Statement.bind], hrange.2⟩
  · cases h

/-- **Parameters are bound to consecutive placeholders**, and all of these are placeholders of the
statement. -/
theorem bindParams_ok {bound : ℕ × Statement V}
    (hstart : index ≤ engine.parameterCount statement.query + 1)
    (h : bindParams engine params (index, statement) = .ok bound) :
    bound = (index + params.length, statement.bind index params) ∧
      index + params.length ≤ engine.parameterCount statement.query + 1 := by
  induction params generalizing index statement with
  | nil =>
      cases h
      exact ⟨by simp, by simpa using hstart⟩
  | cons param params ih =>
      simp only [bindParams, bind_eq_ok] at h
      obtain ⟨statement', hbind, hrest⟩ := h
      obtain ⟨rfl, hindex⟩ := rawBindParameter_ok hbind
      obtain ⟨hbound, hend⟩ := ih (by rw [Statement.query_bind]; omega) hrest
      rw [Statement.query_bind] at hend
      rw [Statement.bind_cons, List.length_cons, hbound]
      exact ⟨by rw [Nat.add_right_comm, Nat.add_assoc], by omega⟩

/-- **With enough placeholders, only the engine can fail.** -/
theorem bindParams_error {e : Failure SqlError} (hindex : 0 < index)
    (hend : index + params.length ≤ engine.parameterCount statement.query + 1)
    (h : bindParams engine params (index, statement) = .error e) :
    ∃ message, e = .error (.sqliteFailure message) := by
  induction params generalizing index statement with
  | nil => cases h
  | cons param params ih =>
      rw [List.length_cons] at hend
      simp only [bindParams, bind_eq_error] at h
      rcases h with h | ⟨statement', hbind, hrest⟩
      · rw [rawBindParameter] at h
        split at h
        · rw [if_pos ⟨hindex, by omega⟩] at h
          cases h
        · cases h
          exact ⟨_, rfl⟩
      · obtain ⟨rfl, -⟩ := rawBindParameter_ok hbind
        exact ih (Nat.succ_pos _) (by rw [Statement.query_bind]; omega) hrest

end Lemmas

end SqliteRwPool
