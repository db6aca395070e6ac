import SqliteRwPool.Library.Fallible
import SqliteRwPool.Library.TypeMap
import SqliteRwPool.Pool.State
import SqliteRwPool.Rocket.Config
import SqliteRwPool.Rocket.Error

/-!
# The rocket instance and the pool it manages

A rocket instance manages at most one value of each type, and the rest of the crate finds its
`ConnectionPool<DB>` by that type alone.  Types are named by `TypeName`; a marker type `DB` is
known by what `std::any::type_name` prints for it.

What r2d2 does is a parameter, `R2d2`: whether a builder gives a pool (which opens its first
connections and runs `with_init` on them), and what comes of `get_timeout`.  A builder may also
panic, as its setters do on values they reject.

* `sides_of_new` — `ConnectionPool::new` gives the pool whose runs `PoolState` describes.
-/

namespace SqliteRwPool

/-! ## Pools -/

/-- `rusqlite::OpenFlags`. -/
inductive OpenFlag
  | uri
  | noMutex
  | readWrite
  | create
  | readOnly
  deriving DecidableEq, Repr

/-- What `create_pool` sets on the manager and on r2d2's builder. -/
structure PoolBuilder where
  url : String
  flags : List OpenFlag
  maxSize : ℕ
  minIdle : Option ℕ
  idleTimeout : Option ℕ
  connectionTimeout : ℕ
  deriving DecidableEq, Repr

/-- An r2d2 pool, known by how it was built. -/
structure Pool where
  builder : PoolBuilder
  deriving DecidableEq, Repr

/-- What r2d2 makes of a builder, and of `get_timeout`. -/
structure R2d2 where
  build : PoolBuilder → Fallible String Unit
  getTimeout : Pool → ℕ → Fallible String Conn

/-- The builder that `create_pool` sets up. -/
def Config.builder (config : Config) (isWrite : Bool) : PoolBuilder where
  url := config.url
  flags := [.uri, .noMutex] ++ if isWrite then [.readWrite, .create] else [.readOnly]
  maxSize := if isWrite then 1 else config.maxReadConnections
  minIdle := if isWrite then some 1 else config.minReadConnections
  idleTimeout := config.idleTimeout
  connectionTimeout := config.connectTimeout

def createPool (r2d2 : R2d2) (config : Config) (isWrite : Bool) : Fallible Error Pool :=
  let builder := config.builder isWrite
  Fallible.mapError Error.poolCreation ((r2d2.build builder).map fun _ => Pool.mk builder)

/-- Pool of database connections, with the permits that its semaphores start with. -/
structure ConnectionPool where
  connectTimeout : ℕ
  writer : Option Pool
  writerSemaphore : ℕ
  readers : Option Pool
  readerSemaphore : ℕ
  deriving DecidableEq, Repr

/-- Create a new pool with the given configuration, the writer before the readers. -/
def ConnectionPool.new (r2d2 : R2d2) (config : Config) : Fallible Error ConnectionPool := do
  let writer ← createPool r2d2 config true
  let readers ← createPool r2d2 config false
  return ⟨config.connectTimeout, some writer, 1, some readers, config.maxReadConnections⟩

/-- Both sides of a pool before its first call. -/
def ConnectionPool.sides (pool : ConnectionPool) : Option PoolState := do
  let writer ← pool.writer
  let readers ← pool.readers
  return ⟨Side.new writer.builder.maxSize pool.writerSemaphore,
    Side.new readers.builder.maxSize pool.readerSemaphore, 1⟩

/-! ## Managed state -/

/-- The types of managed state: the pool of a database, what `ConnectionPool::new` returns for it,
and the application's own. -/
inductive TypeName
  | connectionPool (db : String)
  | result (ok err : TypeName)
  | error
  | other (name : String)
  deriving DecidableEq, Repr

@[reducible] def TypeName.Value : TypeName → Type
  | .connectionPool _ => ConnectionPool
  | .result ok err => Except err.Value ok.Value
  | .error => Error
  | .other _ => Unit

/-- A rocket instance by its managed state. -/
structure Rocket where
  state : TypeMap TypeName.Value

/-- Manage a value; panics if one of its type is managed already. -/
def Rocket.manage {ε : Type} (rocket : Rocket) (type : TypeName) (value : type.Value) :
    Fallible ε Rocket :=
  if (rocket.state.get type).isSome then Fallible.panic else .ok ⟨rocket.state.set type value⟩

/-- `Result::Ok` or `Result::Err` of the pool, as a managed value. -/
abbrev TypeName.newResult (db : String) : TypeName := .result (.connectionPool db) .error

/-! ## What creating a pool does -/

lemma createPool_builder {r2d2 : R2d2} {config : Config} {isWrite : Bool} {pool : Pool}
    (h : createPool r2d2 config isWrite = .ok pool) :
    pool.builder.maxSize = if isWrite then 1 else config.maxReadConnections := by
  simp only [createPool] at h
  cases hb : r2d2.build _ with
  | error e =>
      rw [hb] at h
      cases e <;> cases h
  | ok u =>
      rw [hb] at h
      cases h
      rfl

/-- **A new pool has one permit for each connection it may open**: its two sides start in the
state that its runs are described from. -/
theorem ConnectionPool.sides_of_new {r2d2 : R2d2} {config : Config} {pool : ConnectionPool}
    (h : ConnectionPool.new r2d2 config = .ok pool) :
    pool.sides = some (.new config.maxReadConnections) := by
  simp only [ConnectionPool.new] at h
  cases hw : createPool r2d2 config true with
  | error e => rw [hw] at h; cases h
  | ok writer =>
      cases hr : createPool r2d2 config false with
      | error e => rw [hw, hr] at h; cases h
      | ok readers =>
          rw [hw, hr] at h
          cases h
          have hwriter := createPool_builder hw
          have hreaders := createPool_builder hr
          simp only [if_true, Bool.false_eq_true, if_false] at hwriter hreaders
          simp [ConnectionPool.sides, hwriter, hreaders, PoolState.new]

/-- Managing a type leaves the others alone. -/
lemma Rocket.state_manage {ε : Type} {rocket rocket' : Rocket} {type : TypeName}
    {value : type.Value} (h : rocket.manage type value = (.ok rocket' : Fallible ε Rocket)) :
    rocket'.state.get type = some value ∧
      ∀ type', type' ≠ type → rocket'.state.get type' = rocket.state.get type' := by
  simp only [Rocket.manage] at h
  split_ifs at h with hset
  cases h
  rw [Option.not_isSome_iff_eq_none] at hset
  refine ⟨?_, fun type' hne => TypeMap.get_set_of_ne _ _ hne⟩
  rw [TypeMap.get_set_self, hset, Option.getD_none]

end SqliteRwPool
