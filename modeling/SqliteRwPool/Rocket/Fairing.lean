import SqliteRwPool.Migration.Plan
import SqliteRwPool.Rocket.Guards

/-!
# What the start-up fairings install

`fairing` and `fairing_with_migrations` are two ways to the same end: extract the configuration,
create the pools, manage the `ConnectionPool<DB>`, and abort the launch if any of it fails.  The
second does so.  The first hands `rocket.manage` what `ConnectionPool::new` returns, which is a
`Result`: it is this type that is managed, with an error in it if need be, and nothing else in the
crate looks it up.

* `fairingWithMigrations_installs` — with migrations that have nothing to do, the second fairing
  installs the pool or aborts.
* `installsOrAborts_iff` — both do, alike, exactly when there is nothing for the first to manage.
-/

namespace SqliteRwPool

open Fallible

/-- What start-up depends on outside the crate: r2d2, the configuration that figment extracts for a
database, rusqlite_migration, and the database that a connection of the writer is to. -/
structure Environment (σ : Type) where
  r2d2 : R2d2
  extract : String → Fallible String Config
  library : RusqliteMigration σ
  database : Conn → Database σ

section Fairings

variable {σ : Type} (env : Environment σ)

/-- Extract the configuration for the given database name. -/
def getConfig (db : String) : Fallible Error Config :=
  Fallible.mapError Error.configuration (env.extract db)

/-- Get a connection pool with the given configuration, and run migrations on startup. -/
def getPoolWithMigrationsImpl (embed : RustEmbed) (db : String) :
    Fallible Error ConnectionPool := do
  let config ← getConfig env db
  let pool ← ConnectionPool.new env.r2d2 config
  match pool.writer with
  | none => panic
  | some writer => do
      let connection ← Fallible.mapError Error.connectionFailure
        (env.r2d2.getTimeout writer pool.connectTimeout)
      Fallible.mapError Error.migration
        (ofExcept (runMigrations env.library embed config.migrate (env.database connection)).1)
      return pool

/-- Fairing to attach to your rocket instance: an error is the rocket whose launch is aborted. -/
def fairing (db : String) (rocket : Rocket) : Fallible Rocket Rocket :=
  match getConfig env db with
  | .ok config => do
      let result ← attempt (ConnectionPool.new env.r2d2 config)
      rocket.manage (.newResult db) result
  | .error (.error _) => fail rocket
  | .error .panic => panic

/-- Fairing to attach to your rocket instance, which will run migrations on startup.  A panic of the
blocking job is resumed. -/
def fairingWithMigrations (embed : RustEmbed) (db : String) (rocket : Rocket) :
    Fallible Rocket Rocket :=
  match getPoolWithMigrationsImpl env embed db with
  | .ok pool => rocket.manage (.connectionPool db) pool
  | .error (.error _) => fail rocket
  | .error .panic => panic

end Fairings

/-! ## The lookups by type -/

/-- Get the pool from the rocket instance. -/
def getPool (rocket : Rocket) (db : String) : Option ConnectionPool :=
  rocket.state.get (.connectionPool db)

/-- Get a connector from the rocket instance. -/
def getOne (rocket : Rocket) (db : String) : Option Connector :=
  (rocket.state.get (.connectionPool db)).map Connector.mk

/-- `Sentinel::abort` of `Connector`, `AuthorizedConnector`, `ReadConnection` and
`WriteConnection`. -/
def sentinelAborts (rocket : Rocket) (db : String) : Bool :=
  (rocket.state.get (.connectionPool db)).isNone

/-- The guard reports `MissingDatabaseFairing`. -/
def Outcome.ReportsMissing {S : Type} (outcome : Outcome S Error) : Prop :=
  ∃ status db, outcome = .error status (.missingDatabaseFairing db)

/-- The pool of a database is there for everything in the crate that looks it up. -/
structure Usable (rocket : Rocket) (db : String) : Prop where
  state : (rocket.state.get (.connectionPool db)).isSome
  getPool : getPool rocket db ≠ none
  getOne : getOne rocket db ≠ none
  sentinels : sentinelAborts rocket db = false
  guards : ∀ {σ : Type} (getters : Getters σ) (request : Request σ), request.rocket = rocket →
    ¬ (Connector.fromRequest db request).1.ReportsMissing ∧
    ¬ (ReadConnection.fromRequest getters db request).1.ReportsMissing ∧
    ¬ (WriteConnection.fromRequest getters db request).1.ReportsMissing ∧
    ¬ (AuthorizedConnector.fromRequest db request).1.ReportsMissing

/-- The configuration extracts and both pools are created. -/
def PoolsCreated {σ : Type} (env : Environment σ) (db : String) : Prop :=
  ∃ config, env.extract db = .ok config ∧
    ∃ writer readers, createPool env.r2d2 config true = .ok writer ∧
      createPool env.r2d2 config false = .ok readers

/-- Both fairings have the same effect: they succeed exactly when the pools are created, and the
pool is usable then. -/
structure InstallsOrAborts {σ : Type} (env : Environment σ) (embed : RustEmbed) (db : String)
    (rocket : Rocket) : Prop where
  sameEffect : fairing env db rocket = fairingWithMigrations env embed db rocket
  ignites : (∃ rocket', fairing env db rocket = .ok rocket') ↔ PoolsCreated env db
  usable : ∀ rocket', fairing env db rocket = .ok rocket' → Usable rocket' db

/-! ## What is usable -/

lemma Outcome.not_reportsMissing_orForward {S : Type} (result : Except Error S) (status : Status) :
    ¬ (Outcome.orForward result status).ReportsMissing := by
  rintro ⟨status', db, h⟩
  cases result <;> cases h

lemma withPool_not_reportsMissing {σ S : Type} {db : String}
    {f : ConnectionPool → Request σ → Outcome S Error × Request σ} {request : Request σ}
    (hpool : (request.rocket.state.get (.connectionPool db)).isSome)
    (hf : ∀ pool request, ¬ (f pool request).1.ReportsMissing) :
    ¬ (withPool db f request).1.ReportsMissing := by
  obtain ⟨pool, h⟩ := Option.isSome_iff_exists.mp hpool
  simp only [withPool, h]
  exact hf pool request

lemma withAuthorization_not_reportsMissing {σ S : Type} {db : String}
    {f : ConnectionPool → WriteAuthorization → Request σ → Outcome S Error × Request σ}
    {request : Request σ} (hpool : (request.rocket.state.get (.connectionPool db)).isSome)
    (hf : ∀ pool authorization request, ¬ (f pool authorization request).1.ReportsMissing) :
    ¬ (withAuthorization db f request).1.ReportsMissing := by
  rcases h : WriteAuthorization.fromRequest request.cache with ⟨outcome, cache⟩
  simp only [withAuthorization, h]
  cases outcome with
  | success authorization =>
      exact withPool_not_reportsMissing hpool fun pool => hf pool authorization
  | error status e => exact e.elim
  | forward status =>
      rintro ⟨status', db', heq⟩
      cases heq

/-- All lookups find a pool that is managed. -/
lemma usable_of_state {rocket : Rocket} {db : String}
    (h : (rocket.state.get (.connectionPool db)).isSome) : Usable rocket db where
  state := h
  getPool := Option.isSome_iff_ne_none.mp h
  getOne := by
    rw [getOne, ne_eq, Option.map_eq_none_iff]
    exact Option.isSome_iff_ne_none.mp h
  sentinels := by
    rw [sentinelAborts, Option.isNone_eq_false_iff]
    exact h
  guards getters request hrocket := by
    rw [← hrocket] at h
    have hsuccess : ∀ {S : Type} (s : S),
        ¬ (Outcome.success s : Outcome S Error).ReportsMissing := by
      rintro S s ⟨status, db', heq⟩
      cases heq
    exact ⟨withPool_not_reportsMissing h fun _ _ => hsuccess _,
      withPool_not_reportsMissing h fun _ _ => Outcome.not_reportsMissing_orForward _ _,
      withAuthorization_not_reportsMissing h fun _ _ _ => Outcome.not_reportsMissing_orForward _ _,
      withAuthorization_not_reportsMissing h fun _ _ _ => hsuccess _⟩

/-! ## The fairings -/

section Effects

variable {σ : Type} {env : Environment σ} {db : String}

lemma poolsCreated_iff :
    PoolsCreated env db ↔ ∃ config, env.extract db = .ok config ∧
      ∃ pool, ConnectionPool.new env.r2d2 config = .ok pool := by
  have hnew : ∀ config, (∃ pool, ConnectionPool.new env.r2d2 config = .ok pool) ↔
      ∃ writer readers, createPool env.r2d2 config true = .ok writer ∧
        createPool env.r2d2 config false = .ok readers := by
    intro config
    simp only [ConnectionPool.new, bind_eq_ok]
    constructor
    · rintro ⟨pool, writer, hwriter, readers, hreaders, -⟩
      exact ⟨writer, readers, hwriter, hreaders⟩
    · rintro ⟨writer, readers, hwriter, hreaders⟩
      exact ⟨_, writer, hwriter, readers, hreaders, rfl⟩
  simp only [PoolsCreated, hnew]

lemma getConfig_of_ok {config : Config} (h : env.extract db = .ok config) :
    getConfig env db = .ok config := by
  rw [getConfig, h]
  rfl

/-- The second fairing never succeeds without the pools, nor over a pool that is managed already. -/
lemma fairingWithMigrations_ok {embed : RustEmbed} {rocket rocket' : Rocket}
    (h : fairingWithMigrations env embed db rocket = .ok rocket') :
    PoolsCreated env db ∧ rocket.state.get (.connectionPool db) = none ∧
      (rocket'.state.get (.connectionPool db)).isSome := by
  simp only [fairingWithMigrations] at h
  cases hpool : getPoolWithMigrationsImpl env embed db with
  | error e =>
      rw [hpool] at h
      cases e <;> cases h
  | ok pool =>
      rw [hpool] at h
      have hunmanaged : rocket.state.get (.connectionPool db) = none := by
        by_contra hne
        simp only [Rocket.manage, Option.isSome_iff_ne_none.mpr hne, if_true] at h
        cases h
      refine ⟨?_, hunmanaged, by rw [(Rocket.state_manage h).1]; rfl⟩
      simp only [getPoolWithMigrationsImpl, bind_eq_ok] at hpool
      obtain ⟨config, hconfig, created, hcreated, -⟩ := hpool
      refine poolsCreated_iff.mpr ⟨config, ?_, created, hcreated⟩
      rcases hextract : env.extract db with _ | config'
      · rename_i e
        rw [getConfig, hextract] at hconfig
        cases e <;> cases hconfig
      · rw [getConfig_of_ok hextract, Except.ok.injEq] at hconfig
        rw [hconfig]

/-- The migrations have nothing to do: a connection of the new writer is to be had, and running
them on it succeeds. -/
structure NothingToDo (env : Environment σ) (embed : RustEmbed) (config : Config) : Prop where
  connects : ∀ writer timeout, ∃ connection, env.r2d2.getTimeout writer timeout = .ok connection
  migrates : ∀ connection,
    (runMigrations env.library embed config.migrate (env.database connection)).1 = .ok ()

/-- **The fairing with migrations installs a usable pool or aborts the launch**, on a rocket that
does not manage the pool already, when its migrations have nothing to do. -/
theorem fairingWithMigrations_installs {embed : RustEmbed} {rocket : Rocket}
    (hnothing : ∀ config, env.extract db = .ok config → NothingToDo env embed config)
    (hfresh : rocket.state.get (.connectionPool db) = none) :
    ((∃ rocket', fairingWithMigrations env embed db rocket = .ok rocket') ↔ PoolsCreated env db) ∧
      ∀ rocket', fairingWithMigrations env embed db rocket = .ok rocket' → Usable rocket' db := by
  refine ⟨⟨?_, ?_⟩, fun rocket' h => usable_of_state (fairingWithMigrations_ok h).2.2⟩
  · rintro ⟨rocket', h⟩
    exact (fairingWithMigrations_ok h).1
  · intro hcreated
    obtain ⟨config, hconfig, pool, hpool⟩ := poolsCreated_iff.mp hcreated
    obtain ⟨hconnects, hmigrates⟩ := hnothing config hconfig
    obtain ⟨writer, hwriter⟩ : ∃ writer, pool.writer = some writer := by
      simp only [ConnectionPool.new, bind_eq_ok] at hpool
      obtain ⟨writer, -, readers, -, heq⟩ := hpool
      cases heq
      exact ⟨writer, rfl⟩
    obtain ⟨connection, hconnection⟩ := hconnects writer pool.connectTimeout
    have himpl : getPoolWithMigrationsImpl env embed db = .ok pool := by
      simp [getPoolWithMigrationsImpl, getConfig_of_ok hconfig, hpool, hwriter, hconnection,
        Fallible.mapError, hmigrates connection, Fallible.ofExcept]
    exact ⟨_, by
      simp only [fairingWithMigrations, himpl, Rocket.manage, hfresh, Option.isSome_none,
        Bool.false_eq_true, if_false]
      rfl⟩

/-- What the first fairing does with a configuration: it manages the `Result` of `new`. -/
lemma fairing_of_config {config : Config} (hconfig : env.extract db = .ok config)
    (rocket : Rocket) :
    fairing env db rocket = attempt (ConnectionPool.new env.r2d2 config) >>=
      rocket.manage (.newResult db) := by
  simp only [fairing, getConfig_of_ok hconfig]

/-- So it leaves the pool managed or not as it was. -/
lemma fairing_state {config : Config} (hconfig : env.extract db = .ok config)
    {rocket rocket' : Rocket} (h : fairing env db rocket = .ok rocket') :
    rocket'.state.get (.connectionPool db) = rocket.state.get (.connectionPool db) := by
  rw [fairing_of_config hconfig, bind_eq_ok] at h
  obtain ⟨result, -, hmanage⟩ := h
  refine (Rocket.state_manage hmanage).2 _ ?_
  intro heq
  cases heq

lemma not_poolsCreated_of_error {config : Config} {e : Failure Error}
    (hconfig : env.extract db = .ok config)
    (hnew : ConnectionPool.new env.r2d2 config = .error e) : ¬ PoolsCreated env db := by
  rw [poolsCreated_iff]
  rintro ⟨config', hconfig', pool, hpool⟩
  rw [hconfig, Except.ok.injEq] at hconfig'
  rw [← hconfig', hnew] at hpool
  cases hpool

lemma InstallsOrAborts.of_error {embed : RustEmbed} {rocket : Rocket} {e : Failure Rocket}
    (hfairing : fairing env db rocket = .error e)
    (hmigrations : fairingWithMigrations env embed db rocket = .error e)
    (hcreated : ¬ PoolsCreated env db) : InstallsOrAborts env embed db rocket where
  sameEffect := hfairing.trans hmigrations.symm
  ignites := by
    rw [hfairing]
    exact ⟨fun ⟨_, h⟩ => (by cases h), fun h => absurd h hcreated⟩
  usable rocket' h := by
    rw [hfairing] at h
    cases h

/-- **When both fairings install a usable pool or abort, alike.**  They do if the configuration
does not extract or creating the pools panics, and in no other case. -/
theorem installsOrAborts_iff (env : Environment σ) (embed : RustEmbed) (db : String)
    (rocket : Rocket) :
    InstallsOrAborts env embed db rocket ↔
      ∀ config, env.extract db = .ok config → Panics (ConnectionPool.new env.r2d2 config) := by
  constructor
  · rintro ⟨hsame, hignites, husable⟩ config hconfig
    cases hnew : ConnectionPool.new env.r2d2 config with
    | ok pool =>
        obtain ⟨rocket', hok⟩ := hignites.mpr (poolsCreated_iff.mpr ⟨config, hconfig, pool, hnew⟩)
        have hstate := (husable rocket' hok).state
        rw [fairing_state hconfig hok] at hstate
        rw [hsame] at hok
        rw [(fairingWithMigrations_ok hok).2.1] at hstate
        cases hstate
    | error e =>
        cases e with
        | panic => rfl
        | error e =>
            have hmigrations : fairingWithMigrations env embed db rocket = fail rocket := by
              simp [fairingWithMigrations, getPoolWithMigrationsImpl, getConfig_of_ok hconfig, hnew]
            have hmanage : fairing env db rocket = rocket.manage (.newResult db) (.error e) := by
              rw [fairing_of_config hconfig, hnew]
              rfl
            rw [hsame, hmigrations, Rocket.manage] at hmanage
            split_ifs at hmanage
            cases hmanage
  · intro h
    cases hextract : env.extract db with
    | error e =>
        have hcreated : ¬ PoolsCreated env db := by
          rintro ⟨config, hconfig, -⟩
          rw [hextract] at hconfig
          cases hconfig
        cases e with
        | error e =>
            refine .of_error (e := .error rocket) ?_ ?_ hcreated
            · simp [fairing, getConfig, hextract, Fallible.mapError]
            · simp [fairingWithMigrations, getPoolWithMigrationsImpl, getConfig, hextract,
                Fallible.mapError]
        | panic =>
            refine .of_error (e := .panic) ?_ ?_ hcreated
            · simp [fairing, getConfig, hextract, Fallible.mapError]
            · simp [fairingWithMigrations, getPoolWithMigrationsImpl, getConfig, hextract,
                Fallible.mapError]
    | ok config =>
        have hnew : ConnectionPool.new env.r2d2 config = .error .panic := h config hextract
        refine .of_error (e := .panic) ?_ ?_ (not_poolsCreated_of_error hextract hnew)
        · rw [fairing_of_config hextract, hnew]
          rfl
        · simp [fairingWithMigrations, getPoolWithMigrationsImpl, getConfig_of_ok hextract, hnew]

end Effects

/-- Everything that start-up depends on succeeds. -/
def succeeding : Environment Unit where
  r2d2 := ⟨fun _ => .ok (), fun _ _ => .ok 0⟩
  extract := fun db => .ok ⟨db, none, 4, 5, none, ⟨none, none⟩⟩
  library := transactional fun _ => some
  database := fun _ => ⟨(), 0, []⟩

/-- With nothing to migrate and everything succeeding, the fairing with migrations installs the
pool, and the other one ignites without it: a request then reports the fairing as missing, and a
sentinel aborts. -/
theorem fairing_installsResult :
    (∃ rocket', fairing succeeding "main" ⟨.empty⟩ = .ok rocket' ∧ getPool rocket' "main" = none ∧
      sentinelAborts rocket' "main" = true ∧
      (Connector.fromRequest "main" (Request.new rocket' ())).1 =
        .error .internalServerError (.missingDatabaseFairing "main")) ∧
    (∃ rocket', fairingWithMigrations succeeding ⟨[], fun _ => none⟩ "main" ⟨.empty⟩ = .ok rocket' ∧
      (getPool rocket' "main").isSome) ∧
    ¬ InstallsOrAborts succeeding ⟨[], fun _ => none⟩ "main" ⟨.empty⟩ := by
  refine ⟨⟨_, rfl, rfl, rfl, rfl⟩, ⟨_, rfl, rfl⟩, ?_⟩
  rintro ⟨-, -, husable⟩
  exact absurd (husable _ rfl).state (by decide)

end SqliteRwPool
