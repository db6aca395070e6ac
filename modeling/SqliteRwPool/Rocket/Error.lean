import Mathlib.Tactic.Common

/-!
# The errors of the crate

The crate only wraps the errors of rusqlite, r2d2, figment and rusqlite_migration, so they are
represented by their texts.
-/

namespace SqliteRwPool

inductive MigrationError
  | wrongVersionNumber (expected got : ℕ)
  | wrongTypeForSingleMigration (path : String)
  | reversibleMigrationMissingUp (path : String)
  | reversibleMigrationMissingDown (path : String)
  | tooManyMigrationsForVersion (version got : ℕ)
  | missingMigrationSource (path : String)
  | rusqliteMigration (e : String)
  deriving DecidableEq, Repr

inductive Error
  | connectionPermitRetrievalTimeout
  | connectionFailure (e : String)
  | poolCreation (e : String)
  | configuration (e : String)
  | migration (e : MigrationError)
  | missingDatabaseFairing (db : String)
  | unauthorized
  deriving DecidableEq, Repr

end SqliteRwPool
