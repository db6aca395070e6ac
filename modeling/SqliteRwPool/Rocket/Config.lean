import Mathlib.Tactic.Common

/-!
# The configuration of a database

What figment extracts for `databases.<name>`, as far as pools are created from it and migrations
are planned by it.  The pragmas and the busy timeout are for `with_init`, which r2d2 runs.
-/

namespace SqliteRwPool

/-- Configuration of migrations, `migrate.to` and `migrate.first_to`. -/
structure MigrationConfig where
  migrateTo : Option ℕ
  firstTo : Option ℕ
  deriving DecidableEq, Repr

/-- The part of the configuration that pools are created from. -/
structure Config where
  url : String
  minReadConnections : Option ℕ
  maxReadConnections : ℕ
  connectTimeout : ℕ
  idleTimeout : Option ℕ
  migrate : MigrationConfig
  deriving DecidableEq, Repr

end SqliteRwPool
