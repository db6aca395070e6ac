import SqliteRwPool.Migration.Folder
import SqliteRwPool.Rocket.Config

/-!
# Which migrations run at start-up

`run_migrations` goes from the version of the database to `first_to`, and from there to `to` or to
the latest version.  What rusqlite_migration does on one such leg is a parameter, of which
`RusqliteMigration.Atomic` says what its documentation does: a leg that succeeds has run the ups or
downs between the two versions, and one that fails has changed nothing.

`RustEmbed.path` says in terms of files and their numeric prefixes which scripts lie between two
versions, and `migrationsFollowPath` that these are the scripts that run.
-/

namespace SqliteRwPool

open Fallible

/-- A database: its schema, its `user_version`, and the scripts that were committed to it. -/
structure Database (σ : Type) where
  schema : σ
  userVersion : ℕ
  scripts : List String
  deriving DecidableEq, Repr

/-- What `current_version`, `to_version` and `to_latest` of `Migrations` do. -/
structure RusqliteMigration (σ : Type) where
  currentVersion : List M → Database σ → Except String ℕ
  toVersion : List M → ℕ → Database σ → Except String Unit × Database σ
  toLatest : List M → Database σ → Except String Unit × Database σ

section Planning

variable {σ : Type} (library : RusqliteMigration σ)

/-- `map_err` of an error of the library. -/
def fromLibrary (result : Except String Unit × Database σ) :
    Except MigrationError Unit × Database σ :=
  (result.1.mapError .rusqliteMigration, result.2)

/-- Migrate to `first_to`, if it is set and not the current version; returns the current version
after that. -/
def migrateFirst (ms : List M) (config : MigrationConfig) (currentVersion : ℕ) (db : Database σ) :
    Except MigrationError ℕ × Database σ :=
  match config.firstTo with
  | none => (.ok currentVersion, db)
  | some target =>
      if target ≠ currentVersion then
        let (result, db) := fromLibrary (library.toVersion ms target db)
        (result.map fun _ => target, db)
      else (.ok currentVersion, db)

/-- Migrate to `to` if it is set, and otherwise to the latest version if that is higher. -/
def migrateLast (ms : List M) (config : MigrationConfig) (currentVersion : ℕ) (db : Database σ) :
    Except MigrationError Unit × Database σ :=
  match config.migrateTo with
  | some target => fromLibrary (library.toVersion ms target db)
  | none =>
      if currentVersion < ms.length then fromLibrary (library.toLatest ms db)
      else (.ok (), db)

def runMigrations (embed : RustEmbed) (config : MigrationConfig) (db : Database σ) :
    Except MigrationError Unit × Database σ :=
  match embed.migrations with
  | .error e => (.error e, db)
  | .ok ms =>
      match library.currentVersion ms db with
      | .error e => (.error (.rusqliteMigration e), db)
      | .ok currentVersion =>
          match migrateFirst library ms config currentVersion db with
          | (.error e, db) => (.error e, db)
          | (.ok currentVersion, db) => migrateLast library ms config currentVersion db

variable {library} {ms : List M} {config : MigrationConfig} {version : ℕ} {db db' : Database σ}

lemma migrateFirst_cases {result : Except MigrationError ℕ}
    (h : migrateFirst library ms config version db = (result, db')) :
    (result = .ok version ∧ db' = db ∧ ∀ target, config.firstTo = some target → target = version) ∨
    ∃ target legResult, config.firstTo = some target ∧ target ≠ version ∧
      fromLibrary (library.toVersion ms target db) = (legResult, db') ∧
      result = legResult.map fun _ => target := by
  simp only [migrateFirst] at h
  cases hto : config.firstTo with
  | none =>
      rw [hto] at h
      cases h
      exact Or.inl ⟨rfl, rfl, nofun⟩
  | some target =>
      simp only [hto] at h
      split_ifs at h with hne
      · cases h
        exact Or.inr ⟨target, _, rfl, hne, rfl, rfl⟩
      · rw [not_not] at hne
        cases h
        refine Or.inl ⟨rfl, rfl, fun target' heq => ?_⟩
        cases heq
        exact hne

lemma migrateLast_cases {result : Except MigrationError Unit}
    (h : migrateLast library ms config version db = (result, db')) :
    (∃ target, config.migrateTo = some target ∧
      fromLibrary (library.toVersion ms target db) = (result, db')) ∨
    (config.migrateTo = none ∧ version < ms.length ∧
      fromLibrary (library.toLatest ms db) = (result, db')) ∨
    (config.migrateTo = none ∧ ms.length ≤ version ∧ result = .ok () ∧ db' = db) := by
  simp only [migrateLast] at h
  cases hto : config.migrateTo with
  | some target =>
      simp only [hto] at h
      exact Or.inl ⟨target, rfl, h⟩
  | none =>
      simp only [hto] at h
      split_ifs at h with hlt
      · exact Or.inr (Or.inl ⟨rfl, hlt, h⟩)
      · cases h
        exact Or.inr (Or.inr ⟨rfl, not_lt.mp hlt, rfl, rfl⟩)

/-- A run on an accepted folder ends with the version that it cannot read, with the first leg, or
with the last one. -/
lemma runMigrations_cases
    (hcurrent : ∀ {version}, library.currentVersion ms db = .ok version → version = db.userVersion)
    {embed : RustEmbed} (haccepted : embed.migrations = .ok ms)
    {result : Except MigrationError Unit}
    (h : runMigrations library embed config db = (result, db')) :
    (∃ e, library.currentVersion ms db = .error e ∧ result = .error (.rusqliteMigration e) ∧
      db' = db) ∨
    (∃ e, migrateFirst library ms config db.userVersion db = (.error e, db') ∧
      result = .error e) ∨
    ∃ version after, migrateFirst library ms config db.userVersion db = (.ok version, after) ∧
      migrateLast library ms config version after = (result, db') := by
  simp only [runMigrations, haccepted] at h
  cases hread : library.currentVersion ms db with
  | error e =>
      rw [hread] at h
      cases h
      exact Or.inl ⟨e, rfl, rfl, rfl⟩
  | ok version =>
      rw [hread, hcurrent hread] at h
      rcases hleg : migrateFirst library ms config db.userVersion db with ⟨e | version', after⟩
      · simp only [hleg] at h
        cases h
        exact Or.inr (Or.inl ⟨e, rfl, rfl⟩)
      · simp only [hleg] at h
        exact Or.inr (Or.inr ⟨version', after, rfl, h⟩)

end Planning

/-! ## What the library does -/

/-- The scripts from version `a` to version `b` of a list of migrations: the ups of `a + 1` to `b`
in ascending order, or the downs of `a` to `b + 1` in descending order. -/
def legScripts (ms : List M) (a b : ℕ) : Option (List String) :=
  if a ≤ b then some (((ms.drop a).take (b - a)).map M.up)
  else ((ms.drop b).take (a - b)).reverse.mapM M.down

/-- All the scripts were committed to the database, which is at version `target` then. -/
structure Database.Migrated {σ : Type} (exec : String → σ → Option σ) (scripts : List String)
    (target : ℕ) (db db' : Database σ) : Prop where
  schema : scripts.foldlM (fun schema script => exec script schema) db.schema = some db'.schema
  userVersion : db'.userVersion = target
  scripts : db'.scripts = db.scripts ++ scripts

/-- The legs of the library are atomic, for scripts whose effect on a schema is `exec`. -/
structure RusqliteMigration.Atomic {σ : Type} (library : RusqliteMigration σ)
    (exec : String → σ → Option σ) : Prop where
  currentVersion : ∀ {ms db version}, library.currentVersion ms db = .ok version →
    version = db.userVersion
  toVersion_ok : ∀ {ms target db db'}, db.userVersion ≤ ms.length → target ≤ ms.length →
    library.toVersion ms target db = (.ok (), db') →
    ∃ scripts, legScripts ms db.userVersion target = some scripts ∧
      db.Migrated exec scripts target db'
  toVersion_error : ∀ {ms target db db' e}, library.toVersion ms target db = (.error e, db') →
    db' = db
  toLatest_ok : ∀ {ms db db'}, db.userVersion ≤ ms.length →
    library.toLatest ms db = (.ok (), db') →
    ∃ scripts, legScripts ms db.userVersion ms.length = some scripts ∧
      db.Migrated exec scripts ms.length db'
  toLatest_error : ∀ {ms db db' e}, library.toLatest ms db = (.error e, db') → db' = db

/-! ## The path through the files -/

/-- The text of the file of a version whose type is one of `types`. -/
def RustEmbed.script (embed : RustEmbed) (types : List MigrationSourceType) (version : ℕ) :
    Option String :=
  ((versionSources embed.iter version).find? fun source => source.type ∈ types).bind fun source =>
    (embed.text source.filename).toOption

/-- The scripts between two versions, by the numeric prefixes of the files. -/
def RustEmbed.path (embed : RustEmbed) (a b : ℕ) : Option (List String) :=
  if a ≤ b then (List.range' (a + 1) (b - a)).mapM (embed.script [.simple, .up])
  else (List.range' (b + 1) (a - b)).reverse.mapM (embed.script [.down])

lemma RustEmbed.script_eq_some {embed : RustEmbed} {types : List MigrationSourceType}
    {version : ℕ} {source : MigrationSource} {sql : String}
    (h : ((versionSources embed.iter version).filter
      fun source => source.type ∈ types).Perm [source])
    (htext : embed.text source.filename = .ok sql) : embed.script types version = some sql := by
  rw [RustEmbed.script, ← List.head?_filter, List.perm_singleton.mp h, List.head?_cons,
    Option.bind_some, htext]
  rfl

lemma RustEmbed.script_eq_none {embed : RustEmbed} {types : List MigrationSourceType}
    {version : ℕ}
    (h : ((versionSources embed.iter version).filter fun source => source.type ∈ types).Perm []) :
    embed.script types version = none := by
  rw [RustEmbed.script, ← List.head?_filter, h.eq_nil]
  rfl

/-- The scripts of a version are the ones its migration carries. -/
lemma Carries.script {embed : RustEmbed} {version : ℕ} {m : M} (h : Carries embed version m) :
    embed.script [.simple, .up] version = some m.up ∧ embed.script [.down] version = m.down := by
  rcases h with ⟨path, hperm, hup, hdown⟩ | ⟨up, down, downSql, hperm, hup, hdownSql, hdown⟩
  · rw [hdown]
    exact ⟨RustEmbed.script_eq_some (hperm.filter _) hup,
      RustEmbed.script_eq_none (hperm.filter _)⟩
  · rw [hdown]
    exact ⟨RustEmbed.script_eq_some (hperm.filter _) hup,
      RustEmbed.script_eq_some (hperm.filter _) hdownSql⟩

/-- Version for version, what belongs to the versions after `a` belongs to the entries from index
`a` on. -/
lemma map_versions {β : Type} {ms : List M} {f : ℕ → β} {g : M → β}
    (h : ∀ i, (hi : i < ms.length) → f (i + 1) = g ms[i]) {a k : ℕ} (hk : a + k ≤ ms.length) :
    (List.range' (a + 1) k).map f = ((ms.drop a).take k).map g := by
  refine List.ext_getElem ?_ fun i hi _ => ?_
  · simp only [List.length_map, List.length_range', List.length_take, List.length_drop]
    omega
  · simp only [List.length_map, List.length_range'] at hi
    simp only [List.getElem_map, List.getElem_range', List.getElem_take, List.getElem_drop]
    rw [← h (a + i) (by omega), show a + 1 + 1 * i = a + i + 1 by omega]

/-- The path through the files is the leg of the list of migrations. -/
lemma RustEmbed.path_eq {embed : RustEmbed} {ms : List M} (h : embed.migrations = .ok ms)
    {a b : ℕ} (ha : a ≤ ms.length) (hb : b ≤ ms.length) :
    embed.path a b = legScripts ms a b := by
  have hmap : ∀ (f : ℕ → Option String) (l : List ℕ), l.mapM f = (l.map f).mapM id := by
    intro f l
    rw [List.mapM_map]
    rfl
  have hmap' : ∀ (g : M → Option String) (l : List M), l.mapM g = (l.map g).mapM id := by
    intro g l
    rw [List.mapM_map]
    rfl
  simp only [RustEmbed.path, legScripts]
  split_ifs with hab
  · rw [hmap, map_versions (g := fun m => some m.up)
      (fun i hi => (RustEmbed.carries h hi).script.1) (by omega), ← hmap']
    exact List.mapM_pure
  · rw [hmap, List.map_reverse, map_versions (g := M.down)
      (fun i hi => (RustEmbed.carries h hi).script.2) (by omega), ← List.map_reverse, ← hmap']

/-! ## Runs -/

section Runs

variable {σ : Type} {library : RusqliteMigration σ} {exec : String → σ → Option σ}

lemma Database.Migrated.refl (db : Database σ) : db.Migrated exec [] db.userVersion db :=
  ⟨rfl, rfl, (List.append_nil _).symm⟩

lemma Database.Migrated.trans {first second : List String} {v w : ℕ} {db₁ db₂ db₃ : Database σ}
    (h₁ : db₁.Migrated exec first v db₂) (h₂ : db₂.Migrated exec second w db₃) :
    db₁.Migrated exec (first ++ second) w db₃ := by
  refine ⟨?_, h₂.userVersion, ?_⟩
  · rw [List.foldlM_append, h₁.schema]
    exact h₂.schema
  · rw [h₂.scripts, h₁.scripts, List.append_assoc]

lemma legScripts_self (ms : List M) (v : ℕ) : legScripts ms v v = some [] := by
  simp [legScripts]

/-- What a leg to `target` may come to: it was completed, or nothing was done. -/
def LegOutcome (exec : String → σ → Option σ) (ms : List M) (target : ℕ) (db db' : Database σ) :
    Except MigrationError Unit → Prop
  | .ok _ => ∃ scripts, legScripts ms db.userVersion target = some scripts ∧
      db.Migrated exec scripts target db'
  | .error _ => db' = db

lemma LegOutcome.stay (ms : List M) (db : Database σ) :
    LegOutcome exec ms db.userVersion db db (.ok ()) :=
  ⟨[], legScripts_self ms _, .refl db⟩

lemma toVersion_outcome (hlib : library.Atomic exec) {ms : List M} {target : ℕ} {db : Database σ}
    (hstart : db.userVersion ≤ ms.length) (htarget : target ≤ ms.length) :
    LegOutcome exec ms target db (fromLibrary (library.toVersion ms target db)).2
      (fromLibrary (library.toVersion ms target db)).1 := by
  rcases h : library.toVersion ms target db with ⟨_ | _, db'⟩
  · exact hlib.toVersion_error h
  · exact hlib.toVersion_ok hstart htarget h

lemma toLatest_outcome (hlib : library.Atomic exec) {ms : List M} {db : Database σ}
    (hstart : db.userVersion ≤ ms.length) :
    LegOutcome exec ms ms.length db (fromLibrary (library.toLatest ms db)).2
      (fromLibrary (library.toLatest ms db)).1 := by
  rcases h : library.toLatest ms db with ⟨_ | _, db'⟩
  · exact hlib.toLatest_error h
  · exact hlib.toLatest_ok hstart h

/-- The first leg goes to `first_to`, or stays where it starts; the version it returns is the one
of the database. -/
lemma migrateFirst_outcome (hlib : library.Atomic exec) {ms : List M} {config : MigrationConfig}
    {db db' : Database σ} {result : Except MigrationError ℕ} (hstart : db.userVersion ≤ ms.length)
    (hfirst : ∀ target, config.firstTo = some target → target ≤ ms.length)
    (h : migrateFirst library ms config db.userVersion db = (result, db')) :
    LegOutcome exec ms (config.firstTo.getD db.userVersion) db db' (result.map fun _ => ()) ∧
      ∀ version, result = .ok version → version = config.firstTo.getD db.userVersion := by
  rcases migrateFirst_cases h with ⟨rfl, rfl, hstay⟩ | ⟨target, legResult, hto, -, hleg, rfl⟩
  · have hversion : config.firstTo.getD db'.userVersion = db'.userVersion := by
      cases hto : config.firstTo with
      | none => rfl
      | some target => exact hstay target hto
    rw [hversion]
    refine ⟨.stay ms db', fun version heq => ?_⟩
    cases heq
    rfl
  · have houtcome := toVersion_outcome hlib hstart (hfirst target hto)
    rw [hleg] at houtcome
    rw [hto, Option.getD_some]
    cases legResult with
    | error e => exact ⟨houtcome, nofun⟩
    | ok u =>
        refine ⟨houtcome, fun version heq => ?_⟩
        cases heq
        rfl

/-- The last leg goes to `to`, or to the latest version. -/
lemma migrateLast_outcome (hlib : library.Atomic exec) {ms : List M} {config : MigrationConfig}
    {db : Database σ} (hstart : db.userVersion ≤ ms.length)
    (hlast : ∀ target, config.migrateTo = some target → target ≤ ms.length) :
    LegOutcome exec ms (config.migrateTo.getD ms.length) db
      (migrateLast library ms config db.userVersion db).2
      (migrateLast library ms config db.userVersion db).1 := by
  rcases hrun : migrateLast library ms config db.userVersion db with ⟨result, db'⟩
  rcases migrateLast_cases hrun with
    ⟨target, hto, hleg⟩ | ⟨hto, -, hleg⟩ | ⟨hto, hle, rfl, rfl⟩
  · have houtcome := toVersion_outcome hlib hstart (hlast target hto)
    rw [hleg] at houtcome
    rw [hto]
    exact houtcome
  · have houtcome := toLatest_outcome hlib hstart
    rw [hleg] at houtcome
    rw [hto]
    exact houtcome
  · rw [hto, Option.getD_none, show ms.length = db'.userVersion by omega]
    exact .stay ms db'

/-- **The migrations executed at start-up are exactly the configured path.**  From version `v` of
the database, over `f`, which is `first_to` or `v`, to `t`, which is `to` or the latest version:
when `run_migrations` succeeds, the scripts on the path from `v` to `f` and on the one from `f` to
`t` were executed, in this order, and the database is at `t`; when it fails, nothing was executed,
or exactly the path from `v` to `f`. -/
theorem migrationsFollowPath (hlib : library.Atomic exec) {embed : RustEmbed} {ms : List M}
    (haccepted : embed.migrations = .ok ms) {config : MigrationConfig} {db db' : Database σ}
    (hstart : db.userVersion ≤ ms.length)
    (hfirst : ∀ target, config.firstTo = some target → target ≤ ms.length)
    (hlast : ∀ target, config.migrateTo = some target → target ≤ ms.length)
    {result : Except MigrationError Unit}
    (hrun : runMigrations library embed config db = (result, db')) :
    let f := config.firstTo.getD db.userVersion
    let t := config.migrateTo.getD ms.length
    (result = .ok () → ∃ first second, embed.path db.userVersion f = some first ∧
      embed.path f t = some second ∧ db.Migrated exec (first ++ second) t db') ∧
    (∀ e, result = .error e → db' = db ∨
      ∃ first, embed.path db.userVersion f = some first ∧ db.Migrated exec first f db') := by
  intro f t
  have hf : f ≤ ms.length := by
    cases hto : config.firstTo with
    | none => simpa [f, hto] using hstart
    | some target => simpa [f, hto] using hfirst target hto
  have ht : t ≤ ms.length := by
    cases hto : config.migrateTo with
    | none => simp [t, hto]
    | some target => simpa [t, hto] using hlast target hto
  rw [embed.path_eq haccepted hstart hf, embed.path_eq haccepted hf ht]
  rcases runMigrations_cases hlib.currentVersion haccepted hrun with
    ⟨e, -, rfl, rfl⟩ | ⟨e, hleg, rfl⟩ | ⟨current, after, hleg, hrest⟩
  · exact ⟨nofun, fun _ _ => Or.inl rfl⟩
  · obtain ⟨houtcome, -⟩ := migrateFirst_outcome hlib hstart hfirst hleg
    exact ⟨nofun, fun _ _ => Or.inl houtcome⟩
  · obtain ⟨⟨first, hscripts, hmigrated⟩, hversion⟩ := migrateFirst_outcome hlib hstart hfirst hleg
    have hafter : after.userVersion = f := hmigrated.userVersion
    obtain rfl : current = after.userVersion := by
      rw [hversion current rfl, hmigrated.userVersion]
    have hsecond := migrateLast_outcome hlib (hafter ▸ hf) hlast
    rw [hrest] at hsecond
    cases result with
    | error e =>
        refine ⟨nofun, fun _ _ => Or.inr ⟨first, hscripts, ?_⟩⟩
        rw [show db' = after from hsecond]
        exact hmigrated
    | ok u =>
        obtain ⟨second, hscripts', hmigrated'⟩ := hsecond
        rw [hafter] at hscripts'
        exact ⟨fun _ => ⟨first, second, hscripts, hscripts', hmigrated.trans hmigrated'⟩, nofun⟩

end Runs

/-! ## A library with atomic legs -/

section Transactional

variable {σ : Type} (exec : String → σ → Option σ)

/-- All scripts in one transaction, which is rolled back unless they all succeed. -/
def transaction (scripts : List String) (target : ℕ) (db : Database σ) : Option (Database σ) :=
  (scripts.foldlM (fun schema script => exec script schema) db.schema).map fun schema =>
    ⟨schema, target, db.scripts ++ scripts⟩

/-- One leg, which looks for a missing down before it runs anything. -/
def leg (ms : List M) (target : ℕ) (db : Database σ) : Except String Unit × Database σ :=
  if db.userVersion ≤ ms.length ∧ target ≤ ms.length then
    match (legScripts ms db.userVersion target).bind fun scripts =>
        transaction exec scripts target db with
    | some db' => (.ok (), db')
    | none => (.error "migration failed", db)
  else (.error "version out of range", db)

def transactional : RusqliteMigration σ where
  currentVersion := fun _ db => .ok db.userVersion
  toVersion := leg exec
  toLatest := fun ms db =>
    if ms = [] then (.error "no migrations defined", db) else leg exec ms ms.length db

lemma leg_ok {ms : List M} {target : ℕ} {db db' : Database σ}
    (h : leg exec ms target db = (.ok (), db')) :
    ∃ scripts, legScripts ms db.userVersion target = some scripts ∧
      db.Migrated exec scripts target db' := by
  simp only [leg] at h
  split_ifs at h
  · split at h
    · rename_i after hafter
      cases h
      obtain ⟨scripts, hscripts, htransaction⟩ := Option.bind_eq_some_iff.mp hafter
      obtain ⟨schema, hschema, rfl⟩ := Option.map_eq_some_iff.mp htransaction
      exact ⟨scripts, hscripts, hschema, rfl, rfl⟩
    · cases h
  · cases h

lemma leg_error {ms : List M} {target : ℕ} {db db' : Database σ} {e : String}
    (h : leg exec ms target db = (.error e, db')) : db' = db := by
  simp only [leg] at h
  split_ifs at h
  · split at h <;> cases h
    rfl
  · cases h
    rfl

lemma transactional_atomic : (transactional exec).Atomic exec where
  currentVersion h := by
    cases h
    rfl
  toVersion_ok _ _ h := leg_ok exec h
  toVersion_error h := leg_error exec h
  toLatest_ok _ h := by
    simp only [transactional] at h
    split_ifs at h
    · cases h
    · exact leg_ok exec h
  toLatest_error h := by
    simp only [transactional] at h
    split_ifs at h
    · cases h
      rfl
    · exact leg_error exec h

end Transactional

/-- From version 2 down to 1 and up to the latest again. -/
theorem migrationsFollowPath_downAndUp :
    ∃ db', runMigrations (transactional fun _ => some) twoVersions ⟨none, some 1⟩
        ⟨(), 2, ["A", "B"]⟩ = (.ok (), db') ∧
      ∃ first second, twoVersions.path 2 1 = some first ∧ twoVersions.path 1 2 = some second ∧
        Database.Migrated (fun _ => some) (first ++ second) 2 ⟨(), 2, ["A", "B"]⟩ db' := by
  have haccepted : twoVersions.migrations = .ok [⟨"A", none⟩, ⟨"B", some "C"⟩] := by decide
  have hrun : runMigrations (transactional fun _ => some) twoVersions ⟨none, some 1⟩
      ⟨(), 2, ["A", "B"]⟩ = (.ok (), ⟨(), 2, ["A", "B", "C", "B"]⟩) := by decide
  exact ⟨_, hrun, (migrationsFollowPath (transactional_atomic _) haccepted (by decide) (by simp)
    (by simp) hrun).1 rfl⟩

end SqliteRwPool
