import SqliteRwPool.Migration.Plan

/-!
# The version that start-up migration ends at

The database may be ahead of the code, and `to` and `first_to` may be any numbers.  The library
checks them, in the legs that are run: `RusqliteMigration.Checked` says what a successful leg has
been checked for.  `Completed` says what a run that succeeds has done, whatever the versions, and
the three questions about a start-up are answered from it:

* `unreachableTarget_rejected` — a target above the latest version is rejected, when the leg to it
  is run.
* `finalVersion_iff` — when a run that succeeds ends at the configured version.
* `restart_iff` — when another start-up with the same configuration does nothing.
-/

namespace SqliteRwPool

/-- A leg that succeeds was one between two versions of a list of migrations that is not empty. -/
structure RusqliteMigration.Checked {σ : Type} (library : RusqliteMigration σ) : Prop where
  toVersion : ∀ {ms target db db'}, library.toVersion ms target db = (.ok (), db') →
    ms ≠ [] ∧ db.userVersion ≤ ms.length ∧ target ≤ ms.length

/-- The version of a database can be read, and going to it does nothing. -/
structure RusqliteMigration.Restartable {σ : Type} (library : RusqliteMigration σ) : Prop where
  currentVersion : ∀ ms db, library.currentVersion ms db = .ok db.userVersion
  toVersion : ∀ {ms db}, ms ≠ [] → db.userVersion ≤ ms.length →
    library.toVersion ms db.userVersion db = (.ok (), db)

/-! ## What a leg adds -/

section Legs

variable {σ : Type} {library : RusqliteMigration σ} {exec : String → σ → Option σ}

lemma length_of_mapM {α β : Type} {f : α → Option β} {l : List α} : ∀ {bs : List β},
    l.mapM f = some bs → bs.length = l.length := by
  induction l with
  | nil =>
      intro bs h
      cases h
      rfl
  | cons a l ih =>
      intro bs h
      simp only [List.mapM_cons, Option.pure_def, Option.bind_eq_bind, Option.bind_eq_some_iff] at h
      obtain ⟨b, -, rest, hrest, heq⟩ := h
      cases heq
      rw [List.length_cons, List.length_cons, ih hrest]

/-- A leg has one script for each version on the way. -/
lemma length_legScripts {ms : List M} {a b : ℕ} (ha : a ≤ ms.length) (hb : b ≤ ms.length)
    {scripts : List String} (h : legScripts ms a b = some scripts) :
    scripts.length = (b - a) + (a - b) := by
  rw [legScripts] at h
  split_ifs at h with hab
  · cases h
    simp only [List.length_map, List.length_take, List.length_drop]
    omega
  · rw [length_of_mapM h]
    simp only [List.length_reverse, List.length_take, List.length_drop]
    omega

/-- Nothing was done, or the scripts between two versions in range were committed. -/
def Leg (exec : String → σ → Option σ) (ms : List M) (db db' : Database σ) : Prop :=
  db' = db ∨ db.userVersion ≤ ms.length ∧ db'.userVersion ≤ ms.length ∧
    ∃ scripts, legScripts ms db.userVersion db'.userVersion = some scripts ∧
      db.Migrated exec scripts db'.userVersion db'

lemma Leg.length_scripts {ms : List M} {db db' : Database σ} (h : Leg exec ms db db') :
    db'.scripts.length = db.scripts.length +
      ((db'.userVersion - db.userVersion) + (db.userVersion - db'.userVersion)) := by
  rcases h with rfl | ⟨hstart, htarget, scripts, hscripts, hmigrated⟩
  · omega
  · rw [hmigrated.scripts, List.length_append, length_legScripts hstart htarget hscripts]

lemma Leg.inRange {ms : List M} {db db' : Database σ} (h : Leg exec ms db db')
    (hne : db'.userVersion ≠ db.userVersion) :
    db.userVersion ≤ ms.length ∧ db'.userVersion ≤ ms.length := by
  rcases h with rfl | ⟨hstart, htarget, -⟩
  · exact absurd rfl hne
  · exact ⟨hstart, htarget⟩

/-- A leg that stays at a version does nothing. -/
lemma Leg.eq_of_userVersion_eq {ms : List M} {db db' : Database σ} (h : Leg exec ms db db')
    (hversion : db'.userVersion = db.userVersion) : db' = db := by
  rcases h with rfl | ⟨-, -, scripts, hscripts, hmigrated⟩
  · rfl
  · rw [hversion, legScripts_self] at hscripts
    cases hscripts
    have hschema : db.schema = db'.schema := Option.some.inj hmigrated.schema
    have hcommitted : db'.scripts = db.scripts ++ [] := hmigrated.scripts
    rw [List.append_nil] at hcommitted
    cases db'
    simp only at hschema hversion hcommitted
    rw [← hschema, hversion, hcommitted]

lemma toVersion_leg (hlib : library.Atomic exec) (hchecked : library.Checked) {ms : List M}
    {target : ℕ} {db db' : Database σ}
    (h : fromLibrary (library.toVersion ms target db) = (.ok (), db')) :
    Leg exec ms db db' ∧ db'.userVersion = target ∧
      ms ≠ [] ∧ db.userVersion ≤ ms.length ∧ target ≤ ms.length := by
  rcases hleg : library.toVersion ms target db with ⟨e | u, after⟩
  · rw [hleg] at h
    cases h
  · rw [hleg] at h
    cases h
    have hrange := hchecked.toVersion hleg
    obtain ⟨scripts, hscripts, hmigrated⟩ := hlib.toVersion_ok hrange.2.1 hrange.2.2 hleg
    have hversion := hmigrated.userVersion
    rw [← hversion] at hscripts hmigrated hrange ⊢
    exact ⟨Or.inr ⟨hrange.2.1, hrange.2.2, scripts, hscripts, hmigrated⟩, rfl, hrange⟩

lemma toLatest_leg (hlib : library.Atomic exec) {ms : List M} {db db' : Database σ}
    (hstart : db.userVersion ≤ ms.length)
    (h : fromLibrary (library.toLatest ms db) = (.ok (), db')) :
    Leg exec ms db db' ∧ db'.userVersion = ms.length := by
  have hleg := toLatest_outcome hlib hstart
  rw [h] at hleg
  obtain ⟨scripts, hscripts, hmigrated⟩ := hleg
  have hversion : db'.userVersion = ms.length := hmigrated.userVersion
  refine ⟨Or.inr ⟨hstart, hversion.le, scripts, ?_, ?_⟩, hversion⟩
  · rw [hversion]
    exact hscripts
  · rw [hversion]
    exact hmigrated

lemma fromLibrary_unchanged {call : Except String Unit × Database σ} {db db' : Database σ}
    (hcall : ∀ {after e}, call = (.error e, after) → after = db) {e : MigrationError}
    (h : fromLibrary call = (.error e, db')) : db' = db := by
  rcases hleg : call with ⟨e' | u, after⟩
  · rw [hleg] at h
    cases h
    exact hcall hleg
  · rw [hleg] at h
    cases h

end Legs

/-! ## What a run has done -/

section Runs

variable {σ : Type} {library : RusqliteMigration σ} {exec : String → σ → Option σ}

/-- What a run that succeeds has done, by way of the database after the first leg. -/
structure Completed (exec : String → σ → Option σ) (ms : List M) (config : MigrationConfig)
    (db after db' : Database σ) : Prop where
  first : Leg exec ms db after
  firstVersion : after.userVersion = config.firstTo.getD db.userVersion
  last : Leg exec ms after db'
  lastVersion : db'.userVersion = config.migrateTo.getD (max ms.length after.userVersion)
  checked : ∀ target, config.migrateTo = some target →
    ms ≠ [] ∧ after.userVersion ≤ ms.length ∧ target ≤ ms.length

lemma migrateFirst_ok (hlib : library.Atomic exec) (hchecked : library.Checked) {ms : List M}
    {config : MigrationConfig} {db after : Database σ} {version : ℕ}
    (h : migrateFirst library ms config db.userVersion db = (.ok version, after)) :
    Leg exec ms db after ∧ after.userVersion = config.firstTo.getD db.userVersion ∧
      version = after.userVersion := by
  rcases migrateFirst_cases h with ⟨heq, rfl, hstay⟩ | ⟨target, legResult, hto, -, hleg, heq⟩
  · cases heq
    refine ⟨Or.inl rfl, ?_, rfl⟩
    cases hto : config.firstTo with
    | none => rfl
    | some target => exact (hstay target hto).symm
  · cases legResult with
    | error e => cases heq
    | ok u =>
        cases heq
        obtain ⟨hdone, hversion, -⟩ := toVersion_leg hlib hchecked hleg
        rw [hto, Option.getD_some]
        exact ⟨hdone, hversion, hversion.symm⟩

lemma migrateFirst_unchanged (hlib : library.Atomic exec) {ms : List M} {config : MigrationConfig}
    {db after : Database σ} {version : ℕ} {e : MigrationError}
    (h : migrateFirst library ms config version db = (.error e, after)) : after = db := by
  rcases migrateFirst_cases h with ⟨heq, -⟩ | ⟨target, legResult, -, -, hleg, heq⟩
  · cases heq
  · cases legResult with
    | error e => exact fromLibrary_unchanged hlib.toVersion_error hleg
    | ok u => cases heq

/-- The first leg is skipped when there is nowhere else to go. -/
lemma migrateFirst_stay {ms : List M} {config : MigrationConfig} {version : ℕ}
    (h : ∀ target, config.firstTo = some target → target = version) (db : Database σ) :
    migrateFirst library ms config version db = (.ok version, db) := by
  rcases hleg : migrateFirst library ms config version db with ⟨result, after⟩
  rcases migrateFirst_cases hleg with ⟨rfl, rfl, -⟩ | ⟨target, -, hto, hne, -⟩
  · rfl
  · exact absurd (h target hto) hne

lemma migrateLast_ok (hlib : library.Atomic exec) (hchecked : library.Checked) {ms : List M}
    {config : MigrationConfig} {db db' : Database σ}
    (h : migrateLast library ms config db.userVersion db = (.ok (), db')) :
    Leg exec ms db db' ∧
      db'.userVersion = config.migrateTo.getD (max ms.length db.userVersion) ∧
      ∀ target, config.migrateTo = some target →
        ms ≠ [] ∧ db.userVersion ≤ ms.length ∧ target ≤ ms.length := by
  rcases migrateLast_cases h with ⟨target, hto, hleg⟩ | ⟨hto, hlt, hleg⟩ | ⟨hto, hle, -, rfl⟩
  · obtain ⟨hdone, hversion, hrange⟩ := toVersion_leg hlib hchecked hleg
    rw [hto, Option.getD_some]
    refine ⟨hdone, hversion, fun target' heq => ?_⟩
    cases heq
    exact hrange
  · obtain ⟨hdone, hversion⟩ := toLatest_leg hlib hlt.le hleg
    rw [hto, Option.getD_none, max_eq_left hlt.le]
    exact ⟨hdone, hversion, nofun⟩
  · rw [hto, Option.getD_none, max_eq_right hle]
    exact ⟨Or.inl rfl, rfl, nofun⟩

lemma migrateLast_unchanged (hlib : library.Atomic exec) {ms : List M} {config : MigrationConfig}
    {db db' : Database σ} {version : ℕ} {e : MigrationError}
    (h : migrateLast library ms config version db = (.error e, db')) : db' = db := by
  rcases migrateLast_cases h with ⟨target, -, hleg⟩ | ⟨-, -, hleg⟩ | ⟨-, -, heq, -⟩
  · exact fromLibrary_unchanged hlib.toVersion_error hleg
  · exact fromLibrary_unchanged hlib.toLatest_error hleg
  · cases heq

lemma runMigrations_ok (hlib : library.Atomic exec) (hchecked : library.Checked)
    {embed : RustEmbed} {ms : List M} (haccepted : embed.migrations = .ok ms)
    {config : MigrationConfig} {db db' : Database σ}
    (h : runMigrations library embed config db = (.ok (), db')) :
    ∃ after, Completed exec ms config db after db' := by
  rcases runMigrations_cases hlib.currentVersion haccepted h with
    ⟨e, -, heq, -⟩ | ⟨e, -, heq⟩ | ⟨version, after, hleg, hrest⟩
  · cases heq
  · cases heq
  · obtain ⟨hfirst, hfirstVersion, rfl⟩ := migrateFirst_ok hlib hchecked hleg
    obtain ⟨hlast, hlastVersion, hrange⟩ := migrateLast_ok hlib hchecked hrest
    exact ⟨after, hfirst, hfirstVersion, hlast, hlastVersion, hrange⟩

/-- A run that fails has done nothing, or the first leg. -/
lemma runMigrations_error (hlib : library.Atomic exec) (hchecked : library.Checked)
    {embed : RustEmbed} {ms : List M} (haccepted : embed.migrations = .ok ms)
    {config : MigrationConfig} {db db' : Database σ} {e : MigrationError}
    (h : runMigrations library embed config db = (.error e, db')) :
    db' = db ∨ Leg exec ms db db' ∧ db'.userVersion = config.firstTo.getD db.userVersion := by
  rcases runMigrations_cases hlib.currentVersion haccepted h with
    ⟨e, -, -, heq⟩ | ⟨e, hleg, -⟩ | ⟨version, after, hleg, hrest⟩
  · exact Or.inl heq
  · exact Or.inl (migrateFirst_unchanged hlib hleg)
  · obtain ⟨hfirst, hfirstVersion, -⟩ := migrateFirst_ok hlib hchecked hleg
    rw [migrateLast_unchanged hlib hrest]
    exact Or.inr ⟨hfirst, hfirstVersion⟩

end Runs

/-! ## A library that checks its targets -/

section TransactionalChecked

variable {σ : Type} (exec : String → σ → Option σ)

/-- The library with atomic legs, which rejects an empty list of migrations for every target. -/
def transactionalChecked : RusqliteMigration σ where
  currentVersion := (transactional exec).currentVersion
  toVersion := fun ms target db =>
    if ms = [] then (.error "no migrations defined", db) else leg exec ms target db
  toLatest := (transactional exec).toLatest

lemma transactionalChecked_atomic : (transactionalChecked exec).Atomic exec where
  currentVersion h := by
    cases h
    rfl
  toVersion_ok _ _ h := by
    simp only [transactionalChecked] at h
    split_ifs at h
    · cases h
    · exact leg_ok exec h
  toVersion_error h := by
    simp only [transactionalChecked] at h
    split_ifs at h
    · cases h
      rfl
    · exact leg_error exec h
  toLatest_ok := (transactional_atomic exec).toLatest_ok
  toLatest_error := (transactional_atomic exec).toLatest_error

lemma transactionalChecked_checked : (transactionalChecked exec).Checked where
  toVersion h := by
    simp only [transactionalChecked, leg] at h
    split_ifs at h with hempty hrange
    · cases h
    · exact ⟨hempty, hrange⟩
    · cases h

lemma transactionalChecked_restartable : (transactionalChecked exec).Restartable where
  currentVersion _ _ := rfl
  toVersion hne hle := by
    simp only [transactionalChecked, leg, if_neg hne, if_pos (And.intro hle hle), legScripts_self,
      Option.bind_some, transaction, List.foldlM_nil, Option.pure_def, Option.map_some,
      List.append_nil]

end TransactionalChecked

/-- The library on databases without a schema. -/
abbrev schemaless : RusqliteMigration Unit := transactionalChecked fun _ => some

lemma schemaless_atomic : schemaless.Atomic fun _ => some := transactionalChecked_atomic _

lemma schemaless_checked : schemaless.Checked := transactionalChecked_checked _

lemma schemaless_restartable : schemaless.Restartable := transactionalChecked_restartable _

section StartUps

variable {σ : Type} {library : RusqliteMigration σ} {exec : String → σ → Option σ}

/-! ## Unreachable targets -/

/-- **A migration target above the latest version is rejected.**  When `to` or `first_to` is above
it, `run_migrations` fails, and nothing on the way to that target is committed: the database is as
it was, unless `first_to` is in range and not the current version, when the first leg may have been
completed.  A run that skips both legs, when `first_to` is the current version and there is no
`to`, is left out. -/
theorem unreachableTarget_rejected (hlib : library.Atomic exec) (hchecked : library.Checked)
    {embed : RustEmbed} {ms : List M} (haccepted : embed.migrations = .ok ms)
    {config : MigrationConfig} {db : Database σ}
    (hhigh : ∃ target, (config.migrateTo = some target ∨ config.firstTo = some target) ∧
      ms.length < target)
    (hskipped : config.migrateTo = none → config.firstTo ≠ some db.userVersion)
    {result : Except MigrationError Unit} {db' : Database σ}
    (hrun : runMigrations library embed config db = (result, db')) :
    (∃ e, result = .error e) ∧
    (db' = db ∨ ∃ target first, config.firstTo = some target ∧ target ≠ db.userVersion ∧
      target ≤ ms.length ∧ db.userVersion ≤ ms.length ∧
      embed.path db.userVersion target = some first ∧ db.Migrated exec first target db') := by
  cases result with
  | ok u =>
      obtain ⟨after, hcompleted⟩ := runMigrations_ok hlib hchecked haccepted hrun
      obtain ⟨target, hto | hto, hlt⟩ := hhigh
      · have := (hcompleted.checked target hto).2.2
        omega
      · have hafter : after.userVersion = target := by
          rw [hcompleted.firstVersion, hto, Option.getD_some]
        have hstay : after.userVersion = db.userVersion := by
          by_contra hne
          have := (hcompleted.first.inRange hne).2
          omega
        cases hlast : config.migrateTo with
        | none => exact absurd (by rw [hto, ← hafter, hstay]) (hskipped hlast)
        | some target' =>
            have := (hcompleted.checked target' hlast).2.1
            omega
  | error e =>
      refine ⟨⟨e, rfl⟩, ?_⟩
      rcases runMigrations_error hlib hchecked haccepted hrun with heq | ⟨hleg, hversion⟩
      · exact Or.inl heq
      · by_cases hstay : db'.userVersion = db.userVersion
        · exact Or.inl (hleg.eq_of_userVersion_eq hstay)
        · rcases hleg with heq | ⟨hstart, htarget, first, hscripts, hmigrated⟩
          · exact Or.inl heq
          · cases hto : config.firstTo with
            | none => exact absurd (by rw [hversion, hto, Option.getD_none]) hstay
            | some target =>
                rw [hto, Option.getD_some] at hversion
                rw [hversion] at htarget hstay hscripts hmigrated
                refine Or.inr ⟨target, first, rfl, hstay, htarget, hstart, ?_, hmigrated⟩
                rw [embed.path_eq haccepted hstart htarget, hscripts]

/-- The migrations of the two versions. -/
lemma twoVersions_accepted : twoVersions.migrations = .ok [⟨"A", none⟩, ⟨"B", some "C"⟩] := by
  decide

/-- A start-up at version 2 that is to go down to 1 and up to 5: the way down was committed. -/
theorem unreachableTarget_firstLeg :
    (schemaless.Atomic fun _ => some) ∧ schemaless.Checked ∧
    twoVersions.migrations = .ok [⟨"A", none⟩, ⟨"B", some "C"⟩] ∧
    runMigrations schemaless twoVersions ⟨some 5, some 1⟩ ⟨(), 2, ["A", "B"]⟩ =
      (.error (.rusqliteMigration "version out of range"), ⟨(), 1, ["A", "B", "C"]⟩) :=
  ⟨schemaless_atomic, schemaless_checked, twoVersions_accepted, by decide⟩

theorem unreachableTarget_rejected_firstLeg :
    ∃ e db' first, runMigrations schemaless twoVersions ⟨some 5, some 1⟩ ⟨(), 2, ["A", "B"]⟩ =
        (.error e, db') ∧
      twoVersions.path 2 1 = some first ∧
      Database.Migrated (fun _ => some) first 1 ⟨(), 2, ["A", "B"]⟩ db' := by
  have hrun : runMigrations schemaless twoVersions ⟨some 5, some 1⟩ ⟨(), 2, ["A", "B"]⟩ =
      (.error (.rusqliteMigration "version out of range"), ⟨(), 1, ["A", "B", "C"]⟩) := by
    decide
  obtain ⟨⟨e, he⟩, hleft⟩ :=
    unreachableTarget_rejected schemaless_atomic schemaless_checked twoVersions_accepted
      ⟨5, Or.inl rfl, by decide⟩ (fun h => by cases h) hrun
  rcases hleft with heq | ⟨target, first, htarget, -, -, -, hfirst, hmigrated⟩
  · exact absurd (congrArg Database.userVersion heq) (by decide)
  · obtain rfl : 1 = target := Option.some.inj htarget
    exact ⟨e, _, first, hrun.trans (congrArg (·, _) he), hfirst, hmigrated⟩

/-! ## The final version -/

/-- **A run that succeeds ends at the configured version exactly when a target is checked or there
is none to check.**  The run goes to `to`, or to the latest version, and a database that is ahead
of the code is an error, exactly when `to` is set, or the database is not ahead, or `first_to` is
another version than the current one, or the version cannot be read. -/
theorem finalVersion_iff (hlib : library.Atomic exec) (hchecked : library.Checked)
    {embed : RustEmbed} {ms : List M} (haccepted : embed.migrations = .ok ms)
    (config : MigrationConfig) (db : Database σ) :
    ((∀ db', runMigrations library embed config db = (.ok (), db') →
        db'.userVersion = config.migrateTo.getD ms.length) ∧
      (ms.length < db.userVersion →
        ∃ e, (runMigrations library embed config db).1 = .error e)) ↔
    (config.migrateTo.isSome ∨ db.userVersion ≤ ms.length ∨
      (∃ target, config.firstTo = some target ∧ target ≠ db.userVersion) ∨
      ∃ e, library.currentVersion ms db = .error e) := by
  constructor
  · rintro ⟨-, hahead⟩
    by_contra hnot
    simp only [not_or, not_exists, not_and, not_not, not_le, Option.not_isSome_iff_eq_none] at hnot
    obtain ⟨hlast, hlt, hfirst, hread⟩ := hnot
    obtain ⟨e, herror⟩ := hahead hlt
    cases hcurrent : library.currentVersion ms db with
    | error e => exact hread e hcurrent
    | ok version =>
        simp only [runMigrations, haccepted, hcurrent, hlib.currentVersion hcurrent,
          migrateFirst_stay hfirst, migrateLast, hlast, if_neg hlt.not_gt] at herror
        cases herror
  · intro hcondition
    have hinRange : ∀ db', runMigrations library embed config db = (.ok (), db') →
        db.userVersion ≤ ms.length := by
      intro db' hrun
      obtain ⟨after, hcompleted⟩ := runMigrations_ok hlib hchecked haccepted hrun
      by_cases hstay : after.userVersion = db.userVersion
      · rcases hcondition with hto | hle | ⟨target, hto, hne⟩ | ⟨e, hread⟩
        · obtain ⟨target, hto⟩ := Option.isSome_iff_exists.mp hto
          rw [← hstay]
          exact (hcompleted.checked target hto).2.1
        · exact hle
        · rw [hcompleted.firstVersion, hto, Option.getD_some] at hstay
          exact absurd hstay hne
        · simp only [runMigrations, haccepted, hread] at hrun
          cases hrun
      · exact (hcompleted.first.inRange hstay).1
    constructor
    · intro db' hrun
      obtain ⟨after, hcompleted⟩ := runMigrations_ok hlib hchecked haccepted hrun
      have hafter : after.userVersion ≤ ms.length := by
        by_cases hstay : after.userVersion = db.userVersion
        · rw [hstay]
          exact hinRange db' hrun
        · exact (hcompleted.first.inRange hstay).2
      rw [hcompleted.lastVersion, max_eq_left hafter]
    · intro hahead
      rcases hrun : runMigrations library embed config db with ⟨e | u, db'⟩
      · exact ⟨e, rfl⟩
      · have := hinRange db' hrun
        omega

/-- A database at version 3, which is ahead of the two versions: the start-up accepts it. -/
theorem finalVersion_ahead :
    (schemaless.Atomic fun _ => some) ∧ schemaless.Checked ∧
    twoVersions.migrations = .ok [⟨"A", none⟩, ⟨"B", some "C"⟩] ∧
    runMigrations schemaless twoVersions ⟨none, none⟩ ⟨(), 3, []⟩ = (.ok (), ⟨(), 3, []⟩) :=
  ⟨schemaless_atomic, schemaless_checked, twoVersions_accepted, by decide⟩

/-- With `to` it is rejected. -/
theorem finalVersion_iff_ahead :
    (∀ db', runMigrations schemaless twoVersions ⟨some 2, none⟩ ⟨(), 3, []⟩ = (.ok (), db') →
        db'.userVersion = 2) ∧
      (2 < 3 → ∃ e,
        (runMigrations schemaless twoVersions ⟨some 2, none⟩ ⟨(), 3, []⟩).1 = .error e) :=
  (finalVersion_iff schemaless_atomic schemaless_checked twoVersions_accepted ⟨some 2, none⟩
    ⟨(), 3, []⟩).mpr (Or.inl rfl)

/-! ## Restarts -/

/-- A run at a version where both legs are skipped or stay. -/
lemma runMigrations_again (hrestartable : library.Restartable) {embed : RustEmbed} {ms : List M}
    (haccepted : embed.migrations = .ok ms) {config : MigrationConfig} {db : Database σ}
    (hfirst : ∀ target, config.firstTo = some target → target = db.userVersion)
    (hlast : ∀ target, config.migrateTo = some target →
      target = db.userVersion ∧ ms ≠ [] ∧ target ≤ ms.length)
    (hlatest : config.migrateTo = none → ms.length ≤ db.userVersion) :
    runMigrations library embed config db = (.ok (), db) := by
  simp only [runMigrations, haccepted, hrestartable.currentVersion, migrateFirst_stay hfirst,
    migrateLast]
  cases hto : config.migrateTo with
  | none => simp only [if_neg (hlatest hto).not_gt]
  | some target =>
      obtain ⟨rfl, hne, hle⟩ := hlast target hto
      simp only [fromLibrary, hrestartable.toVersion hne hle]
      rfl

/-- **Another start-up with the same configuration does nothing exactly when `first_to` is not set
or is where the first start-up ended.**  That is `to` when it is set, and otherwise a version not
below the latest; else the first leg fails or its scripts are executed again. -/
theorem restart_iff (hlib : library.Atomic exec) (hchecked : library.Checked)
    (hrestartable : library.Restartable) {embed : RustEmbed} {ms : List M}
    (haccepted : embed.migrations = .ok ms) {config : MigrationConfig} {db db' : Database σ}
    (hrun : runMigrations library embed config db = (.ok (), db')) :
    ((runMigrations library embed config db').1 = .ok () ∧
      (runMigrations library embed config db').2.scripts = db'.scripts) ↔
    ∀ target, config.firstTo = some target → config.migrateTo = some target ∨
      config.migrateTo = none ∧ ms.length ≤ target := by
  obtain ⟨after, hcompleted⟩ := runMigrations_ok hlib hchecked haccepted hrun
  have hversion := hcompleted.lastVersion
  constructor
  · rintro ⟨hok, hscripts⟩ target hto
    rcases hagain : runMigrations library embed config db' with ⟨result, db''⟩
    rw [hagain] at hok hscripts
    obtain rfl : result = .ok () := hok
    obtain ⟨after', hcompleted'⟩ := runMigrations_ok hlib hchecked haccepted hagain
    have hafter' := hcompleted'.firstVersion
    rw [hto, Option.getD_some] at hafter'
    have hcounts := congrArg List.length hscripts
    rw [hcompleted'.last.length_scripts, hcompleted'.first.length_scripts] at hcounts
    cases hlast : config.migrateTo with
    | none =>
        rw [hlast, Option.getD_none] at hversion
        refine Or.inr ⟨rfl, ?_⟩
        omega
    | some target' =>
        rw [hlast, Option.getD_some] at hversion
        left
        rw [show target' = target by omega]
  · intro hcondition
    have hsame : runMigrations library embed config db' = (.ok (), db') := by
      refine runMigrations_again hrestartable haccepted ?_ ?_ ?_
      · intro target hto
        rw [hversion]
        rcases hcondition target hto with hlast | ⟨hlast, hle⟩
        · rw [hlast, Option.getD_some]
        · rw [hlast, Option.getD_none, hcompleted.firstVersion, hto, Option.getD_some,
            max_eq_right hle]
      · intro target hlast
        obtain ⟨hne, -, hle⟩ := hcompleted.checked target hlast
        rw [hversion, hlast, Option.getD_some]
        exact ⟨rfl, hne, hle⟩
      · intro hlast
        rw [hversion, hlast, Option.getD_none]
        exact le_max_left _ _
    rw [hsame]
    exact ⟨rfl, rfl⟩

/-- With `first_to` 1 every start-up runs the down and the up script of version 2 again. -/
theorem restart_rollsBack :
    (schemaless.Atomic fun _ => some) ∧ schemaless.Checked ∧ schemaless.Restartable ∧
    runMigrations schemaless twoVersions ⟨none, some 1⟩ ⟨(), 2, ["A", "B"]⟩ =
      (.ok (), ⟨(), 2, ["A", "B", "C", "B"]⟩) ∧
    runMigrations schemaless twoVersions ⟨none, some 1⟩ ⟨(), 2, ["A", "B", "C", "B"]⟩ =
      (.ok (), ⟨(), 2, ["A", "B", "C", "B", "C", "B"]⟩) :=
  ⟨schemaless_atomic, schemaless_checked, schemaless_restartable, by decide, by decide⟩

theorem restart_iff_rollsBack :
    ¬ ((runMigrations schemaless twoVersions ⟨none, some 1⟩ ⟨(), 2, ["A", "B", "C", "B"]⟩).1 =
        .ok () ∧
      (runMigrations schemaless twoVersions ⟨none, some 1⟩
        ⟨(), 2, ["A", "B", "C", "B"]⟩).2.scripts = ["A", "B", "C", "B"]) :=
  have hrun : runMigrations schemaless twoVersions ⟨none, some 1⟩ ⟨(), 2, ["A", "B"]⟩ =
      (.ok (), ⟨(), 2, ["A", "B", "C", "B"]⟩) := by
    decide
  fun hagain => absurd ((restart_iff schemaless_atomic schemaless_checked schemaless_restartable
    twoVersions_accepted hrun).mp hagain 1 rfl) (by decide)

end StartUps

end SqliteRwPool
