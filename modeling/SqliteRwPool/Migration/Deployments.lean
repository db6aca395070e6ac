import SqliteRwPool.Library.Reversible
import SqliteRwPool.Migration.Targets

/-!
# A database over many deployments

A database outlives the builds that open it.  Each start-up comes with the folder its build has
embedded and with its configuration; it may succeed or fail, migrate upwards or downwards, and the
next one may be of an older build.  `deploy` is a sequence of start-ups on one database.

Migrations are released once: the folders are taken from one folder `all`, which grows but whose
files do not change.  `RustEmbed.PartOf.migrations_isPrefix` says that the list of migrations of an
accepted part of a folder is a prefix of the list of the whole.  If the down scripts undo their up
scripts, the database is `Consistent` with this list at every moment: its schema is what the up
scripts of its `user_version` lead to from an empty database (`deploymentsConsistent`).
-/

namespace SqliteRwPool

open Reversible

/-- The folder consists of files of another one. -/
structure RustEmbed.PartOf (embed all : RustEmbed) : Prop where
  iter : ∀ filename ∈ embed.iter, filename ∈ all.iter
  get : ∀ filename ∈ embed.iter, embed.get filename = all.get filename

/-! ## Parts of a folder -/

lemma RustEmbed.PartOf.mem_versionSources {embed all : RustEmbed} (h : embed.PartOf all)
    {version : ℕ} {source : MigrationSource} (hs : source ∈ versionSources embed.iter version) :
    source ∈ versionSources all.iter version ∧ source.filename ∈ embed.iter := by
  obtain ⟨hmem, hversion⟩ := List.mem_filter.mp hs
  obtain ⟨filename, hlisted, hclassify⟩ := List.mem_filterMap.mp hmem
  refine ⟨List.mem_filter.mpr ⟨List.mem_filterMap.mpr ⟨filename, h.iter _ hlisted, hclassify⟩,
    hversion⟩, ?_⟩
  rw [filename_of_classify hclassify]
  exact hlisted

lemma RustEmbed.PartOf.text {embed all : RustEmbed} (h : embed.PartOf all) {filename : String}
    (hmem : filename ∈ embed.iter) : embed.text filename = all.text filename := by
  rw [RustEmbed.text, RustEmbed.text, h.get filename hmem]

/-- A version of an accepted folder is at most the length of its list of migrations. -/
lemma version_le_of_mem {all : RustEmbed} {hist : List M} (hall : all.migrations = .ok hist)
    {version : ℕ} {source : MigrationSource} (hs : source ∈ versionSources all.iter version) :
    version ≤ hist.length := by
  obtain ⟨hmem, hversion⟩ := List.mem_filter.mp hs
  obtain ⟨cs, hcs, hload⟩ := RustEmbed.migrations_eq_ok hall
  rw [listMigrations_iff] at hcs
  have hsorted : source ∈ sourcesOf 1 cs := by
    rw [← hcs]
    exact (sortSources_perm _).mem_iff.mpr hmem
  have hbound := mem_sourcesOf hsorted
  rw [← hload.length_eq]
  have : source.version = version := of_decide_eq_true hversion
  omega

/-- A version carries the same migration in a folder and in a part of it. -/
lemma RustEmbed.PartOf.carries_eq {embed all : RustEmbed} (h : embed.PartOf all) {version : ℕ}
    {m n : M} (hm : Carries embed version m) (hn : Carries all version n) : m = n := by
  have hsub : ∀ source ∈ versionSources embed.iter version,
      source ∈ versionSources all.iter version ∧ source.filename ∈ embed.iter :=
    fun _ => h.mem_versionSources
  rcases hm with ⟨path, hperm, hup, hdown⟩ | ⟨up, down, downSql, hperm, hup, hdownSql, hdown⟩
  · obtain ⟨hmem, hlisted⟩ := hsub ⟨.simple, version, path⟩ (hperm.mem_iff.mpr (by simp))
    rcases hn with ⟨path', hperm', hup', hdown'⟩ | ⟨up', down', downSql', hperm', -, -, -⟩
    · have heq : path = path' := by simpa using hperm'.mem_iff.mp hmem
      rw [h.text hlisted, heq, hup', Except.ok.injEq] at hup
      cases m
      cases n
      simp_all
    · simpa using hperm'.mem_iff.mp hmem
  · obtain ⟨hmem, hlisted⟩ := hsub ⟨.up, version, up⟩ (hperm.mem_iff.mpr (by simp))
    obtain ⟨hmemDown, hlistedDown⟩ := hsub ⟨.down, version, down⟩ (hperm.mem_iff.mpr (by simp))
    rcases hn with ⟨path', hperm', -, -⟩ | ⟨up', down', downSql', hperm', hup', hdownSql', hdown'⟩
    · simpa using hperm'.mem_iff.mp hmem
    · have heq : up = up' := by simpa using hperm'.mem_iff.mp hmem
      have heqDown : down = down' := by simpa using hperm'.mem_iff.mp hmemDown
      rw [h.text hlisted, heq, hup', Except.ok.injEq] at hup
      rw [h.text hlistedDown, heqDown, hdownSql', Except.ok.injEq] at hdownSql
      cases m
      cases n
      simp_all

/-- **The migrations of an accepted part of a folder are a prefix of those of the whole.** -/
theorem RustEmbed.PartOf.migrations_isPrefix {embed all : RustEmbed} (h : embed.PartOf all)
    {ms hist : List M} (hms : embed.migrations = .ok ms) (hall : all.migrations = .ok hist) :
    ms <+: hist := by
  have hlength : ms.length ≤ hist.length := by
    by_contra hlt
    have hi : hist.length < ms.length := not_le.mp hlt
    have hcarries := RustEmbed.carries hms hi
    have hsource : ∃ source, source ∈ versionSources embed.iter (hist.length + 1) := by
      rcases hcarries with ⟨path, hperm, -⟩ | ⟨up, down, downSql, hperm, -⟩
      · exact ⟨_, hperm.mem_iff.mpr (List.mem_singleton_self _)⟩
      · exact ⟨_, hperm.mem_iff.mpr List.mem_cons_self⟩
    obtain ⟨source, hsource⟩ := hsource
    have := version_le_of_mem hall (h.mem_versionSources hsource).1
    omega
  rw [List.prefix_iff_eq_take]
  refine List.ext_getElem (by rw [List.length_take]; omega) fun i hi hi' => ?_
  rw [List.getElem_take]
  exact h.carries_eq (RustEmbed.carries hms hi) (RustEmbed.carries hall (by omega))

/-! ## Legs over a longer list -/

lemma legScripts_of_isPrefix {ms hist : List M} (h : ms <+: hist) {a b : ℕ} (ha : a ≤ ms.length)
    (hb : b ≤ ms.length) : legScripts ms a b = legScripts hist a b := by
  obtain ⟨later, rfl⟩ := h
  have htake : ∀ {i k : ℕ}, i + k ≤ ms.length →
      ((ms ++ later).drop i).take k = (ms.drop i).take k := by
    intro i k hik
    rw [List.drop_append_of_le_length (by omega), List.take_append_of_le_length (by
      rw [List.length_drop]
      omega)]
  simp only [legScripts]
  split_ifs with hab
  · rw [htake (by omega)]
  · rw [htake (by omega)]

section Consistency

variable {σ : Type} (exec : String → σ → Option σ)

/-- The up script of a migration. -/
def M.climb (m : M) (schema : σ) : Option σ := exec m.up schema

/-- The down script of a migration, which it need not have. -/
def M.descend (m : M) (schema : σ) : Option σ := m.down.bind fun down => exec down schema

/-- The database is where the up scripts of its version lead to from an empty one. -/
structure Database.Consistent (empty : σ) (hist : List M) (db : Database σ) : Prop where
  userVersion : db.userVersion ≤ hist.length
  schema : climb (M.climb exec) (hist.take db.userVersion) empty = some db.schema

variable {exec}

lemma foldlM_ups (ms : List M) (schema : σ) :
    (ms.map M.up).foldlM (fun schema script => exec script schema) schema =
      climb (M.climb exec) ms schema := by
  rw [climb, List.foldlM_map]
  rfl

lemma foldlM_downs : ∀ (ms : List M) {scripts : List String} (schema : σ),
    ms.mapM M.down = some scripts →
      scripts.foldlM (fun schema script => exec script schema) schema =
        ms.foldlM (fun schema m => M.descend exec m schema) schema
  | [], scripts, schema, h => by
      cases h
      rfl
  | m :: ms, scripts, schema, h => by
      simp only [List.mapM_cons, Option.pure_def, Option.bind_eq_bind, Option.bind_eq_some_iff] at h
      obtain ⟨down, hdown, rest, hrest, heq⟩ := h
      cases heq
      simp only [List.foldlM_cons, M.descend, hdown, Option.bind_some, Option.bind_eq_bind]
      congr 1
      funext t
      exact foldlM_downs ms t hrest

/-- **A leg keeps a database consistent**, upwards or downwards. -/
theorem Database.Consistent.leg {empty : σ} {hist ms : List M}
    (hundo : Undoes (M.climb exec) (M.descend exec) empty hist) (hstarts : ms <+: hist)
    {db db' : Database σ} (hdb : db.Consistent exec empty hist) (hleg : Leg exec ms db db') :
    db'.Consistent exec empty hist := by
  rcases hleg with rfl | ⟨hstart, htarget, scripts, hscripts, hmigrated⟩
  · exact hdb
  · have hlength := hstarts.length_le
    rw [legScripts_of_isPrefix hstarts hstart htarget, legScripts] at hscripts
    refine ⟨by omega, ?_⟩
    have hschema := hmigrated.schema
    split_ifs at hscripts with hab
    · cases hscripts
      rw [foldlM_ups] at hschema
      have hsplit : hist.take db'.userVersion = hist.take db.userVersion ++
          (hist.drop db.userVersion).take (db'.userVersion - db.userVersion) := by
        rw [← List.take_add, show db.userVersion + (db'.userVersion - db.userVersion) =
          db'.userVersion by omega]
      rw [hsplit, climb_append, hdb.schema, Option.bind_some, hschema]
    · rw [foldlM_downs _ _ hscripts] at hschema
      have hsplit : hist.take db.userVersion = hist.take db'.userVersion ++
          (hist.drop db'.userVersion).take (db.userVersion - db'.userVersion) := by
        rw [← List.take_add, show db'.userVersion + (db.userVersion - db'.userVersion) =
          db.userVersion by omega]
      have hsteps : hist = hist.take db'.userVersion ++
          (hist.drop db'.userVersion).take (db.userVersion - db'.userVersion) ++
          hist.drop db.userVersion := by
        rw [← hsplit, List.take_append_drop]
      refine hundo.descend _ hsteps ?_ hschema
      rw [← hsplit]
      exact hdb.schema

end Consistency

/-! ## Sequences of start-ups -/

section Deployments

variable {σ : Type} (library : RusqliteMigration σ) {exec : String → σ → Option σ}

/-- The database after a sequence of start-ups, each with its folder and its configuration. -/
def deploy (deployments : List (RustEmbed × MigrationConfig)) (db : Database σ) : Database σ :=
  deployments.foldl (fun db deployment =>
    (runMigrations library deployment.1 deployment.2 db).2) db

variable {library}

/-- One start-up, whether it succeeds or fails. -/
lemma Database.Consistent.runMigrations (hlib : library.Atomic exec) (hchecked : library.Checked)
    {empty : σ} {all embed : RustEmbed} {hist : List M} (hall : all.migrations = .ok hist)
    (hundo : Undoes (M.climb exec) (M.descend exec) empty hist) (hpart : embed.PartOf all)
    (config : MigrationConfig) {db : Database σ} (hdb : db.Consistent exec empty hist) :
    (SqliteRwPool.runMigrations library embed config db).2.Consistent exec empty hist := by
  rcases hrun : SqliteRwPool.runMigrations library embed config db with ⟨result, db'⟩
  cases haccepted : embed.migrations with
  | error e =>
      simp only [SqliteRwPool.runMigrations, haccepted] at hrun
      cases hrun
      exact hdb
  | ok ms =>
      have hstarts : ms <+: hist := hpart.migrations_isPrefix haccepted hall
      cases result with
      | ok u =>
          obtain ⟨after, hcompleted⟩ := runMigrations_ok hlib hchecked haccepted hrun
          exact (hdb.leg hundo hstarts hcompleted.first).leg hundo hstarts hcompleted.last
      | error e =>
          rcases runMigrations_error hlib hchecked haccepted hrun with rfl | ⟨hleg, -⟩
          · exact hdb
          · exact hdb.leg hundo hstarts hleg

/-- **A database stays consistent over all deployments.**  Let every build's folder consist of files
of one folder whose down scripts undo their up scripts.  After any sequence of start-ups, of newer
and older builds with any targets, whether they succeed or fail, the schema of the database is what
the up scripts of its version lead to from an empty database; and two databases that have come to
the same version on whatever ways have the same schema. -/
theorem deploymentsConsistent (hlib : library.Atomic exec) (hchecked : library.Checked) {empty : σ}
    {all : RustEmbed} {hist : List M} (hall : all.migrations = .ok hist)
    (hundo : Undoes (M.climb exec) (M.descend exec) empty hist)
    {deployments deployments' : List (RustEmbed × MigrationConfig)}
    (hparts : ∀ deployment ∈ deployments ++ deployments', deployment.1.PartOf all)
    {db db' : Database σ} (hdb : db.Consistent exec empty hist)
    (hdb' : db'.Consistent exec empty hist) :
    (deploy library deployments db).Consistent exec empty hist ∧
      ((deploy library deployments db).userVersion =
          (deploy library deployments' db').userVersion →
        (deploy library deployments db).schema = (deploy library deployments' db').schema) := by
  have hkeep : ∀ {deployments : List (RustEmbed × MigrationConfig)} {db : Database σ},
      (∀ deployment ∈ deployments, deployment.1.PartOf all) → db.Consistent exec empty hist →
        (deploy library deployments db).Consistent exec empty hist := by
    intro deployments
    induction deployments with
    | nil => exact fun _ hdb => hdb
    | cons deployment deployments ih =>
        intro db hparts hdb
        rw [List.forall_mem_cons] at hparts
        exact ih hparts.2 (hdb.runMigrations hlib hchecked hall hundo hparts.1 deployment.2)
  have hfirst := hkeep (fun x hx => hparts x (List.mem_append_left _ hx)) hdb
  have hsecond := hkeep (fun x hx => hparts x (List.mem_append_right _ hx)) hdb'
  refine ⟨hfirst, fun hversion => ?_⟩
  have hschema := hsecond.schema
  rw [← hversion, hfirst.schema, Option.some.injEq] at hschema
  exact hschema

/-! ## A rolled back build -/

/-- A schema is a list of tables; script `C` drops the table of script `B`, if it is the last. -/
def tables (script : String) (schema : List String) : Option (List String) :=
  if script = "C" then if schema.getLast? = some "B" then some schema.dropLast else none
  else some (schema ++ [script])

/-- The build before the second version. -/
def firstVersion : RustEmbed := ⟨["+01_a.sql"], twoVersions.get⟩

/-- The first build, the second one, a start-up that goes down and up, the first build again and one
with a target that does not exist. -/
def rolledBack : List (RustEmbed × MigrationConfig) :=
  [(firstVersion, ⟨none, none⟩), (twoVersions, ⟨none, none⟩), (twoVersions, ⟨none, some 1⟩),
    (firstVersion, ⟨none, none⟩), (twoVersions, ⟨some 5, none⟩)]

lemma tables_undoes : Undoes (M.climb tables) (M.descend tables) []
    [⟨"A", none⟩, ⟨"B", some "C"⟩] := by
  refine undoes_of_forall fun m hm s s' t hup hdown => ?_
  rcases List.mem_pair.mp hm with rfl | rfl
  · cases hdown
  · simp only [M.climb, tables, String.reduceEq, if_false, Option.some.injEq] at hup
    subst hup
    simpa [M.descend, tables, eq_comm] using hdown

theorem deploymentsConsistent_rolledBack :
    (deploy (transactionalChecked tables) rolledBack ⟨[], 0, []⟩).Consistent tables []
        [⟨"A", none⟩, ⟨"B", some "C"⟩] ∧
      (deploy (transactionalChecked tables) rolledBack ⟨[], 0, []⟩).schema =
        (deploy (transactionalChecked tables) [(twoVersions, ⟨none, none⟩)]
          ⟨[], 0, []⟩).schema := by
  have hempty : (⟨[], 0, []⟩ : Database (List String)).Consistent tables []
      [⟨"A", none⟩, ⟨"B", some "C"⟩] := ⟨by decide, rfl⟩
  have hparts : ∀ deployment ∈ rolledBack ++ [(twoVersions, ⟨none, none⟩)],
      deployment.1.PartOf twoVersions := by
    have hwhole : twoVersions.PartOf twoVersions := ⟨fun _ h => h, fun _ _ => rfl⟩
    have hfirst : firstVersion.PartOf twoVersions := ⟨by decide, fun _ _ => rfl⟩
    simp [rolledBack, hwhole, hfirst]
  obtain ⟨hconsistent, hsame⟩ := deploymentsConsistent (transactionalChecked_atomic tables)
    (transactionalChecked_checked tables) twoVersions_accepted tables_undoes hparts hempty hempty
  exact ⟨hconsistent, hsame (by decide)⟩

end Deployments

end SqliteRwPool
