import SqliteRwPool.Migration.Plan

/-!
# Which versioned files reach the list of migrations

A file name passes two filters: the extension of what follows its version is compared with `sql`
without regard to case, and then three suffixes are looked for with regard to it.  A name that
passes the first and fails the second is dropped without an error.

* `IsVersioned` — the names that pass the first filter, with a version.
* `ScriptAt` — the file is one of the scripts of an entry of the list of migrations.
* `versionedFileCarried_iff` — a versioned file is never dropped exactly when its name ends with the
  lower-case suffix.
-/

namespace SqliteRwPool

open Fallible Text

/-- A name of the form `<version>_<rest>` whose extension is `sql` in some case. -/
structure IsVersioned (filename : String) (version : ℕ) (rest : List Char) : Prop where
  split : ∃ number, splitFirst '_' filename.toList = some (number, rest) ∧
    parseUsize number = some version
  extension : (Text.extension rest).any (eqIgnoreAsciiCase · "sql".toList) = true

/-- The type that a name asks for by its suffix. -/
def suffixType (rest : List Char) : MigrationSourceType :=
  if MigrationSourceType.up.extension.isSuffixOf rest then .up
  else if MigrationSourceType.down.extension.isSuffixOf rest then .down
  else .simple

/-- The text is the script of the migration in the position of the type. -/
def M.IsScript (m : M) (sql : String) : MigrationSourceType → Prop
  | .simple => m.up = sql ∧ m.down = none
  | .up => m.up = sql ∧ m.down.isSome
  | .down => m.down = some sql

/-- The file is the script of a type of the entry at an index. -/
structure ScriptAt (embed : RustEmbed) (ms : List M) (filename : String) (index : ℕ)
    (type : MigrationSourceType) : Prop where
  listed : ∃ contents c, listMigrations embed.iter = .ok contents ∧ contents[index]? = some c ∧
    ⟨type, index + 1, filename⟩ ∈ c.entries (index + 1)
  text : ∃ m sql, ms[index]? = some m ∧ embed.text filename = .ok sql ∧ m.IsScript sql type

/-- The file is the script of exactly one entry, the one of its version, and of the type of its
suffix. -/
def CarriedOnce (embed : RustEmbed) (ms : List M) (filename : String) (version : ℕ)
    (rest : List Char) : Prop :=
  (∃ index type, ScriptAt embed ms filename index type) ∧
    ∀ index type, ScriptAt embed ms filename index type →
      index + 1 = version ∧ type = suffixType rest

/-! ## The two filters -/

lemma simple_isSuffixOf {type : MigrationSourceType} {rest : List Char}
    (h : type.extension.isSuffixOf rest) :
    MigrationSourceType.simple.extension.isSuffixOf rest := by
  rw [List.isSuffixOf_iff_suffix] at h ⊢
  have hsql : MigrationSourceType.simple.extension <:+ type.extension := by
    cases type <;> decide
  exact hsql.trans h

/-- A versioned name is classified exactly when the second filter lets it pass. -/
lemma IsVersioned.classify_eq {filename : String} {version : ℕ} {rest : List Char}
    (h : IsVersioned filename version rest) :
    classify filename =
      if MigrationSourceType.simple.extension.isSuffixOf rest then
        some ⟨suffixType rest, version, filename⟩
      else none := by
  obtain ⟨⟨number, hsplit, hversion⟩, hextension⟩ := h
  simp only [classify, hsplit, hversion, hextension, Option.bind_eq_bind, Option.bind_some,
    if_true, suffixType]
  by_cases hsimple : MigrationSourceType.simple.extension.isSuffixOf rest
  · simp only [hsimple, if_true]
    split_ifs <;> rfl
  · have hup : ¬ MigrationSourceType.up.extension.isSuffixOf rest :=
      fun hup => hsimple (simple_isSuffixOf hup)
    have hdown : ¬ MigrationSourceType.down.extension.isSuffixOf rest :=
      fun hdown => hsimple (simple_isSuffixOf hdown)
    rw [if_neg hup, if_neg hdown, if_neg hsimple, if_neg hsimple]

/-! ## The scripts of the list of migrations -/

lemma RustEmbed.load_script {embed : RustEmbed} {c c' : MigrationContents}
    (h : embed.load c = .ok c') {version : ℕ} {type : MigrationSourceType} {filename : String}
    (hmem : ⟨type, version, filename⟩ ∈ c.entries version) :
    ∃ sql, embed.text filename = .ok sql ∧ c'.toM.IsScript sql type := by
  cases c with
  | simple path =>
      simp only [MigrationContents.entries, List.mem_singleton] at hmem
      cases hmem
      simp only [RustEmbed.load, bind_pure_comp, map_eq_ok] at h
      obtain ⟨sql, hsql, rfl⟩ := h
      exact ⟨sql, hsql, rfl, rfl⟩
  | reversible up down =>
      simp only [RustEmbed.load, bind_pure_comp, bind_eq_ok, map_eq_ok] at h
      obtain ⟨upSql, hup, downSql, hdown, rfl⟩ := h
      rcases List.mem_pair.mp hmem with heq | heq
      · cases heq
        exact ⟨upSql, hup, rfl, rfl⟩
      · cases heq
        exact ⟨downSql, hdown, rfl⟩

/-- The script of an entry was classified so. -/
lemma ScriptAt.classify_eq {embed : RustEmbed} {ms : List M} {filename : String} {index : ℕ}
    {type : MigrationSourceType} (h : ScriptAt embed ms filename index type) :
    classify filename = some ⟨type, index + 1, filename⟩ := by
  obtain ⟨contents, c, hcontents, hc, hmem⟩ := h.listed
  obtain ⟨hindex, rfl⟩ := List.getElem?_eq_some_iff.mp hc
  have hsource := (versionSources_perm hcontents hindex).mem_iff.mpr hmem
  obtain ⟨name, -, hclassify⟩ := List.mem_filterMap.mp (List.mem_of_mem_filter hsource)
  have hname := filename_of_classify hclassify
  rw [← hclassify, ← hname]

/-- A classified file of an accepted folder is the script of the entry of its version. -/
lemma scriptAt_of_classify {embed : RustEmbed} {ms : List M} (haccepted : embed.migrations = .ok ms)
    {filename : String} (hmem : filename ∈ embed.iter) {source : MigrationSource}
    (hclassify : classify filename = some source) :
    ∃ index, ScriptAt embed ms filename index source.type := by
  obtain ⟨contents, hcontents, hload⟩ := RustEmbed.migrations_eq_ok haccepted
  have hsource : source ∈ sourcesOf 1 contents := by
    rw [← listMigrations_iff.mp hcontents, (sortSources_perm _).mem_iff]
    exact List.mem_filterMap.mpr ⟨filename, hmem, hclassify⟩
  obtain ⟨type, version, name⟩ := source
  obtain rfl := filename_of_classify hclassify
  obtain ⟨index, hindex, rfl⟩ : ∃ index, index < contents.length ∧ 1 + index = version := by
    obtain ⟨hpos, hle⟩ := mem_sourcesOf hsource
    simp only at hpos hle
    exact ⟨version - 1, by omega, by omega⟩
  have hentry : ⟨type, index + 1, name⟩ ∈ contents[index].entries (index + 1) := by
    have hfilter : ⟨type, 1 + index, name⟩ ∈
        (sourcesOf 1 contents).filter fun source => source.version = 1 + index :=
      List.mem_filter.mpr ⟨hsource, by simp⟩
    rwa [filter_sourcesOf hindex, Nat.add_comm] at hfilter
  have hindex' : index < ms.length := by rwa [← hload.length_eq]
  obtain ⟨c', hc', hm⟩ := (List.forall₂_iff_get.mp hload).2 index hindex hindex'
  obtain ⟨sql, hsql, hscript⟩ := RustEmbed.load_script hc' hentry
  rw [hm] at hscript
  exact ⟨index, ⟨contents, _, hcontents, List.getElem?_eq_getElem hindex, hentry⟩,
    ⟨_, sql, List.getElem?_eq_getElem hindex', hsql, hscript⟩⟩

/-- In an accepted folder a versioned file is a script exactly when it passes both filters. -/
lemma IsVersioned.carriedOnce_iff {embed : RustEmbed} {ms : List M}
    (haccepted : embed.migrations = .ok ms) {filename : String} {version : ℕ} {rest : List Char}
    (h : IsVersioned filename version rest) (hmem : filename ∈ embed.iter) :
    CarriedOnce embed ms filename version rest ↔
      MigrationSourceType.simple.extension <:+ rest := by
  have hclassify := h.classify_eq
  rw [← List.isSuffixOf_iff_suffix]
  constructor
  · rintro ⟨⟨index, type, hscript⟩, -⟩
    rw [hscript.classify_eq] at hclassify
    split_ifs at hclassify with hsuffix
    exact hsuffix
  · intro hsuffix
    rw [if_pos hsuffix] at hclassify
    obtain ⟨index, hscript⟩ := scriptAt_of_classify haccepted hmem hclassify
    refine ⟨⟨index, _, hscript⟩, fun index' type' hscript' => ?_⟩
    have hsame := hscript'.classify_eq
    rw [hclassify] at hsame
    simp only [Option.some.injEq, MigrationSource.mk.injEq] at hsame
    exact ⟨hsame.2.1.symm, hsame.1.symm⟩

/-! ## Runs -/

lemma migrations_of_ok {σ : Type} {library : RusqliteMigration σ} {embed : RustEmbed}
    {config : MigrationConfig} {db : Database σ}
    (h : (runMigrations library embed config db).1 = .ok ()) : ∃ ms, embed.migrations = .ok ms := by
  cases haccepted : embed.migrations with
  | error e =>
      rw [runMigrations, haccepted] at h
      cases h
  | ok ms => exact ⟨ms, rfl⟩

/-- A folder with nothing but a file that is not classified is accepted, without migrations. -/
lemma migrations_of_classify_none {filename : String} (h : classify filename = none) :
    RustEmbed.migrations ⟨[filename], fun _ => none⟩ = .ok [] := by
  have hlist : listMigrations [filename] = .ok [] := by
    rw [listMigrations, List.filterMap_cons_none h, List.filterMap_nil]
    rfl
  rw [RustEmbed.migrations, RustEmbed.contents, hlist]
  rfl

/-- **A versioned file is never dropped silently exactly when its name ends with `.sql` in lower
case.**  The extension of the name is `sql` in some case.  For such a name every folder that lists
it gives an error or a list of migrations that carries the file once, as its suffix says; for any
other name no folder does that is accepted, and a folder is. -/
theorem versionedFileCarried_iff {filename : String} {version : ℕ} {rest : List Char}
    (h : IsVersioned filename version rest) :
    ((∀ (σ : Type) (library : RusqliteMigration σ) (embed : RustEmbed) (config : MigrationConfig)
        (db : Database σ), filename ∈ embed.iter →
        (∃ e, (runMigrations library embed config db).1 = .error e) ∨
          ∃ ms, embed.migrations = .ok ms ∧ CarriedOnce embed ms filename version rest) ↔
      MigrationSourceType.simple.extension <:+ rest) ∧
    ∀ (σ : Type) (library : RusqliteMigration σ) (embed : RustEmbed) (config : MigrationConfig)
      (db : Database σ), filename ∈ embed.iter →
      (runMigrations library embed config db).1 = .ok () →
      ∃ ms, embed.migrations = .ok ms ∧ (CarriedOnce embed ms filename version rest ↔
        MigrationSourceType.simple.extension <:+ rest) := by
  have hruns : ∀ (σ : Type) (library : RusqliteMigration σ) (embed : RustEmbed)
      (config : MigrationConfig) (db : Database σ), filename ∈ embed.iter →
      (runMigrations library embed config db).1 = .ok () →
      ∃ ms, embed.migrations = .ok ms ∧ (CarriedOnce embed ms filename version rest ↔
        MigrationSourceType.simple.extension <:+ rest) := by
    intro σ library embed config db hmem hrun
    obtain ⟨ms, haccepted⟩ := migrations_of_ok hrun
    exact ⟨ms, haccepted, h.carriedOnce_iff haccepted hmem⟩
  refine ⟨⟨fun hkept => ?_, ?_⟩, hruns⟩
  · by_contra hsuffix
    have hnone : classify filename = none := by
      rw [h.classify_eq, if_neg (by rwa [List.isSuffixOf_iff_suffix])]
    have haccepted := migrations_of_classify_none hnone
    have hrun : (runMigrations (transactional fun _ => some) ⟨[filename], fun _ => none⟩
        ⟨none, none⟩ ⟨(), 0, []⟩).1 = .ok () := by
      rw [runMigrations, haccepted]
      rfl
    rcases hkept Unit (transactional fun _ => some) ⟨[filename], fun _ => none⟩ ⟨none, none⟩
      ⟨(), 0, []⟩ (List.mem_singleton_self filename) with ⟨e, herror⟩ | ⟨ms, hms, hcarried⟩
    · rw [hrun] at herror
      cases herror
    · exact hsuffix ((h.carriedOnce_iff hms (List.mem_singleton_self filename)).mp hcarried)
  · intro hsuffix σ library embed config db hmem
    rcases hrun : (runMigrations library embed config db).1 with e | u
    · exact Or.inl ⟨e, rfl⟩
    · obtain ⟨ms, haccepted, hcarried⟩ := hruns σ library embed config db hmem hrun
      exact Or.inr ⟨ms, haccepted, hcarried.mpr hsuffix⟩

/-- Version 2 in upper case. -/
def upperCaseSuffix : RustEmbed where
  iter := ["1_a.sql", "2_b.SQL"]
  get := fun filename => if filename = "1_a.sql" then some [0x41] else some [0x42]

lemma isVersioned_upperCase : IsVersioned "2_b.SQL" 2 "b.SQL".toList :=
  ⟨⟨['2'], by decide, by decide⟩, by decide⟩

theorem versionedFileCarried_iff_upperCase :
    ∃ ms, upperCaseSuffix.migrations = .ok ms ∧
      (CarriedOnce upperCaseSuffix ms "2_b.SQL" 2 "b.SQL".toList ↔
        MigrationSourceType.simple.extension <:+ "b.SQL".toList) :=
  (versionedFileCarried_iff isVersioned_upperCase).2 Unit (transactional fun _ => some)
    upperCaseSuffix ⟨none, none⟩ ⟨(), 0, []⟩ (by decide) (by decide)

/-- A folder whose second version is dropped: the run succeeds at version 1. -/
theorem versionedFile_dropped :
    IsVersioned "2_b.SQL" 2 "b.SQL".toList ∧ "2_b.SQL" ∈ upperCaseSuffix.iter ∧
    runMigrations (transactional fun _ => some) upperCaseSuffix ⟨none, none⟩ ⟨(), 0, []⟩ =
      (.ok (), ⟨(), 1, ["A"]⟩) ∧
    ∀ ms index type, ¬ ScriptAt upperCaseSuffix ms "2_b.SQL" index type := by
  refine ⟨isVersioned_upperCase, by decide, by decide, fun ms index type hscript => ?_⟩
  have hnone : classify "2_b.SQL" = none := by decide
  rw [hscript.classify_eq] at hnone
  cases hnone

end SqliteRwPool
