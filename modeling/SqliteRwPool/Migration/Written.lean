import SqliteRwPool.Library.Encoding
import SqliteRwPool.Migration.Dropped

/-!
# Folders that are written for a list of migrations

A list of migrations is written as a folder by giving each version its files: a number with any
zeros before it, an underscore, a description and the suffix of the script, with the script in UTF-8
in it.  `run_migrations` reads back what is written, in whatever order the files are listed and
whatever lies beside them that it does not take for a migration.

* `Naming` — the numbers and descriptions of the files, which leave the suffix alone.
* `Naming.classify_fileName` — the name of a file says its version and its type.
* `folderRoundTrip` — the folder of a list of migrations is read as that list.
-/

namespace SqliteRwPool

open Fallible Text

/-- How the files of each version are named but for the suffix.  A description is not empty, or the
dot of `.sql` would begin the name, is no path, and does not end like an up or a down script. -/
structure Naming where
  zeros : ℕ → ℕ
  description : ℕ → String
  nonempty : ∀ version, (description version).toList ≠ []
  noSlash : ∀ version, '/' ∉ (description version).toList
  notUp : ∀ version, ¬ ".up".toList <:+ (description version).toList
  notDown : ∀ version, ¬ ".down".toList <:+ (description version).toList

section Names

variable (naming : Naming)

/-- What follows the version and the underscore. -/
def Naming.rest (type : MigrationSourceType) (version : ℕ) : List Char :=
  (naming.description version).toList ++ type.extension

def Naming.fileName (type : MigrationSourceType) (version : ℕ) : String :=
  String.ofList (List.replicate (naming.zeros version) '0' ++ (toString version).toList ++
    '_' :: naming.rest type version)

/-- The names of the files of a migration. -/
def Naming.paths (version : ℕ) (m : M) : MigrationContents :=
  if m.down.isSome then
    .reversible (naming.fileName .up version) (naming.fileName .down version)
  else .simple (naming.fileName .simple version)

/-- The files of a migration with their contents. -/
def Naming.files (version : ℕ) (m : M) : List (String × List UInt8) :=
  match m.down with
  | some down => [(naming.fileName .up version, encode m.up),
      (naming.fileName .down version, encode down)]
  | none => [(naming.fileName .simple version, encode m.up)]

/-- The files of a list of migrations whose first version is given. -/
def Naming.folder : ℕ → List M → List (String × List UInt8)
  | _, [] => []
  | version, m :: ms => naming.files version m ++ Naming.folder (version + 1) ms

def Naming.listing : ℕ → List M → List MigrationContents
  | _, [] => []
  | version, m :: ms => naming.paths version m :: Naming.listing (version + 1) ms

/-- The files of a list of migrations are embedded, beside others that are no migrations. -/
structure Embeds (embed : RustEmbed) (ms : List M) : Prop where
  iter : ∃ others, embed.iter.Perm ((naming.folder 1 ms).map Prod.fst ++ others) ∧
    ∀ filename ∈ others, classify filename = none
  get : ∀ file ∈ naming.folder 1 ms, embed.get file.1 = some file.2

/-! ## What a name says -/

/-- Every suffix ends with the one of a simple script. -/
lemma MigrationSourceType.extension_eq (type : MigrationSourceType) :
    ∃ stem, '/' ∉ stem ∧ type.extension = stem ++ '.' :: "sql".toList := by
  cases type with
  | simple => exact ⟨[], by decide, by decide⟩
  | up => exact ⟨".up".toList, by decide, by decide⟩
  | down => exact ⟨".down".toList, by decide, by decide⟩

lemma Naming.suffixType_rest (type : MigrationSourceType) (version : ℕ) :
    suffixType (naming.rest type version) = type := by
  simp only [suffixType, List.isSuffixOf_iff_suffix, Naming.rest]
  cases type with
  | simple =>
      have hup : ¬ MigrationSourceType.up.extension <:+
          (naming.description version).toList ++ MigrationSourceType.simple.extension := by
        rw [show MigrationSourceType.up.extension =
          ".up".toList ++ MigrationSourceType.simple.extension by decide,
          List.suffix_append_self_iff]
        exact naming.notUp version
      have hdown : ¬ MigrationSourceType.down.extension <:+
          (naming.description version).toList ++ MigrationSourceType.simple.extension := by
        rw [show MigrationSourceType.down.extension =
          ".down".toList ++ MigrationSourceType.simple.extension by decide,
          List.suffix_append_self_iff]
        exact naming.notDown version
      rw [if_neg hup, if_neg hdown]
  | up => rw [if_pos (List.suffix_append _ _)]
  | down =>
      have hup : ¬ MigrationSourceType.up.extension <:+
          (naming.description version).toList ++ MigrationSourceType.down.extension := by
        intro hup
        have hshort := List.suffix_of_suffix_length_le hup (List.suffix_append _ _) (by decide)
        exact absurd hshort (by decide)
      rw [if_neg hup, if_pos (List.suffix_append _ _)]

lemma Naming.extension_rest (type : MigrationSourceType) (version : ℕ) :
    Text.extension (naming.rest type version) = some "sql".toList := by
  obtain ⟨stem, hstem, htype⟩ := type.extension_eq
  have hname : (naming.description version).toList ++ stem ≠ [] := by
    simp only [ne_eq, List.append_eq_nil_iff, not_and]
    exact fun h => absurd h (naming.nonempty version)
  have hslash : '/' ∉ ((naming.description version).toList ++ stem) ++ "sql".toList := by
    simp only [List.mem_append, not_or]
    exact ⟨⟨naming.noSlash version, hstem⟩, by decide⟩
  rw [Naming.rest, htype, ← List.append_assoc]
  exact extension_append hname hslash (by decide) (by decide)

lemma Naming.isVersioned {version : ℕ} (h : version < 2 ^ 64) (type : MigrationSourceType) :
    IsVersioned (naming.fileName type version) version (naming.rest type version) where
  split := by
    refine ⟨List.replicate (naming.zeros version) '0' ++ (toString version).toList, ?_, ?_⟩
    · rw [Naming.fileName, String.toList_ofList]
      refine splitFirst_append ?_ _
      rw [List.mem_append, not_or, Nat.toString_eq_repr, Nat.toList_repr]
      refine ⟨fun hmem => ?_, Nat.underscore_not_in_toDigits⟩
      exact absurd (List.eq_of_mem_replicate hmem) (by decide)
    · rw [Nat.toString_eq_repr, Nat.toList_repr]
      exact parseUsize_digits _ h
  extension := by
    rw [naming.extension_rest, Option.any_some]
    decide

/-- **The name of a file says its version and its type.** -/
theorem Naming.classify_fileName {version : ℕ} (h : version < 2 ^ 64)
    (type : MigrationSourceType) :
    classify (naming.fileName type version) =
      some ⟨type, version, naming.fileName type version⟩ := by
  have hsql : MigrationSourceType.simple.extension.isSuffixOf (naming.rest type version) := by
    refine @simple_isSuffixOf type _ ?_
    rw [List.isSuffixOf_iff_suffix]
    exact List.suffix_append _ _
  rw [(naming.isVersioned h type).classify_eq, if_pos hsql, naming.suffixType_rest]

/-! ## What a folder says -/

lemma Naming.classify_files {version : ℕ} (h : version < 2 ^ 64) (m : M) :
    ((naming.files version m).map Prod.fst).map classify =
      ((naming.paths version m).entries version).map some := by
  cases hdown : m.down <;>
    simp [Naming.files, Naming.paths, MigrationContents.entries, hdown, naming.classify_fileName h]

/-- The files of a list of migrations are classified as its listing, written out. -/
lemma Naming.classify_folder (ms : List M) : ∀ version, version + ms.length ≤ 2 ^ 64 →
    ((naming.folder version ms).map Prod.fst).map classify =
      (sourcesOf version (naming.listing version ms)).map some := by
  induction ms with
  | nil =>
      intro version _
      rfl
  | cons m ms ih =>
      intro version hlength
      rw [List.length_cons] at hlength
      rw [Naming.folder, Naming.listing, sourcesOf_cons, List.map_append, List.map_append,
        List.map_append, naming.classify_files (by omega), ih (version + 1) (by omega)]

/-- No two files are named alike, since no two are classified alike. -/
lemma Naming.folder_nodup {ms : List M} (hlength : ms.length < 2 ^ 64) :
    ((naming.folder 1 ms).map Prod.fst).Nodup := by
  have hstrict : (sourcesOf 1 (naming.listing 1 ms)).Nodup := by
    refine (sourcesOf_pairwise _ 1).imp fun {a b} h => ?_
    rintro rfl
    exact h.2 rfl
  refine List.Nodup.of_map classify ?_
  rw [naming.classify_folder ms 1 (by omega)]
  exact hstrict.map (Option.some_injective _)

/-- The sources of a folder, in whatever order it is listed, are those of the listing. -/
lemma Embeds.listMigrations {embed : RustEmbed} {ms : List M} (h : Embeds naming embed ms)
    (hlength : ms.length < 2 ^ 64) :
    listMigrations embed.iter = .ok (naming.listing 1 ms) := by
  obtain ⟨others, hperm, hothers⟩ := h.iter
  refine listMigrations_perm hperm (listMigrations_iff.mpr ?_)
  have hsources : ((naming.folder 1 ms).map Prod.fst).filterMap classify =
      sourcesOf 1 (naming.listing 1 ms) := by
    have hmap := congrArg (List.filterMap id) (naming.classify_folder ms 1 (by omega))
    simpa only [List.filterMap_map, Function.id_comp, List.filterMap_some] using hmap
  rw [List.filterMap_append, List.filterMap_eq_nil_iff.mpr hothers, List.append_nil, hsources]
  exact ((sourcesOf_pairwise _ 1).imp And.left).insertionSort_eq

/-- The contents that a migration is loaded with. -/
def M.toContents (m : M) : MigrationContents :=
  match m.down with
  | some down => .reversible m.up down
  | none => .simple m.up

lemma M.toM_toContents (m : M) : m.toContents.toM = m := by
  rcases m with ⟨up, _ | down⟩ <;> rfl

/-- Loading the files of a migration decodes its scripts. -/
lemma Naming.load_paths {embed : RustEmbed} {version : ℕ} {m : M}
    (hget : ∀ file ∈ naming.files version m, embed.get file.1 = some file.2) :
    embed.load (naming.paths version m) = .ok m.toContents := by
  rcases m with ⟨up, _ | down⟩
  · have hup := hget (naming.fileName .simple version, encode up) (by simp [Naming.files])
    simp only at hup
    simp [RustEmbed.load, RustEmbed.text, Naming.paths, M.toContents, hup, fromUtf8Lossy_encode]
  · have hup := hget (naming.fileName .up version, encode up) (by simp [Naming.files])
    have hdown := hget (naming.fileName .down version, encode down) (by simp [Naming.files])
    simp only at hup hdown
    simp [RustEmbed.load, RustEmbed.text, Naming.paths, M.toContents, hup, hdown,
      fromUtf8Lossy_encode]

lemma Naming.load_listing {embed : RustEmbed} (ms : List M) : ∀ version,
    (∀ file ∈ naming.folder version ms, embed.get file.1 = some file.2) →
      List.Forall₂ (fun c c' => embed.load c = .ok c') (naming.listing version ms)
        (ms.map M.toContents) := by
  induction ms with
  | nil =>
      intro version _
      exact List.Forall₂.nil
  | cons m ms ih =>
      intro version hget
      rw [Naming.folder, List.forall_mem_append] at hget
      exact List.Forall₂.cons (naming.load_paths hget.1) (ih (version + 1) hget.2)

/-- **The folder of a list of migrations is read as that list**: its file names are all different,
and wherever these files are embedded, in whatever order they are listed and whatever else that is
no migration lies beside them, `run_migrations` comes to the list that was written. -/
theorem folderRoundTrip {ms : List M} (hlength : ms.length < 2 ^ 64) :
    ((naming.folder 1 ms).map Prod.fst).Nodup ∧
      ∀ embed, Embeds naming embed ms → embed.migrations = .ok ms := by
  refine ⟨naming.folder_nodup hlength, fun embed h => ?_⟩
  refine RustEmbed.migrations_iff.mpr ⟨ms.map M.toContents,
    ⟨naming.listing 1 ms, h.listMigrations naming hlength, naming.load_listing ms 1 h.get⟩, ?_⟩
  rw [List.map_map]
  exact List.map_id'' M.toM_toContents ms

end Names

/-- Numbers of three digits and more, and one description. -/
def threeDigits : Naming where
  zeros := fun version => if version < 10 then 2 else if version < 100 then 1 else 0
  description := fun _ => "schema"
  nonempty := fun _ => by decide
  noSlash := fun _ => by decide
  notUp := fun _ => by decide
  notDown := fun _ => by decide

/-- Two migrations and a note beside them, listed backwards. -/
def notedFolder : RustEmbed where
  iter := ["README.md", "002_schema.down.sql", "002_schema.up.sql", "001_schema.sql"]
  get := fun filename =>
    if filename = "001_schema.sql" then some (encode "é")
    else if filename = "002_schema.up.sql" then some (encode "a")
    else if filename = "002_schema.down.sql" then some (encode "b")
    else none

theorem folderRoundTrip_notedFolder :
    notedFolder.migrations = .ok [⟨"é", none⟩, ⟨"a", some "b"⟩] := by
  refine (@folderRoundTrip threeDigits [⟨"é", none⟩, ⟨"a", some "b"⟩] (by decide)).2 _ ?_
  refine ⟨⟨["README.md"], ?_, by decide⟩, by decide⟩
  exact List.reverse_perm ["001_schema.sql", "002_schema.up.sql", "002_schema.down.sql",
    "README.md"]

end SqliteRwPool
