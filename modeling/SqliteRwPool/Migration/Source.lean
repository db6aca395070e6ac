import Mathlib.Data.List.Sort
import Mathlib.Data.List.SplitBy
import SqliteRwPool.Library.Fallible
import SqliteRwPool.Library.Text
import SqliteRwPool.Rocket.Error

/-!
# From embedded files to a list of migrations

`run_migrations` classifies the embedded file names by version and type, sorts and groups them,
checks every group and loads its files.  The checks accept exactly the listings of a list of
migrations: `MigrationContents.sources` writes such a list out as sorted sources, and

* `checkGroups_iff` — the groups of a list of sources are accepted with a list of migrations exactly
  when the sources are that list written out.
* `checkGroups_error` — what is rejected is rejected at the first group that is not of this form.
-/

namespace SqliteRwPool

open Fallible Text

/-- The type of a migration source, in the derived order. -/
inductive MigrationSourceType
  | simple
  | up
  | down
  deriving DecidableEq, Repr

def MigrationSourceType.rank : MigrationSourceType → ℕ
  | .simple => 0
  | .up => 1
  | .down => 2

def MigrationSourceType.extension : MigrationSourceType → List Char
  | .simple => ".sql".toList
  | .up => ".up.sql".toList
  | .down => ".down.sql".toList

/-- A classified file name. -/
structure MigrationSource where
  type : MigrationSourceType
  version : ℕ
  filename : String
  deriving DecidableEq, Repr

/-- Contents of a single migration; first the names of its files and later their texts. -/
inductive MigrationContents
  | simple (sql : String)
  | reversible (up down : String)
  deriving DecidableEq, Repr

/-- The embedded files, as `T::iter` and `T::get` give them. -/
structure RustEmbed where
  iter : List String
  get : String → Option (List UInt8)

/-- `rusqlite_migration::M`. -/
structure M where
  up : String
  down : Option String
  deriving DecidableEq, Repr

/-! ## The steps of `run_migrations` before it consults the database -/

/-- Classify a file name; `none` for one that is no migration. -/
def classify (filename : String) : Option MigrationSource := do
  let (number, rest) ← splitFirst '_' filename.toList
  if (Text.extension rest).any (eqIgnoreAsciiCase · "sql".toList) then
    let version ← parseUsize number
    if MigrationSourceType.up.extension.isSuffixOf rest then some ⟨.up, version, filename⟩
    else if MigrationSourceType.down.extension.isSuffixOf rest then
      some ⟨.down, version, filename⟩
    else if MigrationSourceType.simple.extension.isSuffixOf rest then
      some ⟨.simple, version, filename⟩
    else none
  else none

/-- Version then type. -/
def MigrationSource.le (a b : MigrationSource) : Prop :=
  a.version < b.version ∨ a.version = b.version ∧ a.type.rank ≤ b.type.rank

instance : DecidableRel MigrationSource.le := fun a b =>
  inferInstanceAs (Decidable (a.version < b.version ∨
    a.version = b.version ∧ a.type.rank ≤ b.type.rank))

/-- `sorted_by`, which is stable. -/
def sortSources (sources : List MigrationSource) : List MigrationSource :=
  sources.insertionSort MigrationSource.le

/-- `group_by` of the version: the runs of sources with equal versions. -/
def groupSources (sources : List MigrationSource) : List (List MigrationSource) :=
  sources.splitBy fun a b => a.version == b.version

/-- Check the group of a version. -/
def checkEntries (index version : ℕ) (entries : List MigrationSource) :
    Except MigrationError MigrationContents :=
  if version ≠ 1 + index then .error (.wrongVersionNumber (index + 1) version)
  else
    match entries with
    | [entry] =>
        if entry.type ≠ .simple then .error (.wrongTypeForSingleMigration entry.filename)
        else .ok (.simple entry.filename)
    | [first, second] =>
        if first.type ≠ .up then .error (.reversibleMigrationMissingUp first.filename)
        else if second.type ≠ .down then
          .error (.reversibleMigrationMissingDown second.filename)
        else .ok (.reversible first.filename second.filename)
    | _ => .error (.tooManyMigrationsForVersion version entries.length)

/-- The version of a group is the one of its first entry. -/
def groupVersion (entries : List MigrationSource) : ℕ := (entries.head?.map (·.version)).getD 0

/-- Check the groups in order, from an index on; the first error is the result. -/
def checkGroups : ℕ → List (List MigrationSource) → Except MigrationError (List MigrationContents)
  | _, [] => .ok []
  | index, entries :: groups => do
      let contents ← checkEntries index (groupVersion entries) entries
      let rest ← checkGroups (index + 1) groups
      return contents :: rest

/-- The migrations of a listing, by the names of their files. -/
def listMigrations (iter : List String) : Except MigrationError (List MigrationContents) :=
  checkGroups 0 (groupSources (sortSources (iter.filterMap classify)))

/-- The text of an embedded file. -/
def RustEmbed.text (embed : RustEmbed) (path : String) : Except MigrationError String :=
  match embed.get path with
  | some data => .ok (fromUtf8Lossy data)
  | none => .error (.missingMigrationSource path)

def RustEmbed.load (embed : RustEmbed) :
    MigrationContents → Except MigrationError MigrationContents
  | .simple path => do
      let sql ← embed.text path
      return .simple sql
  | .reversible upPath downPath => do
      let up ← embed.text upPath
      let down ← embed.text downPath
      return .reversible up down

/-- The migrations of the embedded files, with their texts. -/
def RustEmbed.contents (embed : RustEmbed) : Except MigrationError (List MigrationContents) := do
  let contents ← listMigrations embed.iter
  contents.mapM embed.load

def MigrationContents.toM : MigrationContents → M
  | .simple sql => ⟨sql, none⟩
  | .reversible up down => ⟨up, some down⟩

/-- The argument of `Migrations::new`. -/
def RustEmbed.migrations (embed : RustEmbed) : Except MigrationError (List M) := do
  let contents ← embed.contents
  return contents.map MigrationContents.toM

/-! ## Migrations written out as sources -/

/-- The sources of one migration. -/
def MigrationContents.entries (version : ℕ) : MigrationContents → List MigrationSource
  | .simple path => [⟨.simple, version, path⟩]
  | .reversible up down => [⟨.up, version, up⟩, ⟨.down, version, down⟩]

/-- The groups of a list of migrations whose first version is given. -/
def groupsOf : ℕ → List MigrationContents → List (List MigrationSource)
  | _, [] => []
  | version, c :: cs => c.entries version :: groupsOf (version + 1) cs

/-- Nonempty and of one version. -/
def IsGroup (entries : List MigrationSource) : Prop :=
  entries ≠ [] ∧ ∀ a ∈ entries, a.version = groupVersion entries

lemma MigrationContents.entries_ne_nil (version : ℕ) (c : MigrationContents) :
    c.entries version ≠ [] := by
  cases c <;> simp [MigrationContents.entries]

lemma MigrationContents.version_of_mem {version : ℕ} {c : MigrationContents}
    {a : MigrationSource} (h : a ∈ c.entries version) : a.version = version := by
  cases c with
  | simple path =>
      rw [List.mem_singleton.mp h]
  | reversible up down =>
      rcases List.mem_pair.mp h with rfl | rfl <;> rfl

@[simp] lemma groupVersion_cons (a : MigrationSource) (entries : List MigrationSource) :
    groupVersion (a :: entries) = a.version := rfl

@[simp] lemma groupVersion_entries (version : ℕ) (c : MigrationContents) :
    groupVersion (c.entries version) = version := by
  cases c <;> rfl

lemma isGroup_entries (version : ℕ) (c : MigrationContents) : IsGroup (c.entries version) :=
  ⟨c.entries_ne_nil version, fun a ha => by
    rw [groupVersion_entries, MigrationContents.version_of_mem ha]⟩

/-- A group is accepted exactly when it consists of the sources of a migration. -/
lemma checkEntries_iff {index : ℕ} {entries : List MigrationSource} (h : IsGroup entries)
    (c : MigrationContents) :
    checkEntries index (groupVersion entries) entries = .ok c ↔
      entries = c.entries (index + 1) := by
  obtain ⟨hne, hversion⟩ := h
  constructor
  · intro hok
    simp only [checkEntries] at hok
    split_ifs at hok with hindex
    rw [not_not] at hindex
    rcases entries with _ | ⟨⟨t, v, p⟩, _ | ⟨⟨t', v', p'⟩, _ | ⟨third, rest⟩⟩⟩
    · exact absurd rfl hne
    · simp only at hok
      split_ifs at hok with ht
      cases hok
      rw [not_not] at ht
      simp only [groupVersion_cons] at hindex
      simp only [MigrationContents.entries, ht, hindex, Nat.add_comm]
    · simp only at hok
      split_ifs at hok with ht ht'
      cases hok
      rw [not_not] at ht ht'
      have hv' := hversion ⟨t', v', p'⟩ (by simp)
      simp only [groupVersion_cons] at hindex hv'
      simp only [MigrationContents.entries, ht, ht', hv', hindex, Nat.add_comm]
    · simp only at hok
      cases hok
  · rintro rfl
    cases c <;>
      simp [checkEntries, MigrationContents.entries, Nat.add_comm]

/-- Groups are accepted exactly when they are the groups of a list of migrations. -/
lemma checkGroups_groups_iff {groups : List (List MigrationSource)} :
    ∀ {index : ℕ} {cs : List MigrationContents}, (∀ entries ∈ groups, IsGroup entries) →
      (checkGroups index groups = .ok cs ↔ groups = groupsOf (index + 1) cs) := by
  induction groups with
  | nil =>
      intro index cs _
      cases cs <;> simp [checkGroups, groupsOf]
  | cons entries groups ih =>
      intro index cs h
      rw [List.forall_mem_cons] at h
      simp only [checkGroups, bind_pure_comp, bind_eq_ok, map_eq_ok, checkEntries_iff h.1, ih h.2]
      constructor
      · rintro ⟨c, hentries, rest, hrest, rfl⟩
        rw [groupsOf, ← hentries, ← hrest]
      · intro heq
        cases cs with
        | nil => cases heq
        | cons c rest =>
            rw [groupsOf, List.cons.injEq] at heq
            exact ⟨c, heq.1, rest, heq.2, rfl⟩

/-- Groups that are rejected are so at the first one that is not a migration of its version. -/
lemma checkGroups_error {groups : List (List MigrationSource)} :
    ∀ {index : ℕ} {e : MigrationError}, (∀ entries ∈ groups, IsGroup entries) →
      checkGroups index groups = .error e →
      ∃ cs entries rest, groups = groupsOf (index + 1) cs ++ entries :: rest ∧
        checkEntries (index + cs.length) (groupVersion entries) entries = .error e := by
  induction groups with
  | nil =>
      intro index e _ herror
      cases herror
  | cons entries groups ih =>
      intro index e h herror
      rw [List.forall_mem_cons] at h
      simp only [checkGroups, bind_pure_comp, bind_eq_error, map_eq_error] at herror
      rcases herror with hentries | ⟨c, hentries, hrest⟩
      · exact ⟨[], entries, groups, rfl, hentries⟩
      · obtain ⟨cs, first, rest, hgroups, hfirst⟩ := ih h.2 hrest
        refine ⟨c :: cs, first, rest, ?_, ?_⟩
        · rw [hgroups, (checkEntries_iff h.1 c).mp hentries]
          rfl
        · rw [List.length_cons, show index + (cs.length + 1) = index + 1 + cs.length by omega]
          exact hfirst

/-! ## Grouping sorted sources -/

/-- The sources of a list of migrations whose first version is given. -/
def sourcesOf (version : ℕ) (cs : List MigrationContents) : List MigrationSource :=
  (groupsOf version cs).flatten

lemma isGroup_of_mem_groupSources {sources entries : List MigrationSource}
    (h : entries ∈ groupSources sources) : IsGroup entries := by
  have hne := List.ne_nil_of_mem_splitBy h
  refine ⟨hne, ?_⟩
  obtain ⟨a, rest, rfl⟩ := List.exists_cons_of_ne_nil hne
  have hchain : List.IsChain (fun a b : MigrationSource => a.version = b.version) (a :: rest) := by
    simpa using List.isChain_of_mem_splitBy h
  have hpairwise := List.isChain_iff_pairwise.mp hchain
  rw [List.pairwise_cons] at hpairwise
  intro b hb
  rcases List.mem_cons.mp hb with rfl | hb
  · rfl
  · exact (hpairwise.1 b hb).symm

lemma mem_groupsOf {entries : List MigrationSource} {cs : List MigrationContents} :
    ∀ {version : ℕ}, entries ∈ groupsOf version cs → IsGroup entries ∧
      version ≤ groupVersion entries ∧ groupVersion entries < version + cs.length := by
  induction cs with
  | nil =>
      intro version h
      cases h
  | cons c cs ih =>
      intro version h
      rw [List.length_cons]
      rcases List.mem_cons.mp h with rfl | h
      · rw [groupVersion_entries]
        exact ⟨isGroup_entries version c, by omega, by omega⟩
      · obtain ⟨hgroup, hle, hlt⟩ := ih h
        exact ⟨hgroup, by omega, by omega⟩

/-- Grouping undoes writing migrations out. -/
lemma groupSources_sourcesOf (cs : List MigrationContents) :
    ∀ version : ℕ, groupSources (sourcesOf version cs) = groupsOf version cs := by
  induction cs with
  | nil =>
      intro version
      rfl
  | cons c cs ih =>
      intro version
      have hrest := ih (version + 1)
      have happend : groupSources (c.entries version ++ sourcesOf (version + 1) cs) =
          groupSources (c.entries version) ++ groupSources (sourcesOf (version + 1) cs) := by
        refine List.splitBy_append fun a ha b hb => ?_
        have hav := MigrationContents.version_of_mem (List.mem_of_mem_getLast? ha)
        obtain ⟨entries, hentries, hb⟩ := List.mem_flatten.mp (List.mem_of_mem_head? hb)
        obtain ⟨⟨-, hgroup⟩, hle, -⟩ := mem_groupsOf hentries
        have hbv := hgroup b hb
        simp only [beq_eq_false_iff_ne, ne_eq]
        omega
      have hself : groupSources (c.entries version) = [c.entries version] := by
        cases c <;> simp [groupSources, MigrationContents.entries, List.splitBy, List.splitBy.loop]
      rw [sourcesOf, groupsOf, List.flatten_cons]
      exact happend.trans (by rw [hself, hrest]; rfl)

/-- **Sources are accepted exactly when they are a list of migrations written out**, from the
version after `index` on and without a gap. -/
theorem checkGroups_iff {index : ℕ} {sources : List MigrationSource} {cs : List MigrationContents} :
    checkGroups index (groupSources sources) = .ok cs ↔ sources = sourcesOf (index + 1) cs := by
  rw [checkGroups_groups_iff fun entries => isGroup_of_mem_groupSources]
  constructor
  · intro h
    rw [sourcesOf, ← h, groupSources, List.flatten_splitBy]
  · rintro rfl
    exact groupSources_sourcesOf cs _

end SqliteRwPool
