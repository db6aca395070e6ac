import Mathlib.Algebra.BigOperators.Group.Finset.Basic
import Mathlib.Algebra.Order.Group.Multiset
import Mathlib.Order.Interval.Finset.Nat
import SqliteRwPool.Migration.Source

/-!
# Which folders of migrations are accepted

A folder is a contiguous sequence of `n` versions when its classified files are, in any order, one
simple script or one up and one down script for each version from 1 to `n`.  These are exactly the
folders from which a list of migrations is built, and the list does not depend on the order in
which the files are listed.

* `listMigrations_iff` — the listing is accepted when its sorted sources are a list of migrations.
* `migrationFolder_iff` — the folder is accepted exactly when it is contiguous, entry by entry what
  its files say, in whatever order they are listed, and otherwise rejected in the same way.
-/

namespace SqliteRwPool

open Fallible

/-- The version and type of a source. -/
def MigrationSource.key (source : MigrationSource) : ℕ × MigrationSourceType :=
  (source.version, source.type)

/-- The versions and types of a listing. -/
def listedVersions (iter : List String) : Multiset (ℕ × MigrationSourceType) :=
  ((iter.filterMap classify).map MigrationSource.key : List (ℕ × MigrationSourceType))

/-- What a contiguous sequence has at a version. -/
def versionKeys (version : ℕ) (reversible : Bool) : Multiset (ℕ × MigrationSourceType) :=
  if reversible then {(version, .up), (version, .down)} else {(version, .simple)}

/-- A disjoint union over the versions from 1 to `n`. -/
def IsContiguous (n : ℕ) (versions : Multiset (ℕ × MigrationSourceType)) : Prop :=
  ∃ reversible : ℕ → Bool, versions = ∑ v ∈ Finset.Icc 1 n, versionKeys v (reversible v)

/-- The listed files of a version. -/
def versionSources (iter : List String) (version : ℕ) : List MigrationSource :=
  (iter.filterMap classify).filter fun source => source.version = version

/-- The migration carries the texts of exactly the listed files of the version, the up script in
the up position and the down script in the down position. -/
def Carries (embed : RustEmbed) (version : ℕ) (m : M) : Prop :=
  (∃ path, (versionSources embed.iter version).Perm [⟨.simple, version, path⟩] ∧
    embed.text path = .ok m.up ∧ m.down = none) ∨
  (∃ up down downSql,
    (versionSources embed.iter version).Perm [⟨.up, version, up⟩, ⟨.down, version, down⟩] ∧
    embed.text up = .ok m.up ∧ embed.text down = .ok downSql ∧ m.down = some downSql)

/-- An error but for the file that it names. -/
def MigrationError.withoutPath : MigrationError → MigrationError
  | .wrongVersionNumber expected got => .wrongVersionNumber expected got
  | .wrongTypeForSingleMigration _ => .wrongTypeForSingleMigration ""
  | .reversibleMigrationMissingUp _ => .reversibleMigrationMissingUp ""
  | .reversibleMigrationMissingDown _ => .reversibleMigrationMissingDown ""
  | .tooManyMigrationsForVersion version got => .tooManyMigrationsForVersion version got
  | .missingMigrationSource _ => .missingMigrationSource ""
  | .rusqliteMigration e => .rusqliteMigration e

/-- The versions below the expected one are all present and well formed, and the one found instead
is the least of the others. -/
def WrongVersion (expected got : ℕ) (versions : Multiset (ℕ × MigrationSourceType)) : Prop :=
  1 ≤ expected ∧
    IsContiguous (expected - 1) (versions.filter fun key => 1 ≤ key.1 ∧ key.1 < expected) ∧
    got ≠ expected ∧ (∃ key ∈ versions, key.1 = got) ∧ ¬ (1 ≤ got ∧ got < expected) ∧
    ∀ key ∈ versions, ¬ (1 ≤ key.1 ∧ key.1 < expected) → got ≤ key.1

/-! ## Sorting -/

lemma rank_injective : Function.Injective MigrationSourceType.rank := by
  intro a b h
  cases a <;> cases b <;> first | rfl | cases h

instance : Std.Total MigrationSource.le := ⟨fun a b => by
  simp only [MigrationSource.le]
  omega⟩

instance : IsTrans MigrationSource MigrationSource.le := ⟨fun a b c => by
  simp only [MigrationSource.le]
  omega⟩

lemma MigrationSource.key_eq_of_le {a b : MigrationSource} (h : a.le b) (h' : b.le a) :
    a.key = b.key := by
  simp only [MigrationSource.le] at h h'
  have hversion : a.version = b.version := by omega
  have htype : a.type = b.type := rank_injective (by omega)
  rw [MigrationSource.key, MigrationSource.key, hversion, htype]

lemma sortSources_perm (sources : List MigrationSource) : (sortSources sources).Perm sources :=
  List.perm_insertionSort _ sources

lemma sortSources_pairwise (sources : List MigrationSource) :
    (sortSources sources).Pairwise MigrationSource.le :=
  List.pairwise_insertionSort _ sources

/-- A listing is accepted exactly when its sorted sources are a list of migrations written out. -/
lemma listMigrations_iff {iter : List String} {cs : List MigrationContents} :
    listMigrations iter = .ok cs ↔ sortSources (iter.filterMap classify) = sourcesOf 1 cs :=
  checkGroups_iff

lemma sourcesOf_cons (version : ℕ) (c : MigrationContents) (cs : List MigrationContents) :
    sourcesOf version (c :: cs) = c.entries version ++ sourcesOf (version + 1) cs := rfl

lemma mem_sourcesOf {a : MigrationSource} {version : ℕ} {cs : List MigrationContents}
    (h : a ∈ sourcesOf version cs) : version ≤ a.version ∧ a.version < version + cs.length := by
  obtain ⟨entries, hentries, ha⟩ := List.mem_flatten.mp h
  obtain ⟨⟨-, hgroup⟩, hle, hlt⟩ := mem_groupsOf hentries
  rw [hgroup a ha]
  exact ⟨hle, hlt⟩

/-- A list of migrations written out is strictly sorted. -/
lemma sourcesOf_pairwise (cs : List MigrationContents) : ∀ version : ℕ,
    (sourcesOf version cs).Pairwise fun a b => a.le b ∧ a.key ≠ b.key := by
  induction cs with
  | nil =>
      intro version
      exact List.Pairwise.nil
  | cons c cs ih =>
      intro version
      rw [sourcesOf_cons, List.pairwise_append]
      refine ⟨?_, ih (version + 1), ?_⟩
      · cases c <;> simp [MigrationContents.entries, MigrationSource.le, MigrationSource.key,
          MigrationSourceType.rank]
      · intro a ha b hb
        have hav := MigrationContents.version_of_mem ha
        have hbv := (mem_sourcesOf hb).1
        refine ⟨Or.inl (by omega), fun hkey => ?_⟩
        have hversion : a.version = b.version := congrArg Prod.fst hkey
        omega

/-- Sources with the same versions and types as a list of migrations are one themselves. -/
lemma sourcesOf_of_keys {blank : List MigrationContents} : ∀ {version : ℕ}
    {sources : List MigrationSource},
    sources.map MigrationSource.key = (sourcesOf version blank).map MigrationSource.key →
      ∃ cs, cs.length = blank.length ∧ sources = sourcesOf version cs := by
  induction blank with
  | nil =>
      intro version sources h
      exact ⟨[], rfl, List.map_eq_nil_iff.mp h⟩
  | cons c blank ih =>
      intro version sources h
      rw [sourcesOf_cons, List.map_append] at h
      obtain ⟨first, rest, rfl, hfirst, hrest⟩ := List.map_eq_append_iff.mp h
      obtain ⟨cs, hlength, rfl⟩ := ih hrest
      have hentries : ∃ c', first = MigrationContents.entries version c' := by
        cases c with
        | simple path =>
            obtain ⟨⟨t, v, p⟩, rfl, hkey⟩ := List.map_eq_singleton_iff.mp hfirst
            cases hkey
            exact ⟨.simple p, rfl⟩
        | reversible up down =>
            obtain ⟨⟨t, v, p⟩, tail, rfl, hkey, htail⟩ := List.map_eq_cons_iff.mp hfirst
            obtain ⟨⟨t', v', p'⟩, rfl, hkey'⟩ := List.map_eq_singleton_iff.mp htail
            cases hkey
            cases hkey'
            exact ⟨.reversible p p', rfl⟩
      obtain ⟨c', rfl⟩ := hentries
      exact ⟨c' :: cs, by simp [hlength], rfl⟩

/-! ## Contiguous sequences -/

def MigrationContents.isReversible : MigrationContents → Bool
  | .simple _ => false
  | .reversible _ _ => true

lemma MigrationContents.keys_entries (version : ℕ) (c : MigrationContents) :
    (((c.entries version).map MigrationSource.key : List (ℕ × MigrationSourceType)) :
      Multiset (ℕ × MigrationSourceType)) = versionKeys version c.isReversible := by
  cases c <;> rfl

/-- The versions and types of a list of migrations, version by version. -/
lemma sourcesOf_keys (cs : List MigrationContents) : ∀ version : ℕ,
    (((sourcesOf version cs).map MigrationSource.key : List (ℕ × MigrationSourceType)) :
      Multiset (ℕ × MigrationSourceType)) =
    ((List.range' version cs.length).map fun v =>
      versionKeys v (cs[v - version]?.any MigrationContents.isReversible)).sum := by
  induction cs with
  | nil =>
      intro version
      rfl
  | cons c cs ih =>
      intro version
      have hrest : (List.range' (version + 1) cs.length).map (fun v =>
          versionKeys v ((c :: cs)[v - version]?.any MigrationContents.isReversible)) =
          (List.range' (version + 1) cs.length).map fun v =>
            versionKeys v (cs[v - (version + 1)]?.any MigrationContents.isReversible) := by
        refine List.map_congr_left fun v hv => ?_
        rw [List.mem_range'_1] at hv
        rw [show v - version = v - (version + 1) + 1 by omega, List.getElem?_cons_succ]
      rw [sourcesOf_cons, List.map_append, ← Multiset.coe_add, ih, List.length_cons,
        List.range'_succ, List.map_cons, List.sum_cons, hrest, c.keys_entries, Nat.sub_self,
        List.getElem?_cons_zero, Option.any_some]

lemma sum_versionKeys (n : ℕ) (reversible : ℕ → Bool) :
    ∑ v ∈ Finset.Icc 1 n, versionKeys v (reversible v) =
      ((List.range' 1 n).map fun v => versionKeys v (reversible v)).sum := rfl

lemma isContiguous_sourcesOf (cs : List MigrationContents) :
    IsContiguous cs.length
      ((sourcesOf 1 cs).map MigrationSource.key : List (ℕ × MigrationSourceType)) :=
  ⟨fun v => cs[v - 1]?.any MigrationContents.isReversible, by
    rw [sourcesOf_keys, sum_versionKeys]⟩

/-- Sorted sources whose versions and types are contiguous are a list of migrations. -/
lemma sourcesOf_of_isContiguous {n : ℕ} {sources : List MigrationSource}
    (h : IsContiguous n (sources.map MigrationSource.key : List (ℕ × MigrationSourceType)))
    (hsorted : sources.Pairwise MigrationSource.le) :
    ∃ cs, cs.length = n ∧ sources = sourcesOf 1 cs := by
  obtain ⟨reversible, hkeys⟩ := h
  set blank : List MigrationContents :=
    (List.range' 1 n).map fun v => if reversible v then .reversible "" "" else .simple ""
    with hblank
  have hlength : blank.length = n := by simp [hblank]
  have hsum : ((List.range' 1 n).map fun v => versionKeys v (reversible v)) =
      (List.range' 1 n).map fun v =>
        versionKeys v (blank[v - 1]?.any MigrationContents.isReversible) := by
    refine List.map_congr_left fun v hv => ?_
    rw [List.mem_range'_1] at hv
    have hget : blank[v - 1]? =
        some (if reversible v then .reversible "" "" else .simple "") := by
      rw [hblank, List.getElem?_map, List.getElem?_range' (by omega), Option.map_some,
        show 1 + 1 * (v - 1) = v by omega]
    rw [hget, Option.any_some]
    cases reversible v <;> rfl
  rw [sum_versionKeys, hsum] at hkeys
  have hblankKeys := sourcesOf_keys blank 1
  rw [hlength, ← hkeys, Multiset.coe_eq_coe] at hblankKeys
  have hsortedKeys : (sources.map MigrationSource.key).Pairwise
      fun a b => MigrationSource.le ⟨a.2, a.1, ""⟩ ⟨b.2, b.1, ""⟩ := List.pairwise_map.mpr hsorted
  rw [← hlength]
  refine sourcesOf_of_keys (List.Perm.eq_of_pairwise ?_ hsortedKeys ?_ hblankKeys.symm)
  · intro a b _ _ hab hba
    exact MigrationSource.key_eq_of_le hab hba
  · exact List.pairwise_map.mpr ((sourcesOf_pairwise blank 1).imp And.left)

/-! ## The order of the listing -/

def MigrationSource.withoutPath (source : MigrationSource) : MigrationSource :=
  { source with filename := "" }

def MigrationContents.withoutPath : MigrationContents → MigrationContents
  | .simple _ => .simple ""
  | .reversible _ _ => .reversible "" ""

/-- A result but for the files that it names. -/
def withoutPaths {α : Type} (f : α → α) (result : Except MigrationError α) :
    Except MigrationError α :=
  (result.mapError MigrationError.withoutPath).map f

lemma checkEntries_withoutPath (index version : ℕ) (entries : List MigrationSource) :
    checkEntries index version (entries.map MigrationSource.withoutPath) =
      withoutPaths MigrationContents.withoutPath (checkEntries index version entries) := by
  simp only [checkEntries]
  split_ifs
  · rfl
  · rcases entries with _ | ⟨first, _ | ⟨second, _ | ⟨third, rest⟩⟩⟩
    · rfl
    · simp only [List.map_cons, List.map_nil, MigrationSource.withoutPath]
      split_ifs <;> rfl
    · simp only [List.map_cons, List.map_nil, MigrationSource.withoutPath]
      split_ifs <;> rfl
    · simp [withoutPaths, Except.mapError, Except.map, MigrationError.withoutPath]

lemma checkGroups_withoutPath (groups : List (List MigrationSource)) : ∀ index : ℕ,
    checkGroups index (groups.map (List.map MigrationSource.withoutPath)) =
      withoutPaths (List.map MigrationContents.withoutPath) (checkGroups index groups) := by
  induction groups with
  | nil =>
      intro index
      rfl
  | cons entries groups ih =>
      intro index
      have hversion : groupVersion (entries.map MigrationSource.withoutPath) =
          groupVersion entries := by
        cases entries <;> rfl
      simp only [List.map_cons, checkGroups, hversion, checkEntries_withoutPath, ih]
      cases checkEntries index (groupVersion entries) entries with
      | error e => rfl
      | ok c =>
          cases checkGroups (index + 1) groups with
          | error e => rfl
          | ok rest => rfl

lemma groupSources_withoutPath (sources : List MigrationSource) :
    groupSources (sources.map MigrationSource.withoutPath) =
      (groupSources sources).map (List.map MigrationSource.withoutPath) := by
  rw [groupSources, List.splitBy_eq_iff]
  refine ⟨?_, ?_, ?_, ?_⟩
  · rw [← List.map_flatten, groupSources, List.flatten_splitBy]
  · simp [groupSources, List.nil_notMem_splitBy]
  · intro entries hentries
    obtain ⟨group, hgroup, rfl⟩ := List.mem_map.mp hentries
    exact (List.isChain_map _).mpr (List.isChain_of_mem_splitBy hgroup)
  · refine (List.isChain_map _).mpr ?_
    refine (List.isChain_getLast_head_splitBy _ sources).imp fun a b hneighbours => ?_
    obtain ⟨ha, hb, hne⟩ := hneighbours
    refine ⟨by simpa using ha, by simpa using hb, ?_⟩
    rw [List.getLast_map, List.head_map]
    exact hne

lemma sortSources_withoutPath (sources : List MigrationSource) :
    (sortSources sources).map MigrationSource.withoutPath =
      sortSources (sources.map MigrationSource.withoutPath) :=
  List.map_insertionSort _ _ _ _ fun _ _ _ _ => Iff.rfl

/-- Listing the files in another order changes nothing but the files named in errors. -/
lemma listMigrations_withoutPath {iter iter' : List String} (h : iter'.Perm iter) :
    withoutPaths (List.map MigrationContents.withoutPath) (listMigrations iter') =
      withoutPaths (List.map MigrationContents.withoutPath) (listMigrations iter) := by
  have hsort : sortSources ((iter'.filterMap classify).map MigrationSource.withoutPath) =
      sortSources ((iter.filterMap classify).map MigrationSource.withoutPath) := by
    refine List.Perm.eq_of_pairwise ?_ (sortSources_pairwise _) (sortSources_pairwise _) ?_
    · intro a b ha hb hab hba
      have hkey := MigrationSource.key_eq_of_le hab hba
      obtain ⟨a', -, rfl⟩ := List.mem_map.mp ((sortSources_perm _).mem_iff.mp ha)
      obtain ⟨b', -, rfl⟩ := List.mem_map.mp ((sortSources_perm _).mem_iff.mp hb)
      simp only [MigrationSource.key, MigrationSource.withoutPath, Prod.mk.injEq] at hkey
      simp only [MigrationSource.withoutPath, hkey]
    · exact ((sortSources_perm _).trans ((h.filterMap classify).map _)).trans
        (sortSources_perm _).symm
  simp only [listMigrations, ← checkGroups_withoutPath, ← groupSources_withoutPath,
    sortSources_withoutPath, hsort]

/-- An accepted listing is accepted in any order, with the same files for each version. -/
lemma listMigrations_perm {iter iter' : List String} (h : iter'.Perm iter)
    {cs : List MigrationContents} (hok : listMigrations iter = .ok cs) :
    listMigrations iter' = .ok cs := by
  rw [listMigrations_iff] at hok ⊢
  rw [← hok]
  have hperm : (sortSources (iter'.filterMap classify)).Perm
      (sortSources (iter.filterMap classify)) :=
    ((sortSources_perm _).trans (h.filterMap classify)).trans (sortSources_perm _).symm
  refine List.Perm.eq_of_pairwise ?_ (sortSources_pairwise _) (sortSources_pairwise _) hperm
  intro a b ha hb hab hba
  have ha' := hperm.mem_iff.mp ha
  rw [hok] at ha' hb
  have hstrict := sourcesOf_pairwise cs 1
  have hnodup : ((sourcesOf 1 cs).map MigrationSource.key).Nodup :=
    List.pairwise_map.mpr (hstrict.imp And.right)
  exact List.inj_on_of_nodup_map hnodup ha' hb (MigrationSource.key_eq_of_le hab hba)

/-! ## The files of each version -/

lemma filename_of_classify {filename : String} {source : MigrationSource}
    (h : classify filename = some source) : source.filename = filename := by
  simp only [classify, Option.bind_eq_bind, Option.bind_eq_some_iff] at h
  obtain ⟨parts, -, h⟩ := h
  split_ifs at h
  all_goals
    obtain ⟨version, -, heq⟩ := Option.bind_eq_some_iff.mp h
    cases heq <;> rfl

/-- The sources of one version of a list of migrations. -/
lemma filter_sourcesOf {cs : List MigrationContents} : ∀ {version i : ℕ} (h : i < cs.length),
    (sourcesOf version cs).filter (fun source => source.version = version + i) =
      cs[i].entries (version + i) := by
  induction cs with
  | nil =>
      intro version i h
      cases h
  | cons c cs ih =>
      intro version i h
      rw [sourcesOf_cons, List.filter_append]
      cases i with
      | zero =>
          have hself : (c.entries version).filter (fun source => source.version = version + 0) =
              c.entries version := by
            refine List.filter_eq_self.mpr fun a ha => ?_
            simp [MigrationContents.version_of_mem ha]
          have hrest : (sourcesOf (version + 1) cs).filter
              (fun source => source.version = version + 0) = [] := by
            refine List.filter_eq_nil_iff.mpr fun a ha => ?_
            have hav := (mem_sourcesOf ha).1
            simp only [decide_eq_true_eq]
            omega
          rw [hself, hrest, List.append_nil]
          rfl
      | succ i =>
          have hself : (c.entries version).filter
              (fun source => source.version = version + (i + 1)) = [] := by
            refine List.filter_eq_nil_iff.mpr fun a ha => ?_
            rw [MigrationContents.version_of_mem ha, decide_eq_true_eq]
            omega
          rw [hself, List.nil_append, show version + (i + 1) = version + 1 + i by omega,
            ih (by simpa using h)]
          rfl

lemma versionSources_perm {iter : List String} {cs : List MigrationContents}
    (h : listMigrations iter = .ok cs) {i : ℕ} (hi : i < cs.length) :
    (versionSources iter (i + 1)).Perm (cs[i].entries (i + 1)) := by
  rw [listMigrations_iff] at h
  have hperm := (sortSources_perm (iter.filterMap classify)).symm
  rw [h] at hperm
  refine (hperm.filter _).trans (List.Perm.of_eq ?_)
  rw [show i + 1 = 1 + i by omega]
  exact filter_sourcesOf hi

/-- The files of an accepted listing are listed. -/
lemma filename_mem {iter : List String} {cs : List MigrationContents}
    (h : listMigrations iter = .ok cs) {c : MigrationContents} (hc : c ∈ cs)
    (version : ℕ) : ∀ source ∈ c.entries version, source.filename ∈ iter := by
  obtain ⟨i, hi, rfl⟩ := List.getElem_of_mem hc
  have hlisted : ∀ source ∈ cs[i].entries (i + 1), source.filename ∈ iter := by
    intro source hsource
    obtain ⟨filename, hmem, hclassify⟩ := List.mem_filterMap.mp
      (List.mem_of_mem_filter ((versionSources_perm h hi).mem_iff.mpr hsource))
    rw [filename_of_classify hclassify]
    exact hmem
  cases hcase : cs[i] with
  | simple path =>
      rw [hcase] at hlisted
      simpa [MigrationContents.entries] using hlisted
  | reversible up down =>
      rw [hcase] at hlisted
      simpa [MigrationContents.entries] using hlisted

lemma RustEmbed.text_of_isSome {embed : RustEmbed} {path : String} (h : (embed.get path).isSome) :
    ∃ sql, embed.text path = .ok sql := by
  obtain ⟨data, hdata⟩ := Option.isSome_iff_exists.mp h
  exact ⟨_, by rw [RustEmbed.text, hdata]⟩

/-- Loading succeeds when every listed file can be got. -/
lemma RustEmbed.contents_eq_ok {embed : RustEmbed} (hget : ∀ f ∈ embed.iter, (embed.get f).isSome)
    {cs : List MigrationContents} (h : listMigrations embed.iter = .ok cs) :
    ∃ ms, embed.migrations = .ok ms := by
  have hload : ∀ c ∈ cs, ∃ c', embed.load c = .ok c' := by
    intro c hc
    have hlisted := filename_mem h hc 0
    cases c with
    | simple path =>
        obtain ⟨sql, hsql⟩ := text_of_isSome (hget path
          (hlisted ⟨.simple, 0, path⟩ (by simp [MigrationContents.entries])))
        exact ⟨.simple sql, by simp [RustEmbed.load, hsql]⟩
    | reversible up down =>
        obtain ⟨upSql, hup⟩ := text_of_isSome (hget up
          (hlisted ⟨.up, 0, up⟩ (by simp [MigrationContents.entries])))
        obtain ⟨downSql, hdown⟩ := text_of_isSome (hget down
          (hlisted ⟨.down, 0, down⟩ (by simp [MigrationContents.entries])))
        exact ⟨.reversible upSql downSql, by simp [RustEmbed.load, hup, hdown]⟩
  obtain ⟨contents, hcontents⟩ := exists_mapM_eq_ok hload
  exact ⟨contents.map MigrationContents.toM, by
    simp [RustEmbed.migrations, RustEmbed.contents, h, hcontents]⟩

lemma RustEmbed.migrations_iff {embed : RustEmbed} {ms : List M} :
    embed.migrations = .ok ms ↔ ∃ contents, (∃ cs, listMigrations embed.iter = .ok cs ∧
      List.Forall₂ (fun c c' => embed.load c = .ok c') cs contents) ∧
      contents.map MigrationContents.toM = ms := by
  simp only [RustEmbed.migrations, RustEmbed.contents, bind_pure_comp, map_eq_ok, bind_eq_ok,
    mapM_eq_ok]

lemma RustEmbed.migrations_eq_ok {embed : RustEmbed} {ms : List M}
    (h : embed.migrations = .ok ms) :
    ∃ cs, listMigrations embed.iter = .ok cs ∧
      List.Forall₂ (fun c m => ∃ c', embed.load c = .ok c' ∧ c'.toM = m) cs ms := by
  obtain ⟨contents, ⟨cs, hcs, hload⟩, rfl⟩ := migrations_iff.mp h
  exact ⟨cs, hcs, List.forall₂_map_right_iff.mpr (hload.imp fun c c' hc => ⟨c', hc, rfl⟩)⟩

lemma RustEmbed.migrations_eq_error {embed : RustEmbed}
    (hget : ∀ f ∈ embed.iter, (embed.get f).isSome) {e : MigrationError} :
    embed.migrations = .error e ↔ listMigrations embed.iter = .error e := by
  cases h : listMigrations embed.iter with
  | error e' => simp [RustEmbed.migrations, RustEmbed.contents, h]
  | ok cs =>
      obtain ⟨ms, hms⟩ := contents_eq_ok hget h
      simp [hms]

/-- Each entry of an accepted folder carries the files of its version. -/
lemma RustEmbed.carries {embed : RustEmbed} {ms : List M} (h : embed.migrations = .ok ms) {i : ℕ}
    (hi : i < ms.length) : Carries embed (i + 1) ms[i] := by
  obtain ⟨cs, hcs, hload⟩ := migrations_eq_ok h
  have hi' : i < cs.length := by rwa [hload.length_eq]
  obtain ⟨c', hc', hm⟩ := (List.forall₂_iff_get.mp hload).2 i hi' hi
  have hperm := versionSources_perm hcs hi'
  simp only [List.get_eq_getElem] at hc' hm
  rw [← hm]
  cases hcase : cs[i] with
  | simple path =>
      rw [hcase] at hperm hc'
      simp only [RustEmbed.load, bind_pure_comp, map_eq_ok] at hc'
      obtain ⟨sql, hsql, rfl⟩ := hc'
      exact Or.inl ⟨path, hperm, hsql, rfl⟩
  | reversible up down =>
      rw [hcase] at hperm hc'
      simp only [RustEmbed.load, bind_pure_comp, bind_eq_ok, map_eq_ok] at hc'
      obtain ⟨upSql, hup, downSql, hdown, rfl⟩ := hc'
      exact Or.inr ⟨up, down, downSql, hperm, hup, hdown, rfl⟩

/-! ## A wrong version -/

lemma flatten_groupSources (sources : List MigrationSource) :
    (groupSources sources).flatten = sources := List.flatten_splitBy _ sources

/-- The groups of sorted sources are in the strict order of their versions. -/
lemma groupSources_pairwise {sources : List MigrationSource}
    (h : sources.Pairwise MigrationSource.le) :
    (groupSources sources).Pairwise fun a b => groupVersion a < groupVersion b := by
  rw [← flatten_groupSources sources, List.pairwise_flatten] at h
  have hchain : (groupSources sources).IsChain fun a b => groupVersion a < groupVersion b := by
    rw [List.isChain_iff_forall_rel_of_append_cons_cons]
    intro a b before after heq
    have hneighbours := List.isChain_iff_forall_rel_of_append_cons_cons.mp
      (List.isChain_getLast_head_splitBy _ sources) heq
    obtain ⟨ha, hb, hne⟩ := hneighbours
    have hmem : a ∈ groupSources sources ∧ b ∈ groupSources sources := by
      simp [heq]
    have hpair := h.2
    rw [heq, List.pairwise_append, List.pairwise_cons] at hpair
    have hab := hpair.2.1.1 b (by simp) _ (a.getLast_mem ha) _ (b.head_mem hb)
    have hav := (isGroup_of_mem_groupSources hmem.1).2 _ (a.getLast_mem ha)
    have hbv := (isGroup_of_mem_groupSources hmem.2).2 _ (b.head_mem hb)
    rw [beq_eq_false_iff_ne] at hne
    simp only [MigrationSource.le] at hab
    omega
  have : IsTrans (List MigrationSource) fun a b => groupVersion a < groupVersion b :=
    ⟨fun _ _ _ => lt_trans⟩
  exact List.isChain_iff_pairwise.mp hchain

lemma exists_mem_groupsOf (cs : List MigrationContents) : ∀ version i : ℕ, i < cs.length →
    ∃ entries ∈ groupsOf version cs, groupVersion entries = version + i := by
  induction cs with
  | nil =>
      intro version i h
      cases h
  | cons c cs ih =>
      intro version i h
      cases i with
      | zero => exact ⟨c.entries version, by simp [groupsOf], groupVersion_entries version c⟩
      | succ i =>
          obtain ⟨entries, hmem, hversion⟩ := ih (version + 1) i (by simpa using h)
          exact ⟨entries, List.mem_cons_of_mem _ hmem, by omega⟩

lemma checkEntries_wrongVersion {index version expected got : ℕ} {entries : List MigrationSource}
    (h : checkEntries index version entries = .error (.wrongVersionNumber expected got)) :
    expected = index + 1 ∧ got = version ∧ got ≠ expected := by
  simp only [checkEntries] at h
  split_ifs at h with hindex
  · cases h
    exact ⟨rfl, rfl, by omega⟩
  · split at h <;> (try split_ifs at h) <;> cases h

/-- What a wrong version says about the listing. -/
lemma wrongVersion_of_listMigrations {iter : List String} {expected got : ℕ}
    (h : listMigrations iter = .error (.wrongVersionNumber expected got)) :
    WrongVersion expected got (listedVersions iter) := by
  set sorted := sortSources (iter.filterMap classify) with hsorted
  obtain ⟨cs, entries, rest, hgroups, hcheck⟩ :=
    checkGroups_error (fun entries => isGroup_of_mem_groupSources) h
  obtain ⟨hexpected, hgot, hne⟩ := checkEntries_wrongVersion hcheck
  rw [Nat.zero_add] at hexpected hgroups
  have hflatten : sorted = sourcesOf 1 cs ++ (entries ++ rest.flatten) := by
    rw [← flatten_groupSources sorted, hgroups, List.flatten_append, List.flatten_cons, sourcesOf]
  have hlisted : listedVersions iter =
      (sorted.map MigrationSource.key : List (ℕ × MigrationSourceType)) :=
    Multiset.coe_eq_coe.mpr ((sortSources_perm _).symm.map _)
  have hstrict := groupSources_pairwise (sortSources_pairwise (iter.filterMap classify))
  have hgroup : ∀ group ∈ entries :: rest, IsGroup group := fun group hgroup =>
    isGroup_of_mem_groupSources (hgroups ▸ List.mem_append_right _ hgroup)
  rw [hgroups, List.pairwise_append, List.pairwise_cons] at hstrict
  -- the group found instead of the expected version is the least of the groups that are left
  have hleast : ∀ source ∈ entries ++ rest.flatten, got ≤ source.version := by
    intro source hsource
    rcases List.mem_append.mp hsource with hmem | hmem
    · rw [hgot, (hgroup entries List.mem_cons_self).2 source hmem]
    · obtain ⟨group, hrest, hmem⟩ := List.mem_flatten.mp hmem
      have hlt := hstrict.2.1.1 group hrest
      rw [(hgroup group (List.mem_cons_of_mem _ hrest)).2 source hmem]
      omega
  have hfar : expected = 1 ∨ expected < got := by
    rcases Nat.eq_zero_or_pos cs.length with hzero | hpos
    · left
      omega
    · right
      obtain ⟨last, hlast, hversion⟩ := exists_mem_groupsOf cs 1 (cs.length - 1) (by omega)
      have := hstrict.2.2 last hlast entries List.mem_cons_self
      omega
  have hfirst : ∀ source ∈ sourcesOf 1 cs, 1 ≤ source.version ∧ source.version < expected := by
    intro source hsource
    have := mem_sourcesOf hsource
    omega
  refine ⟨by omega, ?_, hne, ?_, by omega, ?_⟩
  · have hkept : ((sourcesOf 1 cs).map MigrationSource.key).filter
        (fun key => 1 ≤ key.1 ∧ key.1 < expected) =
        (sourcesOf 1 cs).map MigrationSource.key := by
      refine List.filter_eq_self.mpr fun key hkey => ?_
      obtain ⟨source, hsource, rfl⟩ := List.mem_map.mp hkey
      exact decide_eq_true (hfirst source hsource)
    have hdropped : ((entries ++ rest.flatten).map MigrationSource.key).filter
        (fun key => 1 ≤ key.1 ∧ key.1 < expected) = [] := by
      refine List.filter_eq_nil_iff.mpr fun key hkey => ?_
      obtain ⟨source, hsource, rfl⟩ := List.mem_map.mp hkey
      have := hleast source hsource
      rw [decide_eq_true_eq]
      simp only [MigrationSource.key]
      omega
    rw [hlisted, hflatten, Multiset.filter_coe, List.map_append, List.filter_append, hkept,
      hdropped, List.append_nil, show expected - 1 = cs.length by omega]
    exact isContiguous_sourcesOf cs
  · obtain ⟨hnil, hversion⟩ := hgroup entries List.mem_cons_self
    obtain ⟨source, hsource⟩ := List.exists_mem_of_ne_nil entries hnil
    refine ⟨source.key, ?_, by rw [hgot, ← hversion source hsource]; rfl⟩
    rw [hlisted, hflatten]
    exact Multiset.mem_coe.mpr (List.mem_map_of_mem (by simp [hsource]))
  · intro key hkey hout
    rw [hlisted, hflatten] at hkey
    obtain ⟨source, hsource, rfl⟩ := List.mem_map.mp (Multiset.mem_coe.mp hkey)
    rcases List.mem_append.mp hsource with hmem | hmem
    · exact absurd (hfirst source hmem) hout
    · exact hleast source hmem

/-! ## Acceptance -/

/-- **A folder of migrations is accepted exactly when it is a contiguous versioned sequence.**  The
list of migrations then has one entry for each version, which carries the files of that version; in
whatever order the files are listed, the list is the same, and so is the error but for the file it
names; and a wrong version number says which versions are there. -/
theorem migrationFolder_iff (embed : RustEmbed)
    (hget : ∀ filename ∈ embed.iter, (embed.get filename).isSome) :
    ((∃ ms, embed.migrations = .ok ms) ↔ ∃ n, IsContiguous n (listedVersions embed.iter)) ∧
    (∀ n ms, IsContiguous n (listedVersions embed.iter) → embed.migrations = .ok ms →
      ms.length = n ∧ ∀ i, (hi : i < ms.length) → Carries embed (i + 1) ms[i]) ∧
    (∀ iter', iter'.Perm embed.iter →
      (∀ ms, embed.migrations = .ok ms → RustEmbed.migrations ⟨iter', embed.get⟩ = .ok ms) ∧
      ∀ e, embed.migrations = .error e → ∃ e',
        RustEmbed.migrations ⟨iter', embed.get⟩ = .error e' ∧ e'.withoutPath = e.withoutPath) ∧
    ∀ expected got, embed.migrations = .error (.wrongVersionNumber expected got) →
      WrongVersion expected got (listedVersions embed.iter) := by
  have hlisted : listedVersions embed.iter = ((sortSources (embed.iter.filterMap classify)).map
      MigrationSource.key : List (ℕ × MigrationSourceType)) :=
    Multiset.coe_eq_coe.mpr ((sortSources_perm _).symm.map _)
  have haccept : ∀ n, IsContiguous n (listedVersions embed.iter) →
      ∃ cs, cs.length = n ∧ listMigrations embed.iter = .ok cs := by
    intro n hn
    rw [hlisted] at hn
    obtain ⟨cs, hlength, hcs⟩ := sourcesOf_of_isContiguous hn (sortSources_pairwise _)
    exact ⟨cs, hlength, listMigrations_iff.mpr hcs⟩
  refine ⟨⟨?_, ?_⟩, ?_, ?_, ?_⟩
  · rintro ⟨ms, hms⟩
    obtain ⟨cs, hcs, -⟩ := RustEmbed.migrations_eq_ok hms
    rw [listMigrations_iff] at hcs
    rw [hlisted, hcs]
    exact ⟨cs.length, isContiguous_sourcesOf cs⟩
  · rintro ⟨n, hn⟩
    obtain ⟨cs, -, hcs⟩ := haccept n hn
    exact RustEmbed.contents_eq_ok hget hcs
  · intro n ms hn hms
    obtain ⟨cs, hlength, hcs⟩ := haccept n hn
    obtain ⟨cs', hcs', hload⟩ := RustEmbed.migrations_eq_ok hms
    rw [hcs, Except.ok.injEq] at hcs'
    subst hcs'
    exact ⟨hload.length_eq.symm.trans hlength, fun i hi => RustEmbed.carries hms hi⟩
  · intro iter' hperm
    constructor
    · intro ms hms
      obtain ⟨contents, ⟨cs, hcs, hload⟩, rfl⟩ := RustEmbed.migrations_iff.mp hms
      exact RustEmbed.migrations_iff.mpr ⟨contents, ⟨cs, listMigrations_perm hperm hcs, hload⟩, rfl⟩
    · intro e he
      rw [RustEmbed.migrations_eq_error hget] at he
      have hsame := listMigrations_withoutPath hperm
      rw [he] at hsame
      cases h' : listMigrations iter' with
      | ok cs => rw [h'] at hsame; cases hsame
      | error e' =>
          refine ⟨e', by simp [RustEmbed.migrations, RustEmbed.contents, h'], ?_⟩
          rw [h'] at hsame
          simpa [withoutPaths, Except.mapError, Except.map] using hsame
  · intro expected got h
    rw [RustEmbed.migrations_eq_error hget] at h
    exact wrongVersion_of_listMigrations h

/-- A simple and a reversible version, with a file that is no migration. -/
def twoVersions : RustEmbed where
  iter := ["2_b.down.sql", "+01_a.sql", "notes.sql", "2_b.up.sql"]
  get := fun filename =>
    if filename = "+01_a.sql" then some [0x41]
    else if filename = "2_b.up.sql" then some [0x42]
    else some [0x43]

theorem migrationFolder_iff_twoVersions :
    twoVersions.migrations = .ok [⟨"A", none⟩, ⟨"B", some "C"⟩] ∧
      RustEmbed.migrations ⟨twoVersions.iter.reverse, twoVersions.get⟩ =
        .ok [⟨"A", none⟩, ⟨"B", some "C"⟩] :=
  have hlist : twoVersions.migrations = .ok [⟨"A", none⟩, ⟨"B", some "C"⟩] := by decide
  ⟨hlist, ((migrationFolder_iff twoVersions (by decide)).2.2.1 _
    (List.reverse_perm twoVersions.iter)).1 _ hlist⟩

end SqliteRwPool
