import SqliteRwPool.Migration.Folder

/-!
# Which error rejects a folder of migrations

`migrationFolder_iff` says which folders are accepted.  The others are rejected for their first
fault: at the first version from 1 on that is not one simple script or one up and one down script,
the files of that version decide the error and the file that it names, and if there are none, the
next version that there is.  Files of version 0 come before everything.

* `FaultAt` — the faults, read off the listing version by version.
* `FaultAt.unique` — a folder has one first fault at most.
* `folderErrors_iff` — `run_migrations` rejects a folder with exactly the error of its first fault.
-/

namespace SqliteRwPool

open Fallible

/-- What is wrong with the files of a version, which are given in the order of their types and,
among files of one type, of the listing. -/
inductive Malformed (version : ℕ) : List MigrationSource → MigrationError → Prop
  | wrongType {entry : MigrationSource} : entry.type ≠ .simple →
      Malformed version [entry] (.wrongTypeForSingleMigration entry.filename)
  | missingUp {first second : MigrationSource} : first.type ≠ .up →
      Malformed version [first, second] (.reversibleMigrationMissingUp first.filename)
  | missingDown {first second : MigrationSource} : first.type = .up → second.type ≠ .down →
      Malformed version [first, second] (.reversibleMigrationMissingDown second.filename)
  | tooMany {entries : List MigrationSource} : 3 ≤ entries.length →
      Malformed version entries (.tooManyMigrationsForVersion version entries.length)

/-- The versions below this one are those from 1 on, all well formed. -/
def ContiguousBelow (iter : List String) (version : ℕ) : Prop :=
  1 ≤ version ∧
    IsContiguous (version - 1) ((listedVersions iter).filter fun key => key.1 < version)

/-- The folder's first fault is at this version, and `e` tells it: there are files of version 0,
there is no file of the version but there are files of a later one, or the files of the version are
malformed. -/
inductive FaultAt (iter : List String) : ℕ → MigrationError → Prop
  | zero : versionSources iter 0 ≠ [] → FaultAt iter 0 (.wrongVersionNumber 1 0)
  | gap {version got : ℕ} : ContiguousBelow iter version → version < got →
      (∀ v, version ≤ v → v < got → versionSources iter v = []) → versionSources iter got ≠ [] →
      FaultAt iter version (.wrongVersionNumber version got)
  | malformed {version : ℕ} {e : MigrationError} : ContiguousBelow iter version →
      Malformed version (sortSources (versionSources iter version)) e → FaultAt iter version e

/-! ## Sorting the files of one version -/

lemma filter_orderedInsert {p : MigrationSource → Bool} (a : MigrationSource)
    {sources : List MigrationSource} (hsorted : sources.Pairwise MigrationSource.le) :
    (sources.orderedInsert MigrationSource.le a).filter p =
      if p a then (sources.filter p).orderedInsert MigrationSource.le a else sources.filter p := by
  induction sources with
  | nil => by_cases ha : p a <;> simp [ha]
  | cons b sources ih =>
      rw [List.pairwise_cons] at hsorted
      rw [List.orderedInsert_cons]
      by_cases hab : a.le b
      · rw [if_pos hab, List.filter_cons]
        split_ifs with ha
        · have hall : ∀ x ∈ (b :: sources).filter p, a.le x := by
            intro x hx
            rcases List.mem_cons.mp (List.mem_of_mem_filter hx) with rfl | hx
            · exact hab
            · exact IsTrans.trans _ _ _ hab (hsorted.1 x hx)
          cases hrest : (b :: sources).filter p with
          | nil => rfl
          | cons x rest =>
              rw [hrest] at hall
              rw [List.orderedInsert_cons, if_pos (hall x List.mem_cons_self)]
        · rfl
      · rw [if_neg hab, List.filter_cons, List.filter_cons, ih hsorted.2]
        by_cases hb : p b
        · simp only [hb, if_true, List.orderedInsert_cons, if_neg hab]
          split_ifs <;> rfl
        · simp only [hb, Bool.false_eq_true, if_false]

/-- Sorting is stable, so that sorting all files sorts the files of each version. -/
lemma filter_sortSources (p : MigrationSource → Bool) (sources : List MigrationSource) :
    (sortSources sources).filter p = sortSources (sources.filter p) := by
  induction sources with
  | nil => rfl
  | cons a sources ih =>
      have hinsert := filter_orderedInsert (p := p) a (sortSources_pairwise sources)
      rw [ih] at hinsert
      rw [List.filter_cons]
      refine Eq.trans hinsert ?_
      split_ifs <;> rfl

/-- The files of a version in their order. -/
lemma sortSources_versionSources (iter : List String) (version : ℕ) :
    sortSources (versionSources iter version) =
      (sortSources (iter.filterMap classify)).filter fun source => source.version = version := by
  rw [filter_sortSources]
  rfl

lemma sortSources_eq_nil {sources : List MigrationSource} :
    sortSources sources = [] ↔ sources = [] := by
  constructor
  · intro h
    have hperm := sortSources_perm sources
    rw [h] at hperm
    exact hperm.nil_eq.symm
  · rintro rfl
    rfl

/-! ## What a fault excludes -/

lemma mem_versionSources {iter : List String} {version : ℕ} {source : MigrationSource} :
    source ∈ versionSources iter version ↔
      source ∈ sortSources (iter.filterMap classify) ∧ source.version = version := by
  rw [versionSources, List.mem_filter, decide_eq_true_eq, (sortSources_perm _).mem_iff]

lemma listedVersions_eq (iter : List String) :
    listedVersions iter = ((sortSources (iter.filterMap classify)).map MigrationSource.key :
      List (ℕ × MigrationSourceType)) :=
  Multiset.coe_eq_coe.mpr ((sortSources_perm _).symm.map _)

/-- Below a fault, the sources are a list of migrations written out. -/
lemma ContiguousBelow.sources {iter : List String} {version : ℕ}
    (h : ContiguousBelow iter version) : ∃ cs, cs.length = version - 1 ∧
      (sortSources (iter.filterMap classify)).filter (fun source => source.version < version) =
        sourcesOf 1 cs := by
  obtain ⟨-, hcontiguous⟩ := h
  rw [listedVersions_eq, Multiset.filter_coe, List.filter_map] at hcontiguous
  exact sourcesOf_of_isContiguous hcontiguous ((sortSources_pairwise _).filter _)

lemma ContiguousBelow.filter {iter : List String} {version : ℕ} {cs : List MigrationContents}
    (h : (sortSources (iter.filterMap classify)).filter (fun source => source.version < version) =
      sourcesOf 1 cs) {v : ℕ} (hv : v < version) :
    sortSources (versionSources iter v) =
      (sourcesOf 1 cs).filter fun source => source.version = v := by
  rw [sortSources_versionSources, ← h, List.filter_filter]
  refine List.filter_congr fun source _ => ?_
  by_cases heq : source.version = v
  · simp [heq, hv]
  · simp [heq]

/-- Below a fault there are no files of version 0. -/
lemma ContiguousBelow.zero {iter : List String} {version : ℕ} (h : ContiguousBelow iter version) :
    versionSources iter 0 = [] := by
  obtain ⟨cs, -, hsources⟩ := h.sources
  refine sortSources_eq_nil.mp ?_
  rw [ContiguousBelow.filter hsources h.1]
  refine List.filter_eq_nil_iff.mpr fun source hsource => ?_
  have := (mem_sourcesOf hsource).1
  rw [decide_eq_true_eq]
  omega

/-- Below a fault the files of each version are those of a migration. -/
lemma ContiguousBelow.entries {iter : List String} {version : ℕ}
    (h : ContiguousBelow iter version) {v : ℕ} (hpos : 1 ≤ v) (hv : v < version) :
    ∃ c, sortSources (versionSources iter v) = MigrationContents.entries v c := by
  obtain ⟨cs, hlength, hsources⟩ := h.sources
  have hlt : v - 1 < cs.length := by omega
  have hentries := @filter_sourcesOf cs 1 (v - 1) hlt
  rw [show 1 + (v - 1) = v by omega] at hentries
  exact ⟨cs[v - 1], (ContiguousBelow.filter hsources hv).trans hentries⟩

lemma Malformed.ne_nil {version : ℕ} {entries : List MigrationSource} {e : MigrationError}
    (h : Malformed version entries e) : entries ≠ [] := by
  rintro rfl
  cases h with
  | tooMany hlength => simp at hlength

/-- The files of a migration are not malformed. -/
lemma not_malformed_entries (version : ℕ) (c : MigrationContents) (e : MigrationError) :
    ¬ Malformed version (c.entries version) e := by
  intro h
  cases c with
  | simple path =>
      cases h with
      | wrongType htype => exact htype rfl
      | tooMany hlength => simp [MigrationContents.entries] at hlength
  | reversible up down =>
      cases h with
      | missingUp htype => exact htype rfl
      | missingDown _ htype => exact htype rfl
      | tooMany hlength => simp [MigrationContents.entries] at hlength

lemma Malformed.unique {version : ℕ} {entries : List MigrationSource} {e e' : MigrationError}
    (h : Malformed version entries e) (h' : Malformed version entries e') : e = e' := by
  cases h with
  | wrongType htype =>
      cases h' with
      | wrongType _ => rfl
      | tooMany hlength => simp at hlength
  | missingUp htype =>
      cases h' with
      | missingUp _ => rfl
      | missingDown hup _ => exact absurd hup htype
      | tooMany hlength => simp at hlength
  | missingDown hup htype =>
      cases h' with
      | missingUp hup' => exact absurd hup hup'
      | missingDown _ _ => rfl
      | tooMany hlength => simp at hlength
  | tooMany hlength =>
      cases h' with
      | wrongType _ => simp at hlength
      | missingUp _ => simp at hlength
      | missingDown _ _ => simp at hlength
      | tooMany _ => rfl

/-- There is no fault at a version below one up to which the folder is contiguous. -/
lemma FaultAt.not_below {iter : List String} {v version : ℕ} {e : MigrationError}
    (h : FaultAt iter v e) (hbelow : ContiguousBelow iter version) : ¬ v < version := by
  intro hlt
  cases h with
  | zero hsome => exact hsome hbelow.zero
  | gap hv hgot hempty _ =>
      obtain ⟨c, hentries⟩ := hbelow.entries hv.1 hlt
      rw [hempty v (Nat.le_refl v) hgot] at hentries
      exact MigrationContents.entries_ne_nil v c hentries.symm
  | malformed hv hmalformed =>
      obtain ⟨c, hentries⟩ := hbelow.entries hv.1 hlt
      rw [hentries] at hmalformed
      exact not_malformed_entries v c e hmalformed

lemma FaultAt.below {iter : List String} {v : ℕ} {e : MigrationError} (h : FaultAt iter v e) :
    v = 0 ∨ ContiguousBelow iter v := by
  cases h with
  | zero _ => exact Or.inl rfl
  | gap hbelow _ _ _ => exact Or.inr hbelow
  | malformed hbelow _ => exact Or.inr hbelow

/-- **A folder has one first fault at most.** -/
theorem FaultAt.unique {iter : List String} {v v' : ℕ} {e e' : MigrationError}
    (h : FaultAt iter v e) (h' : FaultAt iter v' e') : v = v' ∧ e = e' := by
  have hle : ∀ {v v' : ℕ} {e e' : MigrationError}, FaultAt iter v e → FaultAt iter v' e' →
      v' ≤ v := by
    intro v v' e e' h h'
    rcases h'.below with rfl | hbelow
    · exact Nat.zero_le v
    · exact not_lt.mp (h.not_below hbelow)
  have heq : v = v' := Nat.le_antisymm (hle h' h) (hle h h')
  subst heq
  refine ⟨rfl, ?_⟩
  cases h with
  | zero _ =>
      cases h' with
      | zero _ => rfl
      | gap hzero _ _ _ => exact absurd hzero.1 (by decide)
      | malformed hzero _ => exact absurd hzero.1 (by decide)
  | gap hbelow hgot hempty hsome =>
      rename_i got
      cases h' with
      | zero _ => exact absurd hbelow.1 (by decide)
      | gap _ hgot' hempty' hsome' =>
          rename_i got' _
          have hsame : got = got' := by
            rcases Nat.lt_trichotomy got got' with hlt | heq | hlt
            · exact absurd (hempty' got (by omega) hlt) hsome
            · exact heq
            · exact absurd (hempty got' (by omega) hlt) hsome'
          rw [hsame]
      | malformed _ hmalformed =>
          rw [hempty v (Nat.le_refl v) hgot] at hmalformed
          exact absurd rfl hmalformed.ne_nil
  | malformed hbelow hmalformed =>
      cases h' with
      | zero _ => exact absurd hbelow.1 (by decide)
      | gap _ hgot hempty _ =>
          rw [hempty v (Nat.le_refl v) hgot] at hmalformed
          exact absurd rfl hmalformed.ne_nil
      | malformed _ hmalformed' => exact hmalformed.unique hmalformed'

/-! ## The error of the first fault -/

/-- What `checkEntries` says of a group that it rejects. -/
lemma checkEntries_error {index : ℕ} {entries : List MigrationSource} {e : MigrationError}
    (hgroup : IsGroup entries)
    (h : checkEntries index (groupVersion entries) entries = .error e) :
    (groupVersion entries ≠ index + 1 ∧
        e = .wrongVersionNumber (index + 1) (groupVersion entries)) ∨
      (groupVersion entries = index + 1 ∧ Malformed (index + 1) entries e) := by
  simp only [checkEntries] at h
  split_ifs at h with hindex
  · cases h
    exact Or.inl ⟨by omega, rfl⟩
  · have hversion : groupVersion entries = index + 1 := by omega
    refine Or.inr ⟨hversion, ?_⟩
    rcases entries with _ | ⟨first, _ | ⟨second, _ | ⟨third, rest⟩⟩⟩
    · exact absurd rfl hgroup.1
    · simp only at h
      split_ifs at h with htype
      cases h
      exact .wrongType htype
    · simp only at h
      split_ifs at h with hup hdown
      · cases h
        exact .missingUp hup
      · cases h
        exact .missingDown (not_not.mp hup) hdown
    · cases h
      rw [hversion]
      exact .tooMany (by simp)

/-- The sorted sources, split at a group: the versions `1, 2, …` before it, and later ones after
it. -/
structure SplitAt (iter : List String) (cs : List MigrationContents)
    (entries later : List MigrationSource) : Prop where
  sorted : sortSources (iter.filterMap classify) = sourcesOf 1 cs ++ (entries ++ later)
  group : IsGroup entries
  later : ∀ source ∈ later, groupVersion entries < source.version

section SplitAt

variable {iter : List String} {cs : List MigrationContents} {entries later : List MigrationSource}

lemma lt_of_mem_sourcesOf_one {source : MigrationSource} (h : source ∈ sourcesOf 1 cs) :
    source.version < cs.length + 1 := by
  have := mem_sourcesOf h
  omega

lemma SplitAt.ne_nil (h : SplitAt iter cs entries later) :
    versionSources iter (groupVersion entries) ≠ [] := by
  obtain ⟨source, hsource⟩ := List.exists_mem_of_ne_nil entries h.group.1
  refine List.ne_nil_of_mem (mem_versionSources.mpr ⟨?_, h.group.2 source hsource⟩)
  rw [h.sorted]
  exact List.mem_append_right _ (List.mem_append_left _ hsource)

/-- What comes from the group on is of no earlier version. -/
lemma SplitAt.le_of_mem (h : SplitAt iter cs entries later) {source : MigrationSource}
    (hsource : source ∈ entries ++ later) : groupVersion entries ≤ source.version := by
  rcases List.mem_append.mp hsource with hmem | hmem
  · rw [h.group.2 source hmem]
  · exact Nat.le_of_lt (h.later source hmem)

/-- What comes before the group is contiguous. -/
lemma SplitAt.contiguousBelow (h : SplitAt iter cs entries later)
    (hfar : cs.length < groupVersion entries) : ContiguousBelow iter (cs.length + 1) := by
  refine ⟨by omega, ?_⟩
  have hkept : (sourcesOf 1 cs).filter (fun source => source.version < cs.length + 1) =
      sourcesOf 1 cs :=
    List.filter_eq_self.mpr fun source hsource => decide_eq_true (lt_of_mem_sourcesOf_one hsource)
  have hdropped : (entries ++ later).filter (fun source => source.version < cs.length + 1) =
      [] := by
    refine List.filter_eq_nil_iff.mpr fun source hsource => ?_
    have := h.le_of_mem hsource
    rw [decide_eq_true_eq]
    omega
  have hfilter : (sortSources (iter.filterMap classify)).filter
      (fun source => source.version < cs.length + 1) = sourcesOf 1 cs := by
    rw [h.sorted, List.filter_append, hkept, hdropped, List.append_nil]
  rw [listedVersions_eq, Multiset.filter_coe, List.filter_map, Nat.add_sub_cancel]
  have hkeys := isContiguous_sourcesOf cs
  rw [← hfilter] at hkeys
  exact hkeys

/-- There is nothing between what comes before the group and the group. -/
lemma SplitAt.gap (h : SplitAt iter cs entries later) {version : ℕ}
    (hversion : cs.length + 1 ≤ version) (hlt : version < groupVersion entries) :
    versionSources iter version = [] := by
  refine List.eq_nil_iff_forall_not_mem.mpr fun source hsource => ?_
  obtain ⟨hmem, rfl⟩ := mem_versionSources.mp hsource
  rw [h.sorted] at hmem
  rcases List.mem_append.mp hmem with hmem | hmem
  · have := lt_of_mem_sourcesOf_one hmem
    omega
  · have := h.le_of_mem hmem
    omega

/-- The group is what there is of its version. -/
lemma SplitAt.entries_eq (h : SplitAt iter cs entries later)
    (hversion : groupVersion entries = cs.length + 1) :
    sortSources (versionSources iter (cs.length + 1)) = entries := by
  have hbefore : (sourcesOf 1 cs).filter (fun source => source.version = cs.length + 1) = [] := by
    refine List.filter_eq_nil_iff.mpr fun source hsource => ?_
    have := lt_of_mem_sourcesOf_one hsource
    rw [decide_eq_true_eq]
    omega
  have hself : entries.filter (fun source => source.version = cs.length + 1) = entries := by
    refine List.filter_eq_self.mpr fun source hsource => decide_eq_true ?_
    rw [h.group.2 source hsource, hversion]
  have hafter : later.filter (fun source => source.version = cs.length + 1) = [] := by
    refine List.filter_eq_nil_iff.mpr fun source hsource => ?_
    have := h.later source hsource
    rw [decide_eq_true_eq]
    omega
  rw [sortSources_versionSources, h.sorted, List.filter_append, List.filter_append, hbefore, hself,
    hafter, List.append_nil, List.nil_append]

/-- A listing that is rejected is split at the first group that is: it is of version 0, or comes
after all that are accepted. -/
lemma exists_splitAt {e : MigrationError} (h : listMigrations iter = .error e) :
    ∃ cs entries later, SplitAt iter cs entries later ∧
      checkEntries cs.length (groupVersion entries) entries = .error e ∧
      (cs = [] ∧ groupVersion entries = 0 ∨ cs.length < groupVersion entries) := by
  obtain ⟨cs, entries, rest, hgroups, hcheck⟩ :=
    checkGroups_error (fun entries => isGroup_of_mem_groupSources) h
  rw [Nat.zero_add] at hgroups hcheck
  have hgroup : ∀ group ∈ entries :: rest, IsGroup group := fun group hmem =>
    isGroup_of_mem_groupSources (hgroups ▸ List.mem_append_right _ hmem)
  have hstrict := groupSources_pairwise (sortSources_pairwise (iter.filterMap classify))
  rw [hgroups, List.pairwise_append, List.pairwise_cons] at hstrict
  refine ⟨cs, entries, rest.flatten, ⟨?_, hgroup entries List.mem_cons_self, ?_⟩, hcheck, ?_⟩
  · rw [← flatten_groupSources (sortSources _), hgroups, List.flatten_append, List.flatten_cons,
      sourcesOf]
  · intro source hsource
    obtain ⟨group, hmem, hsource⟩ := List.mem_flatten.mp hsource
    rw [(hgroup group (List.mem_cons_of_mem _ hmem)).2 source hsource]
    exact hstrict.2.1.1 group hmem
  · rcases Nat.eq_zero_or_pos cs.length with hzero | hpos
    · rcases Nat.eq_zero_or_pos (groupVersion entries) with hversion | hversion
      · exact Or.inl ⟨List.length_eq_zero_iff.mp hzero, hversion⟩
      · exact Or.inr (by omega)
    · obtain ⟨last, hlast, hversion⟩ := exists_mem_groupsOf cs 1 (cs.length - 1) (by omega)
      have := hstrict.2.2 last hlast entries List.mem_cons_self
      exact Or.inr (by omega)

end SplitAt

/-- A listing that is rejected is so for its first fault. -/
lemma faultAt_of_listMigrations {iter : List String} {e : MigrationError}
    (h : listMigrations iter = .error e) : ∃ version, FaultAt iter version e := by
  obtain ⟨cs, entries, later, hsplit, hcheck, hfar⟩ := exists_splitAt h
  have hsome := hsplit.ne_nil
  rcases hfar with ⟨rfl, hversion⟩ | hfar
  · rw [hversion] at hsome
    rcases checkEntries_error hsplit.group hcheck with ⟨-, rfl⟩ | ⟨hone, -⟩
    · rw [hversion]
      exact ⟨0, .zero hsome⟩
    · rw [hversion] at hone
      cases hone
  · have hbelow := hsplit.contiguousBelow hfar
    rcases checkEntries_error hsplit.group hcheck with ⟨hne, rfl⟩ | ⟨hversion, hmalformed⟩
    · exact ⟨cs.length + 1, .gap hbelow (by omega) (fun v hv hlt => hsplit.gap hv hlt) hsome⟩
    · refine ⟨cs.length + 1, .malformed hbelow ?_⟩
      rw [hsplit.entries_eq hversion]
      exact hmalformed

/-- A folder that is accepted has no fault. -/
lemma FaultAt.not_accepted {iter : List String} {version : ℕ} {e : MigrationError}
    (h : FaultAt iter version e) (cs : List MigrationContents) : listMigrations iter ≠ .ok cs := by
  intro hok
  rw [listMigrations_iff] at hok
  have hall : (sourcesOf 1 cs).filter (fun source => source.version < cs.length + 1) =
      sourcesOf 1 cs := by
    refine List.filter_eq_self.mpr fun source hsource => decide_eq_true ?_
    have := (mem_sourcesOf hsource).2
    omega
  have hbelow : ContiguousBelow iter (cs.length + 1) := by
    refine ⟨by omega, ?_⟩
    rw [listedVersions_eq, Multiset.filter_coe, List.filter_map, hok, Nat.add_sub_cancel]
    have hkeys := isContiguous_sourcesOf cs
    rw [← hall] at hkeys
    exact hkeys
  have hempty : ∀ v, cs.length < v → versionSources iter v = [] := by
    intro v hv
    refine List.eq_nil_iff_forall_not_mem.mpr fun source hsource => ?_
    obtain ⟨hmem, rfl⟩ := mem_versionSources.mp hsource
    rw [hok] at hmem
    have := (mem_sourcesOf hmem).2
    omega
  have hfar := h.not_below hbelow
  cases h with
  | zero _ => omega
  | gap _ hgot _ hsome => exact hsome (hempty _ (by omega))
  | malformed _ hmalformed =>
      rw [hempty version (by omega)] at hmalformed
      exact hmalformed.ne_nil rfl

/-- **A folder is rejected with the error of its first fault**, and with no other: the error names
the first version that is missing or malformed, and the file that makes it so. -/
theorem folderErrors_iff (embed : RustEmbed)
    (hget : ∀ filename ∈ embed.iter, (embed.get filename).isSome) (e : MigrationError) :
    embed.migrations = .error e ↔ ∃ version, FaultAt embed.iter version e := by
  rw [RustEmbed.migrations_eq_error hget]
  refine ⟨faultAt_of_listMigrations, ?_⟩
  rintro ⟨version, hfault⟩
  cases hlist : listMigrations embed.iter with
  | ok cs => exact absurd hlist (hfault.not_accepted cs)
  | error e' =>
      obtain ⟨version', hfault'⟩ := faultAt_of_listMigrations hlist
      rw [(hfault'.unique hfault).2]

/-- A folder whose second version has two up scripts, and whose fourth has no neighbour. -/
def twoUps : RustEmbed where
  iter := ["4_d.sql", "2_c.up.sql", "1_a.sql", "2_b.up.sql"]
  get := fun _ => some []

theorem folderErrors_iff_twoUps :
    twoUps.migrations = .error (.reversibleMigrationMissingDown "2_b.up.sql") ∧
      ∃ version, FaultAt twoUps.iter version (.reversibleMigrationMissingDown "2_b.up.sql") :=
  have herror : twoUps.migrations = .error (.reversibleMigrationMissingDown "2_b.up.sql") := by
    decide
  ⟨herror, (folderErrors_iff twoUps (by decide) _).mp herror⟩

end SqliteRwPool
