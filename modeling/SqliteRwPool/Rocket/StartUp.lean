import SqliteRwPool.Rocket.Instance

/-!
# Configurations that make start-up panic

The numbers of a configuration go unchecked from figment into the builders of the two pools, whose
setters panic on values they reject: `PoolBuilder.Valid` are those they accept.  Building a pool
then panics on one more: it waits for its first connections until the time that comes of adding the
connection timeout to that of the clock, which overflows if the clock does not go so far.

* `ConnectionPool.new_panics_iff` — creating the pools panics exactly when a builder does that is
  reached.
* `startUp_iff` — which numbers of workers and which configurations make nothing panic.
-/

namespace SqliteRwPool

open Fallible

/-! ## Defaults -/

/-- `a * b` on `u32`: if it overflows, a panic in a build with overflow checks and otherwise the
lower bits. -/
def mulU32 (overflowChecks : Bool) (a b : ℕ) : Fallible Error ℕ :=
  if a * b < 2 ^ 32 then .ok (a * b)
  else if overflowChecks then Fallible.panic
  else .ok (a * b % 2 ^ 32)

/-- The default of `max_read_connections`, if the number of workers can be extracted. -/
def Config.defaultMaxReadConnections (overflowChecks : Bool) :
    Option ℕ → Fallible Error (Option ℕ)
  | none => .ok none
  | some workers => (mulU32 overflowChecks workers 4).map some

/-- What is set under `databases.<name>`, each value of the type of its field. -/
structure Settings where
  url : Option String
  minReadConnections : Option ℕ
  maxReadConnections : Option ℕ
  connectTimeout : Option ℕ
  idleTimeout : Option ℕ
  migrate : Option MigrationConfig
  deriving DecidableEq, Repr

/-- Join the defaults, which give way to what is set. -/
def Config.figment (overflowChecks : Bool) (workers : Option ℕ) (settings : Settings) :
    Fallible Error Settings := do
  let defaultMaxReadConnections ← Config.defaultMaxReadConnections overflowChecks workers
  return { settings with
    connectTimeout := settings.connectTimeout.or (some 5)
    maxReadConnections := settings.maxReadConnections.or defaultMaxReadConnections }

/-- `extract`, which fails when a field without a default is missing. -/
def Settings.extract (settings : Settings) : Option Config := do
  let url ← settings.url
  let maxReadConnections ← settings.maxReadConnections
  let connectTimeout ← settings.connectTimeout
  return ⟨url, settings.minReadConnections, maxReadConnections, connectTimeout,
    settings.idleTimeout, settings.migrate.getD ⟨none, none⟩⟩

/-! ## What the builders reject -/

/-- What r2d2's builder asserts. -/
structure PoolBuilder.Valid (builder : PoolBuilder) : Prop where
  maxSize : 0 < builder.maxSize
  minIdle : ∀ n ∈ builder.minIdle, n ≤ builder.maxSize
  connectionTimeout : 0 < builder.connectionTimeout
  idleTimeout : builder.idleTimeout ≠ some 0

instance : DecidablePred PoolBuilder.Valid := fun builder =>
  decidable_of_iff (0 < builder.maxSize ∧ (∀ n ∈ builder.minIdle, n ≤ builder.maxSize) ∧
      0 < builder.connectionTimeout ∧ builder.idleTimeout ≠ some 0)
    ⟨fun ⟨h₁, h₂, h₃, h₄⟩ => ⟨h₁, h₂, h₃, h₄⟩, fun ⟨h₁, h₂, h₃, h₄⟩ => ⟨h₁, h₂, h₃, h₄⟩⟩

/-- Builders panic on what they assert, and on a connection timeout that cannot be added to the time
at which they build: `maxTimeout` is how many seconds the clock has left then.  Memory or threads
that the system refuses are left aside. -/
def R2d2.Asserts (r2d2 : R2d2) (maxTimeout : PoolBuilder → ℕ) : Prop :=
  ∀ builder, Panics (r2d2.build builder) ↔
    ¬ (builder.Valid ∧ builder.connectionTimeout ≤ maxTimeout builder)

/-- The builders that `ConnectionPool::new` comes to: the one of the readers once there is a pool
of the writer. -/
def Config.builders (config : Config) (r2d2 : R2d2) : List PoolBuilder :=
  config.builder true ::
    match r2d2.build (config.builder true) with
    | .ok _ => [config.builder false]
    | .error _ => []

lemma createPool_eq (r2d2 : R2d2) (config : Config) (isWrite : Bool) :
    createPool r2d2 config isWrite = Fallible.mapError Error.poolCreation
      ((r2d2.build (config.builder isWrite)).map fun _ => Pool.mk (config.builder isWrite)) := rfl

lemma createPool_panics_iff (r2d2 : R2d2) (config : Config) (isWrite : Bool) :
    Panics (createPool r2d2 config isWrite) ↔ Panics (r2d2.build (config.builder isWrite)) := by
  rw [createPool_eq]
  rcases r2d2.build (config.builder isWrite) with (e | -) | u <;>
    simp [Panics, Except.map, Fallible.mapError]

lemma createPool_ok_iff (r2d2 : R2d2) (config : Config) (isWrite : Bool) :
    (∃ pool, createPool r2d2 config isWrite = .ok pool) ↔
      r2d2.build (config.builder isWrite) = .ok () := by
  rw [createPool_eq]
  rcases r2d2.build (config.builder isWrite) with (e | -) | u <;>
    simp [Except.map, Fallible.mapError]

lemma Config.mem_builders {config : Config} {r2d2 : R2d2} {builder : PoolBuilder} :
    builder ∈ config.builders r2d2 ↔ builder = config.builder true ∨
      r2d2.build (config.builder true) = .ok () ∧ builder = config.builder false := by
  rw [Config.builders, List.mem_cons]
  rcases r2d2.build (config.builder true) with e | u <;> simp

/-- **Creating the pools panics exactly when a builder does that is reached.** -/
theorem ConnectionPool.new_panics_iff (r2d2 : R2d2) (config : Config) :
    Panics (ConnectionPool.new r2d2 config) ↔
      ∃ builder ∈ config.builders r2d2, Panics (r2d2.build builder) := by
  have hnew : Panics (ConnectionPool.new r2d2 config) ↔
      Panics (createPool r2d2 config true) ∨
        (∃ writer, createPool r2d2 config true = .ok writer) ∧
          Panics (createPool r2d2 config false) := by
    simp only [Panics, ConnectionPool.new, bind_eq_error]
    constructor
    · rintro (hwriter | ⟨writer, hwriter, hreaders | ⟨readers, -, hpure⟩⟩)
      · exact Or.inl hwriter
      · exact Or.inr ⟨⟨writer, hwriter⟩, hreaders⟩
      · cases hpure
    · rintro (hwriter | ⟨⟨writer, hwriter⟩, hreaders⟩)
      · exact Or.inl hwriter
      · exact Or.inr ⟨writer, hwriter, Or.inl hreaders⟩
  rw [hnew, createPool_panics_iff, createPool_panics_iff, createPool_ok_iff]
  constructor
  · rintro (hwriter | ⟨hbuilt, hreaders⟩)
    · exact ⟨config.builder true, Config.mem_builders.mpr (Or.inl rfl), hwriter⟩
    · exact ⟨config.builder false, Config.mem_builders.mpr (Or.inr ⟨hbuilt, rfl⟩), hreaders⟩
  · rintro ⟨builder, hmem, hpanics⟩
    rcases Config.mem_builders.mp hmem with rfl | ⟨hbuilt, rfl⟩
    · exact Or.inl hpanics
    · exact Or.inr ⟨hbuilt, hpanics⟩

/-! ## Configurations -/

/-- An r2d2 that builds every pool whose builder does not panic. -/
def assertive (maxTimeout : PoolBuilder → ℕ) : R2d2 where
  build := fun builder =>
    if builder.Valid ∧ builder.connectionTimeout ≤ maxTimeout builder then .ok ()
    else Fallible.panic
  getTimeout := fun _ _ => .ok 0

lemma assertive_asserts (maxTimeout : PoolBuilder → ℕ) :
    (assertive maxTimeout).Asserts maxTimeout := by
  intro builder
  rw [assertive, Panics]
  dsimp only
  by_cases h : builder.Valid ∧ builder.connectionTimeout ≤ maxTimeout builder
  · simp [h]
  · simp [h]

lemma Config.defaultMaxReadConnections_eq_iff {overflowChecks : Bool} {workers : ℕ} :
    Config.defaultMaxReadConnections overflowChecks (some workers) = .ok (some (workers * 4)) ↔
      workers < 2 ^ 30 := by
  constructor
  · intro h
    simp only [Config.defaultMaxReadConnections, mulU32] at h
    split_ifs at h with hlt hchecks
    · omega
    · cases h
    · have hmod : workers * 4 % 2 ^ 32 = workers * 4 := Option.some.inj (Except.ok.inj h)
      have := Nat.mod_lt (workers * 4) (show 0 < 2 ^ 32 by decide)
      omega
  · intro h
    have hlt : workers * 4 < 2 ^ 32 := by omega
    rw [Config.defaultMaxReadConnections, mulU32, if_pos hlt]
    rfl

/-- The conditions on a configuration under which both builders accept it. -/
lemma Config.builders_valid_iff {config : Config} :
    ((config.builder true).Valid ∧ (config.builder false).Valid) ↔
      0 < config.connectTimeout ∧ config.idleTimeout ≠ some 0 ∧ 0 < config.maxReadConnections ∧
        ∀ n ∈ config.minReadConnections, n ≤ config.maxReadConnections := by
  constructor
  · rintro ⟨-, hmax, hmin, htimeout, hidle⟩
    exact ⟨htimeout, hidle, hmax, hmin⟩
  · rintro ⟨htimeout, hidle, hmax, hmin⟩
    refine ⟨⟨Nat.one_pos, fun n hn => ?_, htimeout, hidle⟩, ⟨hmax, hmin, htimeout, hidle⟩⟩
    cases hn
    exact le_rfl

/-- **Start-up does not panic exactly for the configurations within r2d2's bounds.**  The default is
computed without overflow and, whatever r2d2 makes of the writer's builder, each builder that is
reached is accepted and nothing panics, exactly when there are less than `2 ^ 30` workers, the
timeouts are positive and the connection timeout is no longer than the clock has left, and the
number of readers is positive and the minimum does not exceed it. -/
theorem startUp_iff (overflowChecks : Bool) (workers : ℕ) (config : Config)
    (maxTimeout : PoolBuilder → ℕ) :
    (Config.defaultMaxReadConnections overflowChecks (some workers) = .ok (some (workers * 4)) ∧
      ∀ r2d2 : R2d2, (∀ builder ∈ config.builders r2d2, builder.Valid) ∧
        (r2d2.Asserts maxTimeout → ¬ Panics (ConnectionPool.new r2d2 config))) ↔
    workers < 2 ^ 30 ∧ 0 < config.connectTimeout ∧
      (∀ isWrite, config.connectTimeout ≤ maxTimeout (config.builder isWrite)) ∧
      config.idleTimeout ≠ some 0 ∧ 0 < config.maxReadConnections ∧
      ∀ n ∈ config.minReadConnections, n ≤ config.maxReadConnections := by
  have hbounds : (0 < config.connectTimeout ∧
      (∀ isWrite, config.connectTimeout ≤ maxTimeout (config.builder isWrite)) ∧
      config.idleTimeout ≠ some 0 ∧ 0 < config.maxReadConnections ∧
      ∀ n ∈ config.minReadConnections, n ≤ config.maxReadConnections) ↔
      ((config.builder true).Valid ∧ (config.builder false).Valid) ∧
        ∀ isWrite, config.connectTimeout ≤ maxTimeout (config.builder isWrite) := by
    rw [Config.builders_valid_iff]
    tauto
  rw [Config.defaultMaxReadConnections_eq_iff, hbounds]
  refine and_congr_right fun _ => ⟨fun h => ?_, fun ⟨hvalid, hclock⟩ r2d2 => ?_⟩
  · obtain ⟨hreached, hquiet⟩ := h (assertive maxTimeout)
    have hbuilt : ∀ builder ∈ config.builders (assertive maxTimeout),
        (assertive maxTimeout).build builder = .ok () ∧
          builder.connectionTimeout ≤ maxTimeout builder := by
      intro builder hmem
      by_cases hclock : builder.connectionTimeout ≤ maxTimeout builder
      · exact ⟨if_pos ⟨hreached builder hmem, hclock⟩, hclock⟩
      · have hpanics := (assertive_asserts maxTimeout builder).mpr fun h => hclock h.2
        exact absurd ((ConnectionPool.new_panics_iff _ config).mpr ⟨builder, hmem, hpanics⟩)
          (hquiet (assertive_asserts maxTimeout))
    have hwriter : config.builder true ∈ config.builders (assertive maxTimeout) :=
      Config.mem_builders.mpr (Or.inl rfl)
    have hreaders : config.builder false ∈ config.builders (assertive maxTimeout) :=
      Config.mem_builders.mpr (Or.inr ⟨(hbuilt _ hwriter).1, rfl⟩)
    refine ⟨⟨hreached _ hwriter, hreached _ hreaders⟩, fun isWrite => ?_⟩
    cases isWrite with
    | true => exact (hbuilt _ hwriter).2
    | false => exact (hbuilt _ hreaders).2
  · have haccepted : ∀ builder ∈ config.builders r2d2,
        builder.Valid ∧ builder.connectionTimeout ≤ maxTimeout builder := by
      intro builder hmem
      rcases Config.mem_builders.mp hmem with rfl | ⟨-, rfl⟩
      · exact ⟨hvalid.1, hclock true⟩
      · exact ⟨hvalid.2, hclock false⟩
    refine ⟨fun builder hmem => (haccepted builder hmem).1, fun hasserts hpanics => ?_⟩
    obtain ⟨builder, hmem, hbuild⟩ := (ConnectionPool.new_panics_iff r2d2 config).mp hpanics
    exact (hasserts builder).mp hbuild (haccepted builder hmem)

/-- Five configurations that panic, the last on any clock whose seconds are signed and have 64 bits,
and a number of workers whose default panics or is zero. -/
theorem startUp_panics :
    Panics (ConnectionPool.new (assertive fun _ => 2 ^ 62) ⟨"a", none, 0, 5, none, ⟨none, none⟩⟩) ∧
    Panics (ConnectionPool.new (assertive fun _ => 2 ^ 62)
      ⟨"a", some 9, 8, 5, none, ⟨none, none⟩⟩) ∧
    Panics (ConnectionPool.new (assertive fun _ => 2 ^ 62) ⟨"a", none, 8, 0, none, ⟨none, none⟩⟩) ∧
    Panics (ConnectionPool.new (assertive fun _ => 2 ^ 62)
      ⟨"a", none, 8, 5, some 0, ⟨none, none⟩⟩) ∧
    Panics (ConnectionPool.new (assertive fun _ => 2 ^ 63 - 1)
      ⟨"a", none, 8, 2 ^ 64 - 1, none, ⟨none, none⟩⟩) ∧
    Panics (Config.defaultMaxReadConnections true (some (2 ^ 30))) ∧
    Config.defaultMaxReadConnections false (some (2 ^ 30)) = .ok (some 0) := by
  simp only [Panics]
  decide

/-- The defaults are within the bounds. -/
lemma Config.figment_defaults {overflowChecks : Bool} {workers : ℕ} (hpos : 0 < workers)
    (hlt : workers < 2 ^ 30) (url : String) :
    ∃ settings config, Config.figment overflowChecks (some workers)
        ⟨some url, none, none, none, none, none⟩ = .ok settings ∧
      settings.extract = some config ∧ (config.builder true).Valid ∧
        (config.builder false).Valid := by
  refine ⟨⟨some url, none, some (workers * 4), some 5, none, none⟩,
    ⟨url, none, workers * 4, 5, none, ⟨none, none⟩⟩, ?_, rfl, Config.builders_valid_iff.mpr ?_⟩
  · rw [Config.figment, Config.defaultMaxReadConnections_eq_iff.mpr hlt]
    rfl
  · exact ⟨Nat.succ_pos 4, nofun, by simpa using hpos, nofun⟩

end SqliteRwPool
