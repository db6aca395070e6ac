import SqliteRwPool.Rocket.Fairing

/-!
# When a rocket launches, and what its requests find

An application attaches fairings of this crate, for any number of databases.  Rocket runs them in
the order in which they were attached, each on the rocket that the one before left; then it asks the
sentinel of every guard in its routes; the launch is aborted by a fairing that fails and by a
sentinel that aborts.  A fairing is run in an environment of its own, since the ones before it and
the world outside may have changed the databases.  What else can fail a launch is not of this crate
and is left aside: colliding routes, a secret key that is missing, an address that cannot be bound.

* `run_ok_iff` — a fairing that succeeds manages one value, which it computes without looking at the
  rocket.
* `ignite_ok_iff` — the fairings together put in these values, one after the other.
* `Request.missing_eq_nil` — a rocket that manages the pools of some databases reports none of them
  missing, whatever a request does.
* `launches_iff` — with Rocket's checks, it launches exactly when every fairing gets its value,
  none of them is managed twice, and each database that the routes ask for has a pool from before or
  a fairing with migrations; and then its requests find that pool.
-/

namespace SqliteRwPool

open Fallible

/-- A fairing that is attached to a rocket: the one with migrations, or the one without. -/
structure Attached (σ : Type) where
  env : Environment σ
  migrations : Option RustEmbed
  db : String

section Ignition

variable {σ : Type}

def Attached.run (a : Attached σ) (rocket : Rocket) : Fallible Rocket Rocket :=
  match a.migrations with
  | none => fairing a.env a.db rocket
  | some embed => fairingWithMigrations a.env embed a.db rocket

/-- Run the attached fairings in order. -/
def ignite (attached : List (Attached σ)) (rocket : Rocket) : Fallible Rocket Rocket :=
  attached.foldlM (fun rocket a => a.run rocket) rocket

/-- Rocket's launch, up to where it serves: from the fairings attached to a rocket and the databases
that the guards in its routes ask for. -/
abbrev Launcher (σ : Type) : Type :=
  List (Attached σ) → List String → Rocket → Fallible Rocket Rocket

/-- A launch gets to serve exactly when the fairings all succeed, each run on the rocket that the
one before left, and no sentinel of a guard in a route aborts: the launches that fail for another
reason, outside fairings and sentinels, are left aside. -/
def Launcher.Checked (launch : Launcher σ) : Prop :=
  ∀ attached requested rocket rocket', launch attached requested rocket = .ok rocket' ↔
    ignite attached rocket = .ok rocket' ∧ ∀ db ∈ requested, sentinelAborts rocket' db = false

/-- The type of what a fairing manages. -/
def Attached.type (a : Attached σ) : TypeName :=
  match a.migrations with
  | none => .newResult a.db
  | some _ => .connectionPool a.db

/-- What a fairing has got when it comes to manage it. -/
def Attached.entry (a : Attached σ) : Fallible Error (Sigma TypeName.Value) :=
  match a.migrations with
  | none => do
      let config ← getConfig a.env a.db
      let result ← attempt (ConnectionPool.new a.env.r2d2 config)
      return ⟨.newResult a.db, result⟩
  | some embed => do
      let pool ← getPoolWithMigrationsImpl a.env embed a.db
      return ⟨.connectionPool a.db, pool⟩

/-- The fairing gets something to manage: without migrations, any result of `ConnectionPool::new`
will do. -/
def Attached.Ready (a : Attached σ) : Prop :=
  match a.migrations with
  | none => ∃ config, a.env.extract a.db = .ok config ∧
      ¬ Panics (ConnectionPool.new a.env.r2d2 config)
  | some embed => ∃ pool, getPoolWithMigrationsImpl a.env embed a.db = .ok pool

/-! ## The fairings -/

lemma Rocket.manage_ok_iff {ε : Type} {rocket rocket' : Rocket} {e : Sigma TypeName.Value} :
    rocket.manage e.1 e.2 = (.ok rocket' : Fallible ε Rocket) ↔
      rocket.state.get e.1 = none ∧ rocket.state.set e.1 e.2 = rocket'.state := by
  obtain ⟨state'⟩ := rocket'
  rw [Rocket.manage]
  split_ifs with h
  · simp [Option.isSome_iff_ne_none.mp h]
  · simp [Option.not_isSome_iff_eq_none.mp h]

lemma Attached.entry_type {a : Attached σ} {e : Sigma TypeName.Value} (h : a.entry = .ok e) :
    e.1 = a.type := by
  obtain ⟨env, migrations, db⟩ := a
  cases migrations with
  | none =>
      simp only [Attached.entry, bind_eq_ok] at h
      obtain ⟨config, -, result, -, hreturn⟩ := h
      cases hreturn
      rfl
  | some embed =>
      simp only [Attached.entry, bind_eq_ok] at h
      obtain ⟨pool, -, hreturn⟩ := h
      cases hreturn
      rfl

lemma getConfig_ok_iff {env : Environment σ} {db : String} {config : Config} :
    getConfig env db = .ok config ↔ env.extract db = .ok config := by
  rw [getConfig]
  rcases env.extract db with (e | -) | config' <;> simp [Fallible.mapError]

lemma Attached.ready_iff {a : Attached σ} : a.Ready ↔ ∃ e, a.entry = .ok e := by
  obtain ⟨env, migrations, db⟩ := a
  cases migrations with
  | none =>
      simp only [Attached.Ready, Attached.entry, bind_eq_ok, getConfig_ok_iff,
        attempt_eq_ok, ← exists_eq_ofExcept]
      constructor
      · rintro ⟨config, hconfig, result, hresult⟩
        exact ⟨_, config, hconfig, result, hresult, rfl⟩
      · rintro ⟨_, config, hconfig, result, hresult, -⟩
        exact ⟨config, hconfig, result, hresult⟩
  | some embed =>
      simp only [Attached.Ready, Attached.entry, bind_eq_ok]
      constructor
      · rintro ⟨pool, hpool⟩
        exact ⟨_, pool, hpool, rfl⟩
      · rintro ⟨_, pool, hpool, -⟩
        exact ⟨pool, hpool⟩

/-- **A fairing that succeeds manages one value, and does not look at the rocket before.** -/
theorem Attached.run_ok_iff {a : Attached σ} {rocket rocket' : Rocket} :
    a.run rocket = .ok rocket' ↔
      ∃ e, a.entry = .ok e ∧ rocket.manage e.1 e.2 = (.ok rocket' : Fallible Rocket Rocket) := by
  obtain ⟨env, migrations, db⟩ := a
  cases migrations with
  | none =>
      cases hconfig : getConfig env db with
      | error e => cases e <;> simp [Attached.run, Attached.entry, fairing, hconfig]
      | ok config =>
          simp only [Attached.run, Attached.entry, fairing, hconfig, ok_bind, bind_eq_ok,
            attempt_eq_ok]
          constructor
          · rintro ⟨result, hresult, hmanage⟩
            exact ⟨_, ⟨result, hresult, rfl⟩, hmanage⟩
          · rintro ⟨_, ⟨result, hresult, ⟨⟩⟩, hmanage⟩
            exact ⟨result, hresult, hmanage⟩
  | some embed =>
      cases hpool : getPoolWithMigrationsImpl env embed db with
      | error e => cases e <;> simp [Attached.run, Attached.entry, fairingWithMigrations, hpool]
      | ok pool =>
          simp only [Attached.run, Attached.entry, fairingWithMigrations, hpool, ok_bind]
          constructor
          · intro hmanage
            exact ⟨_, rfl, hmanage⟩
          · rintro ⟨_, ⟨⟩, hmanage⟩
            exact hmanage

/-- **The fairings together succeed exactly when their values can be put in**, one after the
other. -/
theorem ignite_ok_iff {attached : List (Attached σ)} : ∀ {rocket rocket' : Rocket},
    ignite attached rocket = .ok rocket' ↔
      ∃ entries, List.Forall₂ (fun a e => Attached.entry a = .ok e) attached entries ∧
        rocket.state.insertAll entries = some rocket'.state := by
  induction attached with
  | nil =>
      rintro ⟨state⟩ ⟨state'⟩
      simp [ignite, TypeMap.insertAll, pure, Except.pure]
  | cons a attached ih =>
      intro rocket rocket'
      rw [ignite, List.foldlM_cons, bind_eq_ok]
      constructor
      · rintro ⟨next, hrun, hrest⟩
        obtain ⟨e, he, hmanage⟩ := Attached.run_ok_iff.mp hrun
        obtain ⟨hmissing, hset⟩ := Rocket.manage_ok_iff.mp hmanage
        obtain ⟨entries, hentries, hinsert⟩ := ih.mp hrest
        refine ⟨e :: entries, .cons he hentries, ?_⟩
        rw [TypeMap.insertAll_cons_eq_some, hset]
        exact ⟨hmissing, hinsert⟩
      · rintro ⟨_, hentries, hinsert⟩
        cases hentries with
        | cons he hentries =>
            obtain ⟨hmissing, hinsert⟩ := TypeMap.insertAll_cons_eq_some.mp hinsert
            refine ⟨⟨_⟩, Attached.run_ok_iff.mpr ⟨_, he, ?_⟩, ih.mpr ⟨_, hentries, hinsert⟩⟩
            exact Rocket.manage_ok_iff.mpr ⟨hmissing, rfl⟩

lemma map_fst_of_entries {attached : List (Attached σ)} {entries : List (Sigma TypeName.Value)}
    (h : List.Forall₂ (fun a e => Attached.entry a = .ok e) attached entries) :
    entries.map Sigma.fst = attached.map Attached.type := by
  induction h with
  | nil => rfl
  | cons he _ ih => rw [List.map_cons, List.map_cons, Attached.entry_type he, ih]

lemma exists_entries_iff {attached : List (Attached σ)} :
    (∃ entries, List.Forall₂ (fun a e => Attached.entry a = .ok e) attached entries) ↔
      ∀ a ∈ attached, a.Ready := by
  simp only [Attached.ready_iff]
  induction attached with
  | nil => simp
  | cons a attached ih =>
      rw [List.forall_mem_cons, ← ih]
      constructor
      · rintro ⟨_, hentries⟩
        cases hentries with
        | cons he hentries => exact ⟨⟨_, he⟩, ⟨_, hentries⟩⟩
      · rintro ⟨⟨e, he⟩, entries, hentries⟩
        exact ⟨e :: entries, .cons he hentries⟩

/-- The fairings succeed exactly when each is ready and manages a type of its own. -/
lemma ignites_iff {attached : List (Attached σ)} {rocket : Rocket} :
    (∃ rocket', ignite attached rocket = .ok rocket') ↔
      (∀ a ∈ attached, a.Ready) ∧ (attached.map Attached.type).Nodup ∧
        ∀ a ∈ attached, rocket.state.get a.type = none := by
  have hinsert : ∀ entries, List.Forall₂ (fun a e => Attached.entry a = .ok e) attached entries →
      ((∃ state', rocket.state.insertAll entries = some state') ↔
        (attached.map Attached.type).Nodup ∧
          ∀ a ∈ attached, rocket.state.get a.type = none) := by
    intro entries hentries
    rw [TypeMap.insertAll_iff,
      ← List.forall_mem_map (P := fun type => rocket.state.get type = none),
      map_fst_of_entries hentries, List.forall_mem_map]
  simp only [ignite_ok_iff]
  constructor
  · rintro ⟨rocket', entries, hentries, hstate⟩
    exact ⟨exists_entries_iff.mp ⟨entries, hentries⟩, (hinsert entries hentries).mp ⟨_, hstate⟩⟩
  · rintro ⟨hready, hdistinct⟩
    obtain ⟨entries, hentries⟩ := exists_entries_iff.mpr hready
    obtain ⟨state', hstate⟩ := (hinsert entries hentries).mpr hdistinct
    exact ⟨⟨state'⟩, entries, hentries, hstate⟩

/-- What is managed then: what was there, and the values of the fairings. -/
lemma state_of_ignite {attached : List (Attached σ)} {rocket rocket' : Rocket}
    (h : ignite attached rocket = .ok rocket') (type : TypeName) (value : type.Value) :
    rocket'.state.get type = some value ↔ rocket.state.get type = some value ∨
      ∃ a ∈ attached, a.entry = .ok ⟨type, value⟩ := by
  obtain ⟨entries, hentries, hinsert⟩ := ignite_ok_iff.mp h
  rw [TypeMap.get_insertAll hinsert]
  refine or_congr_right ⟨fun hmem => ?_, ?_⟩
  · obtain ⟨i, hi, he⟩ := List.mem_iff_getElem.mp hmem
    have ha : i < attached.length := hentries.length_eq ▸ hi
    exact ⟨attached[i], List.getElem_mem ha, by rw [← he]; exact hentries.get ha hi⟩
  · rintro ⟨a, ha, hentry⟩
    obtain ⟨i, hi, rfl⟩ := List.mem_iff_getElem.mp ha
    have he : i < entries.length := hentries.length_eq ▸ hi
    have hsame := hentry.symm.trans (hentries.get hi he)
    rw [Except.ok.injEq] at hsame
    rw [hsame]
    exact List.getElem_mem he

lemma Attached.entry_some {a : Attached σ} {embed : RustEmbed} (h : a.migrations = some embed) :
    a.entry = (do
      let pool ← getPoolWithMigrationsImpl a.env embed a.db
      return ⟨.connectionPool a.db, pool⟩) := by
  simp only [Attached.entry, h]

lemma Attached.type_eq_connectionPool {a : Attached σ} {db : String} :
    a.type = .connectionPool db ↔ a.migrations.isSome ∧ a.db = db := by
  obtain ⟨env, migrations, db'⟩ := a
  cases migrations <;> simp [Attached.type]

/-- The pool of a database is there afterwards if it was, or if its fairing with migrations is one
of those attached. -/
lemma isSome_of_ignite {attached : List (Attached σ)} {rocket rocket' : Rocket}
    (h : ignite attached rocket = .ok rocket') (db : String) :
    (getPool rocket' db).isSome ↔ (getPool rocket db).isSome ∨
      ∃ a ∈ attached, a.migrations.isSome ∧ a.db = db := by
  rw [getPool, getPool, Option.isSome_iff_exists, Option.isSome_iff_exists]
  simp only [state_of_ignite h, exists_or, ← Attached.type_eq_connectionPool]
  refine or_congr_right ⟨?_, ?_⟩
  · rintro ⟨pool, a, ha, hentry⟩
    exact ⟨a, ha, (Attached.entry_type hentry).symm⟩
  · rintro ⟨a, ha, htype⟩
    obtain ⟨⟨type, value⟩, hentry⟩ := Attached.ready_iff.mp ((ignites_iff.mp ⟨_, h⟩).1 a ha)
    obtain rfl : type = .connectionPool db := (Attached.entry_type hentry).trans htype
    exact ⟨value, a, ha, hentry⟩

/-- No sentinel aborts when the pools of the requested databases are there. -/
lemma Launcher.Checked.ok_iff {launch : Launcher σ} (hchecked : launch.Checked)
    {attached : List (Attached σ)} {requested : List String} {rocket rocket' : Rocket} :
    launch attached requested rocket = .ok rocket' ↔
      ignite attached rocket = .ok rocket' ∧ ∀ db ∈ requested, (getPool rocket' db).isSome := by
  simp only [hchecked attached requested rocket rocket', sentinelAborts, getPool,
    Option.isNone_eq_false_iff]

end Ignition

/-! ## Requests -/

/-- What the handling of a request asks of the crate: a guard to read, or an event of the guards to
write. -/
inductive Demand
  | connector (db : String)
  | readConnection (db : String)
  | event (event : Event)
  deriving DecidableEq, Repr

def Guard.database : Guard → Option String
  | .writeAuthorization => none
  | .writeConnection db => some db
  | .authorizedConnector db => some db

/-- The database of the guard that is evaluated. -/
def Demand.database : Demand → Option String
  | .connector db => some db
  | .readConnection db => some db
  | .event (.evaluate guard) => guard.database
  | .event (.insertAuthorization _) => none
  | .event (.insertProof _) => none

/-- The database that is reported missing. -/
def Outcome.missing {S : Type} : Outcome S Error → Option String
  | .error _ (.missingDatabaseFairing db) => some db
  | _ => none

def Response.missing : Response → Option String
  | .authorization _ => none
  | .connection outcome => outcome.missing
  | .connector outcome => outcome.missing

section Requests

variable {τ : Type} (getters : Getters τ)

def Request.demand (request : Request τ) : Demand → Option String × Request τ
  | .connector db =>
      let (outcome, request) := Connector.fromRequest db request
      (outcome.missing, request)
  | .readConnection db =>
      let (outcome, request) := ReadConnection.fromRequest getters db request
      (outcome.missing, request)
  | .event event =>
      let (evaluations, request) := request.run getters [event]
      (evaluations.findSome? fun evaluation => evaluation.response.missing, request)

/-- The databases that are reported missing while a request is handled, in order. -/
def Request.missing : Request τ → List Demand → List String
  | _, [] => []
  | request, demand :: demands =>
      let (missing, request) := request.demand getters demand
      missing.toList ++ Request.missing request demands

lemma Outcome.missing_eq_none {S : Type} {outcome : Outcome S Error}
    (h : ¬ outcome.ReportsMissing) : outcome.missing = none := by
  rcases outcome with s | ⟨status, e⟩ | status
  · rfl
  · cases e
    case missingDatabaseFairing db => exact absurd ⟨status, db, rfl⟩ h
    all_goals rfl
  · rfl

lemma withPool_rocket {S : Type} (db : String)
    {f : ConnectionPool → Request τ → Outcome S Error × Request τ}
    (hf : ∀ pool request, (f pool request).2.rocket = request.rocket) (request : Request τ) :
    (withPool db f request).2.rocket = request.rocket := by
  rw [withPool]
  cases request.rocket.state.get (.connectionPool db) with
  | none => rfl
  | some pool => exact hf pool request

lemma withAuthorization_rocket {S : Type} (db : String)
    {f : ConnectionPool → WriteAuthorization → Request τ → Outcome S Error × Request τ}
    (hf : ∀ pool authorization request, (f pool authorization request).2.rocket = request.rocket)
    (request : Request τ) : (withAuthorization db f request).2.rocket = request.rocket := by
  rw [withAuthorization]
  rcases WriteAuthorization.fromRequest request.cache with ⟨outcome, cache⟩
  cases outcome with
  | success authorization => exact withPool_rocket db (fun pool => hf pool authorization) _
  | error status e => exact e.elim
  | forward status => rfl

/-- **No demand changes what is managed**, and none for a pool that is managed reports it
missing. -/
theorem Request.demand_spec (request : Request τ) (demand : Demand) :
    (request.demand getters demand).2.rocket = request.rocket ∧
      ((∀ db, demand.database = some db → (getPool request.rocket db).isSome) →
        (request.demand getters demand).1 = none) := by
  cases demand with
  | connector db =>
      refine ⟨withPool_rocket db (fun _ _ => rfl) request, fun h => ?_⟩
      have hguard := ((usable_of_state (h db rfl)).guards getters request rfl).1
      exact Outcome.missing_eq_none hguard
  | readConnection db =>
      refine ⟨?_, fun h => ?_⟩
      · show (ReadConnection.fromRequest getters db request).2.rocket = _
        exact withPool_rocket db (fun _ _ => rfl) request
      · have hguard := ((usable_of_state (h db rfl)).guards getters request rfl).2.1
        exact Outcome.missing_eq_none hguard
  | event event =>
      cases event with
      | insertAuthorization authorization => exact ⟨rfl, fun _ => rfl⟩
      | insertProof proof => exact ⟨rfl, fun _ => rfl⟩
      | evaluate guard =>
          cases guard with
          | writeAuthorization => exact ⟨rfl, fun _ => rfl⟩
          | writeConnection db =>
              refine ⟨withAuthorization_rocket db (fun _ _ _ => rfl) request, fun h => ?_⟩
              have hguard := ((usable_of_state (h db rfl)).guards getters request rfl).2.2.1
              simp [Request.demand, Request.run, Request.evaluate, Response.missing,
                Outcome.missing_eq_none hguard]
          | authorizedConnector db =>
              refine ⟨withAuthorization_rocket db (fun _ _ _ => rfl) request, fun h => ?_⟩
              have hguard := ((usable_of_state (h db rfl)).guards getters request rfl).2.2.2
              simp [Request.demand, Request.run, Request.evaluate, Response.missing,
                Outcome.missing_eq_none hguard]

/-- **A request whose pools are managed never reports one missing.** -/
theorem Request.missing_eq_nil {demands : List Demand} : ∀ {request : Request τ},
    (∀ demand ∈ demands, ∀ db, demand.database = some db → (getPool request.rocket db).isSome) →
      request.missing getters demands = [] := by
  induction demands with
  | nil => intros; rfl
  | cons demand demands ih =>
      intro request h
      rw [List.forall_mem_cons] at h
      obtain ⟨hrocket, hnone⟩ := request.demand_spec getters demand
      have hrest : (request.demand getters demand).2.missing getters demands = [] := by
        refine ih ?_
        rw [hrocket]
        exact h.2
      simp only [Request.missing, hnone h.1, hrest, Option.toList_none, List.nil_append]

end Requests

/-! ## The launch -/

/-- **When a rocket launches, and what its requests find.**  As far as fairings and sentinels
decide, it launches exactly when every attached fairing is ready, no two of them manage the same
type, nor one that is managed already, and each requested database has a pool from before or a
fairing with migrations; the pool that is managed then is the one that this fairing got for the
database, and no request, whatever it asks of the requested databases, reports one of them
missing. -/
theorem launches_iff {σ : Type} {launch : Launcher σ} (hchecked : launch.Checked)
    (attached : List (Attached σ)) (requested : List String) (rocket : Rocket) :
    ((∃ rocket', launch attached requested rocket = .ok rocket') ↔
      (∀ a ∈ attached, a.Ready) ∧ (attached.map Attached.type).Nodup ∧
      (∀ a ∈ attached, rocket.state.get a.type = none) ∧
      ∀ db ∈ requested, (getPool rocket db).isSome ∨
        ∃ a ∈ attached, a.migrations.isSome ∧ a.db = db) ∧
    ∀ rocket', launch attached requested rocket = .ok rocket' →
      (∀ a ∈ attached, ∀ embed, a.migrations = some embed →
        ∃ pool, getPoolWithMigrationsImpl a.env embed a.db = .ok pool ∧
          getPool rocket' a.db = some pool) ∧
      ∀ {τ : Type} (getters : Getters τ) (pools : τ) (demands : List Demand),
        (∀ demand ∈ demands, ∀ db, demand.database = some db → db ∈ requested) →
          (Request.new rocket' pools).missing getters demands = [] := by
  refine ⟨?_, fun rocket' hlaunch => ?_⟩
  · simp only [hchecked.ok_iff]
    constructor
    · rintro ⟨rocket', hignite, hall⟩
      obtain ⟨hready, hnodup, hfree⟩ := ignites_iff.mp ⟨rocket', hignite⟩
      exact ⟨hready, hnodup, hfree, fun db hdb => (isSome_of_ignite hignite db).mp (hall db hdb)⟩
    · rintro ⟨hready, hnodup, hfree, hall⟩
      obtain ⟨rocket', hignite⟩ := ignites_iff.mpr ⟨hready, hnodup, hfree⟩
      exact ⟨rocket', hignite, fun db hdb => (isSome_of_ignite hignite db).mpr (hall db hdb)⟩
  · obtain ⟨hignite, hall⟩ := hchecked.ok_iff.mp hlaunch
    refine ⟨fun a ha embed hembed => ?_, fun getters pools demands hdemands => ?_⟩
    · obtain ⟨e, hentry⟩ := Attached.ready_iff.mp ((ignites_iff.mp ⟨_, hignite⟩).1 a ha)
      have hsome := hentry
      rw [Attached.entry_some hembed, bind_eq_ok] at hsome
      obtain ⟨pool, hpool, ⟨⟩⟩ := hsome
      exact ⟨pool, hpool, (state_of_ignite hignite _ _).mpr (.inr ⟨a, ha, hentry⟩)⟩
    · exact Request.missing_eq_nil getters fun demand hdemand db hdb =>
        hall db (hdemands demand hdemand db hdb)

/-- Run the fairings, and then the sentinels. -/
def launchInOrder {σ : Type} : Launcher σ := fun attached requested rocket => do
  let rocket ← ignite attached rocket
  if requested.any (sentinelAborts rocket) then fail rocket else return rocket

lemma launchInOrder_checked {σ : Type} : (launchInOrder : Launcher σ).Checked := by
  intro attached requested rocket rocket'
  simp only [launchInOrder, bind_eq_ok]
  constructor
  · rintro ⟨next, hignite, hnext⟩
    split_ifs at hnext with hany
    cases hnext
    exact ⟨hignite, by simpa using hany⟩
  · rintro ⟨hignite, hall⟩
    refine ⟨rocket', hignite, if_neg ?_⟩
    simpa using hall

/-- Two databases, of which only the first has its fairing with migrations. -/
def mainAndLog : List (Attached Unit) :=
  [⟨succeeding, some ⟨[], fun _ => none⟩, "main"⟩, ⟨succeeding, none, "log"⟩]

/-- The rocket launches if its routes ask for the first, and a write guard for it does not report it
missing; it does not launch if they also ask for the second. -/
theorem launches_iff_mainAndLog :
    (∃ rocket', launchInOrder mainAndLog ["main"] ⟨.empty⟩ = .ok rocket' ∧
      ∀ getters : Getters ℕ, (Request.new rocket' 0).missing getters
        [.event (.insertProof (some .passedCsrfChecks)),
          .event (.evaluate (.writeConnection "main"))] = []) ∧
    ¬ ∃ rocket', launchInOrder mainAndLog ["main", "log"] ⟨.empty⟩ = .ok rocket' := by
  constructor
  · obtain ⟨hlaunches, hserves⟩ := launches_iff launchInOrder_checked mainAndLog ["main"] ⟨.empty⟩
    obtain ⟨rocket', hlaunch⟩ := hlaunches.mpr (by
      refine ⟨?_, by decide, fun _ _ => rfl, ?_⟩
      · simp only [mainAndLog, List.forall_mem_cons, List.not_mem_nil, false_imp_iff, implies_true,
          and_true]
        exact ⟨⟨_, rfl⟩, ⟨_, rfl, fun h => by cases h⟩⟩
      · simp [mainAndLog])
    refine ⟨rocket', hlaunch, fun getters => (hserves rocket' hlaunch).2 getters 0 _ ?_⟩
    simp [Demand.database, Guard.database]
  · rw [(launches_iff launchInOrder_checked mainAndLog ["main", "log"] ⟨.empty⟩).1]
    rintro ⟨-, -, -, hall⟩
    rcases hall "log" (by simp) with h | ⟨a, ha, hsome, hdb⟩
    · cases h
    · simp only [mainAndLog, List.mem_cons, List.not_mem_nil, or_false] at ha
      rcases ha with rfl | rfl
      · exact absurd hdb (by decide)
      · cases hsome

end SqliteRwPool
