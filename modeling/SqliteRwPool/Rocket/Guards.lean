import SqliteRwPool.Rocket.Instance

/-!
# Request guards, and the authorization to write

`Connector` and `ReadConnection` are given to every request; `WriteConnection` and
`AuthorizedConnector` only to one whose `WriteAuthorization` guard succeeds.  That guard decides by
the request's local cache: if the authorization is not cached yet, it is taken from the cached
CSRF proof, and a request without one is cached as unauthorized, under the value that is meant for
background jobs.  Caching it is what makes the decision final: a proof that comes later is not
looked at.

A request is modelled as a list of events, in any order: evaluations of the three write guards, for
any database, and attempts of other code to put values into the two cells.  What `get_read` and
`get_write` do to the pools is a parameter.

The decision that an evaluation reached is read off what the guard answered: a guard denies by
`Forward` or by `Unauthorized`, and answers otherwise when it does not.

* `evaluate_of_denied`, `evaluate_of_granted` — what one evaluation answers and does, without an
  authorization and with one.
* `writeGuardsFailClosed` — all evaluations of a request decide alike, by what the cells held before
  the first of them; when they deny, no guard hands out a way to write or calls `get_write`.
-/

namespace SqliteRwPool

/-- The values of `http::Status` that the guards use. -/
inductive Status
  | ok
  | serviceUnavailable
  | internalServerError
  deriving DecidableEq, Repr

/-- `request::Outcome`. -/
inductive Outcome (S E : Type)
  | success (s : S)
  | error (status : Status) (e : E)
  | forward (status : Status)
  deriving DecidableEq, Repr

def Outcome.isSuccess {S E : Type} : Outcome S E → Bool
  | .success _ => true
  | _ => false

/-- `IntoOutcome::or_forward` of a `Result`. -/
def Outcome.orForward {S E : Type} (result : Except E S) (status : Status) : Outcome S E :=
  match result with
  | .ok s => .success s
  | .error _ => .forward status

inductive WriteAuthorization
  | passedCsrfChecks
  | iPromiseThisIsABackgroundJobNotTiedToARequest
  | thisIsALoggingEndpointAndSafeToWriteWithoutProtection
  deriving DecidableEq, Repr

/-- `rocket_csrf_guard::CsrfCheckProof`. -/
inductive CsrfCheckProof
  | passedCsrfChecks
  deriving DecidableEq, Repr

/-- `WriteAuthorization::from`. -/
def WriteAuthorization.ofProof : CsrfCheckProof → WriteAuthorization
  | .passedCsrfChecks => .passedCsrfChecks

/-! ## A request -/

/-- The types the guards keep in a request's local cache. -/
inductive CacheType
  | writeAuthorization
  | optionCsrfCheckProof
  deriving DecidableEq, Repr

@[reducible] def CacheType.Value : CacheType → Type
  | .writeAuthorization => WriteAuthorization
  | .optionCsrfCheckProof => Option CsrfCheckProof

abbrev LocalCache := TypeMap CacheType.Value

/-- What `get_read` and `get_write` of the pool of a database do to the state `σ` of all pools. -/
structure Getters (σ : Type) where
  getRead : String → ConnectionPool → σ → Except Error Conn × σ
  getWrite : String → ConnectionPool → WriteAuthorization → σ → Except Error Conn × σ

/-- A request, with the state of the pools and the calls of `get_write` made for it. -/
structure Request (σ : Type) where
  rocket : Rocket
  cache : LocalCache
  pools : σ
  writeCalls : List (String × WriteAuthorization)

/-- A request that arrives. -/
def Request.new {σ : Type} (rocket : Rocket) (pools : σ) : Request σ :=
  ⟨rocket, .empty, pools, []⟩

structure Connector where
  pool : ConnectionPool
  deriving DecidableEq, Repr

structure ReadConnection where
  connection : Conn
  deriving DecidableEq, Repr

structure WriteConnection where
  connection : Conn
  deriving DecidableEq, Repr

structure AuthorizedConnector where
  pool : ConnectionPool
  authorization : WriteAuthorization
  deriving DecidableEq, Repr

/-! ## The guards -/

/-- `request.local_cache(|| None)`. -/
def cachedProof (cache : LocalCache) : Option CsrfCheckProof × LocalCache :=
  cache.getOrInit .optionCsrfCheckProof fun cache => (none, cache)

/-- What the authorization is initialised to if it is not set. -/
def proofAuthorization (cache : LocalCache) : WriteAuthorization × LocalCache :=
  ((cachedProof cache).1.elim .iPromiseThisIsABackgroundJobNotTiedToARequest .ofProof,
    (cachedProof cache).2)

def cachedAuthorization (cache : LocalCache) : WriteAuthorization × LocalCache :=
  cache.getOrInit .writeAuthorization proofAuthorization

/-- `WriteAuthorization::from_request`. -/
def WriteAuthorization.fromRequest (cache : LocalCache) :
    Outcome WriteAuthorization Empty × LocalCache :=
  let (cached, cache) := cachedAuthorization cache
  if cached = .iPromiseThisIsABackgroundJobNotTiedToARequest then (.forward .ok, cache)
  else (.success cached, cache)

/-- Look up the pool of a database in the managed state and go on with it. -/
def withPool {σ S : Type} (db : String)
    (f : ConnectionPool → Request σ → Outcome S Error × Request σ) (request : Request σ) :
    Outcome S Error × Request σ :=
  match request.rocket.state.get (.connectionPool db) with
  | some pool => f pool request
  | none => (.error .internalServerError (.missingDatabaseFairing db), request)

/-- Evaluate `WriteAuthorization` and go on with the pool if it succeeds. -/
def withAuthorization {σ S : Type} (db : String)
    (f : ConnectionPool → WriteAuthorization → Request σ → Outcome S Error × Request σ)
    (request : Request σ) : Outcome S Error × Request σ :=
  let (outcome, cache) := WriteAuthorization.fromRequest request.cache
  match outcome with
  | .success authorization =>
      withPool db (fun pool => f pool authorization) { request with cache := cache }
  | .error status _ => (.error status .unauthorized, { request with cache := cache })
  | .forward _ => (.error .internalServerError .unauthorized, { request with cache := cache })

section Guards

variable {σ : Type} (getters : Getters σ)

def Connector.fromRequest (db : String) : Request σ → Outcome Connector Error × Request σ :=
  withPool db fun pool request => (.success ⟨pool⟩, request)

def ReadConnection.fromRequest (db : String) :
    Request σ → Outcome ReadConnection Error × Request σ :=
  withPool db fun pool request =>
    let (result, pools) := getters.getRead db pool request.pools
    (.orForward (result.map ReadConnection.mk) .serviceUnavailable,
      { request with pools := pools })

def WriteConnection.fromRequest (db : String) :
    Request σ → Outcome WriteConnection Error × Request σ :=
  withAuthorization db fun pool authorization request =>
    let (result, pools) := getters.getWrite db pool authorization request.pools
    (.orForward (result.map WriteConnection.mk) .serviceUnavailable,
      { request with
        pools := pools
        writeCalls := request.writeCalls ++ [(db, authorization)] })

def AuthorizedConnector.fromRequest (db : String) :
    Request σ → Outcome AuthorizedConnector Error × Request σ :=
  withAuthorization db fun pool authorization request => (.success ⟨pool, authorization⟩, request)

/-! ## Histories of a request -/

/-- The guards that ask for the authorization to write. -/
inductive Guard
  | writeAuthorization
  | writeConnection (db : String)
  | authorizedConnector (db : String)
  deriving DecidableEq, Repr

/-- What such a guard answers. -/
inductive Response
  | authorization (outcome : Outcome WriteAuthorization Empty)
  | connection (outcome : Outcome WriteConnection Error)
  | connector (outcome : Outcome AuthorizedConnector Error)
  deriving DecidableEq, Repr

/-- An evaluation of a guard, with its answer. -/
structure Evaluation where
  guard : Guard
  response : Response
  deriving DecidableEq, Repr

/-- The answer of `WriteConnection` and `AuthorizedConnector` to a request that may not write. -/
def Outcome.isUnauthorized {S : Type} : Outcome S Error → Bool
  | .error _ .unauthorized => true
  | _ => false

/-- The authorization decision that an answer tells. -/
def Response.granted : Response → Bool
  | .authorization outcome => outcome.isSuccess
  | .connection outcome => !outcome.isUnauthorized
  | .connector outcome => !outcome.isUnauthorized

/-- The guard hands out a connection to write on, or a connector that gets them. -/
def Response.givesWriteAccess : Response → Bool
  | .authorization _ => false
  | .connection outcome => outcome.isSuccess
  | .connector outcome => outcome.isSuccess

/-- Evaluate a guard. -/
def Request.evaluate (request : Request σ) (guard : Guard) : Evaluation × Request σ :=
  match guard with
  | .writeAuthorization =>
      let (outcome, cache) := WriteAuthorization.fromRequest request.cache
      (⟨guard, .authorization outcome⟩, { request with cache := cache })
  | .writeConnection db =>
      let (outcome, request) := WriteConnection.fromRequest getters db request
      (⟨guard, .connection outcome⟩, request)
  | .authorizedConnector db =>
      let (outcome, request) := AuthorizedConnector.fromRequest db request
      (⟨guard, .connector outcome⟩, request)

/-- What happens while a request is handled: other code calls `local_cache` on one of the cells, or
a guard is evaluated. -/
inductive Event
  | insertAuthorization (authorization : WriteAuthorization)
  | insertProof (proof : Option CsrfCheckProof)
  | evaluate (guard : Guard)
  deriving DecidableEq, Repr

/-- Handle a request: the evaluations made, in order, and the request at the end. -/
def Request.run : Request σ → List Event → List Evaluation × Request σ
  | request, [] => ([], request)
  | request, .insertAuthorization authorization :: events =>
      Request.run
        { request with cache := request.cache.set .writeAuthorization authorization } events
  | request, .insertProof proof :: events =>
      Request.run { request with cache := request.cache.set .optionCsrfCheckProof proof } events
  | request, .evaluate guard :: events =>
      let (evaluation, request) := request.evaluate getters guard
      let (evaluations, request) := Request.run request events
      (evaluation :: evaluations, request)

end Guards

/-- What other code first puts into the authorization cell before any guard is evaluated. -/
def firstAuthorization : List Event → Option WriteAuthorization
  | [] => none
  | .insertAuthorization authorization :: _ => some authorization
  | .insertProof _ :: events => firstAuthorization events
  | .evaluate _ :: _ => none

/-- What other code first puts into the proof cell before any guard is evaluated. -/
def firstProof : List Event → Option (Option CsrfCheckProof)
  | [] => none
  | .insertAuthorization _ :: events => firstProof events
  | .insertProof proof :: _ => some proof
  | .evaluate _ :: _ => none

/-- The request is authorized to write: the authorization cell was first set to something other
than the value for background jobs, or it was unset at the first evaluation and the proof cell then
held a proof. -/
def Granted (events : List Event) : Prop :=
  (∃ authorization, firstAuthorization events = some authorization ∧
    authorization ≠ .iPromiseThisIsABackgroundJobNotTiedToARequest) ∨
  (firstAuthorization events = none ∧ firstProof events = some (some .passedCsrfChecks))

/-! ## One evaluation -/

/-- What the guard makes of a cached authorization. -/
def WriteAuthorization.outcome (authorization : WriteAuthorization) :
    Outcome WriteAuthorization Empty :=
  if authorization = .iPromiseThisIsABackgroundJobNotTiedToARequest then .forward .ok
  else .success authorization

/-- The authorization that the first evaluation finds or caches, from the cache before the
events. -/
def settled (cache : LocalCache) (events : List Event) : WriteAuthorization :=
  match (cache.get .writeAuthorization).or (firstAuthorization events) with
  | some authorization => authorization
  | none =>
      (((cache.get .optionCsrfCheckProof).or (firstProof events)).getD none).elim
        .iPromiseThisIsABackgroundJobNotTiedToARequest .ofProof

/-- The answer of a guard that denies. -/
def Guard.denied : Guard → Response
  | .writeAuthorization => .authorization (.forward .ok)
  | .writeConnection _ => .connection (.error .internalServerError .unauthorized)
  | .authorizedConnector _ => .connector (.error .internalServerError .unauthorized)

/-- The answer of a guard to a request with this authorization: a connection is what `get_write`
gives, in some state of the pools. -/
def Guard.Accepts {σ : Type} (getters : Getters σ) (rocket : Rocket)
    (authorization : WriteAuthorization) : Guard → Response → Prop
  | .writeAuthorization, response => response = .authorization (.success authorization)
  | .writeConnection db, response =>
      match rocket.state.get (.connectionPool db) with
      | some pool => ∃ pools, response = .connection
          (.orForward ((getters.getWrite db pool authorization pools).1.map WriteConnection.mk)
            .serviceUnavailable)
      | none => response = .connection (.error .internalServerError (.missingDatabaseFairing db))
  | .authorizedConnector db, response =>
      match rocket.state.get (.connectionPool db) with
      | some pool => response = .connector (.success ⟨pool, authorization⟩)
      | none => response = .connector (.error .internalServerError (.missingDatabaseFairing db))

/-- The calls of `get_write` that a guard makes with this authorization. -/
def Guard.writeCalls (rocket : Rocket) (authorization : WriteAuthorization) :
    Guard → List (String × WriteAuthorization)
  | .writeAuthorization => []
  | .writeConnection db =>
      if (rocket.state.get (.connectionPool db)).isSome then [(db, authorization)] else []
  | .authorizedConnector _ => []

lemma Guard.granted_denied (guard : Guard) : guard.denied.granted = false := by
  cases guard <;> rfl

lemma Guard.givesWriteAccess_denied (guard : Guard) : guard.denied.givesWriteAccess = false := by
  cases guard <;> rfl

lemma Outcome.isUnauthorized_orForward {S : Type} (result : Except Error S) (status : Status) :
    (Outcome.orForward result status).isUnauthorized = false := by
  cases result <;> rfl

/-- A guard that accepts does not deny. -/
lemma Guard.Accepts.granted {σ : Type} {getters : Getters σ} {rocket : Rocket}
    {authorization : WriteAuthorization} {guard : Guard} {response : Response}
    (h : guard.Accepts getters rocket authorization response) : response.granted = true := by
  cases guard with
  | writeAuthorization =>
      rw [Guard.Accepts] at h
      rw [h]
      rfl
  | writeConnection db =>
      rw [Guard.Accepts] at h
      split at h
      · obtain ⟨pools, rfl⟩ := h
        rw [Response.granted, Outcome.isUnauthorized_orForward]
        rfl
      · rw [h]
        rfl
  | authorizedConnector db =>
      rw [Guard.Accepts] at h
      split at h
      · rw [h]
        rfl
      · rw [h]
        rfl

lemma settled_of_some {cache : LocalCache} {authorization : WriteAuthorization}
    (h : cache.get .writeAuthorization = some authorization) (events : List Event) :
    settled cache events = authorization := by
  simp only [settled, h, Option.some_or]

lemma cachedProof_fst (cache : LocalCache) :
    (cachedProof cache).1 = (cache.get .optionCsrfCheckProof).getD none := by
  cases h : cache.get .optionCsrfCheckProof with
  | none => rw [cachedProof, TypeMap.getOrInit_of_none h, h, Option.getD_none]
  | some proof => rw [cachedProof, TypeMap.getOrInit_of_some h, Option.getD_some]

/-- Looking at the proof cell does not touch the authorization cell. -/
lemma cachedProof_authorization (cache : LocalCache) :
    (cachedProof cache).2.get .writeAuthorization = cache.get .writeAuthorization := by
  cases h : cache.get .optionCsrfCheckProof with
  | none =>
      rw [cachedProof, TypeMap.getOrInit_of_none h]
      exact TypeMap.get_set_of_ne cache _ (by decide)
  | some proof => rw [cachedProof, TypeMap.getOrInit_of_some h]

lemma cachedAuthorization_fst (cache : LocalCache) :
    (cachedAuthorization cache).1 = settled cache [] := by
  cases h : cache.get .writeAuthorization with
  | some authorization =>
      rw [cachedAuthorization, TypeMap.getOrInit_of_some h, settled_of_some h]
  | none =>
      rw [cachedAuthorization, TypeMap.getOrInit_of_none h]
      simp only [proofAuthorization, cachedProof_authorization, h, Option.getD_none,
        cachedProof_fst, settled, firstAuthorization, firstProof, Option.or_none]

/-- The guard decides by what it finds or caches, and leaves that in the cell. -/
lemma WriteAuthorization.fromRequest_spec (cache : LocalCache) :
    (WriteAuthorization.fromRequest cache).1 = (settled cache []).outcome ∧
      (WriteAuthorization.fromRequest cache).2.get .writeAuthorization =
        some (settled cache []) := by
  have hget := TypeMap.get_getOrInit cache .writeAuthorization proofAuthorization
  rw [← cachedAuthorization, cachedAuthorization_fst] at hget
  simp only [WriteAuthorization.fromRequest, cachedAuthorization_fst, WriteAuthorization.outcome]
  split_ifs
  · exact ⟨rfl, hget⟩
  · exact ⟨rfl, hget⟩

lemma WriteAuthorization.fromRequest_of_denied {cache : LocalCache}
    (h : settled cache [] = .iPromiseThisIsABackgroundJobNotTiedToARequest) :
    WriteAuthorization.fromRequest cache =
      (.forward .ok, (WriteAuthorization.fromRequest cache).2) := by
  refine Prod.ext ?_ rfl
  rw [(WriteAuthorization.fromRequest_spec cache).1, h]
  rfl

lemma WriteAuthorization.fromRequest_of_granted {cache : LocalCache}
    (h : settled cache [] ≠ .iPromiseThisIsABackgroundJobNotTiedToARequest) :
    WriteAuthorization.fromRequest cache =
      (.success (settled cache []), (WriteAuthorization.fromRequest cache).2) := by
  refine Prod.ext ?_ rfl
  rw [(WriteAuthorization.fromRequest_spec cache).1, WriteAuthorization.outcome, if_neg h]

/-- Without an authorization, a guard that asks for it answers with `Unauthorized` and does nothing
else. -/
lemma withAuthorization_of_denied {σ S : Type} (db : String)
    (f : ConnectionPool → WriteAuthorization → Request σ → Outcome S Error × Request σ)
    {request : Request σ}
    (h : settled request.cache [] = .iPromiseThisIsABackgroundJobNotTiedToARequest) :
    withAuthorization db f request = (.error .internalServerError .unauthorized,
      { request with cache := (WriteAuthorization.fromRequest request.cache).2 }) := by
  rw [withAuthorization, WriteAuthorization.fromRequest_of_denied h]

/-- With one, it goes on with the pool. -/
lemma withAuthorization_of_granted {σ S : Type} (db : String)
    (f : ConnectionPool → WriteAuthorization → Request σ → Outcome S Error × Request σ)
    {request : Request σ}
    (h : settled request.cache [] ≠ .iPromiseThisIsABackgroundJobNotTiedToARequest) :
    withAuthorization db f request = withPool db (fun pool => f pool (settled request.cache []))
      { request with cache := (WriteAuthorization.fromRequest request.cache).2 } := by
  rw [withAuthorization, WriteAuthorization.fromRequest_of_granted h]

section Histories

variable {σ : Type} (getters : Getters σ)

/-- A guard that denies changes nothing but the cache. -/
lemma Request.evaluate_of_denied {request : Request σ} (guard : Guard)
    (h : settled request.cache [] = .iPromiseThisIsABackgroundJobNotTiedToARequest) :
    request.evaluate getters guard = (⟨guard, guard.denied⟩,
      { request with cache := (WriteAuthorization.fromRequest request.cache).2 }) := by
  cases guard with
  | writeAuthorization =>
      rw [Request.evaluate, WriteAuthorization.fromRequest_of_denied h, Guard.denied]
  | writeConnection db =>
      simp only [Request.evaluate, WriteConnection.fromRequest, withAuthorization_of_denied _ _ h,
        Guard.denied]
  | authorizedConnector db =>
      simp only [Request.evaluate, AuthorizedConnector.fromRequest,
        withAuthorization_of_denied _ _ h, Guard.denied]

/-- A guard that does not deny answers with the authorization, and calls `get_write` for a
connection only. -/
lemma Request.evaluate_of_granted {request : Request σ} (guard : Guard)
    (h : settled request.cache [] ≠ .iPromiseThisIsABackgroundJobNotTiedToARequest) :
    ∃ response pools,
      guard.Accepts getters request.rocket (settled request.cache []) response ∧
      request.evaluate getters guard = (⟨guard, response⟩, ⟨request.rocket,
        (WriteAuthorization.fromRequest request.cache).2, pools, request.writeCalls ++
          guard.writeCalls request.rocket (settled request.cache [])⟩) := by
  cases guard with
  | writeAuthorization =>
      refine ⟨_, request.pools, rfl, ?_⟩
      rw [Request.evaluate, WriteAuthorization.fromRequest_of_granted h, Guard.writeCalls,
        List.append_nil]
  | writeConnection db =>
      simp only [Request.evaluate, WriteConnection.fromRequest, withAuthorization_of_granted _ _ h,
        withPool, Guard.Accepts, Guard.writeCalls]
      cases request.rocket.state.get (.connectionPool db) with
      | none => exact ⟨_, request.pools, rfl, by simp⟩
      | some pool =>
          exact ⟨_, (getters.getWrite db pool (settled request.cache []) request.pools).2,
            ⟨request.pools, rfl⟩, by simp⟩
  | authorizedConnector db =>
      simp only [Request.evaluate, AuthorizedConnector.fromRequest,
        withAuthorization_of_granted _ _ h, withPool, Guard.Accepts, Guard.writeCalls]
      cases request.rocket.state.get (.connectionPool db) with
      | none => exact ⟨_, request.pools, rfl, by simp⟩
      | some pool => exact ⟨_, request.pools, rfl, by simp⟩

/-- The settled authorization is in the cell after an evaluation, and the rocket is the same. -/
lemma Request.evaluate_keeps (request : Request σ) (guard : Guard) :
    (request.evaluate getters guard).2.cache.get .writeAuthorization =
        some (settled request.cache []) ∧
      (request.evaluate getters guard).2.rocket = request.rocket := by
  have hcache := (WriteAuthorization.fromRequest_spec request.cache).2
  by_cases h : settled request.cache [] = .iPromiseThisIsABackgroundJobNotTiedToARequest
  · rw [Request.evaluate_of_denied getters guard h]
    exact ⟨hcache, rfl⟩
  · obtain ⟨response, pools, -, hevaluate⟩ := Request.evaluate_of_granted getters guard h
    rw [hevaluate]
    exact ⟨hcache, rfl⟩

/-! ## A whole request -/

/-- Setting the authorization cell is what the first evaluation finds, if it was not set. -/
lemma settled_insertAuthorization (cache : LocalCache) (authorization : WriteAuthorization)
    (events : List Event) :
    settled (cache.set .writeAuthorization authorization) events =
      settled cache (.insertAuthorization authorization :: events) := by
  have hset := TypeMap.get_set_self cache .writeAuthorization authorization
  rw [settled_of_some hset]
  cases h : cache.get .writeAuthorization with
  | none => simp only [settled, h, firstAuthorization, Option.none_or, Option.getD_none]
  | some found => rw [settled_of_some h, Option.getD_some]

lemma settled_insertProof (cache : LocalCache) (proof : Option CsrfCheckProof)
    (events : List Event) :
    settled (cache.set .optionCsrfCheckProof proof) events =
      settled cache (.insertProof proof :: events) := by
  have hset := TypeMap.get_set_self cache .optionCsrfCheckProof proof
  have hne : (cache.set .optionCsrfCheckProof proof).get .writeAuthorization =
      cache.get .writeAuthorization := by
    refine TypeMap.get_set_of_ne cache _ ?_
    decide
  simp only [settled, hset, hne, firstAuthorization, firstProof, Option.some_or]
  cases cache.get .optionCsrfCheckProof <;> rfl

/-- What a request answers and does whose settled authorization is this one. -/
structure Settles (request : Request σ) (authorization : WriteAuthorization)
    (handled : List Evaluation × Request σ) : Prop where
  denied : authorization = .iPromiseThisIsABackgroundJobNotTiedToARequest →
    (∀ evaluation ∈ handled.1, evaluation.response = evaluation.guard.denied) ∧
      handled.2.writeCalls = request.writeCalls ∧ handled.2.pools = request.pools
  granted : authorization ≠ .iPromiseThisIsABackgroundJobNotTiedToARequest →
    (∀ evaluation ∈ handled.1,
      evaluation.guard.Accepts getters request.rocket authorization evaluation.response) ∧
      handled.2.writeCalls = request.writeCalls ++ handled.1.flatMap fun evaluation =>
        evaluation.guard.writeCalls request.rocket authorization

/-- **From any cache, every evaluation answers by the authorization that the first one settles.** -/
theorem Request.run_settles (events : List Event) : ∀ request : Request σ,
    Settles getters request (settled request.cache events) (request.run getters events) := by
  induction events with
  | nil =>
      intro request
      exact ⟨fun _ => by simp [Request.run], fun _ => by simp [Request.run]⟩
  | cons event events ih =>
      intro request
      cases event with
      | insertAuthorization authorization =>
          rw [← settled_insertAuthorization]
          obtain ⟨hdenied, hgranted⟩ := ih { request with
            cache := request.cache.set .writeAuthorization authorization }
          exact ⟨hdenied, hgranted⟩
      | insertProof proof =>
          rw [← settled_insertProof]
          obtain ⟨hdenied, hgranted⟩ := ih { request with
            cache := request.cache.set .optionCsrfCheckProof proof }
          exact ⟨hdenied, hgranted⟩
      | evaluate guard =>
          obtain ⟨hcache, hrocket⟩ := request.evaluate_keeps getters guard
          obtain ⟨hdenied, hgranted⟩ := ih (request.evaluate getters guard).2
          rw [settled_of_some hcache] at hdenied hgranted
          have hsettled : settled request.cache (.evaluate guard :: events) =
              settled request.cache [] := rfl
          rw [hsettled]
          refine ⟨fun h => ?_, fun h => ?_⟩
          · obtain ⟨hrest, hcalls, hpools⟩ := hdenied h
            rw [Request.evaluate_of_denied getters guard h] at hrest hcalls hpools
            simp only [Request.run, Request.evaluate_of_denied getters guard h,
              List.forall_mem_cons]
            exact ⟨⟨trivial, hrest⟩, hcalls, hpools⟩
          · obtain ⟨hrest, hcalls⟩ := hgranted h
            obtain ⟨response, pools, haccepts, hevaluate⟩ :=
              Request.evaluate_of_granted getters guard h
            rw [hevaluate] at hrest hcalls
            simp only [Request.run, hevaluate, List.forall_mem_cons, List.flatMap_cons]
            exact ⟨⟨haccepts, hrest⟩, by rw [hcalls, List.append_assoc]⟩

/-- On a fresh cache, the settled authorization is one to write exactly when the request is
granted. -/
lemma granted_iff (events : List Event) :
    Granted events ↔
      settled .empty events ≠ .iPromiseThisIsABackgroundJobNotTiedToARequest := by
  simp only [Granted, settled, TypeMap.get_empty, Option.none_or]
  cases firstAuthorization events with
  | some authorization => simp
  | none =>
      rcases firstProof events with _ | _ | ⟨⟨⟩⟩ <;>
        simp [WriteAuthorization.ofProof]

/-- **Write guards fail closed, and their decision is final for the request.**  Whatever happens
while a request is handled, every evaluation answers as one that is granted exactly when the request
is.  If it is granted, all do so with one authorization that is not the one for background jobs:
`WriteAuthorization` succeeds with it, `AuthorizedConnector` hands it out with the pool,
`WriteConnection` calls `get_write` with it and answers with what that gives, and only a pool that
is not managed is reported missing.  If it is not granted, all answer with a denial, no guard gives
write access, `get_write` is not called and the state of the pools is the one before the request. -/
theorem writeGuardsFailClosed (rocket : Rocket) (pools : σ) (events : List Event) :
    let (evaluations, request) := (Request.new rocket pools).run getters events
    (∀ evaluation ∈ evaluations, (evaluation.response.granted ↔ Granted events)) ∧
    (Granted events →
      ∃ authorization, authorization ≠ .iPromiseThisIsABackgroundJobNotTiedToARequest ∧
        (∀ evaluation ∈ evaluations,
          evaluation.guard.Accepts getters rocket authorization evaluation.response) ∧
        request.writeCalls = evaluations.flatMap fun evaluation =>
          evaluation.guard.writeCalls rocket authorization) ∧
    (¬ Granted events →
      (∀ evaluation ∈ evaluations, evaluation.response = evaluation.guard.denied ∧
        evaluation.response.givesWriteAccess = false) ∧
      request.writeCalls = [] ∧ request.pools = pools) := by
  obtain ⟨hdenied, hgranted⟩ := (Request.new rocket pools).run_settles getters events
  have hiff := granted_iff events
  refine ⟨fun evaluation hmem => ?_, fun h => ?_, fun h => ?_⟩
  · by_cases h : Granted events
    · simp [((hgranted (hiff.mp h)).1 evaluation hmem).granted, h]
    · rw [hiff, not_not] at h
      simp [(hdenied h).1 evaluation hmem, Guard.granted_denied, hiff, h]
  · obtain ⟨haccepts, hcalls⟩ := hgranted (hiff.mp h)
    exact ⟨_, hiff.mp h, haccepts, by rw [hcalls]; rfl⟩
  · rw [hiff, not_not] at h
    obtain ⟨hanswers, hcalls, hpools⟩ := hdenied h
    refine ⟨fun evaluation hmem => ⟨hanswers evaluation hmem, ?_⟩, hcalls, hpools⟩
    rw [hanswers evaluation hmem, Guard.givesWriteAccess_denied]

end Histories

end SqliteRwPool
