import Mathlib.Data.Multiset.AddSub
import SqliteRwPool.Pool.Holder

/-!
# One call of `get_conn_inner`, from its permit to its drop job

A call of `get_conn_inner` involves four parties, one after the other: the future of the call,
the blocking job that `run_blocking` spawns for `pool.get_timeout`, the `ConnectionHolder` built
from its result, and the blocking job that `Drop for ConnectionHolder` spawns.  `Call` is the
phase the call is in, `Call.step` one step of one of its parties, together with the effect on
what the parties share: the semaphore and the r2d2 pool.

A future may be dropped at either of its two await points.  Before the permit that ends the call.
At the second one the `JoinHandle` is dropped with it, and what follows depends on the job: a job
that is still running goes on without an owner (`detached`), while the output of a job that has
finished is dropped with the handle, before the permit, which is declared earlier.

`Call.permitsOf` and `Call.connsOf` say which party owns what, and `Call.Valid.step_permits`,
`Call.Valid.step_conns` that a step moves permits and connections only by its effect.
-/

namespace SqliteRwPool

/-- Where the blocking job that runs `pool.get_timeout` is while its handle is awaited: spawned and
possibly waiting inside r2d2 (`running`), lent a connection but not finished (`obtained`), finished
with `Ok(c)` that nobody has taken yet (`returned`), finished with `Err(_)`, or panicked. -/
inductive FetchJob
  | running
  | obtained (c : Conn)
  | returned (c : Conn)
  | failed
  | panicked
  deriving DecidableEq, Repr

/-- Where the blocking job of `Drop for ConnectionHolder` is: in `block_on(lock_owned())`, in
possession of the mutex, after `drop(conn)`, or after `drop(permit)`. -/
inductive DropJob
  | locking
  | locked
  | returned
  | released
  deriving DecidableEq, Repr

/-- The phases of a call of `get_conn_inner` and of what it leaves behind.  The future waits for
`semaphore.acquire_owned()` (`acquiring`); it has been handed a permit but has not been polled
since (`granted`); it owns the permit and awaits the job (`fetching`); it is gone and its job runs
on, with the connection it may have obtained (`detached`); it returned a holder, which lives and
owns the permit (`held`); the holder was dropped and its job owns what was left (`dropping`);
nothing remains (`closed`). -/
inductive Call
  | acquiring
  | granted
  | fetching (job : FetchJob)
  | detached (obtained : Option Conn)
  | held (holder : ConnectionHolder)
  | dropping (holder : ConnectionHolder) (job : DropJob)
  | closed
  deriving DecidableEq, Repr

/-- What a step does to the semaphore and to the r2d2 pool.  `giveBackDropPermit` returns the
connection first and then the permit. -/
inductive Effect
  | silent
  | takePermit
  | lend (c : Conn)
  | giveBack (c : Conn)
  | dropPermit
  | giveBackDropPermit (c : Conn)
  deriving DecidableEq, Repr

/-- What can happen in a call.  `grant`: the semaphore hands a permit to the waiting future.
`timeOut`: the `timeout` around it elapses.  `poll`: the future is polled and what it awaits is
ready.  `lend`: r2d2 lends a connection to the job.  `fetchReturns`, `fetchFails`, `fetchPanics`:
the job ends.  `cancel`: the future is dropped at an await point.  `holder`: a run of the holder
takes a step.  `drop`: the holder is dropped and spawns its job.  `dropLocks`, `dropReturns`,
`dropReleases`, `dropEnds`: the drop job obtains the mutex, drops the connection, drops the permit
and ends. -/
inductive CallAction
  | grant
  | timeOut
  | poll
  | lend (c : Conn)
  | fetchReturns
  | fetchFails
  | fetchPanics
  | cancel
  | holder (a : HolderAction)
  | drop
  | dropLocks
  | dropReturns
  | dropReleases
  | dropEnds
  deriving DecidableEq, Repr

/-- One step of one party.  Polling a granted future evaluates `permit.expect(..)`, clones the pool
and spawns the job before the next await point.  Polling a future whose job is over builds the
holder, returns `Err(Error::ConnectionFailure(e))`, or resumes the job's panic.  The runtime drops
the output of a detached job.  The borrow checker lets a holder be dropped only when no run borrows
it, which is the guard of `drop`. -/
def Call.step : Call → CallAction → Option (Call × Effect)
  | .acquiring, .grant => some (.granted, .takePermit)
  | .acquiring, .timeOut => some (.closed, .silent)
  | .acquiring, .cancel => some (.closed, .silent)
  | .granted, .poll => some (.fetching .running, .silent)
  | .granted, .cancel => some (.closed, .dropPermit)
  | .fetching .running, .lend c => some (.fetching (.obtained c), .lend c)
  | .fetching .running, .fetchFails => some (.fetching .failed, .silent)
  | .fetching .running, .fetchPanics => some (.fetching .panicked, .silent)
  | .fetching (.obtained c), .fetchReturns => some (.fetching (.returned c), .silent)
  | .fetching (.obtained c), .fetchPanics => some (.fetching .panicked, .giveBack c)
  | .fetching (.returned c), .poll => some (.held (.new c), .silent)
  | .fetching .failed, .poll => some (.closed, .dropPermit)
  | .fetching .panicked, .poll => some (.closed, .dropPermit)
  | .fetching .running, .cancel => some (.detached none, .dropPermit)
  | .fetching (.obtained c), .cancel => some (.detached (some c), .dropPermit)
  | .fetching (.returned c), .cancel => some (.closed, .giveBackDropPermit c)
  | .fetching .failed, .cancel => some (.closed, .dropPermit)
  | .fetching .panicked, .cancel => some (.closed, .dropPermit)
  | .detached none, .lend c => some (.detached (some c), .lend c)
  | .detached none, .fetchFails => some (.closed, .silent)
  | .detached none, .fetchPanics => some (.closed, .silent)
  | .detached (some c), .fetchReturns => some (.closed, .giveBack c)
  | .detached (some c), .fetchPanics => some (.closed, .giveBack c)
  | .held h, .holder a => (h.step a).map fun h' => (.held h', .silent)
  | .held h, .drop =>
      if ∀ st ∈ h.runs, st.isOver then some (.dropping h .locking, .silent) else none
  | .dropping h .locking, .dropLocks =>
      if h.guard = none then some (.dropping h .locked, .silent) else none
  | .dropping h .locked, .dropReturns =>
      match h.connection with
      | some c => some (.dropping { h with connection := none } .returned, .giveBack c)
      | none => some (.dropping h .returned, .silent)
  | .dropping h .returned, .dropReleases => some (.dropping h .released, .dropPermit)
  | .dropping _ .released, .dropEnds => some (.closed, .silent)
  | _, _ => none

/-! ## Who owns what -/

/-- The parties of a call. -/
inductive Party
  | getFuture
  | fetchJob
  | holder
  | dropJob
  deriving DecidableEq, Repr

/-- The permits a party of the call owns. -/
def Call.permitsOf : Party → Call → ℕ
  | .getFuture, .granted => 1
  | .getFuture, .fetching _ => 1
  | .holder, .held _ => 1
  | .dropJob, .dropping _ .locking => 1
  | .dropJob, .dropping _ .locked => 1
  | .dropJob, .dropping _ .returned => 1
  | _, _ => 0

/-- The connections a party of the call owns. -/
def Call.connsOf : Party → Call → Multiset Conn
  | .fetchJob, .fetching (.obtained c) => {c}
  | .fetchJob, .detached (some c) => {c}
  | .getFuture, .fetching (.returned c) => {c}
  | .holder, .held h => h.connection.toList
  | .dropJob, .dropping h _ => h.connection.toList
  | _, _ => 0

/-- The permits the call keeps away from others. -/
def Call.permits (call : Call) : ℕ :=
  call.permitsOf .getFuture + call.permitsOf .holder + call.permitsOf .dropJob

/-- The connections the call keeps away from others. -/
def Call.conns (call : Call) : Multiset Conn :=
  call.connsOf .fetchJob + call.connsOf .getFuture + call.connsOf .holder + call.connsOf .dropJob

/-- A fetch job is inside `pool.get_timeout` and has no connection yet. -/
def Call.isFetching : Call → Bool
  | .fetching .running => true
  | .detached none => true
  | _ => false

/-- The connection handed out by the call is alive: a `ReadConnection` or a `WriteConnection`. -/
def Call.isAlive : Call → Bool
  | .held _ => true
  | _ => false

/-- The holder of the call, alive or being dropped. -/
def Call.holder? : Call → Option ConnectionHolder
  | .held h => some h
  | .dropping h _ => some h
  | _ => none

/-- The permits a step takes from the semaphore. -/
def Effect.taken : Effect → ℕ
  | .takePermit => 1
  | _ => 0

/-- The permits a step returns to the semaphore. -/
def Effect.dropped : Effect → ℕ
  | .dropPermit => 1
  | .giveBackDropPermit _ => 1
  | _ => 0

/-- The connections a step makes r2d2 lend. -/
def Effect.lent : Effect → Multiset Conn
  | .lend c => {c}
  | _ => 0

/-- The connections a step returns to r2d2. -/
def Effect.givenBack : Effect → Multiset Conn
  | .giveBack c => {c}
  | .giveBackDropPermit c => {c}
  | _ => 0

/-- What holds of a call in every phase.  Until the drop job has the connection out, the holder
has one; from the drop on no run is left. -/
def Call.Valid : Call → Prop
  | .held h => h.Valid
  | .dropping h job => (∀ st ∈ h.runs, st = .finished) ∧
      (h.connection.isSome ↔ job = .locking ∨ job = .locked)
  | _ => True

/-! ## What one step can do, and what it preserves -/

lemma Call.step_held {h : ConnectionHolder} {call' : Call} {a : CallAction} {e : Effect}
    (hs : (Call.held h).step a = some (call', e)) :
    e = .silent ∧ ((∃ b h', h.step b = some h' ∧ call' = .held h') ∨
      ((∀ st ∈ h.runs, st.isOver) ∧ call' = .dropping h .locking)) := by
  cases a <;> try cases hs
  case holder b =>
    obtain ⟨h', hh', heq⟩ := Option.map_eq_some_iff.mp hs
    cases heq
    exact ⟨rfl, Or.inl ⟨b, h', hh', rfl⟩⟩
  case drop =>
    simp only [Call.step] at hs
    split_ifs at hs with hfin
    cases hs
    exact ⟨rfl, Or.inr ⟨hfin, rfl⟩⟩

/-- What a step of a drop job can be, when the holder has its connection exactly as long as the
job has not taken it. -/
lemma Call.step_dropping {h : ConnectionHolder} {job : DropJob} {call' : Call} {a : CallAction}
    {e : Effect} (hconn : h.connection.isSome ↔ job = .locking ∨ job = .locked)
    (hs : (Call.dropping h job).step a = some (call', e)) :
    (job = .locking ∧ call' = .dropping h .locked ∧ e = .silent) ∨
    (∃ c, job = .locked ∧ h.connection = some c ∧
      call' = .dropping { h with connection := none } .returned ∧ e = .giveBack c) ∨
    (job = .returned ∧ call' = .dropping h .released ∧ e = .dropPermit) ∨
    (job = .released ∧ h.connection = none ∧ call' = .closed ∧ e = .silent) := by
  cases job with
  | locking =>
      cases a <;> try cases hs
      simp only [Call.step] at hs
      split_ifs at hs
      cases hs
      exact Or.inl ⟨rfl, rfl, rfl⟩
  | locked =>
      cases a <;> try cases hs
      obtain ⟨c, hc⟩ := Option.isSome_iff_exists.mp (hconn.mpr (Or.inr rfl))
      simp only [Call.step, hc] at hs
      cases hs
      exact Or.inr (Or.inl ⟨c, rfl, hc, rfl, rfl⟩)
  | returned =>
      cases a <;> cases hs
      exact Or.inr (Or.inr (Or.inl ⟨rfl, rfl, rfl⟩))
  | released =>
      cases a <;> cases hs
      exact Or.inr (Or.inr (Or.inr ⟨rfl, by simpa using hconn, rfl, rfl⟩))

/-- One step of one party keeps a call valid. -/
theorem Call.Valid.step {call call' : Call} {a : CallAction} {e : Effect} (hv : call.Valid)
    (hs : call.step a = some (call', e)) : call'.Valid := by
  cases call with
  | acquiring | granted | closed =>
      cases a <;> cases hs <;> trivial
  | detached obtained =>
      cases obtained <;> cases a <;> cases hs <;> trivial
  | fetching job =>
      cases job <;> cases a <;> cases hs <;>
        first | trivial | exact ConnectionHolder.valid_new _
  | held h =>
      obtain ⟨-, ⟨b, h', hh', rfl⟩ | ⟨hfin, rfl⟩⟩ := Call.step_held hs
      · exact ConnectionHolder.Valid.step hv hh'
      · exact ⟨ConnectionHolder.Valid.finished hv hfin,
          by simp [ConnectionHolder.Valid.connection hv]⟩
  | dropping h job =>
      obtain ⟨hfin, hconn⟩ := hv
      rcases Call.step_dropping hconn hs with ⟨rfl, rfl, -⟩ | ⟨c, rfl, -, rfl, -⟩ |
        ⟨rfl, rfl, -⟩ | ⟨rfl, -, rfl, -⟩
      · exact ⟨hfin, by simpa using hconn⟩
      · exact ⟨hfin, by simp⟩
      · exact ⟨hfin, by simpa using hconn⟩
      · trivial

/-- A step moves permits between the call and the semaphore only. -/
theorem Call.Valid.step_permits {call call' : Call} {a : CallAction} {e : Effect}
    (hv : call.Valid) (hs : call.step a = some (call', e)) :
    call'.permits + e.dropped = call.permits + e.taken := by
  cases call with
  | acquiring | granted | closed =>
      cases a <;> cases hs <;> rfl
  | detached obtained =>
      cases obtained <;> cases a <;> cases hs <;> rfl
  | fetching job =>
      cases job <;> cases a <;> cases hs <;> rfl
  | held h =>
      obtain ⟨rfl, ⟨b, h', -, rfl⟩ | ⟨-, rfl⟩⟩ := Call.step_held hs <;> rfl
  | dropping h job =>
      rcases Call.step_dropping hv.2 hs with ⟨rfl, rfl, rfl⟩ | ⟨c, rfl, -, rfl, rfl⟩ |
        ⟨rfl, rfl, rfl⟩ | ⟨rfl, -, rfl, rfl⟩ <;> rfl

/-- A step moves connections between the call and r2d2 only. -/
theorem Call.Valid.step_conns {call call' : Call} {a : CallAction} {e : Effect}
    (hv : call.Valid) (hs : call.step a = some (call', e)) :
    call'.conns + e.givenBack = call.conns + e.lent := by
  cases call with
  | acquiring | granted | closed =>
      cases a <;> cases hs <;> rfl
  | detached obtained =>
      cases obtained <;> cases a <;> cases hs <;> rfl
  | fetching job =>
      cases job <;> cases a <;> cases hs <;> rfl
  | held h =>
      obtain ⟨rfl, ⟨b, h', hh', rfl⟩ | ⟨-, rfl⟩⟩ := Call.step_held hs
      · have hconn := ConnectionHolder.Valid.step_connection hv hh'
        simp [Call.conns, Call.connsOf, Effect.givenBack, Effect.lent, hconn]
      · simp [Call.conns, Call.connsOf, Effect.givenBack, Effect.lent]
  | dropping h job =>
      rcases Call.step_dropping hv.2 hs with ⟨rfl, rfl, rfl⟩ | ⟨c, rfl, hc, rfl, rfl⟩ |
        ⟨rfl, rfl, rfl⟩ | ⟨rfl, hnone, rfl, rfl⟩
      · rfl
      · simp [Call.conns, Call.connsOf, Effect.givenBack, Effect.lent, hc]
      · rfl
      · simp [Call.conns, Call.connsOf, Effect.givenBack, Effect.lent, hnone]

end SqliteRwPool
