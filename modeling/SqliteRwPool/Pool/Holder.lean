import Mathlib.Tactic.Common

/-!
# `ConnectionHolder` and its runs

A `ConnectionHolder` keeps the pooled connection in an `Arc<Mutex<Option<_>>>`.  Any number of
`run` futures may borrow it at once; each waits for the async mutex, takes the connection out of
the `Option` by reference and calls its closure without another await point.

`ConnectionHolder.step` is one step of one of these futures.  The mutex is the field `guard`: the
run that owns it, if any.  tokio hands a released mutex to a waiter before the waiter is polled
again, which is the state `locked`; a future dropped there gives the mutex back.

`Valid` is what holds of a live holder at every moment: the connection is there, the runs in
possession of the mutex are the one `guard` names, and no run came to an empty `Option`.
-/

namespace SqliteRwPool

/-- The identity of a pooled connection. -/
abbrev Conn := ℕ

/-- Where a call of `ConnectionHolder::run` is: at `lock_owned().await` without the mutex
(`locking`), in possession of it but not polled since (`locked`), in `f(conn)` (`executing`), over
because it returned, unwound from `f` or was dropped (`finished`), or unwound from
`expect("internal invariant broken: self.connection is Some")` (`connectionMissing`). -/
inductive RunState
  | locking
  | locked
  | executing
  | finished
  | connectionMissing
  deriving DecidableEq, Repr

/-- The run owns the mutex. -/
def RunState.hasLock : RunState → Bool
  | .locked => true
  | .executing => true
  | _ => false

/-- The run no longer borrows the holder. -/
def RunState.isOver : RunState → Bool
  | .finished => true
  | .connectionMissing => true
  | _ => false

/-- `ConnectionHolder`, with the content and the owner of its mutex and the runs that borrow it.
Its `permit` is `Some` from the moment it is built until `drop` takes it. -/
structure ConnectionHolder where
  connection : Option Conn
  guard : Option ℕ
  runs : List RunState
  deriving DecidableEq, Repr

/-- A holder as `get_conn_inner` builds it. -/
def ConnectionHolder.new (c : Conn) : ConnectionHolder := ⟨some c, none, []⟩

/-- What can happen to the runs of a holder; the number is the run.  `run` is the call, polled up
to its await point; `lock` hands the mutex to a waiting run; `enter` polls a run that has it, so
that `as_mut().expect(..)` is evaluated and `f(conn)` begins; `leave` ends `f(conn)`, by return or
by panic, and drops the guard; `cancel` drops the future at its await point. -/
inductive HolderAction
  | run
  | lock (r : ℕ)
  | enter (r : ℕ)
  | leave (r : ℕ)
  | cancel (r : ℕ)
  deriving DecidableEq, Repr

/-- One step of one run. -/
def ConnectionHolder.step (h : ConnectionHolder) : HolderAction → Option ConnectionHolder
  | .run => some { h with runs := h.runs ++ [.locking] }
  | .lock r =>
      if h.guard = none ∧ h.runs[r]? = some .locking then
        some { h with guard := some r, runs := h.runs.set r .locked }
      else none
  | .enter r =>
      if h.runs[r]? = some .locked then
        match h.connection with
        | some _ => some { h with runs := h.runs.set r .executing }
        | none => some { h with guard := none, runs := h.runs.set r .connectionMissing }
      else none
  | .leave r =>
      if h.runs[r]? = some .executing then
        some { h with guard := none, runs := h.runs.set r .finished }
      else none
  | .cancel r =>
      if h.runs[r]? = some .locking then some { h with runs := h.runs.set r .finished }
      else if h.runs[r]? = some .locked then
        some { h with guard := none, runs := h.runs.set r .finished }
      else none

/-- What holds of a holder that has not been dropped. -/
structure ConnectionHolder.Valid (h : ConnectionHolder) : Prop where
  connection : h.connection.isSome
  guard : ∀ r, h.guard = some r ↔ ∃ st, h.runs[r]? = some st ∧ st.hasLock
  expected : ∀ st ∈ h.runs, st ≠ .connectionMissing

lemma ConnectionHolder.valid_new (c : Conn) : (ConnectionHolder.new c).Valid :=
  ⟨rfl, by simp [new], by simp [new]⟩

namespace ConnectionHolder

private lemma guard_of_set {h : ConnectionHolder} (hv : h.Valid) {r : ℕ} {old new : RunState}
    (hget : h.runs[r]? = some old) (hsame : old.hasLock = new.hasLock) :
    ∀ r', h.guard = some r' ↔ ∃ st, (h.runs.set r new)[r']? = some st ∧ st.hasLock := by
  intro r'
  rw [hv.guard r', List.getElem?_set]
  by_cases hr : r = r'
  · subst hr
    have hlt : r < h.runs.length := (List.getElem?_eq_some_iff.mp hget).1
    simp only [hget, hlt, if_true, Option.some.injEq, exists_eq_left', hsame]
  · rw [if_neg hr]

private lemma guard_of_release {h : ConnectionHolder} (hv : h.Valid) {r : ℕ} {old new : RunState}
    (hget : h.runs[r]? = some old) (hlock : old.hasLock = true) (hfree : new.hasLock = false) :
    ∀ r', (none : Option ℕ) = some r' ↔
      ∃ st, (h.runs.set r new)[r']? = some st ∧ st.hasLock := by
  intro r'
  have howner : h.guard = some r := (hv.guard r).mpr ⟨old, hget, hlock⟩
  constructor
  · intro hnone
    cases hnone
  · rintro ⟨st, hst, hl⟩
    rw [List.getElem?_set] at hst
    by_cases hr : r = r'
    · subst hr
      have hlt : r < h.runs.length := (List.getElem?_eq_some_iff.mp hget).1
      simp only [hlt, if_true, Option.some.injEq] at hst
      rw [← hst, hfree] at hl
      cases hl
    · rw [if_neg hr] at hst
      have : h.guard = some r' := (hv.guard r').mpr ⟨st, hst, hl⟩
      rw [howner, Option.some.injEq] at this
      exact absurd this hr

private lemma expected_of_set {h : ConnectionHolder} (hv : h.Valid) {r : ℕ} {new : RunState}
    (hnew : new ≠ .connectionMissing) : ∀ st ∈ h.runs.set r new, st ≠ .connectionMissing := by
  intro st hst
  rcases List.mem_or_eq_of_mem_set hst with hmem | rfl
  · exact hv.expected st hmem
  · exact hnew

/-- **One step of one run keeps a holder valid.** -/
theorem Valid.step {h h' : ConnectionHolder} {a : HolderAction} (hv : h.Valid)
    (hs : h.step a = some h') : h'.Valid := by
  cases a with
  | run =>
      simp only [ConnectionHolder.step, Option.some.injEq] at hs
      subst hs
      refine ⟨hv.connection, fun r => ?_, fun st hst => ?_⟩
      · rw [hv.guard r]
        constructor
        · rintro ⟨st, hst, hl⟩
          have hlt : r < h.runs.length := (List.getElem?_eq_some_iff.mp hst).1
          exact ⟨st, by rw [List.getElem?_append_left hlt]; exact hst, hl⟩
        · rintro ⟨st, hst, hl⟩
          rw [List.getElem?_append] at hst
          split at hst
          · exact ⟨st, hst, hl⟩
          · rw [List.getElem?_singleton] at hst
            split at hst
            · rw [Option.some.injEq] at hst
              rw [← hst] at hl
              cases hl
            · cases hst
      · rcases List.mem_append.mp hst with hmem | hmem
        · exact hv.expected st hmem
        · rw [List.mem_singleton] at hmem
          rw [hmem]
          decide
  | lock r =>
      simp only [ConnectionHolder.step] at hs
      split_ifs at hs with hc
      rw [Option.some.injEq] at hs
      subst hs
      refine ⟨hv.connection, fun r' => ?_, expected_of_set hv (by decide)⟩
      have hlt : r < h.runs.length := (List.getElem?_eq_some_iff.mp hc.2).1
      simp only [Option.some.injEq, List.getElem?_set]
      constructor
      · rintro rfl
        exact ⟨.locked, by simp [hlt], rfl⟩
      · rintro ⟨st, hst, hl⟩
        by_contra hr
        rw [if_neg hr] at hst
        have := (hv.guard r').mpr ⟨st, hst, hl⟩
        rw [hc.1] at this
        cases this
  | enter r =>
      simp only [ConnectionHolder.step] at hs
      split_ifs at hs with hc
      obtain ⟨c, hconn⟩ := Option.isSome_iff_exists.mp hv.connection
      simp only [hconn, Option.some.injEq] at hs
      subst hs
      exact ⟨by simp, guard_of_set hv hc rfl, expected_of_set hv (by decide)⟩
  | leave r =>
      simp only [ConnectionHolder.step] at hs
      split_ifs at hs with hc
      rw [Option.some.injEq] at hs
      subst hs
      exact ⟨hv.connection, guard_of_release hv hc rfl rfl, expected_of_set hv (by decide)⟩
  | cancel r =>
      simp only [ConnectionHolder.step] at hs
      split_ifs at hs with hc hc'
      · rw [Option.some.injEq] at hs
        subst hs
        exact ⟨hv.connection, guard_of_set hv hc rfl, expected_of_set hv (by decide)⟩
      · rw [Option.some.injEq] at hs
        subst hs
        exact ⟨hv.connection, guard_of_release hv hc' rfl rfl, expected_of_set hv (by decide)⟩

/-- A step of a run of a valid holder leaves the connection where it is. -/
lemma Valid.step_connection {h h' : ConnectionHolder} {a : HolderAction} (hv : h.Valid)
    (hs : h.step a = some h') : h'.connection = h.connection := by
  obtain ⟨c, hconn⟩ := Option.isSome_iff_exists.mp hv.connection
  cases a with
  | run =>
      simp only [ConnectionHolder.step, Option.some.injEq] at hs
      rw [← hs]
  | enter r =>
      simp only [ConnectionHolder.step, hconn] at hs
      split_ifs at hs
      rw [Option.some.injEq] at hs
      rw [← hs, hconn]
  | lock r | leave r =>
      simp only [ConnectionHolder.step] at hs
      split_ifs at hs
      rw [Option.some.injEq] at hs
      rw [← hs]
  | cancel r =>
      simp only [ConnectionHolder.step] at hs
      split_ifs at hs <;> rw [Option.some.injEq] at hs <;> rw [← hs]

/-- The runs of a valid holder that are over have ended in the ordinary way. -/
lemma Valid.finished {h : ConnectionHolder} (hv : h.Valid) (hover : ∀ st ∈ h.runs, st.isOver) :
    ∀ st ∈ h.runs, st = .finished := by
  intro st hst
  have hne := hv.expected st hst
  have ho := hover st hst
  cases st <;> simp_all [RunState.isOver]

/-- At most one closure of a valid holder executes at a time. -/
theorem Valid.executing_unique {h : ConnectionHolder} (hv : h.Valid) {r r' : ℕ}
    (hr : h.runs[r]? = some .executing) (hr' : h.runs[r']? = some .executing) : r = r' := by
  have h1 : h.guard = some r := (hv.guard r).mpr ⟨_, hr, rfl⟩
  have h2 : h.guard = some r' := (hv.guard r').mpr ⟨_, hr', rfl⟩
  rw [h1, Option.some.injEq] at h2
  exact h2

end ConnectionHolder

end SqliteRwPool
