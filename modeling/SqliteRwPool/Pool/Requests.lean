import SqliteRwPool.Pool.Serial

/-!
# Calls of `connect_and_read` and `connect_and_write`

`connect_and_read`, `connect_and_read_with_transaction` and `connect_and_write` of a
`ConnectionPool`, and of the `Connector` and the `AuthorizedConnector` that pass them on, get a
connection, run one closure on it and drop it.  The future of such a call ends with an error of
`get_conn_inner`, with the result or the panic of its closure, or it is dropped at an await point.

* `Requests` — an execution in which all tasks use the pool in this way, with the calls that were
  made on either side, when each of them was made and what it came to.
* `Side.Records.step` — a call is answered once, and it is answered when its future is over.
-/

namespace SqliteRwPool

open SnapshotStore Transition

/-! ## Calls and their answers -/

/-- What a call came to: `Err(Error::ConnectionPermitRetrievalTimeout)`,
`Err(Error::ConnectionFailure(_))`, the panic of the blocking job, a dropped future, the panic of
`expect("internal invariant broken: couldn't create a transaction")`, or the end of its closure,
which returned or panicked and made something of its transaction. -/
inductive CallAnswer
  | timedOut
  | failed
  | jobPanicked
  | cancelled
  | expectPanicked
  | ended (panicked : Bool) (close : Close)
  deriving DecidableEq, Repr

/-- A call, with the number of commits at the time it was made and at the time it was answered. -/
structure PoolRequest where
  calledAt : ℕ
  answer : Option (CallAnswer × ℕ)
  deriving DecidableEq, Repr

/-- What the future makes of its connection: it runs one closure and drops the connection then. -/
def Call.ConnectsAndRuns : Call → CallAction → Prop
  | .held h, .holder .run => h.runs = []
  | .held h, .drop => h.runs ≠ []
  | _, _ => True

instance (call : Call) (a : CallAction) : Decidable (call.ConnectsAndRuns a) :=
  match call, a with
  | .held h, .holder .run => inferInstanceAs (Decidable (h.runs = []))
  | .held h, .drop => inferInstanceAs (Decidable (h.runs ≠ []))
  | .held _, .holder (.lock _) | .held _, .holder (.enter _) | .held _, .holder (.leave _)
  | .held _, .holder (.cancel _) | .held _, .grant | .held _, .timeOut | .held _, .poll
  | .held _, .lend _ | .held _, .fetchReturns | .held _, .fetchFails | .held _, .fetchPanics
  | .held _, .cancel | .held _, .dropLocks | .held _, .dropReturns | .held _, .dropReleases
  | .held _, .dropEnds | .acquiring, _ | .granted, _ | .fetching _, _ | .detached _, _
  | .dropping _ _, _ | .closed, _ => isTrue trivial

/-- What the step answers the call; `ended` is the answer if it ends its closure. -/
def Call.answer (ended : Option CallAnswer) : Call → CallAction → Option CallAnswer
  | _, .timeOut => some .timedOut
  | .fetching .failed, .poll => some .failed
  | .fetching .panicked, .poll => some .jobPanicked
  | _, .cancel => some .cancelled
  | _, .holder (.cancel _) => some .cancelled
  | _, .holder (.leave _) => ended
  | _, _ => none

/-- The future of the call is over. -/
def Call.IsAnswered : Call → Prop
  | .acquiring => False
  | .granted => False
  | .fetching _ => False
  | .held h => .finished ∈ h.runs
  | .detached _ => True
  | .dropping _ _ => True
  | .closed => True

/-- One closure is run at most. -/
def Call.RunsOnce : Call → Prop
  | .held h => h.runs.length ≤ 1
  | _ => True

/-- A call is made, or a call is answered. -/
inductive CallEvent
  | called
  | answered (i : ℕ) (answer : CallAnswer)
  deriving DecidableEq, Repr

def Side.ConnectsAndRuns (s : Side) : SideAction → Prop
  | .get => True
  | .call i a => ∀ call, s.calls[i]? = some call → call.ConnectsAndRuns a

instance (s : Side) (a : SideAction) : Decidable (s.ConnectsAndRuns a) :=
  match a with
  | .get => isTrue trivial
  | .call i a => inferInstanceAs (Decidable (∀ call ∈ s.calls[i]?, call.ConnectsAndRuns a))

/-- What the step means for the calls of the side. -/
def SideAction.event (ended : Option CallAnswer) (s : Side) : SideAction → Option CallEvent
  | .get => some .called
  | .call i a => (s.calls[i]?.bind fun call => call.answer ended a).map (.answered i)

/-- Note an event, with the number of commits so far. -/
def record (now : ℕ) (requests : List PoolRequest) : Option CallEvent → List PoolRequest
  | none => requests
  | some .called => requests ++ [⟨now, none⟩]
  | some (.answered i answer) =>
      requests.modify i fun request => { request with answer := some (answer, now) }

section

variable {σ D Q O : Type}

/-- An execution with the calls of `connect_and_write`, and with those of `connect_and_read` and
`connect_and_read_with_transaction`. -/
structure Requests (σ Q O : Type) where
  execution : Execution σ Q O
  writes : List PoolRequest
  reads : List PoolRequest

def Requests.new (maxReadConnections : ℕ) (db : σ) : Requests σ Q O :=
  ⟨.new maxReadConnections db, [], []⟩

/-- What the step means for the calls of `connect_and_write`. -/
def ApplicationAction.writeEvent (s s' : Application σ Q O) : ApplicationAction Q → Option CallEvent
  | .pool (.write a) => a.event none s.pool.writer
  | .startWrite i _ =>
      if s'.expectPanics = s.expectPanics then none else some (.answered i .expectPanicked)
  | .endWrite i _ e b commits => some (.answered i (.ended (e = .unwind) (e.close b commits)))
  | .pool (.read _) | .pool .clone | .pool .dropClone | .startRead _ _ _ | .query _ _ _ => none
  | .exec _ _ _ | .endRead _ _ _ _ _ => none

/-- What the step means for the calls that read. -/
def ApplicationAction.readEvent (s s' : Application σ Q O) : ApplicationAction Q → Option CallEvent
  | .pool (.read a) => a.event none s.pool.readers
  | .startRead i _ _ =>
      if s'.expectPanics = s.expectPanics then none else some (.answered i .expectPanicked)
  | .endRead i _ e b commits => some (.answered i (.ended (e = .unwind) (e.close b commits)))
  | .pool (.write _) | .pool .clone | .pool .dropClone | .startWrite _ _ | .query _ _ _ => none
  | .exec _ _ _ | .endWrite _ _ _ _ _ => none

def Requests.step (E : Sqlite σ Q O) (x : Requests σ Q O) (a : ApplicationAction Q) :
    Option (Requests σ Q O) :=
  (x.execution.step E a).map fun y =>
    ⟨y, record y.committed.length x.writes (a.writeEvent x.execution.application y.application),
      record y.committed.length x.reads (a.readEvent x.execution.application y.application)⟩

/-- The step is one of such calls; `transaction` tells those of `connect_and_read_with_transaction`
from those of `connect_and_read`. -/
def ApplicationAction.ConnectsAndRuns (transaction : ℕ → Bool) (s : Application σ Q O) :
    ApplicationAction Q → Prop
  | .pool (.write a) => s.pool.writer.ConnectsAndRuns a
  | .pool (.read a) => s.pool.readers.ConnectsAndRuns a
  | .startRead i _ inTransaction => inTransaction = transaction i
  | .pool .clone | .pool .dropClone | .startWrite _ _ | .query _ _ _ | .exec _ _ _ => True
  | .endRead _ _ _ _ _ | .endWrite _ _ _ _ _ => True

instance (transaction : ℕ → Bool) (s : Application σ Q O) (a : ApplicationAction Q) :
    Decidable (a.ConnectsAndRuns transaction s) :=
  match a with
  | .pool (.write a) => inferInstanceAs (Decidable (s.pool.writer.ConnectsAndRuns a))
  | .pool (.read a) => inferInstanceAs (Decidable (s.pool.readers.ConnectsAndRuns a))
  | .startRead i _ inTransaction => inferInstanceAs (Decidable (inTransaction = transaction i))
  | .pool .clone | .pool .dropClone | .startWrite _ _ | .query _ _ _ | .exec _ _ _ => isTrue trivial
  | .endRead _ _ _ _ _ | .endWrite _ _ _ _ _ => isTrue trivial

/-- Closures do what they are written to do, end their transactions, and are run by such calls. -/
structure Requests.Admits (closures : Closures Q O) (transaction : ℕ → Bool) (x : Requests σ Q O)
    (a : ApplicationAction Q) : Prop where
  ends : a.EndsTransaction
  follows : x.execution.Follows closures a
  connects : a.ConnectsAndRuns transaction x.execution.application

end

/-! ## The runs of a holder -/

/-- The action ends its run. -/
def HolderAction.Ends : HolderAction → Prop
  | .run => False
  | .lock _ => False
  | .enter _ => False
  | .leave _ => True
  | .cancel _ => True

lemma ConnectionHolder.Valid.step_once {h h' : ConnectionHolder} {a : HolderAction} (hv : h.Valid)
    (honce : h.runs.length ≤ 1) (hrun : a = .run → h.runs = []) (hs : h.step a = some h') :
    h'.runs.length ≤ 1 ∧ (.finished ∈ h'.runs ↔ .finished ∈ h.runs ∨ a.Ends) ∧
      (a.Ends → .finished ∉ h.runs) := by
  -- the one run that there may be is number 0
  have hsingle : ∀ {r : ℕ} {st : RunState}, h.runs[r]? = some st → r = 0 ∧ h.runs = [st] := by
    intro r st hr
    have hlt := (List.getElem?_eq_some_iff.mp hr).1
    obtain ⟨st', hst'⟩ := List.length_eq_one_iff.mp (show h.runs.length = 1 by omega)
    obtain rfl : r = 0 := by omega
    rw [hst'] at hr
    cases hr
    exact ⟨rfl, hst'⟩
  cases a with
  | run =>
      cases hs
      simp [hrun rfl, HolderAction.Ends]
  | lock r =>
      simp only [ConnectionHolder.step] at hs
      split_ifs at hs with hc
      cases hs
      obtain ⟨rfl, hruns⟩ := hsingle hc.2
      simp [hruns, HolderAction.Ends]
  | enter r =>
      simp only [ConnectionHolder.step] at hs
      split_ifs at hs with hc
      obtain ⟨c, hconn⟩ := Option.isSome_iff_exists.mp hv.connection
      simp only [hconn, Option.some.injEq] at hs
      subst hs
      obtain ⟨rfl, hruns⟩ := hsingle hc
      simp [hruns, HolderAction.Ends]
  | leave r =>
      simp only [ConnectionHolder.step] at hs
      split_ifs at hs with hc
      cases hs
      obtain ⟨rfl, hruns⟩ := hsingle hc
      simp [hruns, HolderAction.Ends]
  | cancel r =>
      simp only [ConnectionHolder.step] at hs
      split_ifs at hs with hc hc'
      · cases hs
        obtain ⟨rfl, hruns⟩ := hsingle hc
        simp [hruns, HolderAction.Ends]
      · cases hs
        obtain ⟨rfl, hruns⟩ := hsingle hc'
        simp [hruns, HolderAction.Ends]

/-! ## The phases of a call -/

/-- The action ends a closure. -/
def CallAction.Leaves (a : CallAction) : Prop := ∃ r, a = .holder (.leave r)

/-- **A call is answered by the step that ends its future**, and by no other. -/
theorem Call.Valid.step_answer {call call' : Call} {a : CallAction} {e : Effect}
    {ended : Option CallAnswer} (hv : call.Valid) (honce : call.RunsOnce)
    (hok : call.ConnectsAndRuns a) (hended : a.Leaves → ended.isSome)
    (hs : call.step a = some (call', e)) :
    call'.RunsOnce ∧
      (call'.IsAnswered ↔ call.IsAnswered ∨ (call.answer ended a).isSome) ∧
      ((call.answer ended a).isSome → ¬ call.IsAnswered) := by
  cases call with
  | acquiring | granted | closed =>
      cases a <;> cases hs <;> simp [Call.RunsOnce, Call.IsAnswered, Call.answer]
  | detached obtained =>
      cases obtained <;> cases a <;> cases hs <;>
        simp [Call.RunsOnce, Call.IsAnswered, Call.answer]
  | fetching job =>
      cases job <;> cases a <;> cases hs <;>
        simp [Call.RunsOnce, Call.IsAnswered, Call.answer, ConnectionHolder.new]
  | held h =>
      cases a <;> try cases hs
      case holder b =>
        obtain ⟨h', hh', heq⟩ := Option.map_eq_some_iff.mp hs
        cases heq
        have hrun : b = .run → h.runs = [] := by
          rintro rfl
          exact hok
        have hstep := ConnectionHolder.Valid.step_once hv honce hrun hh'
        have hanswer : ((Call.held h).answer ended (.holder b)).isSome ↔ b.Ends := by
          cases b with
          | leave r => simpa [Call.answer, HolderAction.Ends] using hended ⟨r, rfl⟩
          | run | lock r | enter r | cancel r => simp [Call.answer, HolderAction.Ends]
        simpa only [Call.RunsOnce, Call.IsAnswered, hanswer] using hstep
      case drop =>
        simp only [Call.step] at hs
        split_ifs at hs with hover
        cases hs
        obtain ⟨st, hst⟩ := List.exists_mem_of_ne_nil h.runs hok
        have hfinished : .finished ∈ h.runs := by
          rw [← ConnectionHolder.Valid.finished hv hover st hst]
          exact hst
        simp [Call.RunsOnce, Call.IsAnswered, Call.answer, hfinished]
  | dropping h job =>
      have hanswered : call'.IsAnswered ∧ call'.RunsOnce := by
        rcases Call.step_dropping hv.2 hs with ⟨-, rfl, -⟩ | ⟨c, -, -, rfl, -⟩ | ⟨-, rfl, -⟩ |
          ⟨-, -, rfl, -⟩ <;> exact ⟨trivial, trivial⟩
      have hsilent : (Call.dropping h job).answer ended a = none := by
        cases job <;> cases a <;> first | rfl | cases hs
      refine ⟨hanswered.2, ⟨fun _ => Or.inl trivial, fun _ => hanswered.1⟩, ?_⟩
      simp [hsilent]

/-! ## The calls of a side -/

/-- The calls of the side and what they came to. -/
structure Side.Records (s : Side) (requests : List PoolRequest) : Prop where
  length : requests.length = s.calls.length
  once : ∀ call ∈ s.calls, call.RunsOnce
  answered : ∀ (i : ℕ) (call : Call) (request : PoolRequest), s.calls[i]? = some call →
    requests[i]? = some request → (request.answer.isSome ↔ call.IsAnswered)

section Sides

variable {s s' : Side} {requests : List PoolRequest} {m k : ℕ}

lemma Side.records_new (m : ℕ) : (Side.new m m).Records [] :=
  ⟨rfl, by simp [Side.new], by simp⟩

/-- What becomes of a call that a step answers, or does not. -/
lemma getElem?_record_answered {now i j : ℕ} {answer : Option CallAnswer} {request : PoolRequest}
    (h : (record now requests (answer.map (.answered i)))[j]? = some request) :
    ∃ before, requests[j]? = some before ∧ request.calledAt = before.calledAt ∧
      request.answer =
        if i = j ∧ answer.isSome then answer.map fun a => (a, now) else before.answer := by
  cases answer with
  | none => exact ⟨request, h, rfl, by simp⟩
  | some answer =>
      simp only [Option.map_some, record, List.getElem?_modify] at h
      obtain ⟨before, hbefore, rfl⟩ := Option.map_eq_some_iff.mp h
      refine ⟨before, hbefore, ?_, ?_⟩ <;> split_ifs <;> simp_all

lemma length_record_answered (now i : ℕ) (answer : Option CallAnswer) :
    (record now requests (answer.map (.answered i))).length = requests.length := by
  cases answer with
  | none => rfl
  | some answer => exact List.length_modify _ _ _

/-- **A call is answered once, when its future is over.** -/
theorem Side.Records.step {a : SideAction} {ended : Option CallAnswer} (h : s.Records requests)
    (hi : s.Inv m k) (hok : s.ConnectsAndRuns a)
    (hended : ∀ i b, a = .call i b → b.Leaves → ended.isSome) (hs : s.step a = some s')
    (now : ℕ) : s'.Records (record now requests (a.event ended s)) := by
  cases a with
  | get =>
      cases hs
      refine ⟨by simp [SideAction.event, record, h.length], ?_, ?_⟩
      · intro call hcall
        rcases List.mem_append.mp hcall with hcall | hcall
        · exact h.once call hcall
        · rw [List.mem_singleton.mp hcall]
          trivial
      · intro i call request hcall hrequest
        simp only [SideAction.event, record] at hrequest
        rcases Nat.lt_or_ge i s.calls.length with hlt | hge
        · rw [List.getElem?_append_left hlt] at hcall
          rw [List.getElem?_append_left (h.length ▸ hlt)] at hrequest
          exact h.answered i call request hcall hrequest
        · rw [List.getElem?_append_right hge] at hcall
          rw [List.getElem?_append_right (h.length ▸ hge)] at hrequest
          rw [h.length] at hrequest
          rw [List.getElem?_singleton] at hcall hrequest
          split_ifs at hcall hrequest
          cases hcall
          cases hrequest
          simp [Call.IsAnswered]
  | call i a =>
      obtain ⟨call, call', e, t, hget, hcall, ht, rfl⟩ := Side.step_call hs
      have hcalls := (Side.apply_spec ht (hi.lent_of_givenBack hget hcall)).1
      have hmem := List.mem_of_getElem? hget
      have hlt : i < s.calls.length := (List.getElem?_eq_some_iff.mp hget).1
      obtain ⟨honce, hanswered, -⟩ := (hi.valid call hmem).step_answer (h.once call hmem)
        (hok call hget) (hended i a rfl) hcall
      simp only [SideAction.event, hget, Option.bind_some]
      refine ⟨?_, fun call'' hmem'' => ?_, fun j call'' request hcall'' hrequest => ?_⟩
      · rw [length_record_answered, hcalls, List.length_set, h.length]
      · rw [hcalls] at hmem''
        rcases List.mem_or_eq_of_mem_set hmem'' with hold | rfl
        · exact h.once call'' hold
        · exact honce
      · obtain ⟨before, hbefore, -, hanswer⟩ := getElem?_record_answered hrequest
        rw [hanswer]
        rw [hcalls, List.getElem?_set] at hcall''
        by_cases hij : i = j
        · subst hij
          simp only [if_true, hlt] at hcall''
          cases hcall''
          rw [hanswered, ← h.answered i call before hget hbefore]
          cases call.answer ended a <;> simp
        · rw [if_neg hij] at hcall''
          rw [if_neg (by simp [hij])]
          exact h.answered j call'' before hcall'' hbefore

/-- What a step answers was not answered before. -/
lemma Side.Records.unanswered {a : SideAction} {ended : Option CallAnswer} (h : s.Records requests)
    (hi : s.Inv m k) (hok : s.ConnectsAndRuns a)
    (hended : ∀ i b, a = .call i b → b.Leaves → ended.isSome) (hs : s.step a = some s') {i : ℕ}
    {answer : CallAnswer} (hevent : a.event ended s = some (.answered i answer))
    {request : PoolRequest} (hrequest : requests[i]? = some request) : request.answer = none := by
  cases a with
  | get => cases hevent
  | call j a =>
      obtain ⟨call, call', e, t, hget, hcall, ht, rfl⟩ := Side.step_call hs
      have hmem := List.mem_of_getElem? hget
      simp only [SideAction.event, hget, Option.bind_some, Option.map_eq_some_iff] at hevent
      obtain ⟨answer', hanswer, heq⟩ := hevent
      cases heq
      obtain ⟨-, -, hnot⟩ := (hi.valid call hmem).step_answer (h.once call hmem)
        (hok call hget) (hended i a rfl) hcall
      have hnone := hnot (by rw [hanswer]; rfl)
      rw [← h.answered i call request hget hrequest] at hnone
      simpa using hnone

end Sides

end SqliteRwPool
