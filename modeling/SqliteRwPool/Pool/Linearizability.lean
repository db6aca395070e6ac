import SqliteRwPool.Pool.Requests

/-!
# Calls of `connect_and_read` and `connect_and_write` take effect at once

A call of `connect_and_write` whose closure commits takes effect at its commit, which lies between
the call and its answer; a call of `connect_and_read_with_transaction` sees the database as it was
at one moment between the call and its answer.  A call that is answered with an error, or whose
future is dropped before its closure has begun, has no effect.

* `PoolRequest.Commits`, `PoolRequest.Looked` — what an execution says of one call.
* `Requests.Inv.step` — every step keeps the calls and the execution in agreement.
* `requestsLinearizable` — every interleaving of calls is equivalent to one in which each of them
  happens at one moment, exactly once.
-/

namespace SqliteRwPool

open SnapshotStore Transition

section

variable {σ D Q O : Type}

/-! ## The step of a side behind a step of the pool -/

/-- The side takes the step that the event tells of, or none. -/
def Side.Emits (s s' : Side) (event : Option CallEvent) : Prop :=
  (s' = s ∧ event = none) ∨ ∃ a ended, s.step a = some s' ∧ s.ConnectsAndRuns a ∧
    (∀ i b, a = .call i b → b.Leaves → Option.isSome ended) ∧ event = a.event ended s

section Emits

variable {s s' : Side} {requests : List PoolRequest} {event : Option CallEvent} {m k : ℕ}

lemma Side.Records.emits (h : s.Records requests) (hi : s.Inv m k) (he : s.Emits s' event)
    (now : ℕ) : s'.Records (record now requests event) := by
  rcases he with ⟨rfl, rfl⟩ | ⟨a, ended, hs, hok, hended, rfl⟩
  · exact h
  · exact h.step hi hok hended hs now

lemma Side.Records.unanswered_of_emits (h : s.Records requests) (hi : s.Inv m k)
    (he : s.Emits s' event) {i : ℕ} {answer : CallAnswer}
    (hevent : event = some (.answered i answer)) {request : PoolRequest}
    (hrequest : requests[i]? = some request) : request.answer = none := by
  rcases he with ⟨rfl, rfl⟩ | ⟨a, ended, hs, hok, hended, rfl⟩
  · cases hevent
  · exact h.unanswered hi hok hended hs hevent hrequest

/-- The start of a closure answers nothing. -/
lemma Side.emits_enter {i r : ℕ} (hs : s.step (.call i (.holder (.enter r))) = some s') :
    s.Emits s' none := by
  refine Or.inr ⟨_, none, hs, fun call _ => ?_, ?_, ?_⟩
  · cases call <;> trivial
  · rintro j b heq ⟨r', rfl⟩
    cases heq
  · rw [SideAction.event]
    rcases s.calls[i]? with _ | call
    · rfl
    · cases call with
      | fetching job => cases job <;> rfl
      | acquiring | granted | detached _ | held _ | dropping _ _ | closed => rfl

/-- The end of a closure answers its call. -/
lemma Side.emits_leave {i r : ℕ} (hs : s.step (.call i (.holder (.leave r))) = some s')
    (answer : CallAnswer) : s.Emits s' (some (.answered i answer)) := by
  obtain ⟨call, -, -, -, hget, -⟩ := Side.step_call hs
  refine Or.inr ⟨_, some answer, hs, fun call _ => ?_, fun _ _ _ _ => rfl, ?_⟩
  · cases call <;> trivial
  · rw [SideAction.event, hget]
    cases call with
    | fetching job => cases job <;> rfl
    | acquiring | granted | detached _ | held _ | dropping _ _ | closed => rfl

lemma Side.emits_of_not_crosses {a : SideAction} (hs : s.step a = some s')
    (hok : s.ConnectsAndRuns a) (hcross : ∀ i r, a ≠ .call i (.holder (.leave r))) :
    s.Emits s' (a.event none s) := by
  refine Or.inr ⟨a, none, hs, hok, ?_, rfl⟩
  rintro i b rfl ⟨r, rfl⟩
  exact absurd rfl (hcross i r)

end Emits

section Events

variable {E : Sqlite σ Q O} {s s' : Application σ Q O} {a : ApplicationAction Q}
  {transaction : ℕ → Bool}

lemma Application.emits_writer (hok : a.ConnectsAndRuns transaction s) (hs : s.step E a = some s')
    (hno : s'.expectPanics = s.expectPanics) :
    s.pool.writer.Emits s'.pool.writer (a.writeEvent s s') := by
  cases a with
  | pool a =>
      simp only [Application.step] at hs
      split_ifs at hs with hcross
      obtain ⟨p, hp, rfl⟩ := Option.map_eq_some_iff.mp hs
      cases a with
      | write b =>
          refine Side.emits_of_not_crosses (PoolState.step_write hp).1 hok fun i r => ?_
          rintro rfl
          exact hcross rfl
      | read b => exact Or.inl ⟨(PoolState.step_read hp).2, rfl⟩
      | clone | dropClone =>
          rcases PoolState.step_writer hp with heq | ⟨b, heq, -⟩
          · exact Or.inl ⟨heq, rfl⟩
          · cases heq
  | startRead i r inTransaction =>
      obtain ⟨c, -, -, hpool, -⟩ := Application.startRead_cases hs hno
      exact Or.inl ⟨hpool, rfl⟩
  | startWrite i r =>
      rw [ApplicationAction.writeEvent, if_pos hno]
      exact Side.emits_enter (Application.startWrite_cases hs hno).1
  | query i r q =>
      obtain ⟨c, o, -, hpool, -⟩ := Application.query_cases hs
      exact Or.inl ⟨by rw [hpool], rfl⟩
  | exec i r q =>
      obtain ⟨c, o, -, hpool, -⟩ := Application.exec_cases hs
      exact Or.inl ⟨by rw [hpool], rfl⟩
  | endRead i r e b commits =>
      obtain ⟨c, -, -, hpool, -⟩ := Application.endRead_cases hs
      exact Or.inl ⟨hpool, rfl⟩
  | endWrite i r e b commits =>
      exact Side.emits_leave (Application.endWrite_cases hs).2.1 _

lemma Application.emits_readers (hok : a.ConnectsAndRuns transaction s)
    (hs : s.step E a = some s') (hno : s'.expectPanics = s.expectPanics) :
    s.pool.readers.Emits s'.pool.readers (a.readEvent s s') := by
  cases a with
  | pool a =>
      simp only [Application.step] at hs
      split_ifs at hs with hcross
      obtain ⟨p, hp, rfl⟩ := Option.map_eq_some_iff.mp hs
      cases a with
      | write b => exact Or.inl ⟨(PoolState.step_write hp).2, rfl⟩
      | read b =>
          refine Side.emits_of_not_crosses (PoolState.step_read hp).1 hok fun i r => ?_
          rintro rfl
          exact hcross rfl
      | clone | dropClone =>
          rcases PoolState.step_readers hp with heq | ⟨b, heq, -⟩
          · exact Or.inl ⟨heq, rfl⟩
          · cases heq
  | startRead i r inTransaction =>
      obtain ⟨c, -, hstep, -⟩ := Application.startRead_cases hs hno
      rw [ApplicationAction.readEvent, if_pos hno]
      exact Side.emits_enter hstep
  | startWrite i r => exact Or.inl ⟨(Application.startWrite_cases hs hno).2.1, rfl⟩
  | query i r q =>
      obtain ⟨c, o, -, hpool, -⟩ := Application.query_cases hs
      exact Or.inl ⟨by rw [hpool], rfl⟩
  | exec i r q =>
      obtain ⟨c, o, -, hpool, -⟩ := Application.exec_cases hs
      exact Or.inl ⟨by rw [hpool], rfl⟩
  | endRead i r e b commits =>
      obtain ⟨c, -, hstep, -⟩ := Application.endRead_cases hs
      exact Side.emits_leave hstep _
  | endWrite i r e b commits =>
      exact Or.inl ⟨(Application.endWrite_cases hs).2.2.1, rfl⟩

end Events

/-! ## What an execution says of one call -/

/-- The closure of the call committed at most once, as the last thing before the call was answered,
and it was answered so if it did. -/
structure PoolRequest.Commits (i : ℕ) (request : PoolRequest) (committed : List (ℕ × ℕ)) :
    Prop where
  called : request.calledAt ≤ committed.length
  position : ∀ n r : ℕ, committed[n]? = some (i, r) → r = 0 ∧ request.calledAt ≤ n ∧
    ∃ panicked, request.answer = some (.ended panicked .commit, n + 1)
  effect : ∀ panicked t, request.answer = some (.ended panicked .commit, t) →
    ∃ n : ℕ, t = n + 1 ∧ committed[n]? = some (i, 0)

lemma getElem?_concat_cases {α : Type*} {l : List α} {a b : α} {n : ℕ}
    (h : (l ++ [a])[n]? = some b) : l[n]? = some b ∨ n = l.length ∧ a = b := by
  rcases Nat.lt_or_ge n l.length with hlt | hge
  · rw [List.getElem?_append_left hlt] at h
    exact Or.inl h
  · rw [List.getElem?_append_right hge, List.getElem?_singleton] at h
    split_ifs at h with hzero
    cases h
    exact Or.inr ⟨by omega, rfl⟩

lemma getElem?_record {now i : ℕ} {requests : List PoolRequest} {event : Option CallEvent}
    {request : PoolRequest} (h : (record now requests event)[i]? = some request) :
    (i = requests.length ∧ event = some .called ∧ request = ⟨now, none⟩) ∨
      ∃ before, requests[i]? = some before ∧ request.calledAt = before.calledAt ∧
        ((request.answer = before.answer ∧ ∀ answer, event ≠ some (.answered i answer)) ∨
          ∃ answer, event = some (.answered i answer) ∧ request.answer = some (answer, now)) := by
  cases event with
  | none => exact Or.inr ⟨request, h, rfl, Or.inl ⟨rfl, by simp⟩⟩
  | some event =>
      cases event with
      | called =>
          rcases getElem?_concat_cases h with h | ⟨rfl, rfl⟩
          · exact Or.inr ⟨request, h, rfl, Or.inl ⟨rfl, by simp⟩⟩
          · exact Or.inl ⟨rfl, rfl, rfl⟩
      | answered j answer =>
          obtain ⟨before, hbefore, hcalled, hanswer⟩ :=
            @getElem?_record_answered requests now j i (some answer) request h
          refine Or.inr ⟨before, hbefore, hcalled, ?_⟩
          by_cases hji : j = i
          · subst hji
            exact Or.inr ⟨answer, rfl, by simpa using hanswer⟩
          · exact Or.inl ⟨by simpa [hji] using hanswer, by simp [hji]⟩

section Bookkeeping

variable {requests : List PoolRequest} {event : Option CallEvent}

/-- The event commits these runs: run 0 of the call that it answers so, or none. -/
def CallEvent.Committing (requests : List PoolRequest) (event : Option CallEvent)
    (runs : List (ℕ × ℕ)) : Prop :=
  (runs = [] ∧ ∀ i panicked, event ≠ some (.answered i (.ended panicked .commit))) ∨
    ∃ i panicked, i < requests.length ∧ event = some (.answered i (.ended panicked .commit)) ∧
      runs = [(i, 0)]

/-- Whom a call was answered is not called again. -/
def CallEvent.Fresh (requests : List PoolRequest) (event : Option CallEvent) : Prop :=
  ∀ i answer request, event = some (.answered i answer) → requests[i]? = some request →
    request.answer = none

lemma length_le_length_record (now : ℕ) (requests : List PoolRequest) (event : Option CallEvent) :
    requests.length ≤ (record now requests event).length := by
  rcases event with _ | _ | ⟨i, answer⟩ <;> simp [record]

lemma PoolRequest.Commits.record {committed runs : List (ℕ × ℕ)}
    (h : ∀ (i : ℕ) (request : PoolRequest), requests[i]? = some request →
      request.Commits i committed)
    (hbounded : ∀ run ∈ committed, run.1 < requests.length)
    (hfresh : CallEvent.Fresh requests event) (hruns : CallEvent.Committing requests event runs)
    {i : ℕ} {request : PoolRequest}
    (hrequest : (record (committed ++ runs).length requests event)[i]? = some request) :
    request.Commits i (committed ++ runs) := by
  have hlength : committed.length ≤ (committed ++ runs).length := by simp
  rcases getElem?_record hrequest with ⟨rfl, rfl, rfl⟩ | ⟨before, hbefore, hcalled, hanswer⟩
  · -- the call has just been made, and nothing of it has happened
    obtain ⟨rfl, -⟩ : runs = [] ∧ True := by
      rcases hruns with ⟨rfl, -⟩ | ⟨i, panicked, -, heq, -⟩
      · exact ⟨rfl, trivial⟩
      · cases heq
    rw [List.append_nil]
    refine ⟨by simp, fun n r hn => ?_, fun panicked t ht => by cases ht⟩
    exact absurd (hbounded _ (List.mem_of_getElem? hn)) (Nat.lt_irrefl _)
  · obtain ⟨hbound, hposition, heffect⟩ := h i before hbefore
    rcases hanswer with ⟨hsame, hother⟩ | ⟨answer, rfl, hanswer⟩
    · -- the step is not about this call
      have hold : ∀ n r : ℕ, (committed ++ runs)[n]? = some (i, r) →
          committed[n]? = some (i, r) := by
        intro n r hn
        rcases hruns with ⟨rfl, -⟩ | ⟨j, panicked, -, heq, rfl⟩
        · rwa [List.append_nil] at hn
        · rcases getElem?_concat_cases hn with hn | ⟨-, hrun⟩
          · exact hn
          · cases hrun
            exact absurd heq (hother _)
      refine ⟨by omega, fun n r hn => ?_, fun panicked t ht => ?_⟩
      · rw [hcalled, hsame]
        exact hposition n r (hold n r hn)
      · rw [hsame] at ht
        obtain ⟨n, rfl, hn⟩ := heffect panicked t ht
        refine ⟨n, rfl, ?_⟩
        rw [List.getElem?_append_left (List.getElem?_eq_some_iff.mp hn).1]
        exact hn
    · -- the step answers this call, which has not committed before
      have hnone := hfresh i answer before rfl hbefore
      have hnot : ∀ n r : ℕ, committed[n]? ≠ some (i, r) := by
        intro n r hn
        obtain ⟨-, -, panicked, heq⟩ := hposition n r hn
        rw [hnone] at heq
        cases heq
      rcases hruns with ⟨rfl, hother⟩ | ⟨j, panicked, -, heq, rfl⟩
      · rw [List.append_nil] at hrequest hanswer ⊢
        refine ⟨by omega, fun n r hn => absurd hn (hnot n r), fun panicked t ht => ?_⟩
        rw [hanswer] at ht
        cases ht
        exact absurd rfl (hother i panicked)
      · cases heq
        refine ⟨by omega, fun n r hn => ?_, fun panicked' t ht => ?_⟩
        · rcases getElem?_concat_cases hn with hn | ⟨rfl, hrun⟩
          · exact absurd hn (hnot n r)
          · cases hrun
            exact ⟨rfl, by omega, panicked, by rw [hanswer]; simp⟩
        · rw [hanswer] at ht
          cases ht
          exact ⟨committed.length, by simp, by simp⟩

/-- The reads of the call in a transaction: there is one if its closure has ended, and it began
after the call was made and ended before it was answered. -/
structure PoolRequest.Looked (i : ℕ) (request : PoolRequest) (transaction : Bool) (now : ℕ)
    (reads : List (Option (ℕ × ℕ))) (records : List (ReadRecord Q O)) : Prop where
  called : request.calledAt ≤ now
  position : ∀ n r : ℕ, reads[n]? = some (some (i, r)) → r = 0 ∧ ∃ record panicked close t,
    records[n]? = some record ∧ request.calledAt ≤ record.began ∧
      request.answer = some (.ended panicked close, t) ∧ record.ended ≤ t
  once : ∀ panicked close t, request.answer = some (.ended panicked close, t) →
    transaction = true → reads.count (some (i, 0)) = 1

/-- The event is the end of these reads: of run 0 of the call that it answers, or of none. -/
def CallEvent.Looking (transaction : ℕ → Bool) (requests : List PoolRequest) (now : ℕ)
    (event : Option CallEvent) (runs : List (Option (ℕ × ℕ))) (more : List (ReadRecord Q O)) :
    Prop :=
  ((∀ run ∈ runs, run = none) ∧ ∀ i panicked close,
      event = some (.answered i (.ended panicked close)) → transaction i = false) ∨
    ∃ i panicked close record, i < requests.length ∧
      event = some (.answered i (.ended panicked close)) ∧ runs = [some (i, 0)] ∧
      more = [record] ∧ record.ended ≤ now ∧
      ∀ request, requests[i]? = some request → request.calledAt ≤ record.began

/-- A read that is over was over before, or it is the one whose end the event is. -/
lemma CallEvent.Looking.getElem?_append {transaction : ℕ → Bool} {now : ℕ}
    {reads runs : List (Option (ℕ × ℕ))} {more : List (ReadRecord Q O)}
    (h : CallEvent.Looking transaction requests now event runs more) {n j r : ℕ}
    (hn : (reads ++ runs)[n]? = some (some (j, r))) :
    reads[n]? = some (some (j, r)) ∨ ∃ panicked close record, n = reads.length ∧ r = 0 ∧
      event = some (.answered j (.ended panicked close)) ∧ more = [record] ∧
      record.ended ≤ now ∧
      ∀ request, requests[j]? = some request → request.calledAt ≤ record.began := by
  rcases h with ⟨hnone, -⟩ | ⟨i, panicked, close, record, -, hevent, rfl, hmore, hended, hbegan⟩
  · rcases Nat.lt_or_ge n reads.length with hlt | hge
    · rw [List.getElem?_append_left hlt] at hn
      exact Or.inl hn
    · rw [List.getElem?_append_right hge] at hn
      cases hnone _ (List.mem_of_getElem? hn)
  · rcases getElem?_concat_cases hn with hn | ⟨rfl, heq⟩
    · exact Or.inl hn
    · cases heq
      exact Or.inr ⟨panicked, close, record, rfl, rfl, hevent, hmore, hended, hbegan⟩

/-- The event ends no read of a call that it does not answer so. -/
lemma CallEvent.Looking.count_eq_zero {transaction : ℕ → Bool} {now : ℕ}
    {runs : List (Option (ℕ × ℕ))} {more : List (ReadRecord Q O)}
    (h : CallEvent.Looking transaction requests now event runs more) {j : ℕ}
    (hother : ∀ panicked close, event ≠ some (.answered j (.ended panicked close))) :
    runs.count (some (j, 0)) = 0 := by
  refine List.count_eq_zero.mpr fun hmem => ?_
  rcases h with ⟨hnone, -⟩ | ⟨i, panicked, close, record, -, hevent, rfl, -⟩
  · cases hnone _ hmem
  · cases List.mem_singleton.mp hmem
    exact hother panicked close hevent

lemma PoolRequest.Looked.record {transaction : ℕ → Bool} {now now' : ℕ}
    {reads runs : List (Option (ℕ × ℕ))} {records more : List (ReadRecord Q O)}
    (h : ∀ (i : ℕ) (request : PoolRequest), requests[i]? = some request →
      request.Looked i (transaction i) now reads records)
    (hbounded : ∀ run, some run ∈ reads → run.1 < requests.length)
    (hlength : reads.length = records.length) (hnow : now ≤ now')
    (hfresh : CallEvent.Fresh requests event)
    (hruns : CallEvent.Looking transaction requests now' event runs more) {i : ℕ}
    {request : PoolRequest}
    (hrequest : (record now' requests event)[i]? = some request) :
    request.Looked i (transaction i) now' (reads ++ runs) (records ++ more) := by
  -- the reads that were over stay where they were
  have hold : ∀ (n : ℕ) (record : ReadRecord Q O), records[n]? = some record →
      (records ++ more)[n]? = some record := by
    intro n record hn
    rw [List.getElem?_append_left (List.getElem?_eq_some_iff.mp hn).1]
    exact hn
  rcases getElem?_record hrequest with ⟨rfl, rfl, rfl⟩ | ⟨before, hbefore, hcalled, hanswer⟩
  · refine ⟨by simp, fun n r hn => ?_, fun panicked close t ht => by cases ht⟩
    rcases hruns.getElem?_append hn with hn | ⟨panicked, close, record, -, -, heq, -⟩
    · exact absurd (hbounded _ (List.mem_of_getElem? hn)) (Nat.lt_irrefl _)
    · cases heq
  · obtain ⟨hbound, hposition, honce⟩ := h i before hbefore
    rcases hanswer with ⟨hsame, hother⟩ | ⟨answer, rfl, hanswer⟩
    · -- the step is not about this call
      refine ⟨by omega, fun n r hn => ?_, fun panicked close t ht htransaction => ?_⟩
      · rcases hruns.getElem?_append hn with hn | ⟨panicked, close, record, -, -, heq, -⟩
        · obtain ⟨hr, record, panicked, close, t, hrecord, hbegan, ht, hended⟩ := hposition n r hn
          exact ⟨hr, record, panicked, close, t, hold n record hrecord, by omega,
            by rw [hsame, ht], hended⟩
        · exact absurd heq (hother _)
      · rw [hsame] at ht
        rw [List.count_append, honce panicked close t ht htransaction,
          hruns.count_eq_zero fun panicked close => hother _]
    · -- the step answers this call, whose closure has not ended before
      have hnone := hfresh i answer before rfl hbefore
      have hnot : ∀ n r : ℕ, reads[n]? ≠ some (some (i, r)) := by
        intro n r hn
        obtain ⟨-, record, panicked, close, t, -, -, heq, -⟩ := hposition n r hn
        rw [hnone] at heq
        cases heq
      refine ⟨by omega, fun n r hn => ?_, fun panicked close t ht htransaction => ?_⟩
      · rcases hruns.getElem?_append hn with hn |
          ⟨panicked, close, record, rfl, hr, heq, rfl, hended, hbegan⟩
        · exact absurd hn (hnot n r)
        · cases heq
          exact ⟨hr, record, panicked, close, now', by simp [hlength],
            by rw [hcalled]; exact hbegan before hbefore, hanswer, hended⟩
      · rw [hanswer] at ht
        cases ht
        rcases hruns with ⟨-, hno⟩ | ⟨j, panicked', close', record, -, heq, rfl, -⟩
        · rw [hno i panicked close rfl] at htransaction
          cases htransaction
        · cases heq
          rw [List.count_append, List.count_eq_zero.mpr fun hmem => ?_]
          · simp
          · obtain ⟨n, hn⟩ := List.mem_iff_getElem?.mp hmem
            exact hnot n 0 hn

end Bookkeeping

/-! ## Open read transactions -/

/-- A closure that reads has a transaction exactly in a call of `connect_and_read_with_transaction`,
and it began after the call was made. -/
structure Application.Reading (transaction : ℕ → Bool) (requests : List PoolRequest)
    (s : Application σ Q O) : Prop where
  transactions : ∀ i r c, s.pool.readers.ExecutingOn i r c →
    (s.HasTransaction i r ↔ transaction i = true)
  began : ∀ i r c request, s.pool.readers.ExecutingOn i r c → s.HasTransaction i r →
    requests[i]? = some request → request.calledAt ≤ (s.history.reading c).1

section Reading

variable {E : Sqlite σ Q O} {s s' : Application σ Q O} {requests : List PoolRequest}
  {transaction : ℕ → Bool} {m : ℕ}

lemma Application.Reading.frame (h : s.Reading transaction requests)
    (hpool : ∀ i r c, s'.pool.readers.ExecutingOn i r c → s.pool.readers.ExecutingOn i r c)
    (htransactions : s'.transactions = s.transactions)
    (hreading : ∀ c, (s'.history.reading c).1 = (s.history.reading c).1) :
    s'.Reading transaction requests := by
  refine ⟨fun i r c hex => ?_, fun i r c request hex hmem hrequest => ?_⟩
  · rw [Application.HasTransaction, htransactions]
    exact h.transactions i r c (hpool i r c hex)
  · rw [Application.HasTransaction, htransactions] at hmem
    rw [hreading]
    exact h.began i r c request (hpool i r c hex) hmem hrequest

/-- A read closure that starts has a transaction if it asks for one. -/
lemma Application.hasTransaction_startRead {i r : ℕ} {inTransaction : Bool}
    (hnew : (i, r) ∉ s.transactions) (hs : s.startRead E i r inTransaction = some s')
    (hno : s'.expectPanics = s.expectPanics) :
    s'.HasTransaction i r ↔ inTransaction = true := by
  simp only [Application.startRead, Option.bind_eq_bind, Option.bind_eq_some_iff] at hs
  obtain ⟨c, -, p, -, hs⟩ := hs
  split_ifs at hs with hin
  · split at hs
    · cases hs
      simp [Application.HasTransaction, hin]
    · obtain ⟨p', -, hs⟩ := Option.bind_eq_some_iff.mp hs
      cases hs
      simp at hno
  · cases hs
    simp [Application.HasTransaction, hin, hnew]

lemma Application.Reading.startRead (h : s.Reading transaction requests)
    (hr : s.pool.readers.Inv m m) {i r : ℕ} {inTransaction : Bool}
    (hok : inTransaction = transaction i) (hnew : (i, r) ∉ s.transactions)
    (hcalled : ∀ request ∈ requests, request.calledAt ≤ s.history.committed.length)
    (hs : s.startRead E i r inTransaction = some s') (hno : s'.expectPanics = s.expectPanics) :
    s'.Reading transaction requests := by
  have hself := Application.hasTransaction_startRead hnew hs hno
  obtain ⟨c, hc, hstep, -, hcases⟩ := Application.startRead_cases hs hno
  have hold : ∀ j q c', s'.pool.readers.ExecutingOn j q c' →
      (s.pool.readers.ExecutingOn j q c' ∧ c' ≠ c ∧ (j, q) ≠ (i, r)) ∨ (j, q, c') = (i, r, c) := by
    intro j q c' hex
    rcases (hr.step_executingOn hstep j q c').mp hex with ⟨hex, -⟩ | ⟨heq, hc'⟩
    · refine Or.inl ⟨hex, ?_, ?_⟩
      · rintro rfl
        exact hr.not_executingOn_of_enter hc hstep j q hex
      · intro heq
        cases heq
        exact Side.not_executingOn_of_enter hstep c' hex
    · cases heq
      rw [hc, Option.some.injEq] at hc'
      exact Or.inr (by rw [hc'])
  have hother : ∀ j q, (j, q) ≠ (i, r) → (s'.HasTransaction j q ↔ s.HasTransaction j q) := by
    intro j q hne
    simp only [Application.HasTransaction]
    rcases hcases with ⟨htransactions, -⟩ | ⟨htransactions, -⟩
    · rw [htransactions, List.mem_cons, or_iff_right hne]
    · rw [htransactions]
  refine ⟨fun j q c' hex => ?_, fun j q c' request hex hmem hrequest => ?_⟩
  · rcases hold j q c' hex with ⟨hex, -, hne⟩ | heq
    · rw [hother j q hne]
      exact h.transactions j q c' hex
    · cases heq
      rw [hself, hok]
  · rcases hold j q c' hex with ⟨hex, hcc, hne⟩ | heq
    · rw [hother j q hne] at hmem
      have hreading : s'.history.reading c' = s.history.reading c' := by
        rcases hcases with ⟨-, hhistory⟩ | ⟨-, hhistory⟩
        · simp only [hhistory, History.beginDeferred, Function.update_of_ne hcc]
        · rw [hhistory]
      rw [hreading]
      exact h.began j q c' request hex hmem hrequest
    · cases heq
      rcases hcases with ⟨-, hhistory⟩ | ⟨htransactions, -⟩
      · simp only [hhistory, History.beginDeferred, Function.update_self]
        exact hcalled request (List.mem_of_getElem? hrequest)
      · rw [Application.HasTransaction, htransactions] at hmem
        exact absurd hmem hnew

lemma Application.Reading.endRead (h : s.Reading transaction requests)
    (hr : s.pool.readers.Inv m m) {i r : ℕ} {close : Close}
    (hs : s.endRead E i r close = some s') : s'.Reading transaction requests := by
  obtain ⟨c, -, hstep, -, htransactions, hhistory⟩ := Application.endRead_cases hs
  have hreading : s'.history.reading = s.history.reading := by
    rw [hhistory]
    split_ifs <;> rfl
  have hold : ∀ j q c', s'.pool.readers.ExecutingOn j q c' →
      s.pool.readers.ExecutingOn j q c' ∧ (s'.HasTransaction j q ↔ s.HasTransaction j q) := by
    intro j q c' hex
    rcases (hr.step_executingOn hstep j q c').mp hex with ⟨hex, hne⟩ | ⟨heq, -⟩
    · have hother : (j, q) ≠ (i, r) := by
        rintro heq
        cases heq
        exact hne rfl
      refine ⟨hex, ?_⟩
      rw [Application.HasTransaction, htransactions, List.mem_filter, decide_eq_true_eq,
        and_iff_left hother]
      rfl
    · cases heq
  refine ⟨fun j q c' hex => ?_, fun j q c' request hex hmem hrequest => ?_⟩
  · rw [(hold j q c' hex).2]
    exact h.transactions j q c' (hold j q c' hex).1
  · rw [(hold j q c' hex).2] at hmem
    rw [hreading]
    exact h.began j q c' request (hold j q c' hex).1 hmem hrequest

/-- **Every step keeps the open read transactions in agreement with their calls.** -/
theorem Application.Reading.step {a : ApplicationAction Q} (h : s.Reading transaction requests)
    (hw : s.pool.writer.Inv 1 1) (hr : s.pool.readers.Inv m m)
    (htransactions : ∀ i r, (i, r) ∈ s.transactions → ∃ c, s.pool.readers.ExecutingOn i r c)
    (hcalled : ∀ request ∈ requests, request.calledAt ≤ s.history.committed.length)
    (hok : a.ConnectsAndRuns transaction s) (hs : s.step E a = some s')
    (hno : s'.expectPanics = s.expectPanics) : s'.Reading transaction requests := by
  cases a with
  | pool a =>
      simp only [Application.step] at hs
      split_ifs at hs with hcross
      obtain ⟨p, hp, rfl⟩ := Option.map_eq_some_iff.mp hs
      have hex := PoolState.executingOn_of_not_crosses hw hr hp (by simpa using hcross)
      exact h.frame (fun i r c => ((hex i r c).2).mp) rfl fun _ => rfl
  | startRead i r inTransaction =>
      obtain ⟨c, -, hstep, -⟩ := Application.startRead_cases hs hno
      refine h.startRead hr hok (fun hmem => ?_) hcalled hs hno
      obtain ⟨c', hc'⟩ := htransactions i r hmem
      exact Side.not_executingOn_of_enter hstep c' hc'
  | startWrite i r =>
      obtain ⟨-, hpool, htrans, hhistory⟩ := Application.startWrite_cases hs hno
      refine h.frame (fun i r c hex => ?_) htrans fun c => by rw [hhistory]; rfl
      rwa [hpool] at hex
  | query i r q =>
      obtain ⟨c, o, -, hpool, htrans, hhistory⟩ := Application.query_cases hs
      refine h.frame (fun i r c hex => ?_) htrans fun c' => ?_
      · rwa [hpool] at hex
      · rw [hhistory]
        split_ifs
        · by_cases hcc : c' = c
          · subst hcc
            simp [History.query]
          · simp [History.query, hcc]
        · rfl
  | exec i r q =>
      obtain ⟨c, o, -, hpool, htrans, hhistory⟩ := Application.exec_cases hs
      refine h.frame (fun i r c hex => ?_) htrans fun c => by rw [hhistory]; rfl
      rwa [hpool] at hex
  | endRead i r e b commits => exact h.endRead hr hs
  | endWrite i r e b commits =>
      obtain ⟨-, -, hpool, htrans, hhistory⟩ := Application.endWrite_cases hs
      refine h.frame (fun i r c hex => ?_) htrans fun c => ?_
      · rwa [hpool] at hex
      · rw [hhistory]
        cases e.close b commits <;> rfl

end Reading

/-! ## Whole runs -/

/-- The calls and the execution agree. -/
structure Requests.Inv (L : Language D Q O) (view : σ → Store Conn Conn D)
    (closures : Closures Q O) (transaction : ℕ → Bool) (d : D) (m : ℕ) (x : Requests σ Q O) :
    Prop where
  execution : x.execution.Inv L view closures d m
  writer : x.execution.application.pool.writer.Records x.writes
  readers : x.execution.application.pool.readers.Records x.reads
  commits : ∀ (i : ℕ) (request : PoolRequest), x.writes[i]? = some request →
    request.Commits i x.execution.committed
  committed : ∀ run ∈ x.execution.committed, run.1 < x.writes.length
  looked : ∀ (i : ℕ) (request : PoolRequest), x.reads[i]? = some request →
    request.Looked i (transaction i) x.execution.committed.length x.execution.reads
      x.execution.application.history.reads
  readBy : ∀ run, some run ∈ x.execution.reads → run.1 < x.reads.length
  reading : x.execution.application.Reading transaction x.reads

section Runs

variable {E : Sqlite σ Q O} {L : Language D Q O} {view : σ → Store Conn Conn D}
  {closures : Closures Q O} {transaction : ℕ → Bool} {d : D} {m : ℕ} {x x' : Requests σ Q O}
  {a : ApplicationAction Q}

lemma Requests.inv_new {db : σ} (hdb : view db = .fresh d) :
    (Requests.new m db : Requests σ Q O).Inv L view closures transaction d m := by
  have hnone : ∀ i r c, ¬ (Side.new m m).ExecutingOn i r c := by
    rintro i r c ⟨call, -, hget, -⟩
    simp [Side.new] at hget
  have hreading : (Requests.new m db : Requests σ Q O).execution.application.Reading transaction
      (Requests.new m db : Requests σ Q O).reads :=
    ⟨fun i r c hex => absurd hex (hnone i r c), fun i r c _ hex => absurd hex (hnone i r c)⟩
  refine ⟨Execution.inv_new L closures m hdb, Side.records_new 1, Side.records_new m, ?_, ?_, ?_,
    ?_, hreading⟩ <;>
    simp [Requests.new, Execution.new]

/-- A closure that executes is the one run of its holder. -/
lemma Side.Records.run_eq_zero {s : Side} {requests : List PoolRequest} (h : s.Records requests)
    {k n : ℕ} (hi : s.Inv k n) {i r : ℕ} {c : Conn} (hex : s.ExecutingOn i r c) :
    r = 0 ∧ i < requests.length := by
  obtain ⟨holder, -, hget, -, hrun, -⟩ := hi.held_of_executing hex.executing
  have hr := (List.getElem?_eq_some_iff.mp hrun).1
  have hlt := (List.getElem?_eq_some_iff.mp hget).1
  have honce := h.once _ (List.mem_of_getElem? hget)
  simp only [Call.RunsOnce] at honce
  exact ⟨by omega, h.length ▸ hlt⟩

/-- Steps that end no closure do not answer that one has ended. -/
lemma SideAction.event_ne_ended (s : Side) (a : SideAction) (i : ℕ) (panicked : Bool)
    (close : Close) : a.event none s ≠ some (.answered i (.ended panicked close)) := by
  have hcall : ∀ (call : Call) (a : CallAction),
      call.answer none a ≠ some (.ended panicked close) := by
    intro call a
    rw [Call.answer.eq_def]
    split <;> simp
  cases a with
  | get => simp [SideAction.event]
  | call j a =>
      rw [SideAction.event]
      rcases s.calls[j]? with _ | call
      · simp
      · simp [hcall call a]

lemma Requests.Inv.committing {s' : Application σ Q O}
    (hi : x.Inv L view closures transaction d m) (hs : x.execution.application.step E a = some s')
    (hno : s'.expectPanics = x.execution.application.expectPanics) :
    CallEvent.Committing x.writes (a.writeEvent x.execution.application s') a.commits := by
  cases a with
  | pool a =>
      cases a with
      | write b => exact Or.inl ⟨rfl, fun i p => SideAction.event_ne_ended _ b i p .commit⟩
      | read b => exact Or.inl ⟨rfl, fun i p => by simp [ApplicationAction.writeEvent]⟩
      | clone | dropClone => exact Or.inl ⟨rfl, fun i p => by simp [ApplicationAction.writeEvent]⟩
  | startWrite i r => exact Or.inl ⟨rfl, fun j p => by simp [ApplicationAction.writeEvent, hno]⟩
  | startRead i r inTransaction =>
      exact Or.inl ⟨rfl, fun j p => by simp [ApplicationAction.writeEvent]⟩
  | query i r q => exact Or.inl ⟨rfl, fun j p => by simp [ApplicationAction.writeEvent]⟩
  | exec i r q => exact Or.inl ⟨rfl, fun j p => by simp [ApplicationAction.writeEvent]⟩
  | endRead i r e b commits =>
      exact Or.inl ⟨rfl, fun j p => by simp [ApplicationAction.writeEvent]⟩
  | endWrite i r e b commits =>
      obtain ⟨⟨c, hex⟩, -⟩ := Application.endWrite_cases hs
      obtain ⟨rfl, hlt⟩ := hi.writer.run_eq_zero hi.execution.application.writer hex
      by_cases hclose : e.close b commits = .commit
      · exact Or.inr ⟨i, e = .unwind, hlt, by rw [ApplicationAction.writeEvent, hclose],
          by rw [ApplicationAction.commits, if_pos hclose]⟩
      · refine Or.inl ⟨by rw [ApplicationAction.commits, if_neg hclose], fun j p => ?_⟩
        simp [ApplicationAction.writeEvent, hclose]

lemma Requests.Inv.looking {s' : Application σ Q O}
    (hi : x.Inv L view closures transaction d m) (hs : x.execution.application.step E a = some s')
    (hno : s'.expectPanics = x.execution.application.expectPanics) (hends : a.EndsTransaction)
    {now : ℕ} (hnow : x.execution.committed.length ≤ now) :
    ∃ more, s'.history.reads = x.execution.application.history.reads ++ more ∧
      CallEvent.Looking transaction x.reads now
        (a.readEvent x.execution.application s') (a.reads x.execution.application) more := by
  have hlength : x.execution.application.history.committed.length = x.execution.committed.length :=
    hi.execution.writes.committed.length_eq.symm
  -- a step that ends no read answers no call so
  have hsilent : ∀ {event : Option CallEvent},
      s'.history.reads = x.execution.application.history.reads →
      a.reads x.execution.application = [] →
      (∀ i panicked close, event ≠ some (.answered i (.ended panicked close))) →
      ∃ more, s'.history.reads = x.execution.application.history.reads ++ more ∧
        CallEvent.Looking transaction x.reads now event
          (a.reads x.execution.application) more := by
    intro event hhistory hreads hevent
    refine ⟨[], by rw [hhistory, List.append_nil], Or.inl ⟨?_, ?_⟩⟩
    · rw [hreads]
      simp
    · intro i panicked close heq
      exact absurd heq (hevent i panicked close)
  cases a with
  | pool a =>
      simp only [Application.step] at hs
      split_ifs at hs
      obtain ⟨p, -, rfl⟩ := Option.map_eq_some_iff.mp hs
      cases a with
      | read b => exact hsilent rfl rfl fun i p c => SideAction.event_ne_ended _ b i p c
      | write b => exact hsilent rfl rfl fun i p c => by simp [ApplicationAction.readEvent]
      | clone | dropClone =>
          exact hsilent rfl rfl fun i p c => by simp [ApplicationAction.readEvent]
  | startRead i r inTransaction =>
      obtain ⟨c, -, -, -, hcases⟩ := Application.startRead_cases hs hno
      refine hsilent ?_ rfl fun i p c => by simp [ApplicationAction.readEvent, hno]
      rcases hcases with ⟨-, hhistory⟩ | ⟨-, hhistory⟩ <;> rw [hhistory]
      rfl
  | startWrite i r =>
      obtain ⟨-, -, -, hhistory⟩ := Application.startWrite_cases hs hno
      exact hsilent (by rw [hhistory]; rfl) rfl fun i p c => by simp [ApplicationAction.readEvent]
  | exec i r q =>
      obtain ⟨c, o, -, -, -, hhistory⟩ := Application.exec_cases hs
      exact hsilent (by rw [hhistory]; rfl) rfl fun i p c => by simp [ApplicationAction.readEvent]
  | endWrite i r e b commits =>
      obtain ⟨-, -, -, -, hhistory⟩ := Application.endWrite_cases hs
      refine hsilent ?_ rfl fun i p c => by simp [ApplicationAction.readEvent]
      rw [hhistory]
      cases e.close b commits <;> rfl
  | query i r q =>
      obtain ⟨c, o, -, -, -, hhistory⟩ := Application.query_cases hs
      by_cases hmem : x.execution.application.HasTransaction i r
      · rw [if_pos hmem] at hhistory
        exact hsilent (by rw [hhistory]; rfl) (by rw [ApplicationAction.reads, if_pos hmem])
          fun i p c => by simp [ApplicationAction.readEvent]
      · rw [if_neg hmem] at hhistory
        rw [ApplicationAction.reads, if_neg hmem, hhistory]
        exact ⟨_, rfl, Or.inl ⟨by simp, fun j p c heq => by cases heq⟩⟩
  | endRead i r e b commits =>
      obtain ⟨c, hc, -, -, -, hhistory⟩ := Application.endRead_cases hs
      have hex := Side.executing?_eq_some.mp hc
      obtain ⟨rfl, hlt⟩ := hi.readers.run_eq_zero hi.execution.application.readers hex
      have htransaction := hi.reading.transactions i 0 c hex
      by_cases hmem : x.execution.application.HasTransaction i 0
      · rw [if_pos ⟨hmem, hends⟩] at hhistory
        rw [ApplicationAction.reads, if_pos ⟨hmem, hends⟩, hhistory]
        refine ⟨_, rfl, Or.inr ⟨i, _, _, _, hlt, rfl, rfl, rfl, hlength.le.trans hnow, ?_⟩⟩
        intro request hrequest
        exact hi.reading.began i 0 c request hex hmem hrequest
      · rw [if_neg fun h => hmem h.1] at hhistory
        rw [ApplicationAction.reads, if_neg fun h => hmem h.1, hhistory]
        refine ⟨[], (List.append_nil _).symm, Or.inl ⟨by simp, fun j p close heq => ?_⟩⟩
        cases heq
        simpa using mt htransaction.mpr hmem

/-- A call that is being made does not execute a closure. -/
lemma Requests.Inv.not_executing_of_called {s' : Application σ Q O}
    (hi : x.Inv L view closures transaction d m) (hs : x.execution.application.step E a = some s')
    (hcalled : a.readEvent x.execution.application s' = some .called) (r : ℕ) (c : Conn) :
    ¬ s'.pool.readers.ExecutingOn x.reads.length r c := by
  intro hex
  cases a with
  | pool a =>
      simp only [Application.step] at hs
      split_ifs at hs with hcross
      obtain ⟨p, hp, rfl⟩ := Option.map_eq_some_iff.mp hs
      have hsame := PoolState.executingOn_of_not_crosses hi.execution.application.writer
        hi.execution.application.readers hp (by simpa using hcross)
      have hold := (hsame x.reads.length r c).2.mp hex
      exact Nat.lt_irrefl _ (hi.readers.run_eq_zero hi.execution.application.readers hold).2
  | startRead i r inTransaction =>
      rw [ApplicationAction.readEvent] at hcalled
      split_ifs at hcalled
      cases hcalled
  | startWrite _ _ | query _ _ _ | exec _ _ _ | endWrite _ _ _ _ _ => cases hcalled
  | endRead _ _ _ _ _ => cases hcalled

/-- **Every step keeps the calls and the execution in agreement.** -/
theorem Requests.Inv.step (hE : E.Refines L view) (hi : x.Inv L view closures transaction d m)
    (hok : x.Admits closures transaction a) (hs : x.step E a = some x') :
    x'.Inv L view closures transaction d m := by
  obtain ⟨y, hy, rfl⟩ := Option.map_eq_some_iff.mp hs
  have hexecution := hi.execution.step hE hok.ends hok.follows hy
  obtain ⟨s', hs', rfl⟩ := Option.map_eq_some_iff.mp hy
  have hno : s'.expectPanics = x.execution.application.expectPanics :=
    hexecution.application.expectPanics.trans hi.execution.application.expectPanics.symm
  have hw := hi.execution.application.writer
  have hr := hi.execution.application.readers
  have hwrites := Application.emits_writer hok.connects hs' hno
  have hreads := Application.emits_readers hok.connects hs' hno
  have hcommitting := hi.committing hs' hno
  have hmore : x.execution.committed.length ≤ (x.execution.committed ++ a.commits).length := by simp
  obtain ⟨more, hhistory, hlooking⟩ := hi.looking hs' hno hok.ends hmore
  have hcalled : ∀ request ∈ x.reads,
      request.calledAt ≤ x.execution.application.history.committed.length := by
    intro request hmem
    obtain ⟨i, hget⟩ := List.mem_iff_getElem?.mp hmem
    rw [← hi.execution.writes.committed.length_eq]
    exact (hi.looked i request hget).called
  have hreading := hi.reading.step hw hr hi.execution.application.transactions hcalled
    hok.connects hs' hno
  refine ⟨hexecution, hi.writer.emits hw hwrites _, hi.readers.emits hr hreads _, ?_, ?_, ?_, ?_,
    hreading.transactions, ?_⟩
  · intro i request hrequest
    exact PoolRequest.Commits.record hi.commits hi.committed
      (fun _ _ _ hevent hget => hi.writer.unanswered_of_emits hw hwrites hevent hget)
      hcommitting hrequest
  · intro run hrun
    refine Nat.lt_of_lt_of_le ?_ (length_le_length_record _ _ _)
    rcases List.mem_append.mp hrun with hrun | hrun
    · exact hi.committed run hrun
    · rcases hcommitting with ⟨hnil, -⟩ | ⟨i, panicked, hlt, -, heq⟩
      · rw [hnil] at hrun
        cases hrun
      · rw [heq, List.mem_singleton] at hrun
        rw [hrun]
        exact hlt
  · intro i request hrequest
    rw [hhistory]
    exact PoolRequest.Looked.record hi.looked hi.readBy hi.execution.reads.reads.length_eq hmore
      (fun _ _ _ hevent hget => hi.readers.unanswered_of_emits hr hreads hevent hget)
      hlooking hrequest
  · intro run hrun
    refine Nat.lt_of_lt_of_le ?_ (length_le_length_record _ _ _)
    rcases List.mem_append.mp hrun with hrun | hrun
    · exact hi.readBy run hrun
    · rcases hlooking with ⟨hnone, -⟩ | ⟨i, panicked, close, record, hlt, -, heq, -⟩
      · cases hnone _ hrun
      · rw [heq, List.mem_singleton, Option.some.injEq] at hrun
        rw [hrun]
        exact hlt
  · intro i r c request hex hmem hrequest
    rcases getElem?_record hrequest with ⟨rfl, hevent, -⟩ | ⟨before, hbefore, hsame, -⟩
    · exact absurd hex (hi.not_executing_of_called hs' hevent r c)
    · rw [hsame]
      exact hreading.began i r c before hex hmem hbefore

/-- **Calls happen at one moment each, exactly once.**  The database is what the closures that
committed made of it one after the other.  A call of `connect_and_write` is among them exactly if it
was answered by a closure that committed, and then its closure did at its place what it does alone,
after the call was made and before it was answered.  A call of `connect_and_read_with_transaction`
whose closure has ended has read once, and seen what it sees alone on a version that was the latest
between the call and its answer; no other call has read in a transaction that is over. -/
structure Requests.Linearizable (L : Language D Q O) (closures : Closures Q O)
    (transaction : ℕ → Bool) (d latest : D) (x : Requests σ Q O) : Prop where
  latest : L.version d x.execution.application.history.committed x.execution.committed.length =
    latest
  calls : ∀ run ∈ x.execution.committed, run.2 = 0 ∧ run.1 < x.writes.length
  write : ∀ (i : ℕ) (request : PoolRequest), x.writes[i]? = some request → ∀ n : ℕ,
    x.execution.committed[n]? = some (i, 0) ↔
      ∃ panicked, request.answer = some (.ended panicked .commit, n + 1)
  effect : ∀ (i : ℕ) (request : PoolRequest), x.writes[i]? = some request → ∀ n : ℕ,
    x.execution.committed[n]? = some (i, 0) → request.calledAt ≤ n ∧ ∃ t,
      (closures.write i 0).program.Performs L
        (L.version d x.execution.application.history.committed n) t
        (L.version d x.execution.application.history.committed (n + 1))
  read : ∀ (i : ℕ) (request : PoolRequest), x.reads[i]? = some request → transaction i = true →
    ∀ panicked close t, request.answer = some (.ended panicked close, t) →
      x.execution.reads.count (some (i, 0)) = 1 ∧ ∃ (k : ℕ) (trace : Trace Q O),
        request.calledAt ≤ k ∧ k ≤ t ∧ (closures.read i 0).program.Looks L
          (L.version d x.execution.application.history.committed k) trace
  silent : ∀ (i : ℕ) (request : PoolRequest), x.reads[i]? = some request →
    (∀ panicked close t, request.answer ≠ some (.ended panicked close, t)) →
      ∀ r, some (i, r) ∉ x.execution.reads

lemma Requests.Inv.linearizable (hi : x.Inv L view closures transaction d m) :
    x.Linearizable L closures transaction d (view x.execution.application.db).latest := by
  have hserial := hi.execution.serial
  refine ⟨hserial.latest, fun run hrun => ?_, fun i request hrequest n => ?_,
    fun i request hrequest n hn => ?_, fun i request hrequest htransaction p close t ht => ?_,
    fun i request hrequest hnot r hmem => ?_⟩
  · have hlt := hi.committed run hrun
    obtain ⟨n, hn⟩ := List.mem_iff_getElem?.mp hrun
    obtain ⟨i, r⟩ := run
    exact ⟨((hi.commits i _ (List.getElem?_eq_getElem hlt)).position n r hn).1, hlt⟩
  · have hcommits := hi.commits i request hrequest
    constructor
    · intro hn
      exact (hcommits.position n 0 hn).2.2
    · rintro ⟨panicked, hanswer⟩
      obtain ⟨n', heq, hn'⟩ := hcommits.effect panicked _ hanswer
      rwa [show n = n' by omega]
  · obtain ⟨t, -, hperforms⟩ := hserial.writes n i 0 hn
    exact ⟨((hi.commits i request hrequest).position n 0 hn).2.1, t, hperforms⟩
  · have hlooked := hi.looked i request hrequest
    have hcount := hlooked.once p close t ht htransaction
    refine ⟨hcount, ?_⟩
    have hmem : some (i, 0) ∈ x.execution.reads := List.count_pos_iff.mp (by omega)
    obtain ⟨n, hn⟩ := List.mem_iff_getElem?.mp hmem
    obtain ⟨-, record, p', close', t', hrecord, hbegan, ht', hended⟩ := hlooked.position n 0 hn
    obtain ⟨record', k, hrecord', hlow, hhigh, -, hlooks⟩ := hserial.reads n i 0 hn
    rw [hrecord, Option.some.injEq] at hrecord'
    subst hrecord'
    rw [ht, Option.some.injEq, Prod.mk.injEq] at ht'
    exact ⟨k, record.trace, by omega, by omega, hlooks⟩
  · obtain ⟨n, hn⟩ := List.mem_iff_getElem?.mp hmem
    obtain ⟨-, -, p, close, t, -, -, ht, -⟩ := (hi.looked i request hrequest).position n r hn
    exact hnot p close t ht

/-- **Calls of `connect_and_read_with_transaction` and `connect_and_write` are linearizable.**  Over
a WAL-mode database that only this pool uses, let all tasks use the pool through such calls and
those of `connect_and_read`, with closures that depend on the answers they get and end their
transactions.  However the calls interleave, time out, fail, panic and are cancelled, each of them
takes effect at one moment between the call and its answer, exactly once if its closure has ended
and not at all otherwise. -/
theorem requestsLinearizable (hE : E.Refines L view) (closures : Closures Q O)
    (transaction : ℕ → Bool) {db : σ} (hdb : view db = .fresh d)
    (h : ReachableBy (Requests.step E) (Requests.Admits closures transaction) (.new m db) x) :
    x.Linearizable L closures transaction d (view x.execution.application.db).latest := by
  have hi : x.Inv L view closures transaction d m :=
    h.invariant (I := Requests.Inv L view closures transaction d m) (Requests.inv_new hdb)
      fun _ _ _ hi hok hs => hi.step hE hok hs
  exact hi.linearizable

end Runs

instance [DecidableEq Q] (closures : Closures Q O) (transaction : ℕ → Bool)
    (x : Requests σ Q O) (a : ApplicationAction Q) : Decidable (x.Admits closures transaction a) :=
  decidable_of_iff ((a.EndsTransaction ∧ x.execution.Follows closures a) ∧
      a.ConnectsAndRuns transaction x.execution.application)
    ⟨fun h => ⟨h.1.1, h.1.2, h.2⟩, fun h => ⟨⟨h.ends, h.follows⟩, h.connects⟩⟩

end

/-- The reader between two writers, and a writer that is cancelled while it waits for its permit. -/
def cancelledThirdWriter : List (ApplicationAction ℕ) :=
  readerBetweenWriters ++ [.pool (.write .get), .pool (.write (.call 2 .cancel))]

theorem requestsLinearizable_cancelledThirdWriter :
    ∃ x : Requests (Store Conn Conn ℕ) ℕ ℕ,
      runWhere (Requests.step (.ofStore tally 0)) (Requests.Admits tallyClosures fun _ => true)
        (.new 4 (Store.fresh 0)) cancelledThirdWriter = some x ∧
      x.writes = [⟨0, some (.ended false .commit, 1)⟩, ⟨1, some (.ended true .rollback, 1)⟩,
        ⟨1, some (.cancelled, 1)⟩] ∧
      x.reads = [⟨0, some (.ended false .rollback, 1)⟩] ∧
      x.Linearizable tally tallyClosures (fun _ => true) 0 x.execution.application.db.latest := by
  have hrun : ((runWhere (Requests.step (.ofStore tally 0))
      (Requests.Admits tallyClosures fun _ => true) (.new 4 (Store.fresh 0))
        cancelledThirdWriter).map fun x => (x.writes, x.reads)) =
      some ([⟨0, some (.ended false .commit, 1)⟩, ⟨1, some (.ended true .rollback, 1)⟩,
        ⟨1, some (.cancelled, 1)⟩], [⟨0, some (.ended false .rollback, 1)⟩]) := rfl
  obtain ⟨x, hx, heq⟩ := Option.map_eq_some_iff.mp hrun
  obtain ⟨hwrites, hreads⟩ := Prod.mk.inj heq
  exact ⟨x, hx, hwrites, hreads, requestsLinearizable (Sqlite.ofStore_refines tally 0)
    tallyClosures (fun _ => true) rfl (reachableBy_of_runWhere cancelledThirdWriter .start hx)⟩

end SqliteRwPool
