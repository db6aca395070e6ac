import SqliteRwPool.Library.Programs
import SqliteRwPool.Pool.Isolation

/-!
# Closures as the programs they are

`poolIsolates` is about statements.  The caller of `WriteConnection::run` thinks of its closure as a
whole, as a program that finds the database in one state and leaves it in another.  Here each
closure is such a program, `Closure`: what it sends next, and how it parts with its `Transaction` in
the end, depends on nothing but the answers it has got.

`Execution` notes beside the pool and its database which closures have committed and which have read
in a transaction.  `closuresSerialize` says that the database is what the committed closures make of
it one after the other, each of them alone and once, and that a closure that reads in a transaction
sees what it would see if it ran alone between two of them.
-/

namespace SqliteRwPool

open SnapshotStore Transition

/-! ## Closures that are over -/

/-- Run `r` of the call's holder is over, or the whole holder is. -/
def Call.Over (r : ℕ) : Call → Prop
  | .held h => h.runs[r]? = some .finished
  | .dropping _ _ => True
  | .closed => True
  | _ => False

lemma ConnectionHolder.step_finished {h h' : ConnectionHolder} {a : HolderAction}
    (hs : h.step a = some h') {r : ℕ} (hr : h.runs[r]? = some .finished) :
    h'.runs[r]? = some .finished := by
  have hset : ∀ {q : ℕ} {old new : RunState}, h.runs[q]? = some old → old ≠ .finished →
      (h.runs.set q new)[r]? = some .finished := by
    intro q old new hq hne
    have hqr : q ≠ r := by
      rintro rfl
      rw [hr, Option.some.injEq] at hq
      exact hne hq.symm
    rw [List.getElem?_set, if_neg hqr]
    exact hr
  cases a with
  | run =>
      cases hs
      rw [List.getElem?_append_left (List.getElem?_eq_some_iff.mp hr).1]
      exact hr
  | lock q =>
      simp only [ConnectionHolder.step] at hs
      split_ifs at hs with hc
      cases hs
      exact hset hc.2 (by decide)
  | enter q =>
      simp only [ConnectionHolder.step] at hs
      split_ifs at hs with hc
      split at hs <;> cases hs <;> exact hset hc (by decide)
  | leave q =>
      simp only [ConnectionHolder.step] at hs
      split_ifs at hs with hc
      cases hs
      exact hset hc (by decide)
  | cancel q =>
      simp only [ConnectionHolder.step] at hs
      split_ifs at hs with hc hc'
      · cases hs
        exact hset hc (by decide)
      · cases hs
        exact hset hc' (by decide)

/-- What is over stays over. -/
lemma Call.Over.step {call call' : Call} {a : CallAction} {e : Effect} {r : ℕ} (hv : call.Valid)
    (hover : call.Over r) (hs : call.step a = some (call', e)) : call'.Over r := by
  cases call with
  | acquiring | granted | fetching job | detached obtained => cases hover
  | closed => cases a <;> cases hs
  | held h =>
      obtain ⟨-, ⟨b, h', hh', rfl⟩ | ⟨-, rfl⟩⟩ := Call.step_held hs
      · exact ConnectionHolder.step_finished hh' hover
      · trivial
  | dropping h job =>
      rcases Call.step_dropping hv.2 hs with ⟨-, rfl, -⟩ | ⟨d, -, -, rfl, -⟩ | ⟨-, rfl, -⟩ |
        ⟨-, -, rfl, -⟩ <;> trivial

/-- Run `r` of the holder of call `i` is over. -/
def Side.Over (s : Side) (i r : ℕ) : Prop := ∃ call, s.calls[i]? = some call ∧ call.Over r

lemma Side.Over.step {m k : ℕ} {s s' : Side} {a : SideAction} (hi : s.Inv m k) {i r : ℕ}
    (hover : s.Over i r) (hs : s.step a = some s') : s'.Over i r := by
  obtain ⟨call, hget, hcall⟩ := hover
  cases a with
  | get =>
      cases hs
      exact ⟨call, by rw [List.getElem?_append_left (List.getElem?_eq_some_iff.mp hget).1, hget],
        hcall⟩
  | call j a =>
      obtain ⟨x, x', e, t, hx, hstep, ht, rfl⟩ := Side.step_call hs
      have hcalls := (Side.apply_spec ht (hi.lent_of_givenBack hx hstep)).1
      simp only [Side.Over, hcalls, List.getElem?_set]
      by_cases hij : j = i
      · subst hij
        rw [hget, Option.some.injEq] at hx
        subst hx
        have hlt : j < s.calls.length := (List.getElem?_eq_some_iff.mp hget).1
        refine ⟨x', by simp [hlt], hcall.step (hi.valid call (List.mem_of_getElem? hget)) hstep⟩
      · exact ⟨call, by rw [if_neg hij, hget], hcall⟩

/-- A run that is over does not execute. -/
lemma Side.Over.not_executing {m k : ℕ} {s : Side} (hi : s.Inv m k) {i r : ℕ}
    (hover : s.Over i r) : ¬ s.Executing i r := by
  intro hex
  obtain ⟨h, -, hget, -, hrun, -⟩ := hi.held_of_executing hex
  obtain ⟨call, hget', hcall⟩ := hover
  rw [hget, Option.some.injEq] at hget'
  subst hget'
  rw [Call.Over, hrun] at hcall
  cases hcall

/-- A run whose closure has ended is over. -/
lemma Side.over_of_leave {m k : ℕ} {s s' : Side} (hi : s.Inv m k) {i r : ℕ}
    (hs : s.step (.call i (.holder (.leave r))) = some s') : s'.Over i r := by
  obtain ⟨call, call', e, t, hget, hcall, ht, rfl⟩ := Side.step_call hs
  have hcalls := (Side.apply_spec ht (hi.lent_of_givenBack hget hcall)).1
  have hlt : i < s.calls.length := (List.getElem?_eq_some_iff.mp hget).1
  refine ⟨call', by simp [hcalls, hlt], ?_⟩
  cases call with
  | held h =>
      obtain ⟨h', hh, heq⟩ := Option.map_eq_some_iff.mp hcall
      cases heq
      simp only [ConnectionHolder.step] at hh
      split_ifs at hh with hrun
      cases hh
      have hr : r < h.runs.length := (List.getElem?_eq_some_iff.mp hrun).1
      simp [Call.Over, hr]
  | fetching job => cases job <;> cases hcall
  | detached obtained => cases obtained <;> cases hcall
  | dropping h job => cases job <;> cases hcall
  | acquiring | granted | closed => cases hcall

/-! ## Closures and what they have done -/

section

variable {σ D Q O : Type}

/-- A closure that is given a `Transaction`: what it sends next, its drop behaviour when it is done,
and how it parts with the transaction then. -/
structure Closure (Q O : Type) where
  program : Program Q O
  behavior : Trace Q O → DropBehavior
  ending : Trace Q O → Ending

/-- The closure of each run of each call, on either side. -/
structure Closures (Q O : Type) where
  write : ℕ → ℕ → Closure Q O
  read : ℕ → ℕ → Closure Q O

/-- The pool over its database, the runs whose closures have committed, in the order of their
commits, and the run of each read that is over, where it was in a transaction. -/
structure Execution (σ Q O : Type) where
  application : Application σ Q O
  committed : List (ℕ × ℕ)
  reads : List (Option (ℕ × ℕ))

def Execution.new (maxReadConnections : ℕ) (db : σ) : Execution σ Q O :=
  ⟨.new maxReadConnections db, [], []⟩

/-- The run that the action commits. -/
def ApplicationAction.commits : ApplicationAction Q → List (ℕ × ℕ)
  | .endWrite i r e b commits => if e.close b commits = .commit then [(i, r)] else []
  | .pool _ | .startRead _ _ _ | .startWrite _ _ | .query _ _ _ | .exec _ _ _ => []
  | .endRead _ _ _ _ _ => []

/-- The run of the read that is over with the action. -/
def ApplicationAction.reads (s : Application σ Q O) :
    ApplicationAction Q → List (Option (ℕ × ℕ))
  | .query i r _ => if s.HasTransaction i r then [] else [none]
  | .endRead i r e b commits =>
      if s.HasTransaction i r ∧ e.close b commits ≠ .leftOpen then [some (i, r)] else []
  | .pool _ | .startRead _ _ _ | .startWrite _ _ | .exec _ _ _ => []
  | .endWrite _ _ _ _ _ => []

def Execution.step (E : Sqlite σ Q O) (x : Execution σ Q O) (a : ApplicationAction Q) :
    Option (Execution σ Q O) :=
  (x.application.step E a).map fun s =>
    ⟨s, x.committed ++ a.commits, x.reads ++ a.reads x.application⟩

/-- The action is the next one of its closure, by what the closure has sent and been answered in its
transaction; a closure without a transaction may send anything. -/
def Execution.Follows (closures : Closures Q O) (x : Execution σ Q O) :
    ApplicationAction Q → Prop
  | .exec i r q => (closures.write i r).program x.application.history.writing = some q
  | .endWrite i r e b _ =>
      (closures.write i r).program x.application.history.writing = none ∧
        (closures.write i r).ending x.application.history.writing = e ∧
        (closures.write i r).behavior x.application.history.writing = b
  | .query i r q => ∀ c, x.application.pool.readers.executing? i r = some c →
      x.application.HasTransaction i r →
      (closures.read i r).program (x.application.history.reading c).2 = some q
  | .endRead i r e b _ => ∀ c, x.application.pool.readers.executing? i r = some c →
      x.application.HasTransaction i r →
      (closures.read i r).program (x.application.history.reading c).2 = none ∧
        (closures.read i r).ending (x.application.history.reading c).2 = e ∧
        (closures.read i r).behavior (x.application.history.reading c).2 = b
  | _ => True

/-- **The committed closures ran one after the other.**  No closure committed twice; closure number
`n` did what it does alone with the `n`th version of the database and left the next one, the last of
which is the database; and a closure that read in a transaction did what it does when one version,
which was the latest at some moment between its beginning and its end, answers it. -/
structure Execution.Serial (L : Language D Q O) (closures : Closures Q O) (d latest : D)
    (x : Execution σ Q O) : Prop where
  once : x.committed.Nodup
  latest : L.version d x.application.history.committed x.committed.length = latest
  writes : ∀ n i r : ℕ, x.committed[n]? = some (i, r) →
    ∃ t, x.application.history.committed[n]? = some t ∧
      (closures.write i r).program.Performs L (L.version d x.application.history.committed n) t
        (L.version d x.application.history.committed (n + 1))
  reads : ∀ n i r : ℕ, x.reads[n]? = some (some (i, r)) →
    ∃ (record : ReadRecord Q O) (k : ℕ), x.application.history.reads[n]? = some record ∧
      record.began ≤ k ∧ k ≤ record.ended ∧ record.ended ≤ x.committed.length ∧
      (closures.read i r).program.Looks L (L.version d x.application.history.committed k)
        record.trace

/-! ## What a step does to the history -/

def Close.record (h : History Conn Q O) : Close → History Conn Q O
  | .commit => h.commit
  | .rollback => h.rollback
  | .leftOpen => h

section Cases

variable {E : Sqlite σ Q O} {s s' : Application σ Q O} {i r : ℕ}

lemma Application.startWrite_cases (hs : s.startWrite E i r = some s')
    (hno : s'.expectPanics = s.expectPanics) :
    s.pool.writer.step (.call i (.holder (.enter r))) = some s'.pool.writer ∧
      s'.pool.readers = s.pool.readers ∧ s'.transactions = s.transactions ∧
      s'.history = s.history.beginImmediate := by
  simp only [Application.startWrite, Option.bind_eq_bind, Option.bind_eq_some_iff] at hs
  obtain ⟨c, -, p, hp, hs⟩ := hs
  obtain ⟨hw, hreaders⟩ := PoolState.step_write hp
  split at hs
  · cases hs
    exact ⟨hw, hreaders, rfl, rfl⟩
  · obtain ⟨p', -, hs⟩ := Option.bind_eq_some_iff.mp hs
    cases hs
    simp at hno

lemma Application.startRead_cases {transaction : Bool}
    (hs : s.startRead E i r transaction = some s') (hno : s'.expectPanics = s.expectPanics) :
    ∃ c, s.pool.readers.connection? i = some c ∧
      s.pool.readers.step (.call i (.holder (.enter r))) = some s'.pool.readers ∧
      s'.pool.writer = s.pool.writer ∧
      ((s'.transactions = (i, r) :: s.transactions ∧ s'.history = s.history.beginDeferred c) ∨
        (s'.transactions = s.transactions ∧ s'.history = s.history)) := by
  simp only [Application.startRead, Option.bind_eq_bind, Option.bind_eq_some_iff] at hs
  obtain ⟨c, hc, p, hp, hs⟩ := hs
  obtain ⟨hr, hwriter⟩ := PoolState.step_read hp
  split_ifs at hs
  · split at hs
    · cases hs
      exact ⟨c, hc, hr, hwriter, Or.inl ⟨rfl, rfl⟩⟩
    · obtain ⟨p', -, hs⟩ := Option.bind_eq_some_iff.mp hs
      cases hs
      simp at hno
  · cases hs
    exact ⟨c, hc, hr, hwriter, Or.inr ⟨rfl, rfl⟩⟩

lemma Application.exec_cases {q : Q} (hs : s.exec E i r q = some s') :
    ∃ c o, s.pool.writer.ExecutingOn i r c ∧ s'.pool = s.pool ∧
      s'.transactions = s.transactions ∧ s'.history = s.history.exec q o := by
  simp only [Application.exec, Option.bind_eq_bind, Option.bind_eq_some_iff,
    Option.some.injEq] at hs
  obtain ⟨c, hc, rfl⟩ := hs
  exact ⟨c, _, Side.executing?_eq_some.mp hc, rfl, rfl, rfl⟩

lemma Application.query_cases {q : Q} (hs : s.query E i r q = some s') :
    ∃ c o, s.pool.readers.executing? i r = some c ∧ s'.pool = s.pool ∧
      s'.transactions = s.transactions ∧ s'.history =
        if s.HasTransaction i r then s.history.query c q o else s.history.queryAlone q o := by
  simp only [Application.query, Option.bind_eq_bind, Option.bind_eq_some_iff,
    Option.some.injEq] at hs
  obtain ⟨c, hc, rfl⟩ := hs
  exact ⟨c, _, hc, rfl, rfl, rfl⟩

lemma Application.endWrite_cases {close : Close} (hs : s.endWrite E i r close = some s') :
    (∃ c, s.pool.writer.ExecutingOn i r c) ∧
      s.pool.writer.step (.call i (.holder (.leave r))) = some s'.pool.writer ∧
      s'.pool.readers = s.pool.readers ∧ s'.transactions = s.transactions ∧
      s'.history = close.record s.history := by
  simp only [Application.endWrite, Option.bind_eq_bind, Option.bind_eq_some_iff] at hs
  obtain ⟨c, hc, p, hp, hs⟩ := hs
  obtain ⟨hw, hreaders⟩ := PoolState.step_write hp
  refine ⟨⟨c, Side.executing?_eq_some.mp hc⟩, ?_⟩
  cases close <;> cases hs <;> exact ⟨hw, hreaders, rfl, rfl⟩

lemma Application.endRead_cases {close : Close} (hs : s.endRead E i r close = some s') :
    ∃ c, s.pool.readers.executing? i r = some c ∧
      s.pool.readers.step (.call i (.holder (.leave r))) = some s'.pool.readers ∧
      s'.pool.writer = s.pool.writer ∧
      s'.transactions = s.transactions.filter (· ≠ (i, r)) ∧
      s'.history = if s.HasTransaction i r ∧ close ≠ .leftOpen then s.history.endRead c
        else s.history := by
  simp only [Application.endRead, Option.bind_eq_bind, Option.bind_eq_some_iff] at hs
  obtain ⟨c, hc, p, hp, hs⟩ := hs
  obtain ⟨hr, hwriter⟩ := PoolState.step_read hp
  refine ⟨c, hc, ?_⟩
  split_ifs at hs with hcase <;> cases hs
  · exact ⟨hr, hwriter, rfl, (if_pos hcase).symm⟩
  · exact ⟨hr, hwriter, rfl, (if_neg hcase).symm⟩

end Cases

/-! ## What a step keeps of the write closures -/

/-- The open write transaction is its closure's own, and so were the committed ones, whose closures
are over. -/
structure Application.Writes (closures : Closures Q O) (s : Application σ Q O)
    (runs : List (ℕ × ℕ)) : Prop where
  sends : ∀ i r c, s.pool.writer.ExecutingOn i r c →
    (closures.write i r).program.Sends s.history.writing
  committed : List.Forall₂ (fun run t => (closures.write run.1 run.2).program.Completes t) runs
    s.history.committed
  ended : ∀ run ∈ runs, s.pool.writer.Over run.1 run.2
  once : runs.Nodup

section Writes

variable {closures : Closures Q O} {s s' : Application σ Q O} {runs : List (ℕ × ℕ)}

lemma Application.Writes.frame (h : s.Writes closures runs)
    (hpool : s'.pool.writer = s.pool.writer) (hwriting : s'.history.writing = s.history.writing)
    (hcommitted : s'.history.committed = s.history.committed) : s'.Writes closures runs := by
  refine ⟨fun i r c hex => ?_, ?_, fun run hrun => ?_, h.once⟩
  · rw [hpool] at hex
    rw [hwriting]
    exact h.sends i r c hex
  · rw [hcommitted]
    exact h.committed
  · rw [hpool]
    exact h.ended run hrun

lemma Application.Writes.pool {m : ℕ} (h : s.Writes closures runs)
    (hw : s.pool.writer.Inv 1 1) (hr : s.pool.readers.Inv m m) {a : PoolAction} {p : PoolState}
    (hcross : a.crosses = false) (hp : s.pool.step a = some p) :
    ({ s with pool := p } : Application σ Q O).Writes closures runs := by
  have hex := PoolState.executingOn_of_not_crosses hw hr hp hcross
  refine ⟨fun i r c h' => h.sends i r c ((hex i r c).1.mp h'), h.committed, fun run hrun => ?_,
    h.once⟩
  rcases PoolState.step_writer hp with heq | ⟨b, -, hb⟩
  · show p.writer.Over run.1 run.2
    rw [heq]
    exact h.ended run hrun
  · exact (h.ended run hrun).step hw hb

lemma Application.Writes.startWrite (h : s.Writes closures runs)
    (hw : s.pool.writer.Inv 1 1) {i r : ℕ}
    (hstep : s.pool.writer.step (.call i (.holder (.enter r))) = some s'.pool.writer)
    (hhistory : s'.history = s.history.beginImmediate) : s'.Writes closures runs := by
  refine ⟨fun j q c _ => ?_, ?_, fun run hrun => (h.ended run hrun).step hw hstep, h.once⟩
  · rw [hhistory]
    exact .nil _
  · rw [hhistory]
    exact h.committed

lemma Application.Writes.exec (h : s.Writes closures runs) (hw : s.pool.writer.Inv 1 1)
    {i r : ℕ} {c : Conn} {q : Q} {o : O} (hex : s.pool.writer.ExecutingOn i r c)
    (hq : (closures.write i r).program s.history.writing = some q) (hpool : s'.pool = s.pool)
    (hhistory : s'.history = s.history.exec q o) : s'.Writes closures runs := by
  refine ⟨fun j p c' hex' => ?_, ?_, fun run hrun => ?_, h.once⟩
  · rw [hpool] at hex'
    obtain ⟨rfl, rfl⟩ := hw.exclusive.closures (Nat.le_refl 1) j p i r hex'.executing hex.executing
    rw [hhistory]
    exact (h.sends j p c hex).concat hq o
  · rw [hhistory]
    exact h.committed
  · rw [hpool]
    exact h.ended run hrun

lemma Application.Writes.endWrite (h : s.Writes closures runs) (hw : s.pool.writer.Inv 1 1)
    {i r : ℕ} {c : Conn} {close : Close} (hex : s.pool.writer.ExecutingOn i r c)
    (hdone : (closures.write i r).program s.history.writing = none)
    (hstep : s.pool.writer.step (.call i (.holder (.leave r))) = some s'.pool.writer)
    (hhistory : s'.history = close.record s.history) :
    s'.Writes closures (runs ++ if close = .commit then [(i, r)] else []) := by
  have hidle : ∀ j q c', ¬ s'.pool.writer.ExecutingOn j q c' := by
    intro j q c' h'
    rcases (hw.step_executingOn hstep j q c').mp h' with ⟨hold, hne⟩ | ⟨heq, -⟩
    · obtain ⟨rfl, rfl⟩ := hw.exclusive.closures (Nat.le_refl 1) j q i r hold.executing
        hex.executing
      exact hne rfl
    · cases heq
  have hover : ∀ run ∈ runs, s'.pool.writer.Over run.1 run.2 := fun run hrun =>
    (h.ended run hrun).step hw hstep
  have hsends : ∀ j q c', s'.pool.writer.ExecutingOn j q c' →
      (closures.write j q).program.Sends s'.history.writing :=
    fun j q c' h' => absurd h' (hidle j q c')
  cases close with
  | commit =>
      have hnew : (i, r) ∉ runs := fun hmem =>
        (h.ended (i, r) hmem).not_executing hw hex.executing
      refine ⟨hsends, ?_, fun run hrun => ?_, ?_⟩
      · rw [hhistory, if_pos rfl]
        exact List.rel_append h.committed (.cons ⟨h.sends i r c hex, hdone⟩ .nil)
      · rcases List.mem_append.mp hrun with hrun | hrun
        · exact hover run hrun
        · rw [if_pos rfl, List.mem_singleton] at hrun
          subst hrun
          exact Side.over_of_leave hw hstep
      · rw [if_pos rfl, ← List.concat_eq_append]
        exact h.once.concat hnew
  | rollback =>
      rw [if_neg (by decide), List.append_nil]
      refine ⟨hsends, ?_, hover, h.once⟩
      rw [hhistory]
      exact h.committed
  | leftOpen =>
      rw [if_neg (by decide), List.append_nil]
      refine ⟨hsends, ?_, hover, h.once⟩
      rw [hhistory]
      exact h.committed

end Writes

/-! ## What a step keeps of the read closures -/

/-- The open read transactions are their closures' own, and so were the ones that are over. -/
structure Application.Reads (closures : Closures Q O) (s : Application σ Q O)
    (reads : List (Option (ℕ × ℕ))) : Prop where
  sends : ∀ i r c, s.pool.readers.ExecutingOn i r c → s.HasTransaction i r →
    (closures.read i r).program.Sends (s.history.reading c).2
  reads : List.Forall₂ (fun run record => ∀ i r, run = some (i, r) →
    (closures.read i r).program.Completes record.trace) reads s.history.reads

section Reads

variable {closures : Closures Q O} {s s' : Application σ Q O} {reads : List (Option (ℕ × ℕ))}

lemma Application.Reads.frame (h : s.Reads closures reads)
    (hpool : s'.pool.readers = s.pool.readers) (htransactions : s'.transactions = s.transactions)
    (hreading : s'.history.reading = s.history.reading)
    (hreads : s'.history.reads = s.history.reads) : s'.Reads closures reads := by
  refine ⟨fun i r c hex hmem => ?_, ?_⟩
  · rw [hpool] at hex
    rw [Application.HasTransaction, htransactions] at hmem
    rw [hreading]
    exact h.sends i r c hex hmem
  · rw [hreads]
    exact h.reads

lemma Application.Reads.pool {m : ℕ} (h : s.Reads closures reads)
    (hw : s.pool.writer.Inv 1 1) (hr : s.pool.readers.Inv m m) {a : PoolAction} {p : PoolState}
    (hcross : a.crosses = false) (hp : s.pool.step a = some p) :
    ({ s with pool := p } : Application σ Q O).Reads closures reads := by
  have hex := PoolState.executingOn_of_not_crosses hw hr hp hcross
  exact ⟨fun i r c h' hmem => h.sends i r c ((hex i r c).2.mp h') hmem, h.reads⟩

lemma Application.Reads.startRead {m : ℕ} (h : s.Reads closures reads)
    (hr : s.pool.readers.Inv m m) {i r : ℕ} {c : Conn}
    (hc : s.pool.readers.connection? i = some c)
    (hstep : s.pool.readers.step (.call i (.holder (.enter r))) = some s'.pool.readers)
    (hnew : (i, r) ∉ s.transactions)
    (hcases : (s'.transactions = (i, r) :: s.transactions ∧
      s'.history = s.history.beginDeferred c) ∨
        (s'.transactions = s.transactions ∧ s'.history = s.history)) :
    s'.Reads closures reads := by
  have hex : ∀ j q c', s'.pool.readers.ExecutingOn j q c' → s.HasTransaction j q →
      s.pool.readers.ExecutingOn j q c' := by
    intro j q c' h' hmem
    rcases (hr.step_executingOn hstep j q c').mp h' with ⟨hold, -⟩ | ⟨heq, -⟩
    · exact hold
    · cases heq
      exact absurd hmem hnew
  rcases hcases with ⟨htransactions, hhistory⟩ | ⟨htransactions, hhistory⟩
  · refine ⟨fun j q c' h' hmem => ?_, by rw [hhistory]; exact h.reads⟩
    simp only [hhistory, History.beginDeferred]
    by_cases hcc : c' = c
    · subst hcc
      rw [Function.update_self]
      exact .nil _
    · rw [Function.update_of_ne hcc]
      rw [Application.HasTransaction, htransactions] at hmem
      rcases List.mem_cons.mp hmem with heq | hmem
      · cases heq
        rcases (hr.step_executingOn hstep i r c').mp h' with ⟨hold, -⟩ | ⟨-, hc'⟩
        · exact absurd hold (Side.not_executingOn_of_enter hstep c')
        · rw [hc, Option.some.injEq] at hc'
          exact absurd hc'.symm hcc
      · exact h.sends j q c' (hex j q c' h' hmem) hmem
  · refine ⟨fun j q c' h' hmem => ?_, by rw [hhistory]; exact h.reads⟩
    rw [Application.HasTransaction, htransactions] at hmem
    rw [hhistory]
    exact h.sends j q c' (hex j q c' h' hmem) hmem

lemma Application.Reads.query {m : ℕ} (h : s.Reads closures reads)
    (hr : s.pool.readers.Inv m m) {i r : ℕ} {c : Conn} {q : Q} {o : O}
    (hex : s.pool.readers.ExecutingOn i r c)
    (hq : s.HasTransaction i r → (closures.read i r).program (s.history.reading c).2 = some q)
    (hpool : s'.pool = s.pool) (htransactions : s'.transactions = s.transactions)
    (hhistory : s'.history =
      if s.HasTransaction i r then s.history.query c q o else s.history.queryAlone q o) :
    s'.Reads closures (reads ++ if s.HasTransaction i r then [] else [none]) := by
  by_cases hmem : s.HasTransaction i r
  · rw [if_pos hmem] at hhistory
    rw [if_pos hmem, List.append_nil]
    refine ⟨fun j p c' hex' hmem' => ?_, by rw [hhistory]; exact h.reads⟩
    rw [hpool] at hex'
    rw [Application.HasTransaction, htransactions] at hmem'
    simp only [hhistory, History.query]
    by_cases hcc : c' = c
    · subst hcc
      obtain ⟨rfl, rfl⟩ := hr.exclusive.connections c' j p i r hex' hex
      rw [Function.update_self]
      exact (h.sends j p c' hex hmem).concat (hq hmem) o
    · rw [Function.update_of_ne hcc]
      exact h.sends j p c' hex' hmem'
  · rw [if_neg hmem] at hhistory
    rw [if_neg hmem]
    refine ⟨fun j p c' hex' hmem' => ?_, ?_⟩
    · rw [hpool] at hex'
      rw [Application.HasTransaction, htransactions] at hmem'
      rw [hhistory]
      exact h.sends j p c' hex' hmem'
    · rw [hhistory]
      exact List.rel_append h.reads (.cons (fun j p heq => by cases heq) .nil)

lemma Application.Reads.endRead {m : ℕ} (h : s.Reads closures reads)
    (hr : s.pool.readers.Inv m m) {i r : ℕ} {c : Conn} {close : Close}
    (hex : s.pool.readers.ExecutingOn i r c)
    (hdone : s.HasTransaction i r →
      (closures.read i r).program (s.history.reading c).2 = none)
    (hstep : s.pool.readers.step (.call i (.holder (.leave r))) = some s'.pool.readers)
    (htransactions : s'.transactions = s.transactions.filter (· ≠ (i, r)))
    (hhistory : s'.history = if s.HasTransaction i r ∧ close ≠ .leftOpen
      then s.history.endRead c else s.history) :
    s'.Reads closures
      (reads ++ if s.HasTransaction i r ∧ close ≠ .leftOpen then [some (i, r)] else []) := by
  have hsends : ∀ j q c', s'.pool.readers.ExecutingOn j q c' → s'.HasTransaction j q →
      (closures.read j q).program.Sends (s.history.reading c').2 := by
    intro j q c' h' hmem
    rw [Application.HasTransaction, htransactions] at hmem
    rcases (hr.step_executingOn hstep j q c').mp h' with ⟨hold, -⟩ | ⟨heq, -⟩
    · exact h.sends j q c' hold (List.mem_of_mem_filter hmem)
    · cases heq
  split_ifs at hhistory ⊢ with hcase
  · refine ⟨fun j q c' h' hmem => ?_, ?_⟩
    · rw [hhistory]
      exact hsends j q c' h' hmem
    · rw [hhistory]
      refine List.rel_append h.reads (.cons (fun j q heq => ?_) .nil)
      cases heq
      exact ⟨h.sends i r c hex hcase.1, hdone hcase.1⟩
  · rw [List.append_nil]
    refine ⟨fun j q c' h' hmem => ?_, ?_⟩
    · rw [hhistory]
      exact hsends j q c' h' hmem
    · rw [hhistory]
      exact h.reads

end Reads

/-! ## Whole runs -/

/-- What holds of every execution of the closures. -/
structure Execution.Inv (L : Language D Q O) (view : σ → Store Conn Conn D)
    (closures : Closures Q O) (d : D) (m : ℕ) (x : Execution σ Q O) : Prop where
  application : x.application.Inv L view d m
  writes : x.application.Writes closures x.committed
  reads : x.application.Reads closures x.reads

lemma Execution.inv_new (L : Language D Q O) {view : σ → Store Conn Conn D}
    (closures : Closures Q O) {d : D} (m : ℕ) {db : σ} (hdb : view db = .fresh d) :
    (Execution.new m db : Execution σ Q O).Inv L view closures d m := by
  refine ⟨Application.inv_new L m hdb, ⟨fun i r c _ => .nil _, .nil, by simp [new], .nil⟩,
    ⟨fun i r c _ hmem => ?_, .nil⟩⟩
  simp [new, Application.new, Application.HasTransaction] at hmem

section Step

variable {E : Sqlite σ Q O} {L : Language D Q O} {view : σ → Store Conn Conn D}
  {closures : Closures Q O} {d : D} {m : ℕ} {x : Execution σ Q O} {s' : Application σ Q O}
  {a : ApplicationAction Q}

lemma Execution.Inv.writes_step (hi : x.Inv L view closures d m)
    (hno : s'.expectPanics = x.application.expectPanics) (hfollows : x.Follows closures a)
    (hs' : x.application.step E a = some s') :
    s'.Writes closures (x.committed ++ a.commits) := by
  obtain ⟨happ, hwrites, -⟩ := hi
  cases a with
  | pool a =>
      simp only [Application.step] at hs'
      split_ifs at hs' with hcross
      obtain ⟨p, hp, rfl⟩ := Option.map_eq_some_iff.mp hs'
      rw [ApplicationAction.commits, List.append_nil]
      exact hwrites.pool happ.writer happ.readers (by simpa using hcross) hp
  | startRead i r transaction =>
      obtain ⟨c, -, -, hpool, hcases⟩ := Application.startRead_cases hs' hno
      rw [ApplicationAction.commits, List.append_nil]
      rcases hcases with ⟨-, hhistory⟩ | ⟨-, hhistory⟩
      · exact hwrites.frame hpool (by rw [hhistory]; rfl) (by rw [hhistory]; rfl)
      · exact hwrites.frame hpool (by rw [hhistory]) (by rw [hhistory])
  | startWrite i r =>
      obtain ⟨hstep, -, -, hhistory⟩ := Application.startWrite_cases hs' hno
      rw [ApplicationAction.commits, List.append_nil]
      exact hwrites.startWrite happ.writer hstep hhistory
  | query i r q =>
      obtain ⟨c, o, -, hpool, -, hhistory⟩ := Application.query_cases hs'
      rw [ApplicationAction.commits, List.append_nil]
      refine hwrites.frame (by rw [hpool]) ?_ ?_ <;> rw [hhistory] <;> split_ifs <;> rfl
  | exec i r q =>
      obtain ⟨c, o, hex, hpool, -, hhistory⟩ := Application.exec_cases hs'
      rw [ApplicationAction.commits, List.append_nil]
      exact hwrites.exec happ.writer hex hfollows hpool hhistory
  | endRead i r e b commits =>
      obtain ⟨c, -, -, hpool, -, hhistory⟩ := Application.endRead_cases hs'
      rw [ApplicationAction.commits, List.append_nil]
      refine hwrites.frame hpool ?_ ?_ <;> rw [hhistory] <;> split_ifs <;> rfl
  | endWrite i r e b commits =>
      obtain ⟨⟨c, hex⟩, hstep, -, -, hhistory⟩ := Application.endWrite_cases hs'
      exact hwrites.endWrite happ.writer hex hfollows.1 hstep hhistory

lemma Execution.Inv.reads_step (hi : x.Inv L view closures d m)
    (hno : s'.expectPanics = x.application.expectPanics) (hfollows : x.Follows closures a)
    (hs' : x.application.step E a = some s') :
    s'.Reads closures (x.reads ++ a.reads x.application) := by
  obtain ⟨happ, -, hreads⟩ := hi
  cases a with
  | pool a =>
      simp only [Application.step] at hs'
      split_ifs at hs' with hcross
      obtain ⟨p, hp, rfl⟩ := Option.map_eq_some_iff.mp hs'
      rw [ApplicationAction.reads, List.append_nil]
      exact hreads.pool happ.writer happ.readers (by simpa using hcross) hp
  | startRead i r transaction =>
      obtain ⟨c, hc, hstep, -, hcases⟩ := Application.startRead_cases hs' hno
      rw [ApplicationAction.reads, List.append_nil]
      refine hreads.startRead happ.readers hc hstep (fun hmem => ?_) hcases
      obtain ⟨c', hc'⟩ := happ.transactions i r hmem
      exact Side.not_executingOn_of_enter hstep c' hc'
  | startWrite i r =>
      obtain ⟨-, hpool, htransactions, hhistory⟩ := Application.startWrite_cases hs' hno
      rw [ApplicationAction.reads, List.append_nil]
      exact hreads.frame hpool htransactions (by rw [hhistory]; rfl) (by rw [hhistory]; rfl)
  | query i r q =>
      obtain ⟨c, o, hc, hpool, htransactions, hhistory⟩ := Application.query_cases hs'
      exact hreads.query happ.readers (Side.executing?_eq_some.mp hc) (hfollows c hc) hpool
        htransactions hhistory
  | exec i r q =>
      obtain ⟨c, o, -, hpool, htransactions, hhistory⟩ := Application.exec_cases hs'
      rw [ApplicationAction.reads, List.append_nil]
      exact hreads.frame (by rw [hpool]) htransactions (by rw [hhistory]; rfl)
        (by rw [hhistory]; rfl)
  | endRead i r e b commits =>
      obtain ⟨c, hc, hstep, -, htransactions, hhistory⟩ := Application.endRead_cases hs'
      exact hreads.endRead happ.readers (Side.executing?_eq_some.mp hc)
        (fun hmem => (hfollows c hc hmem).1) hstep htransactions hhistory
  | endWrite i r e b commits =>
      obtain ⟨-, -, hpool, htransactions, hhistory⟩ := Application.endWrite_cases hs'
      rw [ApplicationAction.reads, List.append_nil]
      refine hreads.frame hpool htransactions ?_ ?_ <;> rw [hhistory] <;>
        cases e.close b commits <;> rfl

/-- **Every step keeps the invariant**, as long as closures do what they are written to do. -/
theorem Execution.Inv.step {x' : Execution σ Q O} (hE : E.Refines L view)
    (hi : x.Inv L view closures d m) (hends : a.EndsTransaction)
    (hfollows : x.Follows closures a) (hs : x.step E a = some x') :
    x'.Inv L view closures d m := by
  obtain ⟨s', hs', rfl⟩ := Option.map_eq_some_iff.mp hs
  have happ' := hi.application.step hE hends hs'
  have hno : s'.expectPanics = x.application.expectPanics :=
    happ'.expectPanics.trans hi.application.expectPanics.symm
  exact ⟨happ', hi.writes_step hno hfollows hs', hi.reads_step hno hfollows hs'⟩

end Step

lemma exists_of_forall₂ {α β : Type*} {R : α → β → Prop} {as : List α} {bs : List β}
    (h : List.Forall₂ R as bs) {n : ℕ} {a : α} (ha : as[n]? = some a) :
    ∃ b, bs[n]? = some b ∧ R a b := by
  induction h generalizing n with
  | nil => simp at ha
  | cons hab _ ih =>
      cases n with
      | zero =>
          rw [List.getElem?_cons_zero, Option.some.injEq] at ha
          subst ha
          exact ⟨_, rfl, hab⟩
      | succ n => exact ih ha

lemma Execution.Inv.serial {L : Language D Q O} {view : σ → Store Conn Conn D}
    {closures : Closures Q O} {d : D} {m : ℕ} {x : Execution σ Q O}
    (hi : x.Inv L view closures d m) :
    x.Serial L closures d (view x.application.db).latest := by
  have hserializable := hi.application.store.serializable
  have hlength := hi.writes.committed.length_eq
  refine ⟨hi.writes.once, ?_, fun n i r hn => ?_, fun n i r hn => ?_⟩
  · rw [hlength]
    exact hserializable.serial.version_length
  · obtain ⟨t, ht, hcompletes⟩ := exists_of_forall₂ hi.writes.committed hn
    exact ⟨t, ht, hcompletes, hserializable.serial.of_flatten ht⟩
  · obtain ⟨record, hrecord, hcompletes⟩ := exists_of_forall₂ hi.reads.reads hn
    obtain ⟨hended, k, hlow, hhigh, hanswers⟩ :=
      hserializable.reads record (List.mem_of_getElem? hrecord)
    exact ⟨record, k, hrecord, hlow, hhigh, by rw [hlength]; exact hended,
      hcompletes i r rfl, hanswers⟩

/-- **Closures are serializable as wholes.**  Over a WAL-mode database that only this pool uses, let
every closure that is given a `Transaction` be a program that depends on the answers it gets, and
end its transaction.  However calls, timeouts, cancellations, runs, drops and the statements of the
closures interleave, the database is what the closures that committed make of it one after the
other, each of them alone and once, and a closure that has read in a transaction has seen what it
would have seen alone between two of them. -/
theorem closuresSerialize {E : Sqlite σ Q O} {L : Language D Q O}
    {view : σ → Store Conn Conn D} (hE : E.Refines L view) (closures : Closures Q O) {d : D}
    {db : σ} (hdb : view db = .fresh d) {m : ℕ} {x : Execution σ Q O}
    (h : ReachableBy (Execution.step E) (fun x a => a.EndsTransaction ∧ x.Follows closures a)
      (.new m db) x) :
    x.Serial L closures d (view x.application.db).latest := by
  have hi : x.Inv L view closures d m :=
    h.invariant (I := Execution.Inv L view closures d m) (Execution.inv_new L closures m hdb)
      fun _ _ _ hi hok hs => hi.step hE hok.1 hok.2 hs
  exact hi.serial

/-! ## A run -/

instance [DecidableEq Q] (closures : Closures Q O) (x : Execution σ Q O)
    (a : ApplicationAction Q) : Decidable (a.EndsTransaction ∧ x.Follows closures a) := by
  unfold ApplicationAction.EndsTransaction Execution.Follows
  cases a <;> infer_instance

end

/-- A writer that adds 5, one that adds 30 and panics, and a reader that looks twice. -/
def tallyClosures : Closures ℕ ℕ where
  write i _ := ⟨fun t => if t = [] then some (if i = 0 then 5 else 30) else none,
    fun _ => .rollback, fun _ => if i = 0 then .commit true else .unwind⟩
  read _ _ := ⟨fun t => if t.length < 2 then some 0 else none, fun _ => .rollback, fun _ => .drop⟩

theorem closuresSerialize_readerBetweenWriters : ∃ x : Execution (Store Conn Conn ℕ) ℕ ℕ,
    runWhere (Execution.step (.ofStore tally 0))
      (fun x a => a.EndsTransaction ∧ x.Follows tallyClosures a) (.new 4 (Store.fresh 0))
        readerBetweenWriters = some x ∧
    x.committed = [(0, 0)] ∧ x.reads = [some (0, 0)] ∧
    x.Serial tally tallyClosures 0 x.application.db.latest := by
  have hrun : ((runWhere (Execution.step (.ofStore tally 0))
      (fun x a => a.EndsTransaction ∧ x.Follows tallyClosures a) (.new 4 (Store.fresh 0))
        readerBetweenWriters).map fun x => (x.committed, x.reads)) =
          some ([(0, 0)], [some (0, 0)]) := rfl
  obtain ⟨x, hx, heq⟩ := Option.map_eq_some_iff.mp hrun
  obtain ⟨hcommitted, hreads⟩ := Prod.mk.inj heq
  exact ⟨x, hx, hcommitted, hreads, closuresSerialize (Sqlite.ofStore_refines tally 0)
    tallyClosures rfl (reachableBy_of_runWhere readerBetweenWriters .start hx)⟩

end SqliteRwPool
