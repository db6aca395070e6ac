import Mathlib.Logic.Function.Basic
import Mathlib.Tactic.Common

/-!
# Stores with one writer and snapshot readers

Sessions `W` write and sessions `R` read one database.  A write transaction works on its own copy
and there is at most one; committing makes the copy the database.  A read transaction takes its
snapshot with its first statement and answers every statement from it; a statement outside a
transaction reads the database as it is.

* `Store` is the store, its operations give `none` where they are refused.
* `History` is what the sessions have asked and been answered; `step` performs an operation and
  records it.
* `Serializable` — the committed transactions replay one after the other, in the order of their
  commits, with the same answers and up to the same database, and each read transaction has seen the
  database as it was between two of these commits.
* `Inv.step` — no operation of any session breaks this.
-/

namespace SnapshotStore

/-- What statements do and answer: `exec` inside a write transaction, `query` where nothing can be
written. -/
structure Language (D Q O : Type*) where
  exec : Q → D → O × D
  query : Q → D → O

/-- Statements with their answers. -/
abbrev Trace (Q O : Type*) := List (Q × O)

variable {W R D Q O : Type*}

/-! ## Replaying a trace -/

/-- Execute statements one after the other. -/
def Language.run (L : Language D Q O) : D → List Q → List O × D
  | d, [] => ([], d)
  | d, q :: qs =>
      let first := L.exec q d
      let rest := L.run first.2 qs
      (first.1 :: rest.1, rest.2)

lemma Language.run_append (L : Language D Q O) (d : D) (xs ys : List Q) :
    L.run d (xs ++ ys) =
      ((L.run d xs).1 ++ (L.run (L.run d xs).2 ys).1, (L.run (L.run d xs).2 ys).2) := by
  induction xs generalizing d with
  | nil => rfl
  | cons q qs ih => simp only [List.cons_append, Language.run, ih]

/-- Executed from `d`, the statements of the trace give its answers and lead to `d'`. -/
def Language.Replays (L : Language D Q O) (d : D) (t : Trace Q O) (d' : D) : Prop :=
  L.run d (t.map Prod.fst) = (t.map Prod.snd, d')

lemma Language.Replays.nil (L : Language D Q O) (d : D) : L.Replays d [] d := rfl

lemma Language.Replays.append {L : Language D Q O} {d d' d'' : D} {t u : Trace Q O}
    (ht : L.Replays d t d') (hu : L.Replays d' u d'') : L.Replays d (t ++ u) d'' := by
  unfold Language.Replays at *
  rw [List.map_append, Language.run_append, ht, hu, List.map_append]

lemma Language.Replays.exec (L : Language D Q O) (d : D) (q : Q) :
    L.Replays d [(q, (L.exec q d).1)] (L.exec q d).2 := rfl

/-- The database after the first `n` of the committed transactions. -/
def Language.version (L : Language D Q O) (d : D) (committed : List (Trace Q O)) (n : ℕ) : D :=
  (L.run d ((committed.take n).flatten.map Prod.fst)).2

lemma Language.version_append (L : Language D Q O) (d : D) (committed : List (Trace Q O))
    (t : Trace Q O) {n : ℕ} (hn : n ≤ committed.length) :
    L.version d (committed ++ [t]) n = L.version d committed n := by
  unfold Language.version
  rw [List.take_append_of_le_length hn]

lemma Language.Replays.version_length {L : Language D Q O} {d d' : D}
    {committed : List (Trace Q O)} (h : L.Replays d committed.flatten d') :
    L.version d committed committed.length = d' := by
  unfold Language.version
  rw [List.take_length, h]

/-! ## The store -/

/-- The database, the open write transaction with its copy, and the open read transactions, each
with its snapshot once it has one. -/
structure Store (W R D : Type*) where
  latest : D
  writing : Option (W × D)
  reading : R → Option (Option D)

/-- A store without transactions. -/
def Store.fresh (d : D) : Store W R D := ⟨d, none, fun _ => none⟩

namespace Store

/-- Begin a write transaction; refused while one is open. -/
def beginImmediate (s : Store W R D) (w : W) : Option (Store W R D) :=
  if s.writing.isNone then some { s with writing := some (w, s.latest) } else none

/-- Execute a statement in the write transaction of the session. -/
def exec [DecidableEq W] (L : Language D Q O) (s : Store W R D) (w : W) (q : Q) :
    Option (O × Store W R D) :=
  match s.writing with
  | some (v, d) =>
      if v = w then some ((L.exec q d).1, { s with writing := some (w, (L.exec q d).2) }) else none
  | none => none

/-- Make the copy of the session's transaction the database. -/
def commit [DecidableEq W] (s : Store W R D) (w : W) : Option (Store W R D) :=
  match s.writing with
  | some (v, d) => if v = w then some { s with latest := d, writing := none } else none
  | none => none

/-- Give up the session's transaction. -/
def rollback [DecidableEq W] (s : Store W R D) (w : W) : Option (Store W R D) :=
  match s.writing with
  | some (v, _) => if v = w then some { s with writing := none } else none
  | none => none

/-- Begin a read transaction; refused while the session is in one. -/
def beginDeferred [DecidableEq R] (s : Store W R D) (r : R) : Option (Store W R D) :=
  if (s.reading r).isNone then
    some { s with reading := Function.update s.reading r (some none) }
  else none

/-- Answer a statement of a reading session. -/
def query [DecidableEq R] (L : Language D Q O) (s : Store W R D) (r : R) (q : Q) :
    O × Store W R D :=
  match s.reading r with
  | some (some d) => (L.query q d, s)
  | some none =>
      (L.query q s.latest, { s with reading := Function.update s.reading r (some (some s.latest)) })
  | none => (L.query q s.latest, s)

/-- End the session's read transaction. -/
def endRead [DecidableEq R] (s : Store W R D) (r : R) : Option (Store W R D) :=
  if (s.reading r).isSome then some { s with reading := Function.update s.reading r none } else none

/-! What it takes for an operation to be accepted, and what it makes of the store. -/

lemma exec_cases [DecidableEq W] {L : Language D Q O} {s t : Store W R D} {w : W} {q : Q} {o : O}
    (h : s.exec L w q = some (o, t)) : ∃ e, s.writing = some (w, e) ∧ o = (L.exec q e).1 ∧
      t = { s with writing := some (w, (L.exec q e).2) } := by
  unfold exec at h
  split at h
  · rename_i v e hwr
    split_ifs at h with hv
    cases h
    exact ⟨e, by rw [hwr, hv], rfl, rfl⟩
  · cases h

lemma commit_cases [DecidableEq W] {s t : Store W R D} {w : W} (h : s.commit w = some t) :
    ∃ e, s.writing = some (w, e) ∧ t = { s with latest := e, writing := none } := by
  unfold commit at h
  split at h
  · rename_i v e hwr
    split_ifs at h with hv
    cases h
    exact ⟨e, by rw [hwr, hv], rfl⟩
  · cases h

lemma rollback_cases [DecidableEq W] {s t : Store W R D} {w : W} (h : s.rollback w = some t) :
    ∃ e, s.writing = some (w, e) ∧ t = { s with writing := none } := by
  unfold rollback at h
  split at h
  · rename_i v e hwr
    split_ifs at h with hv
    cases h
    exact ⟨e, by rw [hwr, hv], rfl⟩
  · cases h

lemma endRead_cases [DecidableEq R] {s t : Store W R D} {r : R} (h : s.endRead r = some t) :
    ∃ snapshot, s.reading r = some snapshot ∧
      t = { s with reading := Function.update s.reading r none } := by
  unfold endRead at h
  split_ifs at h with hr
  cases h
  obtain ⟨snapshot, hr⟩ := Option.isSome_iff_exists.mp hr
  exact ⟨snapshot, hr, rfl⟩

/-- A statement of an open read transaction. -/
lemma query_reading [DecidableEq R] (L : Language D Q O) {s : Store W R D} {r : R}
    {snapshot : Option D} (hr : s.reading r = some snapshot) (q : Q) :
    s.query L r q = (L.query q (snapshot.getD s.latest), { s with
      reading := Function.update s.reading r (some (some (snapshot.getD s.latest))) }) := by
  cases snapshot with
  | none => simp only [query, hr, Option.getD_none]
  | some seen =>
      have hsame : Function.update s.reading r (some (some seen)) = s.reading := by
        rw [← hr, Function.update_eq_self]
      simp only [query, hr, Option.getD_some, hsame]

/-- A statement of a reading session neither begins nor ends a transaction. -/
lemma query_snd [DecidableEq R] (L : Language D Q O) (s : Store W R D) (r : R) (q : Q) :
    (s.query L r q).2.writing = s.writing ∧
      ∀ r', ((s.query L r q).2.reading r').isSome = (s.reading r').isSome := by
  rcases hr : s.reading r with - | snapshot
  · simp only [query, hr, implies_true, and_self]
  · rw [query_reading L hr q]
    refine ⟨rfl, fun r' => ?_⟩
    by_cases hrr : r' = r
    · subst hrr
      simp only [Function.update_self, hr, Option.isSome_some]
    · simp only [Function.update_of_ne hrr]

end Store

/-! ## The history -/

/-- A read transaction that is over, or a statement outside one: its statements with their answers,
and how many transactions had committed when it began and when it ended. -/
structure ReadRecord (Q O : Type*) where
  began : ℕ
  ended : ℕ
  trace : Trace Q O

/-- The committed transactions in the order of their commits, what the open write transaction has
done, when each open read transaction began and what it has done, and the reads that are over. -/
structure History (R Q O : Type*) where
  committed : List (Trace Q O)
  writing : Trace Q O
  reading : R → ℕ × Trace Q O
  reads : List (ReadRecord Q O)

namespace History

/-- Nothing has happened. -/
def empty : History R Q O := ⟨[], [], fun _ => (0, []), []⟩

def beginImmediate (h : History R Q O) : History R Q O := { h with writing := [] }

def exec (h : History R Q O) (q : Q) (o : O) : History R Q O :=
  { h with writing := h.writing ++ [(q, o)] }

def commit (h : History R Q O) : History R Q O :=
  { h with committed := h.committed ++ [h.writing], writing := [] }

def rollback (h : History R Q O) : History R Q O := { h with writing := [] }

def beginDeferred [DecidableEq R] (h : History R Q O) (r : R) : History R Q O :=
  { h with reading := Function.update h.reading r (h.committed.length, []) }

/-- A statement inside a read transaction. -/
def query [DecidableEq R] (h : History R Q O) (r : R) (q : Q) (o : O) : History R Q O :=
  { h with
    reading := Function.update h.reading r ((h.reading r).1, (h.reading r).2 ++ [(q, o)]) }

/-- A statement of a reading session outside a transaction. -/
def queryAlone (h : History R Q O) (q : Q) (o : O) : History R Q O :=
  { h with reads := h.reads ++ [⟨h.committed.length, h.committed.length, [(q, o)]⟩] }

def endRead (h : History R Q O) (r : R) : History R Q O :=
  { h with reads := h.reads ++ [⟨(h.reading r).1, h.committed.length, (h.reading r).2⟩] }

end History

/-! ## Operations with their history -/

inductive Action (W R Q : Type*)
  | beginImmediate (w : W)
  | exec (w : W) (q : Q)
  | commit (w : W)
  | rollback (w : W)
  | beginDeferred (r : R)
  | query (r : R) (q : Q)
  | endRead (r : R)

/-- Perform an operation and record it. -/
def step [DecidableEq W] [DecidableEq R] (L : Language D Q O)
    (s : Store W R D × History R Q O) : Action W R Q → Option (Store W R D × History R Q O)
  | .beginImmediate w => (s.1.beginImmediate w).map fun t => (t, s.2.beginImmediate)
  | .exec w q => (s.1.exec L w q).map fun (o, t) => (t, s.2.exec q o)
  | .commit w => (s.1.commit w).map fun t => (t, s.2.commit)
  | .rollback w => (s.1.rollback w).map fun t => (t, s.2.rollback)
  | .beginDeferred r => (s.1.beginDeferred r).map fun t => (t, s.2.beginDeferred r)
  | .query r q =>
      let (o, t) := s.1.query L r q
      some (t, if (s.1.reading r).isSome then s.2.query r q o else s.2.queryAlone q o)
  | .endRead r => (s.1.endRead r).map fun t => (t, s.2.endRead r)

/-- All statements of the trace are answered from `d`. -/
def Language.AnswersFrom (L : Language D Q O) (d : D) (t : Trace Q O) : Prop :=
  ∀ x ∈ t, x.2 = L.query x.1 d

/-- **Serializability.**  The committed transactions replay one after the other with the same
answers, and lead to the database; each read that is over is answered from one version of it, which
was the latest at some moment between its beginning and its end. -/
structure Serializable (L : Language D Q O) (d : D) (latest : D) (h : History R Q O) : Prop where
  serial : L.Replays d h.committed.flatten latest
  reads : ∀ r ∈ h.reads, r.ended ≤ h.committed.length ∧
    ∃ n, r.began ≤ n ∧ n ≤ r.ended ∧ L.AnswersFrom (L.version d h.committed n) r.trace

/-- An open read transaction: until it has a snapshot it has asked nothing, and the snapshot is the
version of some moment since it began. -/
def ReadsFrom (L : Language D Q O) (d : D) (committed : List (Trace Q O))
    (snapshot : Option D) (began : ℕ) (t : Trace Q O) : Prop :=
  began ≤ committed.length ∧
    match snapshot with
    | none => t = []
    | some seen => L.AnswersFrom seen t ∧
        ∃ n, began ≤ n ∧ n ≤ committed.length ∧ L.version d committed n = seen

/-- What holds in every state. -/
structure Inv (L : Language D Q O) (d : D) (s : Store W R D × History R Q O) : Prop where
  serializable : Serializable L d s.1.latest s.2
  writing : ∀ w e, s.1.writing = some (w, e) → L.Replays s.1.latest s.2.writing e
  reading : ∀ r snapshot, s.1.reading r = some snapshot →
    ReadsFrom L d s.2.committed snapshot (s.2.reading r).1 (s.2.reading r).2

lemma inv_fresh (L : Language D Q O) (d : D) :
    Inv L d ((Store.fresh d : Store W R D), (History.empty : History R Q O)) :=
  ⟨⟨rfl, by simp [History.empty]⟩, by simp [Store.fresh], by simp [Store.fresh]⟩

/-! ## What one operation preserves -/

/-- A record of what one version answers, made in an open transaction, is a read of one version. -/
lemma ReadsFrom.record {L : Language D Q O} {d : D} {committed : List (Trace Q O)}
    {snapshot : Option D} {began : ℕ} {t : Trace Q O}
    (h : ReadsFrom L d committed snapshot began t) :
    ∃ n, began ≤ n ∧ n ≤ committed.length ∧ L.AnswersFrom (L.version d committed n) t := by
  obtain ⟨hbegan, hsnap⟩ := h
  cases snapshot with
  | none => exact ⟨began, Nat.le_refl _, hbegan, by rw [hsnap]; intro x hx; cases hx⟩
  | some seen =>
      obtain ⟨hanswers, n, hlow, hhigh, hversion⟩ := hsnap
      exact ⟨n, hlow, hhigh, by rw [hversion]; exact hanswers⟩

/-- A commit does not disturb an open read transaction. -/
lemma ReadsFrom.commit {L : Language D Q O} {d : D} {committed : List (Trace Q O)}
    {snapshot : Option D} {began : ℕ} {t : Trace Q O}
    (h : ReadsFrom L d committed snapshot began t) (u : Trace Q O) :
    ReadsFrom L d (committed ++ [u]) snapshot began t := by
  obtain ⟨hbegan, hsnap⟩ := h
  refine ⟨by rw [List.length_append]; omega, ?_⟩
  cases snapshot with
  | none => exact hsnap
  | some seen =>
      obtain ⟨hanswers, n, hlow, hhigh, hversion⟩ := hsnap
      refine ⟨hanswers, n, hlow, by rw [List.length_append]; omega, ?_⟩
      rw [L.version_append d committed u hhigh, hversion]

/-- A statement of an open read transaction is answered from its snapshot, which is taken now when
there is none yet. -/
lemma ReadsFrom.query {L : Language D Q O} {d latest : D} {committed : List (Trace Q O)}
    {snapshot : Option D} {began : ℕ} {t : Trace Q O}
    (h : ReadsFrom L d committed snapshot began t) (hlatest : L.Replays d committed.flatten latest)
    (q : Q) :
    ReadsFrom L d committed (some (snapshot.getD latest)) began
      (t ++ [(q, L.query q (snapshot.getD latest))]) := by
  obtain ⟨hbegan, hsnap⟩ := h
  refine ⟨hbegan, ?_⟩
  cases snapshot with
  | none =>
      refine ⟨?_, committed.length, hbegan, Nat.le_refl _, hlatest.version_length⟩
      intro x hx
      rw [hsnap, List.nil_append, List.mem_singleton] at hx
      rw [hx, Option.getD_none]
  | some seen =>
      obtain ⟨hanswers, hversion⟩ := hsnap
      refine ⟨?_, hversion⟩
      intro x hx
      rcases List.mem_append.mp hx with hx | hx
      · exact hanswers x hx
      · rw [List.mem_singleton.mp hx, Option.getD_some]

/-- A read that is over stays one when another transaction commits. -/
lemma Serializable.commit {L : Language D Q O} {d latest latest' : D} {h : History R Q O}
    (hs : Serializable L d latest h) (hw : L.Replays latest h.writing latest') :
    Serializable L d latest' h.commit := by
  refine ⟨?_, fun r hr => ?_⟩
  · show L.Replays d (h.committed ++ [h.writing]).flatten latest'
    rw [List.flatten_append, List.flatten_singleton]
    exact hs.serial.append hw
  · obtain ⟨hend, n, hlow, hhigh, hanswers⟩ := hs.reads r hr
    refine ⟨by simp only [History.commit, List.length_append]; omega, n, hlow, hhigh, ?_⟩
    rw [History.commit, L.version_append d h.committed h.writing (Nat.le_trans hhigh hend)]
    exact hanswers

/-- One more read that is over. -/
lemma Serializable.record {L : Language D Q O} {d latest : D} {h : History R Q O}
    (hs : Serializable L d latest h) {began : ℕ} {t : Trace Q O}
    (hr : ∃ n, began ≤ n ∧ n ≤ h.committed.length ∧
      L.AnswersFrom (L.version d h.committed n) t) :
    Serializable L d latest { h with reads := h.reads ++ [⟨began, h.committed.length, t⟩] } := by
  refine ⟨hs.serial, fun r hmem => ?_⟩
  rcases List.mem_append.mp hmem with hmem | hmem
  · exact hs.reads r hmem
  · rw [List.mem_singleton.mp hmem]
    exact ⟨Nat.le_refl _, hr⟩

/-- **One operation keeps the invariant.** -/
theorem Inv.step [DecidableEq W] [DecidableEq R] {L : Language D Q O} {d : D}
    {s s' : Store W R D × History R Q O} {a : Action W R Q} (hi : Inv L d s)
    (hs : step L s a = some s') : Inv L d s' := by
  obtain ⟨st, h⟩ := s
  obtain ⟨hser, hwriting, hreading⟩ := hi
  cases a with
  | beginImmediate w =>
      obtain ⟨t, ht, rfl⟩ := Option.map_eq_some_iff.mp hs
      simp only [Store.beginImmediate, Option.ite_none_right_eq_some, Option.some.injEq] at ht
      obtain ⟨-, rfl⟩ := ht
      refine ⟨⟨hser.serial, hser.reads⟩, fun v e hv => ?_, hreading⟩
      cases hv
      exact .nil L _
  | exec w q =>
      obtain ⟨⟨o, t⟩, ht, rfl⟩ := Option.map_eq_some_iff.mp hs
      obtain ⟨e, hwr, ho, rfl⟩ := Store.exec_cases ht
      refine ⟨⟨hser.serial, hser.reads⟩, fun v e' hv => ?_, hreading⟩
      cases hv
      rw [ho]
      exact (hwriting w e hwr).append (.exec L e q)
  | commit w =>
      obtain ⟨t, ht, rfl⟩ := Option.map_eq_some_iff.mp hs
      obtain ⟨e, hwr, rfl⟩ := Store.commit_cases ht
      exact ⟨hser.commit (hwriting w e hwr), (fun v e' hv => by cases hv),
        fun r snapshot hr => (hreading r snapshot hr).commit h.writing⟩
  | rollback w =>
      obtain ⟨t, ht, rfl⟩ := Option.map_eq_some_iff.mp hs
      obtain ⟨e, hwr, rfl⟩ := Store.rollback_cases ht
      exact ⟨⟨hser.serial, hser.reads⟩, (fun v e' hv => by cases hv), hreading⟩
  | beginDeferred r =>
      obtain ⟨t, ht, rfl⟩ := Option.map_eq_some_iff.mp hs
      simp only [Store.beginDeferred, Option.ite_none_right_eq_some, Option.some.injEq] at ht
      obtain ⟨-, rfl⟩ := ht
      refine ⟨⟨hser.serial, hser.reads⟩, hwriting, fun r' snapshot hr => ?_⟩
      by_cases hrr : r' = r
      · subst hrr
        simp only [Function.update_self, Option.some.injEq] at hr
        simp only [History.beginDeferred, Function.update_self, ← hr]
        exact ⟨Nat.le_refl _, rfl⟩
      · simp only [Function.update_of_ne hrr] at hr
        simp only [History.beginDeferred, Function.update_of_ne hrr]
        exact hreading r' snapshot hr
  | query r q =>
      cases hr : st.reading r with
      | none =>
          simp only [SnapshotStore.step, Store.query, hr, Option.isSome_none, Bool.false_eq_true,
            if_false, Option.some.injEq] at hs
          subst hs
          refine ⟨hser.record ⟨h.committed.length, Nat.le_refl _, Nat.le_refl _, ?_⟩, hwriting,
            hreading⟩
          intro x hx
          rw [List.mem_singleton.mp hx, hser.serial.version_length]
      | some snapshot =>
          have hnext := (hreading r snapshot hr).query hser.serial q
          simp only [SnapshotStore.step, Store.query_reading L hr q, hr, Option.isSome_some,
            if_true, Option.some.injEq] at hs
          subst hs
          refine ⟨⟨hser.serial, hser.reads⟩, hwriting, fun r' snapshot' hr' => ?_⟩
          by_cases hrr : r' = r
          · subst hrr
            simp only [Function.update_self, Option.some.injEq] at hr'
            simp only [History.query, Function.update_self, ← hr']
            exact hnext
          · simp only [Function.update_of_ne hrr] at hr'
            simp only [History.query, Function.update_of_ne hrr]
            exact hreading r' snapshot' hr'
  | endRead r =>
      obtain ⟨t, ht, rfl⟩ := Option.map_eq_some_iff.mp hs
      obtain ⟨snapshot, hr, rfl⟩ := Store.endRead_cases ht
      refine ⟨hser.record (hreading r snapshot hr).record, hwriting, fun r' snapshot' hr' => ?_⟩
      by_cases hrr : r' = r
      · subst hrr
        simp only [Function.update_self] at hr'
        cases hr'
      · simp only [Function.update_of_ne hrr] at hr'
        exact hreading r' snapshot' hr'

end SnapshotStore
