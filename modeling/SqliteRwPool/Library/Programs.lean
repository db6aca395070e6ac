import SqliteRwPool.Library.SnapshotStore

/-!
# Programs that talk to a store

A deterministic client is known by what it does next after the statements it has sent and the
answers to them.  `Performs` says what such a program does when it is alone with a database and may
write, `Looks` what it does when every statement is answered from one version.

* `Performs.unique`, `Looks.unique` — alone, a program does one thing only.
* `Replays.of_flatten` — when transactions replay one after the other, each of them replays from the
  version that those before it have left.
-/

namespace SnapshotStore

variable {D Q O : Type*}

/-- What the program sends next, if it is not done. -/
abbrev Program (Q O : Type*) := Trace Q O → Option Q

/-- The trace is of the program's own statements. -/
def Program.Sends (P : Program Q O) (t : Trace Q O) : Prop :=
  ∀ before q o after, t = before ++ (q, o) :: after → P before = some q

/-- The trace is of the program's own statements, and of all of them. -/
structure Program.Completes (P : Program Q O) (t : Trace Q O) : Prop where
  sends : P.Sends t
  done : P t = none

lemma Program.Sends.nil (P : Program Q O) : P.Sends [] := by
  intro before q o after h
  simp at h

lemma Program.Sends.concat {P : Program Q O} {t : Trace Q O} (h : P.Sends t) {q : Q}
    (hq : P t = some q) (o : O) : P.Sends (t ++ [(q, o)]) := by
  intro before q' o' after heq
  rcases List.append_eq_append_iff.mp heq with ⟨more, rfl, hmore⟩ | ⟨more, rfl, hmore⟩
  · cases more with
    | nil =>
        rw [List.append_nil]
        cases hmore
        exact hq
    | cons x more => simp at hmore
  · cases more with
    | nil =>
        rw [List.append_nil] at hq
        cases hmore
        exact hq
    | cons x more =>
        cases hmore
        exact h before q' o' more rfl

/-- What is left of a trace of the program's own statements starts with the program's next one. -/
lemma Program.Sends.tail {P : Program Q O} {before : Trace Q O} {x : Q × O} {after : Trace Q O}
    (h : P.Sends (before ++ x :: after)) : P before = some x.1 :=
  h before x.1 x.2 after rfl

/-- Two traces of one program that answer alike as long as the program has done the same are one. -/
lemma Program.Completes.unique_of_answers {P : Program Q O} {t u : Trace Q O}
    (ht : P.Completes t) (hu : P.Completes u)
    (hsame : ∀ before q o o' after after', t = before ++ (q, o) :: after →
      u = before ++ (q, o') :: after' → o = o') : t = u := by
  have hagree : ∀ after before after', t = before ++ after → u = before ++ after' →
      after = after' := by
    intro after
    induction after with
    | nil =>
        intro before after' h h'
        cases after' with
        | nil => rfl
        | cons y after' =>
            have hsend := (h' ▸ hu.sends).tail
            rw [List.append_nil] at h
            rw [← h, ht.done] at hsend
            cases hsend
    | cons x after ih =>
        intro before after' h h'
        have hsend := (h ▸ ht.sends).tail
        cases after' with
        | nil =>
            rw [List.append_nil] at h'
            rw [← h', hu.done] at hsend
            cases hsend
        | cons y after' =>
            have hsend' := (h' ▸ hu.sends).tail
            obtain ⟨q, o⟩ := x
            obtain ⟨q', o'⟩ := y
            rw [hsend, Option.some.injEq] at hsend'
            simp only at hsend'
            subst hsend'
            have ho := hsame before q o o' after after' h h'
            subst ho
            rw [ih (before ++ [(q, o)]) after' (by simpa using h) (by simpa using h')]
  exact hagree t [] u rfl rfl

/-- Alone with `d`, the program does what the trace says and leaves `d'`. -/
structure Program.Performs (L : Language D Q O) (P : Program Q O) (d : D) (t : Trace Q O)
    (d' : D) : Prop extends P.Completes t where
  replays : L.Replays d t d'

/-- Answered from `d` throughout, the program does what the trace says. -/
structure Program.Looks (L : Language D Q O) (P : Program Q O) (d : D) (t : Trace Q O) : Prop
    extends P.Completes t where
  answers : L.AnswersFrom d t

/-- What replays can be cut in two. -/
lemma Language.Replays.split {L : Language D Q O} {d d' : D} {t u : Trace Q O}
    (h : L.Replays d (t ++ u) d') : ∃ e, L.Replays d t e ∧ L.Replays e u d' := by
  have hlength : ∀ (qs : List Q) (d : D), (L.run d qs).1.length = qs.length := by
    intro qs
    induction qs with
    | nil => exact fun _ => rfl
    | cons q qs ih => exact fun d => by simp [Language.run, ih]
  unfold Language.Replays at h
  rw [List.map_append, Language.run_append, List.map_append, Prod.mk.injEq] at h
  obtain ⟨hfirst, hrest⟩ := List.append_inj h.1 (by simp [hlength])
  exact ⟨(L.run d (t.map Prod.fst)).2, Prod.ext hfirst rfl, Prod.ext hrest h.2⟩

/-- **A program that is alone does one thing only.** -/
theorem Program.Performs.unique {L : Language D Q O} {P : Program Q O} {d d₁ d₂ : D}
    {t u : Trace Q O} (ht : P.Performs L d t d₁) (hu : P.Performs L d u d₂) :
    t = u ∧ d₁ = d₂ := by
  have heq : t = u := by
    refine ht.toCompletes.unique_of_answers hu.toCompletes ?_
    rintro before q o o' after after' rfl rfl
    obtain ⟨e, he, hrest⟩ := ht.replays.split
    obtain ⟨e', he', hrest'⟩ := hu.replays.split
    have hsame : e = e' := (Prod.mk.inj (he.symm.trans he')).2
    subst hsame
    have hanswer := congrArg (List.head? ∘ Prod.fst) hrest
    have hanswer' := congrArg (List.head? ∘ Prod.fst) hrest'
    simp only [List.map_cons, Language.run, Function.comp_apply, List.head?_cons,
      Option.some.injEq] at hanswer hanswer'
    rw [← hanswer, ← hanswer']
  subst heq
  exact ⟨rfl, (Prod.mk.inj (ht.replays.symm.trans hu.replays)).2⟩

/-- **A program that is answered from one version sees one thing only.** -/
theorem Program.Looks.unique {L : Language D Q O} {P : Program Q O} {d : D} {t u : Trace Q O}
    (ht : P.Looks L d t) (hu : P.Looks L d u) : t = u := by
  refine ht.toCompletes.unique_of_answers hu.toCompletes ?_
  rintro before q o o' after after' rfl rfl
  have ho := ht.answers (q, o) (by simp)
  have ho' := hu.answers (q, o') (by simp)
  exact ho.trans ho'.symm

/-- **Transactions that replay one after the other** replay each from the version before it. -/
theorem Language.Replays.of_flatten {L : Language D Q O} {d d' : D}
    {committed : List (Trace Q O)} (h : L.Replays d committed.flatten d') {n : ℕ} {t : Trace Q O}
    (ht : committed[n]? = some t) :
    L.Replays (L.version d committed n) t (L.version d committed (n + 1)) := by
  obtain ⟨hlt, heq⟩ := List.getElem?_eq_some_iff.mp ht
  have htake : (committed.take (n + 1)).flatten = (committed.take n).flatten ++ t := by
    rw [List.take_succ_eq_append_getElem hlt, heq, List.flatten_append, List.flatten_singleton]
  have hsplit : committed.flatten =
      ((committed.take n).flatten ++ t) ++ (committed.drop (n + 1)).flatten := by
    rw [← htake, ← List.flatten_append, List.take_append_drop]
  rw [hsplit] at h
  obtain ⟨e, hupto, -⟩ := h.split
  obtain ⟨e', hbefore, hthis⟩ := hupto.split
  have hversion : L.version d committed n = e' := congrArg Prod.snd hbefore
  have hnext : L.version d committed (n + 1) = e := by
    rw [Language.version, htake]
    exact congrArg Prod.snd hupto
  rw [hversion, hnext]
  exact hthis

end SnapshotStore
