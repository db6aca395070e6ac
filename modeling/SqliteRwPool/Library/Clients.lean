import SqliteRwPool.Library.Programs

/-!
# Computations that talk to a store

A computation that asks for statements to be executed, and goes on by their answers, is a client.
It can be run on anything that answers, and it is a program, which sends what the client asks for
after the answers so far.

* `Client.performs` — alone with a database, the program does what running the client does.
* `Client.eq_run_of_performs` — and nothing else.
-/

namespace SnapshotStore

variable {D Q O α β σ : Type*}

/-- A computation that asks for statements and goes on by their answers. -/
inductive Client (Q O α : Type*)
  | done (a : α)
  | ask (q : Q) (next : O → Client Q O α)

namespace Client

/-- Run the client on what answers its statements. -/
def run (answer : σ → Q → O × σ) : Client Q O α → σ → α × σ
  | done a, s => (a, s)
  | ask q next, s => (next (answer s q).1).run answer (answer s q).2

/-- The client after it has got these answers. -/
def resume : Client Q O α → List O → Client Q O α
  | c, [] => c
  | done a, _ :: _ => done a
  | ask _ next, o :: answers => resume (next o) answers

def asked : Client Q O α → Option Q
  | done _ => none
  | ask q _ => some q

def result : Client Q O α → Option α
  | done a => some a
  | ask _ _ => none

/-- The client by what it sends. -/
def program (c : Client Q O α) : Program Q O := fun t => (c.resume (t.map Prod.snd)).asked

/-- What the client returns after a trace, if it is done. -/
def resultAfter (c : Client Q O α) (t : Trace Q O) : Option α := (c.resume (t.map Prod.snd)).result

/-- The statement that a client asks for, and its answer, come first. -/
lemma sends_cons {q : Q} {next : O → Client Q O α} {o : O} {t : Trace Q O}
    (h : (next o).program.Sends t) : (ask q next).program.Sends ((q, o) :: t) := by
  intro before q' o' after heq
  cases before with
  | nil =>
      cases heq
      rfl
  | cons x before =>
      rw [List.cons_append, List.cons.injEq] at heq
      obtain ⟨rfl, heq⟩ := heq
      exact h before q' o' after heq

/-- **Alone with a database, the program does what running the client does.** -/
theorem performs (L : Language D Q O) (c : Client Q O α) (d : D) :
    ∃ t, c.program.Performs L d t (c.run (fun d q => L.exec q d) d).2 ∧
      c.resultAfter t = some (c.run (fun d q => L.exec q d) d).1 := by
  induction c generalizing d with
  | done a => exact ⟨[], ⟨⟨Program.Sends.nil _, rfl⟩, Language.Replays.nil L d⟩, rfl⟩
  | ask q next ih =>
      obtain ⟨t, ht, hresult⟩ := ih (L.exec q d).1 (L.exec q d).2
      refine ⟨(q, (L.exec q d).1) :: t, ⟨⟨sends_cons ht.sends, ht.done⟩, ?_⟩, hresult⟩
      exact (Language.Replays.exec L d q).append ht.replays

/-- **What the program does alone with a database is running the client.** -/
theorem eq_run_of_performs {L : Language D Q O} {c : Client Q O α} {d d' : D} {t : Trace Q O}
    (h : c.program.Performs L d t d') :
    d' = (c.run (fun d q => L.exec q d) d).2 ∧
      c.resultAfter t = some (c.run (fun d q => L.exec q d) d).1 := by
  obtain ⟨u, hu, hresult⟩ := c.performs L d
  obtain ⟨rfl, rfl⟩ := h.unique hu
  exact ⟨rfl, hresult⟩

end Client

end SnapshotStore
