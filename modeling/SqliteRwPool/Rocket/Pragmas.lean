import SqliteRwPool.Library.Fallible
import SqliteRwPool.Library.Statements

/-!
# What is done to a connection before the pool lends it

r2d2 runs `with_init` on each connection that it opens, and keeps those on which it succeeds.  The
pragmas are written into one text, which SQLite takes apart again: a value is whatever the
configuration says, and may end a statement, begin another one or hide the end of its own.

* `withInit` — what `create_pool` has r2d2 do, with `Pragmas.set`.
* `plan` — the busy timeout, the check of a read-only connection, each pragma and each initializer.
* `setUpFollowsPlan_iff` — a connection is set up as planned, up to the first step that fails,
  exactly if the text of each pragma is one statement.
* `Pragmas.asked_reorder_iff` — when it does not matter in which order the map is iterated over.
* `setUp_of_isPlain` — names and values without special characters are set as planned.

How SQLite reads a text is a parameter (`Reader`), and so is what it does with a statement.
-/

namespace SqliteRwPool

open Fallible Statements

/-! ## Pragmas -/

namespace PragmaDefaults

def pageSize : ℕ := 4096

def lockingMode : String := "NORMAL"

def journalMode : String := "WAL"

def foreignKeys : String := "ON"

def synchronous : String := "NORMAL"

def autoVacuum : String := "NONE"

end PragmaDefaults

/-- Pragmas to set on the database connection; the map has its entries in the order in which it is
iterated over. -/
structure Pragmas where
  pragmas : List (String × String)
  nodup : (pragmas.map Prod.fst).Nodup
  pageSize : ℕ
  lockingMode : String
  journalMode : String
  foreignKeys : String
  synchronous : String
  autoVacuum : String

/-- `Pragmas::default`. -/
def Pragmas.default : Pragmas where
  pragmas := []
  nodup := List.nodup_nil
  pageSize := PragmaDefaults.pageSize
  lockingMode := PragmaDefaults.lockingMode
  journalMode := PragmaDefaults.journalMode
  foreignKeys := PragmaDefaults.foreignKeys
  synchronous := PragmaDefaults.synchronous
  autoVacuum := PragmaDefaults.autoVacuum

/-- A line of the text that sets the pragmas. -/
def pragmaLine (name value : String) : String := "PRAGMA " ++ name ++ " = " ++ value ++ ";\n"

/-- The text that `set` hands to `execute_batch`. -/
def Pragmas.query (p : Pragmas) : String :=
  p.pragmas.foldl (fun query kv => query ++ pragmaLine kv.1 kv.2)
    ("\n" ++
      pragmaLine "page_size" (toString p.pageSize) ++
      pragmaLine "locking_mode" p.lockingMode ++
      pragmaLine "journal_mode" p.journalMode ++
      pragmaLine "foreign_keys" p.foreignKeys ++
      pragmaLine "synchronous" p.synchronous ++
      pragmaLine "auto_vacuum" p.autoVacuum)

/-! ## Setting up a connection -/

/-- `rusqlite::Error`. -/
inductive InitError
  | invalidQuery
  | sqliteFailure (message : String)
  deriving DecidableEq, Repr

/-- What rusqlite and SQLite do with a connection in state `κ`: set its busy timeout (in seconds),
say whether its main database is read-only, and run one statement. -/
structure Opened (κ : Type) where
  busyTimeout : κ → ℕ → Fallible InitError κ
  isReadonly : κ → Fallible InitError Bool
  runStatement : κ → List Char → Fallible InitError κ

variable {S κ : Type}

/-- `Connection::execute_batch`: run the statements of a text, up to the first that fails. -/
def executeBatch (R : Reader S Char) (E : Opened κ) (sql : String) (c : κ) : Fallible InitError κ :=
  (R.statements sql.toList).foldlM E.runStatement c

def Pragmas.set (R : Reader S Char) (E : Opened κ) (p : Pragmas) (c : κ) : Fallible InitError κ :=
  executeBatch R E p.query c

/-- What `create_pool` gives to `with_init`. -/
def withInit (R : Reader S Char) (E : Opened κ) (isWrite : Bool) (busyTimeout : Option ℕ)
    (pragmas : Pragmas) (initializers : List (κ → Fallible InitError κ)) (c : κ) :
    Fallible InitError κ := do
  let c ← match busyTimeout with
    | some timeout => E.busyTimeout c timeout
    | none => pure c
  if isWrite then pure () else do
    let readonly ← E.isReadonly c
    if readonly then pure () else fail .invalidQuery
  let c ← pragmas.set R E c
  initializers.foldlM (fun c initializer => initializer c) c

/-! ## The plan -/

/-- One step of setting up a connection. -/
inductive SetUpStep (κ : Type)
  | busyTimeout (timeout : ℕ)
  | checkReadonly
  | pragma (name value : String)
  | initializer (run : κ → Fallible InitError κ)

/-- The text that sets a pragma. -/
def pragmaText (name value : String) : List Char :=
  ("\nPRAGMA " ++ name ++ " = " ++ value ++ ";").toList

def SetUpStep.run (E : Opened κ) (c : κ) : SetUpStep κ → Fallible InitError κ
  | .busyTimeout timeout => E.busyTimeout c timeout
  | .checkReadonly => do
      let readonly ← E.isReadonly c
      if readonly then pure c else fail .invalidQuery
  | .pragma name value => E.runStatement c (pragmaText name value)
  | .initializer run => run c

/-- The pragmas and their values: those with a field of their own, and then those of the map. -/
def Pragmas.assignments (p : Pragmas) : List (String × String) :=
  [("page_size", toString p.pageSize), ("locking_mode", p.lockingMode),
    ("journal_mode", p.journalMode), ("foreign_keys", p.foreignKeys),
    ("synchronous", p.synchronous), ("auto_vacuum", p.autoVacuum)] ++ p.pragmas

/-- What is to be done to a connection, in this order. -/
def plan (isWrite : Bool) (busyTimeout : Option ℕ) (pragmas : Pragmas)
    (initializers : List (κ → Fallible InitError κ)) : List (SetUpStep κ) :=
  (busyTimeout.map .busyTimeout).toList ++ (if isWrite then [] else [.checkReadonly]) ++
    pragmas.assignments.map (fun kv => .pragma kv.1 kv.2) ++ initializers.map .initializer

/-- Take the steps one by one, up to the first that fails. -/
def runPlan (E : Opened κ) (steps : List (SetUpStep κ)) (c : κ) : Fallible InitError κ :=
  steps.foldlM (fun c step => step.run E c) c

/-! ## The text of the pragmas -/

/-- A separator before each of the lists and one at the end are one at the start and after each. -/
lemma cons_flatten_map_append {α : Type*} (a : α) (ls : List (List α)) :
    a :: (ls.map (· ++ [a])).flatten = (ls.map (a :: ·)).flatten ++ [a] := by
  induction ls with
  | nil => rfl
  | cons l ls ih => simp [ih]

lemma toList_foldl_pragmaLine (entries : List (String × String)) (query : String) :
    (entries.foldl (fun query kv => query ++ pragmaLine kv.1 kv.2) query).toList =
      query.toList ++ (entries.map fun kv => (pragmaLine kv.1 kv.2).toList).flatten := by
  induction entries generalizing query with
  | nil => simp
  | cons kv entries ih => simp [ih]

/-- The text is that of the pragmas, one after the other. -/
lemma Pragmas.toList_query (p : Pragmas) :
    p.query.toList = (p.assignments.map fun kv => pragmaText kv.1 kv.2).flatten ++ ['\n'] := by
  have hlines : p.query = p.assignments.foldl (fun query kv => query ++ pragmaLine kv.1 kv.2)
      "\n" := by
    simp only [query, assignments, List.foldl_append, List.foldl_cons, List.foldl_nil]
  have hline : (fun kv : String × String => (pragmaLine kv.1 kv.2).toList) =
      (· ++ ['\n']) ∘ fun kv => ("PRAGMA " ++ kv.1 ++ " = " ++ kv.2 ++ ";").toList := by
    funext kv
    simp [pragmaLine]
  have htext : (fun kv : String × String => pragmaText kv.1 kv.2) =
      ('\n' :: ·) ∘ fun kv => ("PRAGMA " ++ kv.1 ++ " = " ++ kv.2 ++ ";").toList := by
    funext kv
    simp [pragmaText]
  have hstart : "\n".toList = ['\n'] := by simp
  rw [hlines, toList_foldl_pragmaLine, hline, htext, ← List.map_map, ← List.map_map,
    ← cons_flatten_map_append, hstart, List.singleton_append]

example : Pragmas.default.query = "
PRAGMA page_size = 4096;
PRAGMA locking_mode = NORMAL;
PRAGMA journal_mode = WAL;
PRAGMA foreign_keys = ON;
PRAGMA synchronous = NORMAL;
PRAGMA auto_vacuum = NONE;
" := by decide +kernel

/-! ## Following the plan -/

section

variable (R : Reader S Char) (E : Opened κ) (isWrite : Bool) (busyTimeout : Option ℕ) (p : Pragmas)
  (initializers : List (κ → Fallible InitError κ)) (c : κ)

lemma runPlan_nil : runPlan E [] c = .ok c := rfl

lemma runPlan_cons (step : SetUpStep κ) (steps : List (SetUpStep κ)) :
    runPlan E (step :: steps) c = step.run E c >>= runPlan E steps := List.foldlM_cons

lemma runPlan_append (steps steps' : List (SetUpStep κ)) :
    runPlan E (steps ++ steps') c = runPlan E steps c >>= runPlan E steps' := List.foldlM_append

/-- Apart from the pragmas, a connection is set up as planned. -/
lemma withInit_eq : withInit R E isWrite busyTimeout p initializers c =
    runPlan E ((busyTimeout.map .busyTimeout).toList ++
      if isWrite then [] else [.checkReadonly]) c >>= fun c =>
        p.set R E c >>= runPlan E (initializers.map .initializer) := by
  have hinitializers : runPlan E (initializers.map .initializer) =
      fun c => initializers.foldlM (fun c initializer => initializer c) c := by
    funext c
    rw [runPlan, List.foldlM_map]
    rfl
  have hcheck : ∀ c : κ, withInit R E isWrite none p initializers c =
      runPlan E (if isWrite then [] else [.checkReadonly]) c >>= fun c =>
        p.set R E c >>= runPlan E (initializers.map .initializer) := by
    intro c
    rw [hinitializers]
    cases isWrite with
    | true => rfl
    | false =>
        rcases h : E.isReadonly c with e | readonly
        · simp [withInit, runPlan_cons, SetUpStep.run, h]
        · cases readonly <;> simp [withInit, runPlan_cons, runPlan_nil, SetUpStep.run, h]
  cases busyTimeout with
  | none => exact hcheck c
  | some t =>
      rcases h : E.busyTimeout c t with e | c'
      · simp [withInit, runPlan_cons, SetUpStep.run, h]
      · simp only [Option.map_some, Option.toList_some, List.cons_append, List.nil_append,
          runPlan_cons, SetUpStep.run, h, ok_bind]
        rw [← hcheck c', withInit, h]
        rfl

lemma runPlan_plan : runPlan E (plan isWrite busyTimeout p initializers) c =
    runPlan E ((busyTimeout.map .busyTimeout).toList ++
      if isWrite then [] else [.checkReadonly]) c >>= fun c =>
        runPlan E (p.assignments.map fun kv => .pragma kv.1 kv.2) c >>=
          runPlan E (initializers.map .initializer) := by
  rw [plan, runPlan_append, runPlan_append, bind_assoc]

/-- The pragmas are set as planned exactly where the text has theirs for its statements. -/
lemma runPlan_pragmas : runPlan E (p.assignments.map fun kv => .pragma kv.1 kv.2) c =
    (p.assignments.map fun kv => pragmaText kv.1 kv.2).foldlM E.runStatement c := by
  rw [runPlan, List.foldlM_map, List.foldlM_map]
  rfl

variable {R p} in
/-- The statements of the text are those that set the pragmas exactly if each of these is one. -/
lemma Pragmas.statements_query_iff (hblank : R.Blank ['\n']) :
    R.statements p.query.toList = (p.assignments.map fun kv => pragmaText kv.1 kv.2) ↔
      ∀ kv ∈ p.assignments, R.EndsWith (pragmaText kv.1 kv.2) := by
  rw [p.toList_query, Reader.statements_iff hblank (List.cons_ne_nil _ _), List.forall_mem_map]

variable {R p} in
lemma withInit_eq_runPlan (hblank : R.Blank ['\n'])
    (h : ∀ kv ∈ p.assignments, R.EndsWith (pragmaText kv.1 kv.2)) :
    withInit R E isWrite busyTimeout p initializers c =
      runPlan E (plan isWrite busyTimeout p initializers) c := by
  have hset : p.set R E = runPlan E (p.assignments.map fun kv => .pragma kv.1 kv.2) := by
    funext c
    rw [Pragmas.set, executeBatch, (Pragmas.statements_query_iff hblank).mpr h, runPlan_pragmas]
  rw [withInit_eq, runPlan_plan, hset]

end

/-- **A connection is set up as planned exactly if the text of each pragma is one statement.**  Then
`with_init` takes the steps one by one and stops at the first that fails, whatever they do to the
connection; and if a value ends its statement early, begins another one or hides the end of its own,
there are connections to which something else is done. -/
theorem setUpFollowsPlan_iff (R : Reader S Char) (hblank : R.Blank ['\n']) (isWrite : Bool)
    (busyTimeout : Option ℕ) (p : Pragmas) :
    (∀ (κ : Type) (E : Opened κ) (initializers : List (κ → Fallible InitError κ)) (c : κ),
      withInit R E isWrite busyTimeout p initializers c =
        runPlan E (plan isWrite busyTimeout p initializers) c) ↔
      ∀ kv ∈ p.assignments, R.EndsWith (pragmaText kv.1 kv.2) := by
  constructor
  · intro h
    refine (Pragmas.statements_query_iff hblank).mp ?_
    refine (@foldlM_eq_iff (Failure InitError) _ _ _).mp fun κ run c => ?_
    -- on a connection on which all else succeeds
    let E : Opened κ := ⟨fun c _ => .ok c, fun _ => .ok true, run⟩
    have hbefore : runPlan E ((busyTimeout.map .busyTimeout).toList ++
        if isWrite then [] else [.checkReadonly]) c = .ok c := by
      cases busyTimeout <;> cases isWrite <;> rfl
    have hafter : runPlan E ([].map .initializer) = pure := rfl
    have hset := h κ E [] c
    rw [withInit_eq, runPlan_plan, hbefore, ok_bind, ok_bind, hafter, bind_pure, bind_pure,
      runPlan_pragmas] at hset
    exact hset
  · intro h κ E initializers c
    exact withInit_eq_runPlan E isWrite busyTimeout initializers c hblank h

/-! ## The order of the map -/

section LastValue

variable {κ ν β : Type*} [DecidableEq ν] (canon : κ → ν) {l l' : List (κ × β)} {n : ν}

/-- The value that the last of the assignments to `n` gives it. -/
def lastValue (l : List (κ × β)) (n : ν) : Option β :=
  (l.reverse.find? fun kv => canon kv.1 = n).map Prod.snd

lemma lastValue_append (l l' : List (κ × β)) (n : ν) :
    lastValue canon (l ++ l') n = (lastValue canon l' n).or (lastValue canon l n) := by
  rw [lastValue, List.reverse_append, List.find?_append, lastValue, lastValue]
  cases l'.reverse.find? fun kv => canon kv.1 = n <;> rfl

variable {canon}

lemma lastValue_of_agree (h : ∀ a ∈ l, ∀ b ∈ l, canon a.1 = canon b.1 → a.2 = b.2) {v : β} :
    lastValue canon l n = some v ↔ ∃ k, (k, v) ∈ l ∧ canon k = n := by
  constructor
  · intro heq
    obtain ⟨kv, hfind, rfl⟩ := Option.map_eq_some_iff.mp heq
    exact ⟨kv.1, List.mem_reverse.mp (List.mem_of_find?_eq_some hfind),
      by simpa using List.find?_some hfind⟩
  · rintro ⟨k, hmem, rfl⟩
    obtain ⟨kv, hfind⟩ : ∃ kv, (l.reverse.find? fun kv => canon kv.1 = canon k) = some kv := by
      rw [← Option.isSome_iff_exists, List.find?_isSome]
      exact ⟨_, List.mem_reverse.mpr hmem, by simp⟩
    have hcanon : canon kv.1 = canon k := by simpa using List.find?_some hfind
    have hvalue := h kv (List.mem_reverse.mp (List.mem_of_find?_eq_some hfind)) (k, v) hmem hcanon
    rw [lastValue, hfind, Option.map_some, hvalue]

/-- **The last values do not depend on the order exactly if assignments to the same agree.** -/
theorem lastValue_perm_iff :
    (∀ l' : List (κ × β), l'.Perm l → ∀ n, lastValue canon l' n = lastValue canon l n) ↔
      ∀ a ∈ l, ∀ b ∈ l, canon a.1 = canon b.1 → a.2 = b.2 := by
  classical
  constructor
  · intro h
    -- each of the entries may be the last
    have hlast : ∀ a ∈ l, lastValue canon l (canon a.1) = some a.2 := by
      intro a ha
      obtain ⟨s, t, rfl⟩ := List.append_of_mem ha
      have hperm : (s ++ t ++ [a]).Perm (s ++ a :: t) := by
        rw [List.append_assoc]
        exact List.perm_append_comm.append_left s
      rw [← h _ hperm]
      simp [lastValue]
    intro a ha b hb hcanon
    have heq := hlast a ha
    rw [hcanon, hlast b hb] at heq
    exact (Option.some.inj heq).symm
  · intro h l' hperm n
    have h' : ∀ a ∈ l', ∀ b ∈ l', canon a.1 = canon b.1 → a.2 = b.2 := fun a ha b hb =>
      h a (hperm.mem_iff.mp ha) b (hperm.mem_iff.mp hb)
    ext v
    rw [lastValue_of_agree h', lastValue_of_agree h]
    simp only [hperm.mem_iff]

end LastValue

/-- The value that `set` asks for last; `canon` tells which names are of one pragma. -/
def Pragmas.asked {ν : Type*} [DecidableEq ν] (canon : String → ν) (p : Pragmas) (n : ν) :
    Option String :=
  lastValue canon p.assignments n

/-- The same configuration, with the entries of the map in another order. -/
def Pragmas.reorder (p : Pragmas) (pragmas : List (String × String))
    (h : pragmas.Perm p.pragmas) : Pragmas :=
  { p with
    pragmas
    nodup := (h.map Prod.fst).nodup_iff.mpr p.nodup }

/-- **What is asked for does not depend on the order of the map exactly if its entries for one
pragma agree.**  An entry of the map prevails over the field for the pragma in any order. -/
theorem Pragmas.asked_reorder_iff {ν : Type*} [DecidableEq ν] (canon : String → ν) (p : Pragmas) :
    (∀ pragmas h n, (p.reorder pragmas h).asked canon n = p.asked canon n) ↔
      ∀ a ∈ p.pragmas, ∀ b ∈ p.pragmas, canon a.1 = canon b.1 → a.2 = b.2 := by
  rw [← lastValue_perm_iff]
  have hasked : ∀ pragmas h n, (p.reorder pragmas h).asked canon n =
      (lastValue canon pragmas n).or (lastValue canon (p.assignments.take 6) n) :=
    fun pragmas h n => lastValue_append canon _ pragmas n
  have hself : ∀ n, p.asked canon n =
      (lastValue canon p.pragmas n).or (lastValue canon (p.assignments.take 6) n) :=
    fun n => lastValue_append canon _ p.pragmas n
  simp only [hasked, hself]
  refine forall₂_congr fun pragmas h => forall_congr' fun n =>
    ⟨fun heq => ?_, fun heq => by rw [heq]⟩
  -- in either order, there is an entry for the pragma or there is none
  have hnone : lastValue canon pragmas n = none ↔ lastValue canon p.pragmas n = none := by
    simp [lastValue, h.mem_iff]
  cases hl : lastValue canon p.pragmas n with
  | none => exact hnone.mpr hl
  | some v =>
      cases hl' : lastValue canon pragmas n with
      | none => rw [hnone.mp hl'] at hl; cases hl
      | some v' => simpa [hl, hl'] using heq

/-! ## What SQLite reads -/

/-- Where in a text SQLite is: outside of everything, behind a `-` or a `/` that may begin a
comment, in a comment, in one of `/*` behind a `*`, or in something quoted. -/
inductive SqliteMode
  | code
  | dash
  | lineComment
  | slash
  | blockComment
  | star
  | quoted (close : Char)
  deriving DecidableEq, Repr

/-- White space of SQL. -/
def isSpace (c : Char) : Bool := c ∈ [' ', '\t', '\n', '\x0c', '\r']

/-- Outside of everything, a `;` ends the statement if there is a token in it. -/
def stepCode (token : Bool) : Char → Option (Bool × SqliteMode)
  | ';' => if token then none else some (false, .code)
  | '-' => some (token, .dash)
  | '/' => some (token, .slash)
  | '\'' => some (true, .quoted '\'')
  | '"' => some (true, .quoted '"')
  | '\x60' => some (true, .quoted '\x60')
  | '[' => some (true, .quoted ']')
  | c => some (token || !isSpace c, .code)

/-- How SQLite finds the end of a statement that is not the body of a trigger. -/
def sqliteReader : Reader (Bool × SqliteMode) Char where
  start := (false, .code)
  step
    | (token, .code), c => stepCode token c
    | (token, .dash), c => if c = '-' then some (token, .lineComment) else stepCode true c
    | (token, .lineComment), c => some (token, if c = '\n' then .code else .lineComment)
    | (token, .slash), c => if c = '*' then some (token, .blockComment) else stepCode true c
    | (token, .blockComment), c => some (token, if c = '*' then .star else .blockComment)
    | (token, .star), c =>
        some (token, if c = '/' then .code else if c = '*' then .star else .blockComment)
    | (token, .quoted close), c => some (token, if c = close then .code else .quoted close)
  isBlank
    | (token, mode) => !token && mode ≠ .dash && mode ≠ .slash

/-- The characters that end a statement, or begin a comment or something quoted. -/
def specialCharacters : List Char := [';', '-', '/', '\'', '"', '\x60', '[']

/-- There is no special character in the text. -/
def Plain (text : String) : Prop := ∀ c ∈ text.toList, c ∉ specialCharacters

lemma stepCode_plain {c : Char} (h : c ∉ specialCharacters) (token : Bool) :
    stepCode token c = some (token || !isSpace c, .code) := by
  simp only [specialCharacters, List.mem_cons, List.not_mem_nil, or_false, not_or] at h
  rw [stepCode.eq_def]
  split
  all_goals first | rfl | simp at h

lemma endsFrom_plain {text : List Char} (h : ∀ c ∈ text, c ∉ specialCharacters) :
    sqliteReader.endsFrom (true, .code) (text ++ [';']) := by
  induction text with
  | nil => rfl
  | cons c text ih =>
      rw [List.forall_mem_cons] at h
      have hstep : sqliteReader.step (true, .code) c = some (true, .code) :=
        stepCode_plain h.1 true
      simpa [Reader.endsFrom, hstep] using ih h.2

/-- A plain name gets a plain value in one statement. -/
lemma endsWith_pragmaText {name value : String} (hname : Plain name) (hvalue : Plain value) :
    sqliteReader.EndsWith (pragmaText name value) := by
  have htext : pragmaText name value = '\n' :: 'P' ::
      (("RAGMA ".toList ++ name.toList ++ " = ".toList ++ value.toList) ++ [';']) := by
    simp [pragmaText]
  rw [htext]
  have hpragma : Plain "RAGMA " := by simp [Plain, specialCharacters]
  have hequals : Plain " = " := by simp [Plain, specialCharacters]
  refine endsFrom_plain ?_
  simp only [List.forall_mem_append]
  exact ⟨⟨⟨hpragma, hname⟩, hequals⟩, hvalue⟩

/-- A number has a plain text. -/
lemma plain_toString (n : ℕ) : Plain (toString n) := by
  have hspecial : ∀ c ∈ specialCharacters, ¬ c.isDigit := by simp [specialCharacters]
  intro c hc hmem
  have hdigits : c ∈ Nat.toDigits 10 n := by simpa using hc
  exact hspecial c hmem (Nat.isDigit_of_mem_toDigits (by omega) (by omega) hdigits)

/-- All names and values are plain. -/
structure Pragmas.IsPlain (p : Pragmas) : Prop where
  lockingMode : Plain p.lockingMode
  journalMode : Plain p.journalMode
  foreignKeys : Plain p.foreignKeys
  synchronous : Plain p.synchronous
  autoVacuum : Plain p.autoVacuum
  pragmas : ∀ kv ∈ p.pragmas, Plain kv.1 ∧ Plain kv.2

lemma Pragmas.IsPlain.endsWith {p : Pragmas} (h : p.IsPlain) :
    ∀ kv ∈ p.assignments, sqliteReader.EndsWith (pragmaText kv.1 kv.2) := by
  have hplain : ∀ kv ∈ p.assignments, Plain kv.1 ∧ Plain kv.2 := by
    have hnames : ∀ name ∈ ["page_size", "locking_mode", "journal_mode", "foreign_keys",
        "synchronous", "auto_vacuum"], Plain name := by
      simp [Plain, specialCharacters]
    simp only [List.forall_mem_cons] at hnames
    obtain ⟨hpageSize, hlockingMode, hjournalMode, hforeignKeys, hsynchronous, hautoVacuum, -⟩ :=
      hnames
    simp only [assignments, List.forall_mem_append, List.forall_mem_cons]
    exact ⟨⟨⟨hpageSize, plain_toString _⟩, ⟨hlockingMode, h.lockingMode⟩,
      ⟨hjournalMode, h.journalMode⟩, ⟨hforeignKeys, h.foreignKeys⟩,
      ⟨hsynchronous, h.synchronous⟩, ⟨hautoVacuum, h.autoVacuum⟩, by simp⟩, h.pragmas⟩
  intro kv hkv
  exact endsWith_pragmaText (hplain kv hkv).1 (hplain kv hkv).2

lemma Pragmas.isPlain_default : Pragmas.default.IsPlain := by
  constructor <;> simp [Plain, specialCharacters, Pragmas.default, PragmaDefaults.lockingMode,
    PragmaDefaults.journalMode, PragmaDefaults.foreignKeys, PragmaDefaults.synchronous,
    PragmaDefaults.autoVacuum]

lemma blank_newline : sqliteReader.Blank ['\n'] := ⟨_, rfl, rfl⟩

/-- **Plain names and values are set as planned**, and the defaults are plain. -/
theorem setUp_of_isPlain (isWrite : Bool) (busyTimeout : Option ℕ) {p : Pragmas} (h : p.IsPlain)
    (E : Opened κ) (initializers : List (κ → Fallible InitError κ)) (c : κ) :
    withInit sqliteReader E isWrite busyTimeout p initializers c =
      runPlan E (plan isWrite busyTimeout p initializers) c :=
  withInit_eq_runPlan E isWrite busyTimeout initializers c blank_newline h.endsWith

/-- A value that ends its statement and begins another one. -/
def endingPragmas : Pragmas :=
  { Pragmas.default with
    pragmas := [("user_version", "3; DELETE FROM users")]
    nodup := by decide }

/-- A value that hides the end of its statement. -/
def hidingPragmas : Pragmas := { Pragmas.default with foreignKeys := "ON --" }

theorem setUpFollowsPlan_iff_defaults :
    (∀ (κ : Type) (E : Opened κ) (initializers : List (κ → Fallible InitError κ)) (c : κ),
      withInit sqliteReader E true (some 5) .default initializers c =
        runPlan E (plan true (some 5) .default initializers) c) ∧
    (¬ ∀ (κ : Type) (E : Opened κ) (initializers : List (κ → Fallible InitError κ)) (c : κ),
      withInit sqliteReader E false none endingPragmas initializers c =
        runPlan E (plan false none endingPragmas initializers) c) ∧
    ¬ ∀ (κ : Type) (E : Opened κ) (initializers : List (κ → Fallible InitError κ)) (c : κ),
      withInit sqliteReader E false none hidingPragmas initializers c =
        runPlan E (plan false none hidingPragmas initializers) c :=
  ⟨(setUpFollowsPlan_iff sqliteReader blank_newline true (some 5) .default).mpr
      Pragmas.isPlain_default.endsWith,
    mt (setUpFollowsPlan_iff sqliteReader blank_newline false none endingPragmas).mp (by decide),
    mt (setUpFollowsPlan_iff sqliteReader blank_newline false none hidingPragmas).mp (by decide)⟩

end SqliteRwPool
