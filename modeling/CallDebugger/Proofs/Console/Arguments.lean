import CallDebugger.Console.Command
import CallDebugger.Proofs.Text.Numerals
import Mathlib.Data.List.Forall2
import Mathlib.Data.List.TakeWhile

/-!
# What commands take

`Command.Takes` says with which arguments a command word is read as which command, and
`Command.IsNumber` which words are numbers there. A line is read just if its words are a command
word and arguments that the command takes (`Command.read_eq_ok_iff`).
-/

namespace CallDebugger.Command

/-! ## Computations that fail -/

theorem bind_eq_ok_iff {ε α β : Type} {x : Except ε α} {f : α → Except ε β} {b : β} :
    x >>= f = .ok b ↔ ∃ a, x = .ok a ∧ f a = .ok b := by
  cases x <;> simp [bind, Except.bind]

theorem pure_eq_ok_iff {ε α : Type} {a b : α} : (pure a : Except ε α) = .ok b ↔ a = b := by
  simp [pure, Except.pure]

/-- All of a list are read just if each one is. -/
theorem mapM_eq_ok_iff {ε α β : Type} {f : α → Except ε β} {as : List α} {bs : List β} :
    as.mapM f = .ok bs ↔ List.Forall₂ (fun b a => f a = .ok b) bs as := by
  induction as generalizing bs with
  | nil => simp [pure, Except.pure, eq_comm]
  | cons a as ih =>
    simp only [List.mapM_cons, bind_eq_ok_iff, pure_eq_ok_iff, ih]
    constructor
    · rintro ⟨b, first, rest, later, rfl⟩
      exact .cons first later
    · rintro (_ | ⟨first, later⟩)
      exact ⟨_, first, _, later, rfl⟩

/-! ## Arguments -/

/-- A number as a word: in decimal digits, or in hexadecimal ones after `0x`. -/
inductive IsNumber (n : Nat) (word : String) : Prop
  | decimal (digits : Numeral.Writes 10 n word.toList)
  | hexadecimal {x : Char} {cs : List Char} (mark : x = 'x' ∨ x = 'X')
    (split : word.toList = '0' :: x :: cs) (digits : Numeral.Writes 16 n cs)

/-- The words for a switch. -/
def switchWords : Bool → List String
  | true => ["on", "true", "1"]
  | false => ["off", "false", "0"]

/-- The words for a step mode, the documented one first. -/
def modeWords : StepMode → List String
  | .call => ["call"]
  | .drawCall => ["draw", "drawcall", "draw_call"]
  | .frame => ["frame"]

theorem not_writes_mark {x : Char} (mark : x = 'x' ∨ x = 'X') {n : Nat} {cs : List Char} :
    ¬ Numeral.Writes 10 n ('0' :: x :: cs) := by
  intro digits
  have worth := (Numeral.read?_eq_some_iff (by decide) (by decide)).2 ⟨Nat.lt_succ_self n, digits⟩
  have alien : Numeral.digit? 10 x = none := by rcases mark with rfl | rfl <;> rfl
  have row : Numeral.unsigned ('0' :: x :: cs) = '0' :: x :: cs := rfl
  have worthless : Numeral.digits? 10 0 ('0' :: x :: cs) = none :=
    Numeral.digits?_eq_none (by simp) alien 0
  simp [Numeral.read?, row, worthless] at worth

theorem numeral?_eq_some_iff {bound n : Nat} {word : String} :
    numeral? bound word.toList = some n ↔ n < bound ∧ IsNumber n word := by
  have based {x : Char} {cs : List Char} (mark : x = 'x' ∨ x = 'X')
      (split : word.toList = '0' :: x :: cs) :
      IsNumber n word ↔ Numeral.Writes 16 n cs := by
    constructor
    · rintro (digits | ⟨_, split', digits⟩)
      · rw [split] at digits
        exact absurd digits (not_writes_mark mark)
      · rw [split] at split'
        cases split'
        exact digits
    · exact .hexadecimal mark split
  unfold numeral?
  split
  · next cs split =>
    rw [Numeral.read?_eq_some_iff (by decide) (by decide), based (Or.inl rfl) split]
  · next cs split =>
    rw [Numeral.read?_eq_some_iff (by decide) (by decide), based (Or.inr rfl) split]
  · next small large =>
    rw [Numeral.read?_eq_some_iff (by decide) (by decide)]
    refine and_congr_right fun _ => ⟨.decimal, ?_⟩
    rintro (digits | ⟨rfl | rfl, split, _⟩)
    · exact digits
    · exact absurd split (small _)
    · exact absurd split (large _)

theorem number_eq_ok_iff {bound n : Nat} {word : String} :
    number bound word = .ok n ↔ n < bound ∧ IsNumber n word := by
  rw [← numeral?_eq_some_iff]
  unfold number
  cases numeral? bound word.toList <;> simp

theorem number32_eq_ok_iff {n : UInt32} {word : String} :
    number32 word = .ok n ↔ IsNumber n.toNat word := by
  simp only [number32, bind_eq_ok_iff, pure_eq_ok_iff, number_eq_ok_iff]
  constructor
  · rintro ⟨m, ⟨below, written⟩, rfl⟩
    rwa [UInt32.toNat_ofNat_of_lt' below]
  · exact fun written => ⟨n.toNat, ⟨n.toNat_lt, written⟩, UInt32.ofNat_toNat⟩

theorem number64_eq_ok_iff {n : UInt64} {word : String} :
    number64 word = .ok n ↔ IsNumber n.toNat word := by
  simp only [number64, bind_eq_ok_iff, pure_eq_ok_iff, number_eq_ok_iff]
  constructor
  · rintro ⟨m, ⟨below, written⟩, rfl⟩
    rwa [UInt64.toNat_ofNat_of_lt' below]
  · exact fun written => ⟨n.toNat, ⟨n.toNat_lt, written⟩, UInt64.ofNat_toNat⟩

theorem switch_eq_ok_iff {on : Bool} {word : String} :
    switch word = .ok on ↔ word ∈ switchWords on := by
  unfold switch
  split <;> cases on <;> simp_all [switchWords]

theorem flag_eq_ok_iff {f : BreakFlag} {word : String} : flag word = .ok f ↔ word = f.name := by
  constructor
  · intro read
    unfold flag at read
    split at read
    · next found =>
      cases read
      have named := List.find?_some found
      exact (beq_iff_eq.1 named).symm
    · cases read
  · rintro rfl
    cases f <;> rfl

theorem vocabulary_kind_eq_ok_iff {kind : ObjectKind} {word : String} :
    vocabulary (ObjectKind.read word) = .ok kind ↔ word.toLower = kind.name := by
  unfold ObjectKind.read
  constructor
  · intro read
    split at read
    · next found =>
      cases read
      have named := List.find?_some found
      exact (beq_iff_eq.1 named).symm
    · cases read
  · intro named
    rw [named]
    cases kind <;> rfl

theorem vocabulary_mode_eq_ok_iff {mode : StepMode} {word : String} :
    vocabulary (StepMode.read word) = .ok mode ↔ word.toLower ∈ modeWords mode := by
  unfold StepMode.read
  split <;> cases mode <;> simp_all [modeWords, vocabulary]

theorem argument_eq_ok_iff {synopsis word : String} {args rest : List String} :
    argument synopsis args = .ok (word, rest) ↔ args = word :: rest := by
  cases args <;> simp [argument]

/-! ## Assignments -/

/-- A flag and its value as a word. -/
def IsAssignment (set : BreakFlag × Bool) (word : String) : Prop :=
  ∃ value ∈ switchWords set.2, word = set.1.name ++ "=" ++ value

theorem assignment_append {before : List Char} (plain : ∀ c ∈ before, (c != '=') = true)
    {value : List Char} {word : String} (split : word.toList = before ++ '=' :: value) :
    assignment word = do
      let f ← flag (String.ofList before)
      return (f, ← switch (String.ofList value)) := by
  have front : (before ++ '=' :: value).takeWhile (· != '=') = before := by
    rw [List.takeWhile_append_of_pos plain]
    simp
  have back : (before ++ '=' :: value).dropWhile (· != '=') = '=' :: value := by
    rw [List.dropWhile_append_of_pos plain]
    simp
  simp only [assignment, split, front, back]

theorem assignment_eq_ok_iff {set : BreakFlag × Bool} {word : String} :
    assignment word = .ok set ↔ IsAssignment set word := by
  constructor
  · intro read
    cases after : word.toList.dropWhile (· != '=') with
    | nil =>
      simp only [assignment, after] at read
      cases read
    | cons sign value =>
      obtain rfl : sign = '=' := by
        have head := List.head?_dropWhile_not (· != '=') word.toList
        rw [after] at head
        simpa using head
      have split : word.toList = word.toList.takeWhile (· != '=') ++ '=' :: value := by
        rw [← after, List.takeWhile_append_dropWhile]
      rw [assignment_append (fun c => List.mem_takeWhile_imp) split] at read
      simp only [bind_eq_ok_iff, pure_eq_ok_iff, flag_eq_ok_iff, switch_eq_ok_iff] at read
      obtain ⟨flag, named, on, switched, rfl⟩ := read
      refine ⟨String.ofList value, switched, String.toList_inj.1 ?_⟩
      rw [split, ← named]
      simp
  · rintro ⟨value, switched, rfl⟩
    obtain ⟨flag, on⟩ := set
    have plain : ∀ c ∈ flag.name.toList, (c != '=') = true :=
      List.all_eq_true.1 (by cases flag <;> decide)
    have split : (flag.name ++ "=" ++ value).toList = flag.name.toList ++ '=' :: value.toList := by
      simp
    rw [assignment_append plain split]
    simp only [String.ofList_toList, bind_eq_ok_iff, pure_eq_ok_iff, flag_eq_ok_iff,
      switch_eq_ok_iff]
    exact ⟨flag, rfl, on, switched, rfl⟩

/-! ## What a command takes -/

/-- The words for a command, the documented ones among them. -/
def heads : Command → List String
  | goOn => ["continue", "c"]
  | step _ => ["step", "s"]
  | interrupt => ["interrupt", "i"]
  | showBreakpoints | setBreakpoints _ => ["break", "b"]
  | showSettings | setFlags _ => ["config"]
  | trace _ => ["trace", "t"]
  | watch _ _ => ["watch"]
  | unwatch _ => ["unwatch"]
  | editShader _ _ _ => ["edit-shader"]
  | link _ _ => ["link"]
  | connect _ => ["connect"]
  | terminate => ["terminate"]
  | disconnect => ["disconnect"]
  | help => ["help", "?"]
  | quit => ["quit", "q", "exit"]

/-- The commands that have no arguments. -/
def bare : List Command := [goOn, interrupt, terminate, disconnect, help, quit]

/-- The items of a list of breakpoints. -/
def listed (args : List String) : List String :=
  (args.flatMap fun arg => Blank.piecesOn (· == ',') arg.toList).map String.ofList

/-- The arguments that a command is read from. What follows the arguments that it asks for is not
looked at. -/
inductive Takes : Command → List String → Prop
  | bare {c : Command} {rest : List String} (none : c ∈ bare) : Takes c rest
  | stepCall : Takes (step .call) []
  | step {mode : StepMode} {word : String} {rest : List String}
    (named : word.toLower ∈ modeWords mode) : Takes (step mode) (word :: rest)
  | showBreakpoints : Takes showBreakpoints []
  | clear : Takes (setBreakpoints []) ["clear"]
  | setBreakpoints {ids : List Entrypoint} {args : List String} (some : args ≠ [])
    (list : args ≠ ["clear"])
    (numbers : List.Forall₂ (fun id item => IsNumber id.toNat item) ids (listed args)) :
    Takes (setBreakpoints ids) args
  | showSettings : Takes showSettings []
  | setFlags {sets : List (BreakFlag × Bool)} {args : List String} (some : args ≠ [])
    (assigned : List.Forall₂ IsAssignment sets args) : Takes (setFlags sets) args
  | page : Takes (trace none) []
  | window {w : TraceWindow} {start stop : String} (first : IsNumber w.start.toNat start)
    (last : IsNumber w.stop.toNat stop) : Takes (trace (some w)) [start, stop]
  | watch {kind : ObjectKind} {context : ContextId} {object : ObjectNumber}
    {word first second : String} {rest : List String} (named : word.toLower = kind.name)
    (place : IsNumber context.toNat first) (number : IsNumber object.toNat second) :
    Takes (watch kind (.plain context object)) (word :: first :: second :: rest)
  | unwatch {id : UInt32} {word : String} {rest : List String} (number : IsNumber id.toNat word) :
    Takes (unwatch id) (word :: rest)
  | reset {context : ContextId} {shader : ObjectNumber} {first second : String}
    {rest : List String} (place : IsNumber context.toNat first)
    (number : IsNumber shader.toNat second) :
    Takes (editShader context shader .supplied) (first :: second :: "--reset" :: rest)
  | edit {context : ContextId} {shader : ObjectNumber} {first second path : String}
    {rest : List String} (place : IsNumber context.toNat first)
    (number : IsNumber shader.toNat second) (other : path ≠ "--reset") :
    Takes (editShader context shader (.file path)) (first :: second :: path :: rest)
  | link {context : ContextId} {program : ObjectNumber} {first second : String}
    {rest : List String} (place : IsNumber context.toNat first)
    (number : IsNumber program.toNat second) :
    Takes (link context program) (first :: second :: rest)
  | connect : Takes (connect none) []
  | connectTo {endpoint : String} {rest : List String} :
    Takes (connect (some endpoint)) (endpoint :: rest)

/-! ## Reading arguments -/

theorem readStep_eq_ok_iff {args : List String} {c : Command} :
    readStep args = .ok c ↔ ∃ mode, c = step mode ∧ Takes c args := by
  constructor
  · intro read
    cases args with
    | nil =>
      cases read
      exact ⟨.call, rfl, .stepCall⟩
    | cons word rest =>
      simp only [readStep, bind_eq_ok_iff, pure_eq_ok_iff, vocabulary_mode_eq_ok_iff] at read
      obtain ⟨mode, named, rfl⟩ := read
      exact ⟨mode, rfl, .step named⟩
  · rintro ⟨mode, rfl, takes⟩
    cases takes with
    | bare none => simp [bare] at none
    | stepCall => rfl
    | step named =>
      simp only [readStep, bind_eq_ok_iff, pure_eq_ok_iff, vocabulary_mode_eq_ok_iff]
      exact ⟨mode, named, rfl⟩

theorem entrypoints_eq_ok_iff {args : List String} {ids : List Entrypoint} :
    entrypoints args = .ok ids ↔
      List.Forall₂ (fun id item => IsNumber id.toNat item) ids (listed args) := by
  simp only [entrypoints, listed, mapM_eq_ok_iff, number32_eq_ok_iff, List.forall₂_map_right_iff]

theorem readBreak_eq_ok_iff {args : List String} {c : Command} :
    readBreak args = .ok c ↔
      (c = showBreakpoints ∨ ∃ ids, c = setBreakpoints ids) ∧ Takes c args := by
  constructor
  · intro read
    unfold readBreak at read
    split at read
    · cases read
      exact ⟨Or.inl rfl, .showBreakpoints⟩
    · cases read
      exact ⟨Or.inr ⟨[], rfl⟩, .clear⟩
    · next some list =>
      simp only [bind_eq_ok_iff, pure_eq_ok_iff, entrypoints_eq_ok_iff] at read
      obtain ⟨ids, numbers, rfl⟩ := read
      exact ⟨Or.inr ⟨ids, rfl⟩, .setBreakpoints some list numbers⟩
  · rintro ⟨rfl | ⟨ids, rfl⟩, takes⟩
    · cases takes with
      | bare none => simp [bare] at none
      | showBreakpoints => rfl
    · cases takes with
      | bare none => simp [bare] at none
      | clear => rfl
      | setBreakpoints some list numbers =>
        have ok := entrypoints_eq_ok_iff.2 numbers
        unfold readBreak
        split
        · exact absurd rfl some
        · exact absurd rfl list
        · rw [ok]
          rfl

theorem readSettings_eq_ok_iff {args : List String} {c : Command} :
    readSettings args = .ok c ↔ (c = showSettings ∨ ∃ sets, c = setFlags sets) ∧ Takes c args := by
  have assigned {args : List String} {sets : List (BreakFlag × Bool)} :
      args.mapM assignment = .ok sets ↔ List.Forall₂ IsAssignment sets args := by
    simp only [mapM_eq_ok_iff, assignment_eq_ok_iff]
  constructor
  · intro read
    unfold readSettings at read
    split at read
    · cases read
      exact ⟨Or.inl rfl, .showSettings⟩
    · next some =>
      simp only [bind_eq_ok_iff, pure_eq_ok_iff, assigned] at read
      obtain ⟨sets, assigned, rfl⟩ := read
      exact ⟨Or.inr ⟨sets, rfl⟩, .setFlags some assigned⟩
  · rintro ⟨rfl | ⟨sets, rfl⟩, takes⟩
    · cases takes with
      | bare none => simp [bare] at none
      | showSettings => rfl
    · cases takes with
      | bare none => simp [bare] at none
      | setFlags some sets =>
        unfold readSettings
        split
        · exact absurd rfl some
        · rw [assigned.2 sets]
          rfl

theorem readTrace_eq_ok_iff {args : List String} {c : Command} :
    readTrace args = .ok c ↔ ∃ window, c = trace window ∧ Takes c args := by
  constructor
  · intro read
    unfold readTrace at read
    split at read
    · cases read
      exact ⟨none, rfl, .page⟩
    · simp only [bind_eq_ok_iff, pure_eq_ok_iff, number64_eq_ok_iff] at read
      obtain ⟨start, first, stop, last, rfl⟩ := read
      exact ⟨some ⟨start, stop⟩, rfl, .window first last⟩
    · cases read
  · rintro ⟨window, rfl, takes⟩
    cases takes with
    | bare none => simp [bare] at none
    | page => rfl
    | @window w _ _ first last =>
      simp only [readTrace, bind_eq_ok_iff, pure_eq_ok_iff, number64_eq_ok_iff]
      exact ⟨w.start, first, w.stop, last, rfl⟩

theorem readWatch_eq_ok_iff {args : List String} {c : Command} :
    readWatch args = .ok c ↔ ∃ kind name, c = watch kind name ∧ Takes c args := by
  simp only [readWatch, bind_eq_ok_iff, pure_eq_ok_iff, Prod.exists, argument_eq_ok_iff,
    vocabulary_kind_eq_ok_iff, number64_eq_ok_iff, number32_eq_ok_iff]
  constructor
  · rintro ⟨word, _, rfl, kind, named, first, _, rfl, context, place, second, rest, rfl, object,
      number, rfl⟩
    exact ⟨kind, _, rfl, .watch named place number⟩
  · rintro ⟨kind, name, rfl, takes⟩
    cases takes with
    | bare none => simp [bare] at none
    | watch named place number =>
      exact ⟨_, _, rfl, _, named, _, _, rfl, _, place, _, _, rfl, _, number, rfl⟩

theorem readUnwatch_eq_ok_iff {args : List String} {c : Command} :
    readUnwatch args = .ok c ↔ ∃ id, c = unwatch id ∧ Takes c args := by
  simp only [readUnwatch, bind_eq_ok_iff, pure_eq_ok_iff, Prod.exists, argument_eq_ok_iff,
    number32_eq_ok_iff]
  constructor
  · rintro ⟨word, rest, rfl, id, number, rfl⟩
    exact ⟨id, rfl, .unwatch number⟩
  · rintro ⟨id, rfl, takes⟩
    cases takes with
    | bare none => simp [bare] at none
    | unwatch number => exact ⟨_, _, rfl, _, number, rfl⟩

theorem readEditShader_eq_ok_iff {args : List String} {c : Command} :
    readEditShader args = .ok c ↔
      ∃ context shader source, c = editShader context shader source ∧ Takes c args := by
  simp only [readEditShader, bind_eq_ok_iff, pure_eq_ok_iff, Prod.exists, argument_eq_ok_iff,
    number64_eq_ok_iff, number32_eq_ok_iff]
  constructor
  · rintro ⟨first, _, rfl, context, place, second, _, rfl, shader, number, path, rest, rfl, rfl⟩
    refine ⟨context, shader, _, rfl, ?_⟩
    split
    · next reset =>
      subst reset
      exact .reset place number
    · next other => exact .edit place number other
  · rintro ⟨context, shader, source, rfl, takes⟩
    cases takes with
    | bare none => simp [bare] at none
    | reset place number =>
      exact ⟨_, _, rfl, _, place, _, _, rfl, _, number, _, _, rfl, by rw [if_pos rfl]⟩
    | edit place number other =>
      exact ⟨_, _, rfl, _, place, _, _, rfl, _, number, _, _, rfl, by rw [if_neg other]⟩

theorem readLink_eq_ok_iff {args : List String} {c : Command} :
    readLink args = .ok c ↔ ∃ context program, c = link context program ∧ Takes c args := by
  simp only [readLink, bind_eq_ok_iff, pure_eq_ok_iff, Prod.exists, argument_eq_ok_iff,
    number64_eq_ok_iff, number32_eq_ok_iff]
  constructor
  · rintro ⟨first, _, rfl, context, place, second, rest, rfl, program, number, rfl⟩
    exact ⟨context, program, rfl, .link place number⟩
  · rintro ⟨context, program, rfl, takes⟩
    cases takes with
    | bare none => simp [bare] at none
    | link place number => exact ⟨_, _, rfl, _, place, _, _, rfl, _, number, rfl⟩

theorem connect_eq_ok_iff {args : List String} {c : Command} :
    (.ok (connect args.head?) : Except CommandError Command) = .ok c ↔
      ∃ endpoint, c = connect endpoint ∧ Takes c args := by
  constructor
  · intro read
    cases read
    cases args with
    | nil => exact ⟨none, rfl, .connect⟩
    | cons endpoint rest => exact ⟨some endpoint, rfl, .connectTo⟩
  · rintro ⟨endpoint, rfl, takes⟩
    cases takes with
    | bare none => simp [bare] at none
    | connect => rfl
    | connectTo => rfl

/-! ## Reading lines -/

theorem ofWords_eq_ok_iff {head : String} {args : List String} {c : Command} :
    ofWords (head :: args) = .ok c ↔ head ∈ heads c ∧ Takes c args := by
  constructor
  · intro read
    simp only [ofWords] at read
    split at read
    -- Each reader settles the words that lead to it.
    any_goals
      obtain ⟨mode, rfl, takes⟩ := readStep_eq_ok_iff.1 read
      exact ⟨by simp [heads], takes⟩
    any_goals
      obtain ⟨rfl | ⟨ids, rfl⟩, takes⟩ := readBreak_eq_ok_iff.1 read <;>
        exact ⟨by simp [heads], takes⟩
    any_goals
      obtain ⟨rfl | ⟨sets, rfl⟩, takes⟩ := readSettings_eq_ok_iff.1 read <;>
        exact ⟨by simp [heads], takes⟩
    any_goals
      obtain ⟨window, rfl, takes⟩ := readTrace_eq_ok_iff.1 read
      exact ⟨by simp [heads], takes⟩
    any_goals
      obtain ⟨kind, name, rfl, takes⟩ := readWatch_eq_ok_iff.1 read
      exact ⟨by simp [heads], takes⟩
    any_goals
      obtain ⟨id, rfl, takes⟩ := readUnwatch_eq_ok_iff.1 read
      exact ⟨by simp [heads], takes⟩
    any_goals
      obtain ⟨context, shader, source, rfl, takes⟩ := readEditShader_eq_ok_iff.1 read
      exact ⟨by simp [heads], takes⟩
    any_goals
      obtain ⟨context, program, rfl, takes⟩ := readLink_eq_ok_iff.1 read
      exact ⟨by simp [heads], takes⟩
    any_goals
      obtain ⟨endpoint, rfl, takes⟩ := connect_eq_ok_iff.1 read
      exact ⟨by simp [heads], takes⟩
    all_goals cases read
    all_goals exact ⟨by simp [heads], .bare (by simp [bare])⟩
  · rintro ⟨named, takes⟩
    cases c <;> simp only [heads, List.mem_cons, List.not_mem_nil, or_false] at named
    case step mode =>
      have read := readStep_eq_ok_iff.2 ⟨mode, rfl, takes⟩
      rcases named with rfl | rfl <;> exact read
    case showBreakpoints =>
      have read := readBreak_eq_ok_iff.2 ⟨Or.inl rfl, takes⟩
      rcases named with rfl | rfl <;> exact read
    case setBreakpoints ids =>
      have read := readBreak_eq_ok_iff.2 ⟨Or.inr ⟨ids, rfl⟩, takes⟩
      rcases named with rfl | rfl <;> exact read
    case showSettings =>
      subst named
      exact readSettings_eq_ok_iff.2 ⟨Or.inl rfl, takes⟩
    case setFlags sets =>
      subst named
      exact readSettings_eq_ok_iff.2 ⟨Or.inr ⟨sets, rfl⟩, takes⟩
    case trace window =>
      have read := readTrace_eq_ok_iff.2 ⟨window, rfl, takes⟩
      rcases named with rfl | rfl <;> exact read
    case watch kind name =>
      subst named
      exact readWatch_eq_ok_iff.2 ⟨kind, name, rfl, takes⟩
    case unwatch id =>
      subst named
      exact readUnwatch_eq_ok_iff.2 ⟨id, rfl, takes⟩
    case editShader context shader source =>
      subst named
      exact readEditShader_eq_ok_iff.2 ⟨context, shader, source, rfl, takes⟩
    case link context program =>
      subst named
      exact readLink_eq_ok_iff.2 ⟨context, program, rfl, takes⟩
    case connect endpoint =>
      subst named
      exact connect_eq_ok_iff.2 ⟨endpoint, rfl, takes⟩
    case goOn | interrupt | help => rcases named with rfl | rfl <;> rfl
    case terminate | disconnect =>
      subst named
      rfl
    case quit => rcases named with rfl | rfl | rfl <;> rfl

/-- The words of a line. -/
def lineWords (line : String) : List String := (Blank.words line.toList).map String.ofList

/-- A line is read just if it is a command word and arguments that the command takes. -/
theorem read_eq_ok_iff {line : String} {c : Command} :
    read line = .ok c ↔
      ∃ head args, lineWords line = head :: args ∧ head ∈ heads c ∧ Takes c args := by
  unfold read lineWords
  cases (Blank.words line.toList).map String.ofList with
  | nil => simp [ofWords]
  | cons head args =>
    rw [ofWords_eq_ok_iff]
    constructor
    · exact fun ⟨named, takes⟩ => ⟨head, args, rfl, named, takes⟩
    · rintro ⟨_, _, ⟨⟩, named, takes⟩
      exact ⟨named, takes⟩

end CallDebugger.Command
