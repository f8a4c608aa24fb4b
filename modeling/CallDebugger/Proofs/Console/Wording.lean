import CallDebugger.Proofs.Console.Arguments
import CallDebugger.Proofs.Text.Parted

/-!
# How commands are written

`Command.Documented` says how a command is written. Every command can be written, and what is
written is read as that command; what is read at all is told by the arguments that a command takes
(`Command.documented_read`).
-/

namespace CallDebugger.Command

open Blank (IsWord Parted)

/-! ## What is documented -/

/-- The commands that can be written: some flags are set, a watched object has no target, and a path
or an endpoint is a word, the path not the mark for the supplied source. -/
def Proper : Command → Prop
  | setFlags sets => sets ≠ []
  | watch _ name => name.target = 0
  | editShader _ _ (.file path) => IsWord isBlank path.toList ∧ path ≠ "--reset"
  | connect (some endpoint) => IsWord isBlank endpoint.toList
  | _ => True

/-- The documented word for a step mode. -/
def modeWord : StepMode → String
  | .call => "call"
  | .drawCall => "draw"
  | .frame => "frame"

/-- The documented word for a flag and its value. -/
def setWord (set : BreakFlag × Bool) : String := set.1.name ++ "=" ++ if set.2 then "on" else "off"

/-- The documented arguments of a command, in their order. -/
inductive Documents : Command → List String → Prop
  | bare {c : Command} (none : c ∈ bare) : Documents c []
  | stepCall : Documents (step .call) []
  | step (mode : StepMode) : Documents (step mode) [modeWord mode]
  | showBreakpoints : Documents showBreakpoints []
  | clear : Documents (setBreakpoints []) ["clear"]
  | showSettings : Documents showSettings []
  | setFlags (sets : List (BreakFlag × Bool)) : Documents (setFlags sets) (sets.map setWord)
  | page : Documents (trace none) []
  | window {w : TraceWindow} {start stop : String} (first : IsNumber w.start.toNat start)
    (last : IsNumber w.stop.toNat stop) : Documents (trace (some w)) [start, stop]
  | watch {kind : ObjectKind} {name : ObjectName} {first second : String}
    (place : IsNumber name.context.toNat first) (number : IsNumber name.name.toNat second) :
    Documents (watch kind name) [kind.name, first, second]
  | unwatch {id : UInt32} {word : String} (number : IsNumber id.toNat word) :
    Documents (unwatch id) [word]
  | reset {context : ContextId} {shader : ObjectNumber} {first second : String}
    (place : IsNumber context.toNat first) (number : IsNumber shader.toNat second) :
    Documents (editShader context shader .supplied) [first, second, "--reset"]
  | edit {context : ContextId} {shader : ObjectNumber} {first second path : String}
    (place : IsNumber context.toNat first) (number : IsNumber shader.toNat second) :
    Documents (editShader context shader (.file path)) [first, second, path]
  | link {context : ContextId} {program : ObjectNumber} {first second : String}
    (place : IsNumber context.toNat first) (number : IsNumber program.toNat second) :
    Documents (link context program) [first, second]
  | connect : Documents (connect none) []
  | connectTo {endpoint : String} : Documents (connect (some endpoint)) [endpoint]

/-- What parts the items of a list of breakpoints. -/
def isListGap (c : Char) : Bool := isBlank c || c == ','

/-- A line that is a command as it is documented: its word and its arguments, parted by blanks. The
breakpoints of a list may be parted by commas, too. -/
inductive Documented (c : Command) (line : String) : Prop
  | words {head : String} {args : List String} (named : head ∈ heads c)
    (arguments : Documents c args)
    (parted : Parted isBlank ((head :: args).map String.toList) line.toList)
  | list {head : String} {ids : List Entrypoint} {items : List String} {lead rest : List Char}
    {gap : Char} (same : c = setBreakpoints ids) (some : ids ≠ []) (named : head ∈ heads c)
    (numbers : List.Forall₂ (fun id item => IsNumber id.toNat item) ids items)
    (before : ∀ c ∈ lead, isBlank c) (after : isBlank gap)
    (split : line.toList = lead ++ (head.toList ++ gap :: rest))
    (parted : Parted isListGap (items.map String.toList) rest)

theorem isWord_of_heads {c : Command} {head : String} (named : head ∈ heads c) :
    IsWord isBlank head.toList := by
  have all : ∀ head ∈ heads c, IsWord isBlank head.toList := by
    cases c <;> dsimp only [heads] <;> decide
  exact all head named

theorem IsNumber.isWord {n : Nat} {word : String} (h : IsNumber n word) :
    IsWord isListGap word.toList := by
  have plain {c : Char} (shape : c.isAlphanum ∨ c = '+') : isListGap c = false := by
    rcases shape with shape | rfl
    · have other : c ≠ ',' := fun comma => by simp [comma] at shape
      simp [isListGap, not_isBlank_of_isAlphanum shape, other]
    · rfl
  cases h with
  | decimal digits =>
    exact ⟨digits.ne_nil, fun c mem => plain (digits.isAlphanum_or (by decide) (by decide) mem)⟩
  | hexadecimal mark split digits =>
    rw [split]
    refine ⟨List.cons_ne_nil _ _, fun c mem => ?_⟩
    rcases List.mem_cons.1 mem with rfl | mem
    · rfl
    · rcases List.mem_cons.1 mem with rfl | mem
      · rcases mark with rfl | rfl <;> rfl
      · exact plain (digits.isAlphanum_or (by decide) (by decide) mem)

theorem IsNumber.isWord_isBlank {n : Nat} {word : String} (h : IsNumber n word) :
    IsWord isBlank word.toList := by
  refine ⟨h.isWord.1, fun c mem => ?_⟩
  have plain := h.isWord.2 c mem
  simp only [isListGap, Bool.or_eq_false_iff] at plain
  exact plain.1

theorem isWord_of_documents {c : Command} (proper : c.Proper) {args : List String}
    (h : Documents c args) : ∀ word ∈ args, IsWord isBlank word.toList := by
  have mark : IsWord isBlank "--reset".toList := by decide
  cases h with
  | bare | stepCall | showBreakpoints | showSettings | page | connect => simp
  | step mode => cases mode <;> decide
  | clear => decide
  | setFlags sets =>
    simp only [List.forall_mem_map]
    rintro ⟨flag, on⟩ -
    cases flag <;> cases on <;> decide
  | window first last => simp [first.isWord_isBlank, last.isWord_isBlank]
  | @watch kind _ _ _ place number =>
    have named : IsWord isBlank kind.name.toList := by cases kind <;> decide
    simp [named, place.isWord_isBlank, number.isWord_isBlank]
  | unwatch number => simp [number.isWord_isBlank]
  | reset place number =>
    simp only [List.forall_mem_cons]
    exact ⟨place.isWord_isBlank, number.isWord_isBlank, mark,
      fun _ none => absurd none List.not_mem_nil⟩
  | edit place number => simp [place.isWord_isBlank, number.isWord_isBlank, proper.1]
  | link place number => simp [place.isWord_isBlank, number.isWord_isBlank]
  | connectTo =>
    have isWord : IsWord isBlank _ := proper
    simp [isWord]

theorem toLower_eq_self {word : String} (h : word.toList.all fun c => c.toLower == c) :
    word.toLower = word := by
  refine String.toList_inj.1 ?_
  unfold String.toLower
  rw [String.toList_map]
  refine (List.map_congr_left fun c mem => ?_).trans (List.map_id _)
  exact eq_of_beq (List.all_eq_true.1 h c mem)

/-- What is documented is taken. -/
theorem Documents.takes {c : Command} (proper : c.Proper) {args : List String}
    (h : Documents c args) : Takes c args := by
  cases h with
  | bare none => exact .bare none
  | stepCall => exact .stepCall
  | step mode =>
    have lower : (modeWord mode).toLower = modeWord mode :=
      toLower_eq_self (by cases mode <;> decide)
    refine .step ?_
    rw [lower]
    cases mode <;> simp [modeWord, modeWords]
  | showBreakpoints => exact .showBreakpoints
  | clear => exact .clear
  | showSettings => exact .showSettings
  | setFlags sets =>
    have some : sets ≠ [] := proper
    refine .setFlags (by simpa using some) (List.forall₂_map_right_iff.2 ?_)
    refine List.forall₂_same.2 fun set _ => ?_
    obtain ⟨flag, on⟩ := set
    cases on
    · exact ⟨"off", by simp [switchWords], rfl⟩
    · exact ⟨"on", by simp [switchWords], rfl⟩
  | page => exact .page
  | window first last => exact .window first last
  | @watch kind name _ _ place number =>
    have lower : kind.name.toLower = kind.name := toLower_eq_self (by cases kind <;> decide)
    have whole : name = .plain name.context name.name := by
      obtain ⟨context, object, target⟩ := name
      cases (proper : target = 0)
      rfl
    rw [whole]
    exact .watch lower place number
  | unwatch number => exact .unwatch number
  | reset place number => exact .reset place number
  | edit place number => exact .edit place number proper.2
  | link place number => exact .link place number
  | connect => exact .connect
  | connectTo => exact .connectTo

/-! ## Reading what is documented -/

theorem map_ofList_toList (words : List String) :
    (words.map String.toList).map String.ofList = words := by
  simp

theorem map_toList_ofList (words : List (List Char)) :
    (words.map String.ofList).map String.toList = words := by
  simp

/-- Something goes with a whole list just if something goes with each of its items. -/
theorem exists_forall₂_iff {α β : Type} {R : α → β → Prop} {bs : List β} :
    (∃ as, List.Forall₂ R as bs) ↔ ∀ b ∈ bs, ∃ a, R a b := by
  induction bs with
  | nil => simp
  | cons b bs ih =>
    rw [List.forall_mem_cons, ← ih]
    constructor
    · rintro ⟨_, _ | ⟨first, rest⟩⟩
      exact ⟨⟨_, first⟩, _, rest⟩
    · rintro ⟨⟨a, first⟩, as, rest⟩
      exact ⟨a :: as, .cons first rest⟩

/-- The words that stand in a line are its words. -/
theorem lineWords_of_parted {words : List String} {line : String}
    (parted : Parted isBlank (words.map String.toList) line.toList)
    (proper : ∀ word ∈ words, IsWord isBlank word.toList) : lineWords line = words := by
  have cut := parted.piecesOn (by simpa using proper)
  rw [lineWords, Blank.words, cut, map_ofList_toList]

theorem not_isNumber {word : String} (worthless : ∀ bound, numeral? bound word.toList = none)
    (n : Nat) : ¬ IsNumber n word := fun number => by
  have worth := numeral?_eq_some_iff.2 ⟨Nat.lt_succ_self n, number⟩
  rw [worthless] at worth
  cases worth

/-- What stands in a line behind the word for a list of breakpoints is listed. -/
theorem listed_of_parted {items : List String} {rest : List Char}
    (parted : Parted isListGap (items.map String.toList) rest)
    (proper : ∀ item ∈ items, IsWord isListGap item.toList) :
    listed ((Blank.words rest).map String.ofList) = items := by
  have cut := parted.piecesOn (by simpa using proper)
  have twice := @Blank.flatMap_piecesOn isBlank (· == ',') rest
  rw [listed, ← List.flatMap_map, map_toList_ofList]
  exact (congrArg (List.map String.ofList) (twice.trans cut)).trans (map_ofList_toList items)

theorem read_of_documented {c : Command} (proper : c.Proper) {line : String}
    (h : Documented c line) : read line = .ok c := by
  rw [read_eq_ok_iff]
  cases h with
  | @words head args named arguments parted =>
    refine ⟨head, args, lineWords_of_parted parted ?_, named, arguments.takes proper⟩
    rw [List.forall_mem_cons]
    exact ⟨isWord_of_heads named, isWord_of_documents proper arguments⟩
  | @list head ids items lead rest gap same some named numbers before after split parted =>
    subst same
    have isNumber := exists_forall₂_iff.1 ⟨ids, numbers⟩
    have items_eq := listed_of_parted parted fun item mem =>
      (isNumber item mem).elim fun _ => (·.isWord)
    have line_eq : lineWords line = head :: (Blank.words rest).map String.ofList := by
      rw [lineWords, Blank.words, split, Blank.piecesOn_append_of_cut before,
        Blank.piecesOn_word_cons (isWord_of_heads named) after]
      simp [Blank.words]
    refine ⟨head, _, line_eq, named, .setBreakpoints ?_ ?_ (items_eq ▸ numbers)⟩
    · intro nothing
      obtain rfl : items = [] := by rw [← items_eq, nothing]; rfl
      exact some (List.forall₂_nil_right_iff.1 numbers)
    · intro clear
      obtain rfl : items = ["clear"] := by rw [← items_eq, clear]; rfl
      obtain ⟨id, number⟩ := isNumber "clear" List.mem_cons_self
      exact not_isNumber (fun _ => rfl) _ number

/-! ## Everything can be written -/

theorem exists_isNumber (n : Nat) : ∃ word, IsNumber n word := by
  refine ⟨String.ofList (Nat.toDigits 10 n), .decimal ?_⟩
  rw [String.toList_ofList]
  exact Numeral.writes_toDigits n

theorem exists_line (words : List String) :
    ∃ line : String, Parted isBlank (words.map String.toList) line.toList := by
  obtain ⟨text, parted⟩ := Blank.exists_parted (show isBlank ' ' from rfl) (words.map String.toList)
  exact ⟨String.ofList text, by rwa [String.toList_ofList]⟩

theorem exists_head (c : Command) : ∃ head, head ∈ heads c := by
  cases c <;> exact ⟨_, List.mem_cons_self⟩

/-- The commands with documented arguments: all but those with a list of breakpoints. -/
theorem exists_documents {c : Command} (list : ∀ id ids, c ≠ setBreakpoints (id :: ids)) :
    ∃ args, Documents c args := by
  cases c with
  | goOn | interrupt | terminate | disconnect | help | quit => exact ⟨[], .bare (by simp [bare])⟩
  | step mode => exact ⟨_, .step mode⟩
  | showBreakpoints => exact ⟨_, .showBreakpoints⟩
  | setBreakpoints ids =>
    cases ids with
    | nil => exact ⟨_, .clear⟩
    | cons id ids => exact absurd rfl (list id ids)
  | showSettings => exact ⟨_, .showSettings⟩
  | setFlags sets => exact ⟨_, .setFlags sets⟩
  | trace window =>
    cases window with
    | none => exact ⟨_, .page⟩
    | some w =>
      obtain ⟨start, first⟩ := exists_isNumber w.start.toNat
      obtain ⟨stop, last⟩ := exists_isNumber w.stop.toNat
      exact ⟨_, .window first last⟩
  | watch kind name =>
    obtain ⟨first, place⟩ := exists_isNumber name.context.toNat
    obtain ⟨second, number⟩ := exists_isNumber name.name.toNat
    exact ⟨_, .watch place number⟩
  | unwatch id =>
    obtain ⟨word, number⟩ := exists_isNumber id.toNat
    exact ⟨_, .unwatch number⟩
  | editShader context shader source =>
    obtain ⟨first, place⟩ := exists_isNumber context.toNat
    obtain ⟨second, number⟩ := exists_isNumber shader.toNat
    cases source with
    | supplied => exact ⟨_, .reset place number⟩
    | file path => exact ⟨_, .edit place number⟩
  | link context program =>
    obtain ⟨first, place⟩ := exists_isNumber context.toNat
    obtain ⟨second, number⟩ := exists_isNumber program.toNat
    exact ⟨_, .link place number⟩
  | connect endpoint =>
    cases endpoint with
    | none => exact ⟨_, .connect⟩
    | some text => exact ⟨_, .connectTo⟩

theorem exists_documented (c : Command) : ∃ line, Documented c line := by
  obtain ⟨head, named⟩ := exists_head c
  by_cases list : ∃ id ids, c = setBreakpoints (id :: ids)
  · obtain ⟨id, ids, same⟩ := list
    have numbers : ∃ items,
        List.Forall₂ (fun item id => IsNumber (id : Entrypoint).toNat item) items
        (id :: ids) := exists_forall₂_iff.2 fun id _ => exists_isNumber _
    obtain ⟨items, numbers⟩ := numbers
    obtain ⟨rest, parted⟩ :=
      Blank.exists_parted (show isListGap ',' from rfl) (items.map String.toList)
    refine ⟨head ++ " " ++ String.ofList rest, .list same (List.cons_ne_nil _ _) named numbers.flip
      (fun _ none => absurd none List.not_mem_nil) (show isBlank ' ' from rfl) ?_ parted⟩
    simp
  · obtain ⟨args, arguments⟩ := exists_documents fun id ids same => list ⟨id, ids, same⟩
    obtain ⟨line, parted⟩ := exists_line (head :: args)
    exact ⟨line, .words named arguments parted⟩

theorem exists_entrypoint_iff {item : String} :
    (∃ id : Entrypoint, IsNumber id.toNat item) ↔ ∃ n < UInt32.size, IsNumber n item := by
  constructor
  · exact fun ⟨id, number⟩ => ⟨id.toNat, id.toNat_lt, number⟩
  · rintro ⟨n, below, number⟩
    exact ⟨.ofNat n, by rwa [UInt32.toNat_ofNat_of_lt' below]⟩

/-- A list of breakpoints is read just if all its items are numbers. -/
theorem exists_read_list_iff {line head : String} {args : List String}
    (words : lineWords line = head :: args) (named : head ∈ ["break", "b"]) (some : args ≠ [])
    (list : args ≠ ["clear"]) :
    (∃ c, read line = .ok c) ↔ ∀ item ∈ listed args, ∃ n < UInt32.size, IsNumber n item := by
  simp only [← exists_entrypoint_iff, ← exists_forall₂_iff]
  have whole : read line = readBreak args := by
    change ofWords (lineWords line) = readBreak args
    rw [words]
    simp only [List.mem_cons, List.not_mem_nil, or_false] at named
    rcases named with rfl | rfl <;> rfl
  rw [whole]
  constructor
  · rintro ⟨c, read⟩
    obtain ⟨rfl | ⟨ids, rfl⟩, takes⟩ := readBreak_eq_ok_iff.1 read
    · cases takes with
      | bare none => simp [bare] at none
      | showBreakpoints => exact absurd rfl some
    · cases takes with
      | bare none => simp [bare] at none
      | clear => exact absurd rfl list
      | setBreakpoints _ _ numbers => exact ⟨ids, numbers⟩
  · rintro ⟨ids, numbers⟩
    exact ⟨_, readBreak_eq_ok_iff.2 ⟨Or.inr ⟨ids, rfl⟩, .setBreakpoints some list numbers⟩⟩

/-- **Commands are read as they are documented.** Every command can be written as it is documented,
and whatever documents it is read as that command. A line is read just if it is a command word with
arguments that the command takes; a list of breakpoints just if every item is a number of 32 bits.
-/
theorem documented_read :
    (∀ c : Command, c.Proper →
      (∃ line, Documented c line) ∧ ∀ line, Documented c line → read line = .ok c) ∧
    (∀ line c, read line = .ok c ↔
      ∃ head args, lineWords line = head :: args ∧ head ∈ heads c ∧ Takes c args) ∧
    ∀ line head args, lineWords line = head :: args → head ∈ ["break", "b"] → args ≠ [] →
      args ≠ ["clear"] →
        ((∃ c, read line = .ok c) ↔ ∀ item ∈ listed args, ∃ n < UInt32.size, IsNumber n item) := by
  refine ⟨fun c proper => ⟨exists_documented c, fun line => read_of_documented proper⟩,
    fun line c => read_eq_ok_iff, fun line head args words named some list => ?_⟩
  exact exists_read_list_iff words named some list

/-- A list in three notations is read, and one with a word that is no number is not. -/
theorem documented_read_lists :
    (setBreakpoints [3, 7, 16]).Proper ∧ Documented (setBreakpoints [3, 7, 16]) "break 03,7 0x10" ∧
    read "break 03,7 0x10" = .ok (setBreakpoints [3, 7, 16]) ∧
    lineWords "b 3,x" = ["b", "3,x"] ∧ ¬ ∃ c, read "b 3,x" = .ok c := by
  have numbers : List.Forall₂ (fun id item => IsNumber (id : Entrypoint).toNat item) [3, 7, 16]
      ["03", "7", "0x10"] :=
    .cons (.decimal (.plain ⟨1, by decide⟩)) (.cons (.decimal (.plain ⟨0, by decide⟩))
      (.cons (.hexadecimal (Or.inl rfl) rfl (.plain ⟨0, by decide⟩)) .nil))
  have none : ∀ c ∈ ([] : List Char), isListGap c := fun _ mem => absurd mem List.not_mem_nil
  have parted : Parted isListGap (["03", "7", "0x10"].map String.toList) "03,7 0x10".toList :=
    .more none (show isListGap ',' from rfl) (.more none (show isListGap ' ' from rfl)
      (.last none none))
  have documented : Documented (setBreakpoints [3, 7, 16]) "break 03,7 0x10" :=
    .list rfl (List.cons_ne_nil _ _) (List.mem_cons_self : "break" ∈ _) numbers
      (fun _ mem => absurd mem List.not_mem_nil) (show isBlank ' ' from rfl) rfl parted
  have words : lineWords "b 3,x" = ["b", "3,x"] := by decide
  obtain ⟨written, -, lists⟩ := documented_read
  refine ⟨trivial, documented, (written (setBreakpoints [3, 7, 16]) trivial).2 _ documented, words,
    ?_⟩
  rw [lists _ _ _ words (by decide) (by decide) (by decide)]
  intro all
  obtain ⟨n, -, number⟩ := all "x" (by decide)
  exact not_isNumber (fun _ => rfl) n number

end CallDebugger.Command
