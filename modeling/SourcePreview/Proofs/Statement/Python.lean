import SourcePreview.Proofs.Statement.Formed
import SourcePreview.Proofs.Statement.Print

/-! The statements that are printed on a Python line, and that they are read back from it. -/

namespace SourcePreview.Python

open AssignmentParts (joined written)

variable {line word rest target e right : Text}

theorem shape_of_named (clear : Dialect.python.Clear line) (named : NamedLine line)
    (split : Text.leadingWord line = (word, rest)) :
    shape line = if Dialect.python.isStructural word && !startsAssignment rest then header word rest
      else .complete (match print? word rest with
        | some p => .action (.print p)
        | none => simple line) := by
  have tight := named.tight
  have unquoted : ∀ q, Text.isNamePart q = false → line.head? ≠ some q := by
    intro q hq first
    rw [named.named q first] at hq
    cases hq
  have kept : isDocstring line = false := by
    have double : Text.startsWith ['"', '"', '"'] line = false :=
      Text.startsWith_of_head?_ne (unquoted '"' (by decide))
    have single : Text.startsWith ['\'', '\'', '\''] line = false :=
      Text.startsWith_of_head?_ne (unquoted '\'' (by decide))
    simp only [isDocstring, List.any_cons, List.any_nil]
    rw [show "\"\"\"".toList = ['"', '"', '"'] from rfl, show "'''".toList = ['\'', '\'', '\'']
      from rfl, double, single]
    rfl
  have filled : line.isEmpty = false := by simpa using tight.ne_nil
  unfold shape
  rw [clear.code_eq, tight.trim_eq]
  dsimp only
  rw [filled, if_neg Bool.false_ne_true, kept, if_neg Bool.false_ne_true, split]
  cases print? word rest <;> rfl

theorem shape_of_word (clear : Dialect.python.Clear line) (named : NamedLine line)
    (split : Text.leadingWord line = (word, rest))
    (free : (Dialect.python.isStructural word && !startsAssignment rest) = false) :
    shape line = .complete (match print? word rest with
      | some p => .action (.print p)
      | none => simple line) :=
  (shape_of_named clear named split).trans (if_neg (Bool.eq_false_iff.1 free))

section

variable (identifier : Text.isIdentifier target = true)
include identifier

theorem leadingWord_joined (op : Option Operator) (right : Text) :
    Text.leadingWord (joined target op right) =
      (target, ' ' :: (AssignmentParts.sign op ++ right)) :=
  Text.spanOf_append_cons target (List.all_eq_true.2 (atom_of_isIdentifier identifier).parts)
    (by decide) _

theorem line_joined (op : Option Operator) (h : Dialect.python.RightSide right) :
    NamedLine (joined target op right) := by
  have atom := atom_of_isIdentifier identifier
  refine ⟨AssignmentParts.newline_not_mem_joined (fun c hc => Or.inl (atom.parts c hc)) op h.single,
    AssignmentParts.tight_joined atom.operand.tight op h.last, fun c hc => atom.parts c ?_⟩
  obtain ⟨d, r, rfl⟩ := List.exists_cons_of_ne_nil atom.ne_nil
  rw [← Option.some.inj hc]
  exact List.mem_cons_self

omit identifier in
theorem print?_joined (word : Text) (op : Option Operator) (right : Text) :
    print? word (' ' :: (AssignmentParts.sign op ++ right)) = none := by
  have first :
      ∃ c r, AssignmentParts.sign op ++ right = c :: r ∧ Text.isBlank c = false ∧ c ≠ '(' := by
    cases op with
    | none => exact ⟨'=', right, rfl, by decide, by decide⟩
    | some op => exact ⟨op.symbol, '=' :: right, rfl, by cases op <;> rfl, by cases op <;> decide⟩
  obtain ⟨c, r, he, filled, other⟩ := first
  unfold print?
  split
  · rw [Option.map_eq_none_iff, he, show ' ' :: c :: r = [' '] ++ c :: r from rfl,
      Text.trim_blanks_append rfl]
    refine Nesting.enclosed?_of_head?_ne fun h => other ?_
    rw [Text.head?_trim filled] at h
    exact Option.some.inj h
  · rfl

theorem input?_joined (op : Option Operator)
    (last : ∀ c, right.getLast? = some c → Text.isBlank c = false) :
    input? none (joined target op right) = none := by
  have atom := atom_of_isIdentifier identifier
  have unopened : '(' ∉ (target ++ ' ' :: (AssignmentParts.sign op).dropLast) ++ ['='] := by
    have := atom.not_mem (c := '(') (by decide)
    cases op with
    | none => simp [this, AssignmentParts.sign]
    | some op => cases op <;> simp [this, AssignmentParts.sign, Operator.symbol]
  have whole : joined target op right = (target ++ ' ' :: (AssignmentParts.sign op).dropLast) ++
      '=' :: right := by
    cases op <;> simp [joined, AssignmentParts.sign]
  rw [input?, (AssignmentParts.tight_joined atom.operand.tight op last).trim_eq, whole,
    Call.ofText?_eq_none unopened (by decide) (by decide) rfl]
  rfl

theorem assignment?_joined (op : Option Operator) (other : right.head? ≠ some '=') :
    assignment? (joined target op right) =
    some (match if op.isNone then input? (some target) right else none with
      | some site => .action (.input site)
      | none => .assign target op right) := by
  have atom := atom_of_isIdentifier identifier
  have plain : target.all Nesting.isPlain = true :=
    List.all_eq_true.2 fun c hc => isPlain_of_not_mem_marks (not_mem_marks (atom.parts c hc))
  have whole : ':' ∉ target ++ [' '] := by
    have : ':' ∉ target := fun hc => absurd (atom.parts _ hc) (by decide)
    simp [this]
  have named : Text.trim (target ++ [' ']) = target := by
    have := Text.trim_blanks (a := []) (b := [' ']) atom.operand.tight rfl rfl
    rwa [List.nil_append] at this
  rw [assignment?, AssignmentParts.ofText?_joined plain (atom.not_mem (by decide)) op other,
    Option.map_some, Text.splitAll_of_not_mem whole, List.headD_cons, named]
  dsimp only
  rewrite [identifier, Bool.not_true, if_neg Bool.false_ne_true]
  rfl

theorem statement_joined {op : Option Operator} (h : Dialect.python.RightSide right)
    (free : op ≠ none → Dialect.python.isStructural target = false) :
    statement (joined target op right) = match if op.isNone then input? (some target) right else
    none with
      | some site => .action (.input site)
      | none => .assign target op right := by
  have atom := atom_of_isIdentifier identifier
  have clear : Dialect.python.Clear (joined target op right) :=
    AssignmentParts.clear_joined (fun c hc => Or.inl (atom.parts c hc)) op h.clear
  have assigned : (Dialect.python.isStructural target &&
      !startsAssignment (' ' :: (AssignmentParts.sign op ++ right))) = false := by
    cases op with
    | none =>
      have sole : startsAssignment (' ' :: '=' :: right) = true := by
        rw [startsAssignment, Text.trimStart, List.dropWhile_cons_of_pos (by decide),
          List.dropWhile_cons_of_neg (by decide)]
        split
        · next he => exact absurd (congrArg List.head? (List.cons.inj he).2) h.unequal
        · rfl
        · next he => exact absurd rfl (he _)
      rw [AssignmentParts.sign, List.singleton_append, sole]
      exact Bool.and_false _
    | some op => rw [free (by simp), Bool.false_and]
  rw [statement_eq,
    shape_of_word clear (line_joined identifier op h) (leadingWord_joined identifier op right)
    assigned, print?_joined]
  dsimp only
  rw [simple, input?_joined identifier op h.last, assignment?_joined identifier op h.unequal]
  rfl

theorem statement_written {op : Option Operator} (formed : Dialect.python.WellFormed e)
    (free : op ≠ none → Dialect.python.isStructural target = false) :
    statement (written target op e) =
      match if op.isNone then input? (some target) (' ' :: e) else none with
      | some site => .action (.input site)
      | none => .assign target op (' ' :: e) :=
  statement_joined identifier formed.rightSide free

end

/-- An input call as it is written: alone, or in a conversion. -/
def InputForm (e : Text) : Prop :=
  ∃ prompt, (⟨"input".toList, prompt⟩ : Call).Covers e ∨
    ∃ (kind : Kind) (middle : Text), (⟨kind.name, middle⟩ : Call).Covers e ∧
      (⟨"input".toList, prompt⟩ : Call).Covers (Text.trim middle)

theorem conversionKind?_name (kind : Kind) : conversionKind? kind.name = some kind := by
  cases kind <;> decide

theorem name_of_conversionKind? {function : Text} {kind : Kind}
    (h : conversionKind? function = some kind) :
    kind.name = function :=
  eq_of_beq (List.find?_some (p := fun kind : Kind => kind.name == function) h)

theorem input?_eq_none (other : ¬ InputForm (Text.trim e)) (site : Option Text) :
    input? site e = none := by
  rw [input?, Option.bind_eq_none_iff]
  intro call found
  obtain ⟨-, covers⟩ := (Call.ofText?_trim e).1 found
  have named : call.function ≠ "input".toList := by
    intro hf
    refine other ⟨call.inner, Or.inl ?_⟩
    rwa [← hf]
  rw [if_neg named, Option.bind_eq_none_iff]
  intro kind converts
  rw [Option.bind_eq_none_iff]
  intro inner within
  refine if_neg fun hf => other ⟨inner.inner, Or.inr ⟨kind, call.inner, ?_, ?_⟩⟩
  · rwa [name_of_conversionKind? converts]
  · rw [← hf]
    exact ((Call.ofText?_trim call.inner).1 within).2

def inputCall (conversion : Option Kind) (prompt : Text) : Text :=
  let call : Call := ⟨"input".toList, prompt⟩
  match conversion with
  | none => call.written
  | some kind => (⟨kind.name, call.written⟩ : Call).written

theorem isPath_input : Call.isPath "input".toList = true := by decide

theorem isPath_name (kind : Kind) : Call.isPath kind.name = true := by cases kind <;> decide

theorem wellFormed_inputCall {prompt : Text} (h : Dialect.python.Sealed prompt)
    (conversion : Option Kind) :
    Dialect.python.WellFormed (inputCall conversion prompt) := by
  have formed : Dialect.python.WellFormed (⟨"input".toList, prompt⟩ : Call).written :=
    h.call isPath_input
  cases conversion with
  | none => exact formed
  | some kind => exact formed.call (isPath_name kind)

theorem input?_inputCall {prompt : Text} (h : Dialect.python.Sealed prompt)
    (conversion : Option Kind) (target : Option Text) :
    input? target (' ' :: inputCall conversion prompt) =
      some (site target (conversion.getD .str) prompt) := by
  have formed : Dialect.python.WellFormed (⟨"input".toList, prompt⟩ : Call).written :=
    wellFormed_inputCall h none
  have found :
    Call.ofText? (⟨"input".toList, prompt⟩ : Call).written = some ⟨"input".toList, prompt⟩ :=
    Call.ofText?_of_covers isPath_input (Call.covers_written h.closed)
  rw [input?, (wellFormed_inputCall h conversion).tight.trim_blank_cons rfl]
  cases conversion with
  | none =>
    rw [inputCall, found, Option.bind_some, if_pos rfl]
    rfl
  | some kind =>
    have outer :
        Call.ofText? (⟨kind.name, (⟨"input".toList, prompt⟩ : Call).written⟩ : Call).written =
        some ⟨kind.name, (⟨"input".toList, prompt⟩ : Call).written⟩ :=
      Call.ofText?_of_covers (isPath_name kind) (Call.covers_written formed.closed)
    have other : kind.name ≠ "input".toList := by cases kind <;> decide
    rw [inputCall, outer, Option.bind_some, if_neg other, conversionKind?_name, Option.bind_some,
      formed.tight.trim_eq, found, Option.bind_some, if_pos rfl]
    rfl

/-- A keyword argument as it is written; an equals sign behind the first one makes a comparison. -/
def KeywordForm (argument : Text) : Prop :=
  ∃ name gap value, Text.isIdentifier name = true ∧ gap.all Text.isBlank = true ∧
    value.head? ≠ some '=' ∧
    argument = name ++ gap ++ '=' :: value

theorem keywordArgument?_eq_none_iff (tight : Text.Tight e) :
    keywordArgument? e = none ↔ ¬ KeywordForm e := by
  constructor
  · rintro h ⟨name, gap, value, identifier, blanks, unequal, rfl⟩
    have atom := atom_of_isIdentifier identifier
    have absent : '=' ∉ name ++ gap := by
      rw [List.mem_append, not_or]
      exact ⟨atom.not_mem (by decide),
        fun hc => absurd (List.all_eq_true.1 blanks _ hc) (by decide)⟩
    have trimmed : Text.trim (name ++ gap) = name := by
      have := Text.trim_blanks (a := []) atom.operand.tight rfl blanks
      rwa [List.nil_append] at this
    have first : Text.startsWith ['='] value = false := Text.startsWith_of_head?_ne unequal
    rw [keywordArgument?, Text.splitOnce_append absent, Option.bind_some] at h
    dsimp only at h
    rw [trimmed, identifier, first] at h
    cases h
  · intro unnamed
    rw [keywordArgument?, Option.bind_eq_none_iff]
    rintro ⟨front, value⟩ split
    have whole := Text.eq_of_splitOnce split
    refine if_neg fun named => unnamed ?_
    rw [Bool.and_eq_true, Bool.not_eq_true'] at named
    obtain ⟨a, b, ha, hb, he⟩ := Text.exists_trim front
    have unblank : a = [] := by
      cases a with
      | nil => rfl
      | cons c a =>
        rw [List.all_cons, tight.head c (by rw [whole, he]; rfl)] at ha
        cases ha
    refine ⟨Text.trim front, b, value, named.1, hb, ?_, ?_⟩
    · intro first
      obtain ⟨r, rfl⟩ := List.head?_eq_some_iff.1 first
      cases named.2
    · rw [unblank, List.nil_append] at he
      rw [← he, whole]

/-- A statement as it is printed on a line. -/
inductive Printed where
  | assign (target e : Text) (identifier : Text.isIdentifier target = true)
      (formed : Dialect.python.WellFormed e)
      (calculated : ¬ InputForm e)
  | update (target : Text) (op : Operator) (e : Text) (identifier : Text.isIdentifier target = true)
      (free : Dialect.python.isStructural target = false) (formed : Dialect.python.WellFormed e)
  | input (target : Text) (conversion : Option Kind) (prompt : Option Text)
      (identifier : Text.isIdentifier target = true)
      (formed : ∀ e ∈ prompt, Dialect.python.WellFormed e)
  | print (arguments : List Text) (separator ending : Option Text)
      (formed : ∀ e ∈ arguments ++ separator.toList ++ ending.toList,
        Dialect.python.WellFormed e ∧ Nesting.Undivided ',' e)
      (unnamed : ∀ e ∈ arguments, ¬ KeywordForm e)

namespace Printed

def parts (arguments : List Text) (separator ending : Option Text) : List Text :=
  arguments ++ (separator.map ("sep".toList ++ '=' :: ·)).toList ++
  (ending.map ("end".toList ++ '=' :: ·)).toList

def write : Printed → Text
  | assign target e _ _ _ => written target none e
  | update target op e _ _ _ => written target (some op) e
  | input target conversion prompt _ _ =>
    written target none (inputCall conversion (prompt.getD []))
  | print arguments separator ending _ _ =>
    (⟨"print".toList, Text.join ", ".toList (parts arguments separator ending)⟩ : Call).written

def action : Printed → Action
  | assign target e _ _ _ => .assign target e
  | update target op e _ _ _ => .assign target (target ++ [' ', op.symbol, ' ', '('] ++ e ++ [')'])
  | input target conversion prompt _ _ => .input ⟨some target, conversion.getD .str, prompt⟩
  | print arguments separator ending _ _ =>
    .print ⟨arguments, separator, ending.elim .newline .expression, .stdout⟩

section

variable {arguments : List Text} {separator ending : Option Text}
  (formed : ∀ e ∈ arguments ++ separator.toList ++ ending.toList, Dialect.python.WellFormed e ∧
    Nesting.Undivided ',' e)
include formed

theorem of_mem_parts {argument : Text} (mem : argument ∈ parts arguments separator ending) :
    Dialect.python.Sealed argument ∧ Nesting.Undivided ',' argument ∧ Text.Tight argument := by
  have keyword : ∀ {name value : Text}, (Text.isIdentifier name = true ∧ Call.isPath name = true) →
      Dialect.python.WellFormed value ∧ Nesting.Undivided ',' value →
      Dialect.python.Sealed (name ++ '=' :: value) ∧ Nesting.Undivided ',' (name ++ '=' :: value) ∧
        Text.Tight (name ++ '=' :: value) := by
    rintro name value ⟨identifier, path⟩ ⟨formed, whole⟩
    have named : Dialect.python.Sealed name := .of_isPath path
    have equals : Dialect.python.Sealed ['='] := .of_plain (List.forall_mem_singleton.2 (by decide))
    have front : Nesting.Undivided ',' (name ++ ['=']) :=
      .of_not_mem (by simp [Call.not_mem_of_isPath path (by decide : ',' ∈ marks) (by decide)])
    refine ⟨?_, ?_, tight_keyword identifier formed.tight⟩
    · exact named.append (equals.append formed.toSealed (Or.inl (by decide)))
        (Or.inr fun h => by cases h)
    · have := front.append (named.closed.append equals.closed) whole
      rwa [List.append_assoc] at this
  simp only [parts, List.mem_append, Option.mem_toList, Option.map_eq_some_iff] at mem
  rcases mem with (mem | ⟨value, rfl, rfl⟩) | ⟨value, rfl, rfl⟩
  · have := formed argument (by simp [mem])
    exact ⟨this.1.toSealed, this.2, this.1.tight⟩
  · exact keyword ⟨by decide, by decide⟩ (formed value (by simp))
  · exact keyword ⟨by decide, by decide⟩ (formed value (by simp))

theorem print_parts (unnamed : ∀ e ∈ arguments, ¬ KeywordForm e) :
    Python.print (Text.join ", ".toList (parts arguments separator ending)) =
      ⟨arguments, separator, ending.elim .newline .expression, .stdout⟩ := by
  have printed : ∀ e ∈ arguments, Text.Tight e ∧ keywordArgument? e = none := fun e he =>
    have tight := (formed e (by simp [he])).1.tight
    ⟨tight, (keywordArgument?_eq_none_iff tight).2 (unnamed e he)⟩
  have keyword :
      ∀ {name : Text} (print : Print), Text.isIdentifier name = true → name ≠ "file".toList →
      ∀ value ∈ separator.toList ++ ending.toList, addArgument print (name ++ '=' :: value) =
        if name = "sep".toList then { print with separator := some value }
        else if name = "end".toList then { print with ending := .expression value } else print := by
    intro name print identifier unfiled value mem
    have :=
      (formed value (by simp only [List.append_assoc]; exact List.mem_append_right arguments mem)).1
    exact addArgument_keyword print identifier this.tight this.unequal unfiled
  have separated :
      ∀ print : Print, (separator.map ("sep".toList ++ '=' :: ·)).toList.foldl addArgument print =
      { print with separator := separator.or print.separator } := by
    intro print
    cases separator with
    | none => rfl
    | some value => exact keyword print (by decide) (by decide) value (by simp)
  have ended :
      ∀ print : Print, (ending.map ("end".toList ++ '=' :: ·)).toList.foldl addArgument print =
      { print with ending := ending.elim print.ending .expression } := by
    intro print
    cases ending with
    | none => rfl
    | some value => exact keyword print (by decide) (by decide) value (by simp)
  rw [print_join (fun s hs => (of_mem_parts formed hs).1.closed) (fun s hs =>
    (of_mem_parts formed hs).2.1)
    (fun s hs => (of_mem_parts formed hs).2.2), parts, List.foldl_append, List.foldl_append,
    foldl_addArgument_of_tight _ printed, separated, ended]
  simp

theorem wellFormed_print : Dialect.python.WellFormed
    (⟨"print".toList, Text.join ", ".toList (parts arguments separator ending)⟩ : Call).written :=
  have joined : Dialect.python.Sealed (Text.join ", ".toList (parts arguments separator ending)) :=
    .join fun _ he => (of_mem_parts formed he).1
  joined.call (by decide)

theorem line_print :
    NamedLine (⟨"print".toList, Text.join ", ".toList (parts arguments separator ending)⟩ :
      Call).written := by
  have line := wellFormed_print formed
  refine ⟨line.single, line.tight, fun c hc => ?_⟩
  obtain rfl : 'p' = c := Option.some.inj hc
  decide

end

theorem line_write (p : Printed) : NamedLine p.write := by
  cases p with
  | assign target e identifier formed calculated =>
    exact line_joined identifier none formed.rightSide
  | update target op e identifier free formed =>
    exact line_joined identifier (some op) formed.rightSide
  | input target conversion prompt identifier formed =>
    exact line_joined identifier none
      (wellFormed_inputCall (Dialect.sealed_getD formed) conversion).rightSide
  | print arguments separator ending formed unnamed => exact line_print formed

theorem statement_write (p : Printed) : Python.statement p.write = .action p.action := by
  cases p with
  | assign target e identifier formed calculated =>
    have uncalled : input? (some target) (' ' :: e) = none :=
      input?_eq_none (by rwa [formed.tight.trim_blank_cons rfl]) (some target)
    rw [write, statement_written identifier formed (fun h => absurd rfl h), uncalled,
      Option.isNone_none, if_pos rfl]
    dsimp only
    rw [Statement.assign, formed.tight.trim_blank_cons rfl]
    rfl
  | update target op e identifier free formed =>
    rw [write, statement_written identifier formed (fun _ => free)]
    dsimp only [Option.isNone]
    rw [if_neg Bool.false_ne_true]
    dsimp only
    rw [Statement.assign, formed.tight.trim_blank_cons rfl]
    rfl
  | input target conversion prompt identifier formed =>
    have blank := Dialect.sealed_getD formed
    have prompted : site (some target) (conversion.getD .str) (prompt.getD []) =
        ⟨some target, conversion.getD .str, prompt⟩ := by
      cases prompt with
      | none => rfl
      | some e =>
        have tight := (formed e rfl).tight
        simp [site, tight.trim_eq, tight.ne_nil]
    rw [write, statement_written identifier (wellFormed_inputCall blank conversion) (fun h =>
      absurd rfl h), Option.isNone_none, if_pos rfl, input?_inputCall blank, prompted]
    rfl
  | print arguments separator ending formed unnamed =>
    have joined : Nesting.Closed (Text.join ", ".toList (parts arguments separator ending)) :=
      .join (.of_plain (by decide)) fun e he => (of_mem_parts formed he).1.closed
    have clear := (wellFormed_print formed).clear
    have line := line_print formed
    have read := print_parts formed unnamed
    rw [write]
    generalize Text.join ", ".toList (parts arguments separator ending) = inner at *
    have word : Text.leadingWord (⟨"print".toList, inner⟩ : Call).written =
      ("print".toList, '(' :: (inner ++ [')'])) :=
      Text.spanOf_append_cons "print".toList (by decide) (by decide) (inner ++ [')'])
    have call : print? "print".toList ('(' :: (inner ++ [')'])) = some (Python.print inner) := by
      have tight : Text.Tight ('(' :: inner ++ [')']) := Text.tight_append_singleton rfl rfl inner
      rw [List.cons_append] at tight
      rw [print?, if_pos rfl, tight.trim_eq, joined.enclosed?_eq rfl]
      rfl
    rw [statement_eq, shape_of_word clear line word rfl, call, read]
    rfl

theorem statements_write (program : List Printed) :
    Dialect.python.statements none (Text.lines (Text.join ['\n'] (program.map write))) =
      program.map fun p => .action p.action := by
  rw [Dialect.statements_join .python (List.forall_mem_map.2 fun p _ => p.line_write), List.map_map]
  exact List.map_congr_left fun p _ => p.statement_write

end Printed

end SourcePreview.Python
