import SourcePreview.Proofs.Expression.Literal
import SourcePreview.Proofs.Text.Breaks
import SourcePreview.Proofs.Text.Search
import SourcePreview.Statement.Line

/-! Print calls whose arguments are literals, read as statements. No comment starts in a literal, no
comma in one divides arguments and no equals sign in one makes a keyword argument. -/

namespace SourcePreview

namespace Dialect

variable (d : Dialect)

theorem cutComment_eq {n : Nesting} {s : Text}
    (h : ∀ p ∈ n.path s, p.1.quote = some '"' ∨ p.2 ∉ ['#', '/']) :
    d.cutComment n s = (s, none) := by
  induction s generalizing n with
  | nil => rfl
  | cons c s ih =>
    rw [Nesting.path, List.forall_mem_cons] at h
    have code : (n.quote.isNone && d.startsComment c s) = false := by
      rcases h.1 with hq | hc
      · have hq : n.quote = some '"' := hq
        simp [hq]
      · cases d <;> simp_all [startsComment]
    rw [cutComment, code, ih h.2]
    rfl

theorem code_call {before inner behind : Text} {cs : List Char} (h : Nesting.Outside cs inner)
    (hb : Nesting.start.after before = Nesting.level 1)
    (clear : ∀ c ∈ before ++ cs ++ behind, c ∉ ['#', '/']) :
    d.code (before ++ inner ++ behind) = before ++ inner ++ behind := by
  have passed : ∀ p ∈ Nesting.start.path (before ++ inner ++ behind), p.1.quote = some '"' ∨
      p.2 ∉ ['#', '/'] := by
    intro p hp
    rw [Nesting.path_append, Nesting.path_append, hb, Nesting.after_append, hb, h.after] at hp
    rcases List.mem_append.1 hp with hp | hp
    · rcases List.mem_append.1 hp with hp | hp
      · exact Or.inr (clear _ (by simp [Nesting.snd_mem_of_mem_path hp]))
      · rcases h.path 1 p hp with hq | ⟨-, hc⟩
        · exact Or.inl hq
        · exact Or.inr (clear _ (by simp [hc]))
    · exact Or.inr (clear _ (by simp [Nesting.snd_mem_of_mem_path hp]))
  rw [code, cutComment_eq d passed]

end Dialect

namespace Python

variable (print : Print) (s : Text)

theorem addArgument_congr {argument argument' : Text}
    (h : Text.trim argument = Text.trim argument') :
    addArgument print argument = addArgument print argument' := by
  unfold addArgument
  rw [h]

/-- A literal is no keyword argument: what stands before an equals sign in it begins with a
quote. -/
theorem keywordArgument?_literal : keywordArgument? (Text.literal s) = none := by
  unfold keywordArgument?
  cases h : Text.splitOnce '=' (Text.literal s) with
  | none => rfl
  | some parts =>
    obtain ⟨name, value⟩ := parts
    have whole := Text.eq_of_splitOnce h
    cases name with
    | nil => cases (List.cons.inj whole).1
    | cons c name =>
      obtain rfl : '"' = c := (List.cons.inj whole).1
      have first := Text.head?_trim (c := '"') rfl name
      have plain : Text.isIdentifier (Text.trim ('"' :: name)) = false := by
        cases ht : Text.trim ('"' :: name) with
        | nil => rfl
        | cons d r =>
          rw [ht] at first
          cases first
          rfl
      simp [plain]

section

variable {name value : Text} (identifier : Text.isIdentifier name = true) (tight : Text.Tight value)
include identifier tight

theorem keywordArgument?_of_isIdentifier (unequal : value.head? ≠ some '=') :
    keywordArgument? (name ++ '=' :: value) = some (name, value) := by
  have atom := atom_of_isIdentifier identifier
  have first : Text.startsWith ['='] value = false := Text.startsWith_of_head?_ne unequal
  unfold keywordArgument?
  rw [Text.splitOnce_append (atom.not_mem (by decide)), Option.bind_some]
  dsimp only
  rw [atom.operand.tight.trim_eq, tight.trim_eq, identifier, first]
  rfl

theorem tight_keyword : Text.Tight (name ++ '=' :: value) := by
  have whole := (atom_of_isIdentifier identifier).operand.tight.append ['='] tight
  rwa [List.singleton_append] at whole

theorem addArgument_keyword (unequal : value.head? ≠ some '=') (unfiled : name ≠ "file".toList) :
    addArgument print (name ++ '=' :: value) =
      if name = "sep".toList then { print with separator := some value }
      else if name = "end".toList then { print with ending := .expression value }
      else print := by
  have filled : (name ++ '=' :: value).isEmpty = false := by simp
  have stream : ¬ (name = "file".toList ∧ value = "sys.stderr".toList) := fun h => unfiled h.1
  unfold addArgument
  rw [(tight_keyword identifier tight).trim_eq]
  dsimp only
  rw [filled, if_neg Bool.false_ne_true, keywordArgument?_of_isIdentifier identifier tight unequal]
  dsimp only
  rw [if_neg stream]

end

theorem addArgument_of_tight {argument : Text} (tight : Text.Tight argument)
    (unnamed : keywordArgument? argument = none) :
    addArgument print argument = { print with arguments := print.arguments ++ [argument] } := by
  have filled : argument.isEmpty = false := by simpa using tight.ne_nil
  unfold addArgument
  rw [tight.trim_eq]
  dsimp only
  rw [filled, if_neg Bool.false_ne_true, unnamed]

theorem foldl_addArgument_blank {arguments : List Text} (h : ∀ s ∈ arguments, Text.Tight s) :
    (arguments.map (' ' :: ·)).foldl addArgument print = arguments.foldl addArgument print := by
  induction arguments generalizing print with
  | nil => rfl
  | cons argument arguments ih =>
    rw [List.forall_mem_cons] at h
    rw [List.map_cons, List.foldl_cons, List.foldl_cons, ih _ h.2]
    rw [addArgument_congr print ((h.1.trim_blank_cons rfl).trans h.1.trim_eq.symm)]

theorem foldl_addArgument_of_tight {arguments : List Text}
    (h : ∀ argument ∈ arguments, Text.Tight argument ∧ keywordArgument? argument = none) :
    arguments.foldl addArgument print =
      { print with arguments := print.arguments ++ arguments } := by
  induction arguments generalizing print with
  | nil => simp
  | cons argument arguments ih =>
    rw [List.forall_mem_cons] at h
    rw [List.foldl_cons, addArgument_of_tight print h.1.1 h.1.2, ih _ h.2]
    simp

theorem print_join {arguments : List Text} (closed : ∀ s ∈ arguments, Nesting.Closed s)
    (whole : ∀ s ∈ arguments, Nesting.Undivided ',' s) (tight : ∀ s ∈ arguments, Text.Tight s) :
    Python.print (Text.join ", ".toList arguments) = arguments.foldl addArgument ⟨[], none,
      .newline, .stdout⟩ := by
  cases arguments with
  | nil => rfl
  | cons first others =>
    rw [Python.print, Nesting.splitTop_join closed whole, List.foldl_cons,
      foldl_addArgument_blank _ (List.forall_mem_cons.1 tight).2]
    rfl

/-- The arguments of a print call that prints texts with a separator between them and an ending
behind them. -/
def literalArguments (texts : List Text) (separator ending : Text) : List Text :=
  texts.map Text.literal ++ ["sep".toList ++ '=' :: Text.literal separator,
    "end".toList ++ '=' :: Text.literal ending]

def printCall (texts : List Text) (separator ending : Text) : Text :=
  "print(".toList ++ Text.join ", ".toList (literalArguments texts separator ending) ++ [')']

variable (texts : List Text) (separator ending : Text)

variable {texts separator ending} in
theorem forall_mem_literalArguments {p : Text → Prop} (literal : ∀ text, p (Text.literal text))
    (sep : p ("sep".toList ++ '=' :: Text.literal separator))
    (last : p ("end".toList ++ '=' :: Text.literal ending)) :
    ∀ s ∈ literalArguments texts separator ending, p s := by
  intro s hs
  rcases List.mem_append.1 hs with hs | hs
  · obtain ⟨text, -, rfl⟩ := List.mem_map.1 hs
    exact literal text
  · simp only [List.mem_cons, List.not_mem_nil, or_false] at hs
    rcases hs with rfl | rfl
    · exact sep
    · exact last

theorem tight_of_mem_literalArguments :
    ∀ s ∈ literalArguments texts separator ending, Text.Tight s :=
  forall_mem_literalArguments (fun text => (operand_literal text).tight)
    (tight_keyword rfl (operand_literal separator).tight)
    (tight_keyword rfl (operand_literal ending).tight)

theorem outside_of_mem_literalArguments :
    ∀ s ∈ literalArguments texts separator ending, Nesting.Outside "sepnd=\"".toList s := by
  have literal (text : Text) : Nesting.Outside "sepnd=\"".toList (Text.literal text) :=
    (Nesting.Outside.literal text).mono (by decide)
  have keyword (name : Text) (plain : (name ++ ['=']).all Nesting.isPlain = true)
      (known : name ++ ['='] ⊆ "sepnd=\"".toList) (text : Text) :
      Nesting.Outside "sepnd=\"".toList (name ++ '=' :: Text.literal text) := by
    have whole := ((Nesting.Outside.of_plain plain).mono known).append (literal text)
    rwa [List.append_assoc] at whole
  exact forall_mem_literalArguments literal (keyword "sep".toList (by decide) (by decide) separator)
    (keyword "end".toList (by decide) (by decide) ending)

theorem outside_literalArguments :
    Nesting.Outside ", sepnd=\"".toList
    (Text.join ", ".toList (literalArguments texts separator ending)) :=
  Nesting.Outside.join (fun s hs =>
    (outside_of_mem_literalArguments texts separator ending s hs).mono (by decide))
    (by decide) (by decide)

theorem print_literalArguments :
    Python.print (Text.join ", ".toList (literalArguments texts separator ending)) =
    ⟨texts.map Text.literal, some (Text.literal separator), .expression (Text.literal ending),
      .stdout⟩ := by
  have outside := outside_of_mem_literalArguments texts separator ending
  have unequal (text : Text) : (Text.literal text).head? ≠ some '=' := by
    simp [Text.literal, inQuotes]
  have literals : ∀ argument ∈ texts.map Text.literal, Text.Tight argument ∧
      keywordArgument? argument = none := by
    intro argument mem
    obtain ⟨text, -, rfl⟩ := List.mem_map.1 mem
    exact ⟨(operand_literal text).tight, keywordArgument?_literal text⟩
  rw [print_join (fun s hs => (outside s hs).closed (by decide)) (fun s hs =>
    (outside s hs).undivided (by decide))
    (tight_of_mem_literalArguments texts separator ending), literalArguments, List.foldl_append,
    foldl_addArgument_of_tight _ literals, List.foldl_cons,
    addArgument_keyword _ rfl (operand_literal separator).tight (unequal separator) (by decide),
    List.foldl_cons,
    addArgument_keyword _ rfl (operand_literal ending).tight (unequal ending) (by decide)]
  rfl

theorem tight_printCall : Text.Tight (printCall texts separator ending) :=
  Text.tight_append_singleton rfl rfl
    ("rint(".toList ++ Text.join ", ".toList (literalArguments texts separator ending))

theorem statement_printCall : statement (printCall texts separator ending) =
    .action (.print ⟨texts.map Text.literal, some (Text.literal separator),
      .expression (Text.literal ending), .stdout⟩) := by
  have outside := outside_literalArguments texts separator ending
  have printed := print_literalArguments texts separator ending
  unfold printCall
  generalize Text.join ", ".toList (literalArguments texts separator ending) = inner at *
  have code :
    Dialect.python.code ("print(".toList ++ inner ++ [')']) = "print(".toList ++ inner ++ [')'] :=
    Dialect.code_call .python outside rfl (by simp)
  have tight : Text.Tight ("print(".toList ++ inner ++ [')']) :=
    Text.tight_append_singleton rfl rfl ("rint(".toList ++ inner)
  have word : Text.leadingWord ("print(".toList ++ inner ++ [')']) =
    ("print".toList, '(' :: inner ++ [')']) :=
    Text.spanOf_append_cons "print".toList (by decide) (by decide) (inner ++ [')'])
  have call : print? "print".toList ('(' :: inner ++ [')']) = some (Python.print inner) := by
    have tight : Text.Tight ('(' :: inner ++ [')']) := Text.tight_append_singleton rfl rfl inner
    rw [print?, if_pos rfl, tight.trim_eq, List.cons_append,
      Nesting.enclosed?_of_outside outside (by decide)]
    rfl
  have kept : isDocstring ("print(".toList ++ inner ++ [')']) = false := by
    simp [isDocstring, Text.startsWith, Text.after?]
  have shaped :
      shape ("print(".toList ++ inner ++ [')']) =
        .complete (.action (.print (Python.print inner))) := by
    unfold shape
    rw [code, tight.trim_eq]
    dsimp only
    rw [if_neg (by simp), kept, word]
    dsimp only
    rw [call]
    rfl
  rw [statement_eq, shaped, printed]

theorem newline_not_mem_printCall : '\n' ∉ printCall texts separator ending := by
  have arguments : ∀ s ∈ literalArguments texts separator ending, '\n' ∉ s :=
    forall_mem_literalArguments newline_not_mem_literal (by simp [newline_not_mem_literal])
      (by simp [newline_not_mem_literal])
  have inner := Text.not_mem_join (by decide : '\n' ∉ ", ".toList) arguments
  unfold printCall
  rw [List.mem_append, List.mem_append, not_or, not_or]
  exact ⟨⟨by decide, inner⟩, by decide⟩

end Python

namespace Java

def printCall (text : Text) : Text :=
  "System.out.println(".toList ++ Text.literal text ++ [')', ';']

variable (text : Text)

theorem call_println : Call.ofText? ("println(".toList ++ Text.literal text ++ [')']) =
    some ⟨"println".toList, Text.literal text⟩ := by
  have cut : Text.cutAtFirst (· == '(') ("println".toList ++ '(' :: (Text.literal text ++ [')'])) =
      some ("println".toList, '(', Text.literal text ++ [')']) :=
    Text.cutAtFirst_append (by decide) rfl _
  have tight : Text.Tight ('(' :: Text.literal text ++ [')']) :=
    Text.tight_append_singleton rfl rfl _
  have enclosed :
    Nesting.enclosed? ('(' :: Text.literal text ++ [')']) = some (Text.literal text) :=
    Nesting.enclosed?_of_outside (.literal text) (by decide)
  have path : Call.isPath (Text.trimEnd "println".toList) = true := by decide
  change Call.ofText? ("println".toList ++ '(' :: (Text.literal text ++ [')'])) = _
  rw [Call.ofText?, cut, Option.bind_some]
  dsimp only
  rw [if_pos path]
  change Option.map _ (Nesting.enclosed? (Text.trim ('(' :: Text.literal text ++ [')']))) = _
  rw [tight.trim_eq, enclosed]
  rfl

theorem print?_of_println {s t : Text} {stream : Stream} {call : Call}
    (hs : printCall? s = some (stream, t)) (hc : Call.ofText? t = some call)
    (hf : call.function = "println".toList) (hi : Text.trim call.inner ≠ []) :
    print? s = some ⟨[Text.trim call.inner], none, .newline, stream⟩ := by
  unfold print?
  rw [hs, Option.bind_eq_bind, Option.bind_some]
  dsimp only
  rw [hc, Option.bind_eq_bind, Option.bind_some, if_pos hf, Option.bind_eq_bind, Option.bind_some,
    if_neg (by simpa using hi)]
  rfl

theorem print?_println : print? ("System.out.println(".toList ++ Text.literal text ++ [')']) =
    some ⟨[Text.literal text], none, .newline, .stdout⟩ := by
  have after : Text.after? "System.out.".toList
      ("System.out.println(".toList ++ Text.literal text ++ [')']) =
      some ("println(".toList ++ Text.literal text ++ [')']) := Text.after?_eq_some_iff.2 rfl
  have stream : printCall? ("System.out.println(".toList ++ Text.literal text ++ [')']) =
      some (.stdout, "println(".toList ++ Text.literal text ++ [')']) := by rw [printCall?, after]
  have trimmed := (operand_literal text).tight.trim_eq
  have printed :=
    print?_of_println stream (call_println text) rfl (by rw [trimmed]; exact List.cons_ne_nil _ _)
  rwa [trimmed] at printed

theorem printCall_eq :
    printCall text = "System.out.println(".toList ++ Text.literal text ++ [')'] ++ [';'] :=
  (List.append_assoc ("System.out.println(".toList ++ Text.literal text) [')'] [';']).symm

theorem exists_println_eq :
    ∃ r, "System.out.println(".toList ++ Text.literal text ++ [')'] = 'S' :: r ++ [')'] := by
  have first : "System.out.println(".toList = 'S' :: "ystem.out.println(".toList := by decide
  exact ⟨"ystem.out.println(".toList ++ Text.literal text, by rw [first, List.cons_append]⟩

theorem bare_printCall :
    bare (printCall text) = "System.out.println(".toList ++ Text.literal text ++ [')'] := by
  rw [printCall_eq]
  obtain ⟨r, hr⟩ := exists_println_eq text
  rw [hr]
  have start : ('S' :: r ++ [')'] ++ [';']).dropWhile (fun c => c == '}' || Text.isBlank c) =
    'S' :: r ++ [')'] ++ [';'] :=
    List.dropWhile_cons_of_neg (by decide)
  have before : Text.before? [';'] ('S' :: r ++ [')'] ++ [';']) = some ('S' :: r ++ [')']) :=
    Text.before?_eq_some_iff.2 rfl
  have tight : Text.Tight ('S' :: r ++ [')']) := Text.tight_append_singleton rfl rfl r
  unfold bare
  rw [start]
  dsimp only
  rw [before]
  exact tight.trim_eq

theorem tight_printCall : Text.Tight (printCall text) := by
  obtain ⟨r, hr⟩ := exists_println_eq text
  rw [printCall_eq, hr]
  exact Text.tight_append_singleton rfl rfl (r ++ [')'])

theorem statement_printCall :
    statement (printCall text) =
      .action (.print ⟨[Text.literal text], none, .newline, .stdout⟩) := by
  have code : Dialect.java.code (printCall text) = printCall text :=
    Dialect.code_call .java (.literal text) rfl (by simp)
  have word : Text.leadingWord ("System.out.println(".toList ++ Text.literal text ++ [')']) =
      ("System".toList, ".out.println(".toList ++ Text.literal text ++ [')']) :=
    Text.spanOf_append_cons "System".toList (by decide) (by decide) _
  have modifiers : dropModifiers ("System.out.println(".toList ++ Text.literal text ++ [')']) =
      "System.out.println(".toList ++ Text.literal text ++ [')'] := by
    rw [dropModifiers, word]
    rfl
  obtain ⟨r, hr⟩ := exists_println_eq text
  have whole : printCall text = 'S' :: r ++ [')'] ++ [';'] := by rw [printCall_eq, hr]
  have commented :
      (Text.startsWith "/*".toList (printCall text) || Text.startsWith ['*'] (printCall text)) =
        false := by
    rw [whole]
    rfl
  have braces : ((printCall text).all fun c => c == '{' || c == '}' || c == ';') = false := by
    rw [whole]
    rfl
  have closed :
      Text.endsWith ['{'] ("System.out.println(".toList ++ Text.literal text ++ [')']) = false := by
    simp [Text.endsWith, Text.before?, Text.after?]
  have shaped :
      shape (printCall text) =
        .complete (.action (.print ⟨[Text.literal text], none, .newline, .stdout⟩)) := by
    unfold shape
    rw [code, (tight_printCall text).trim_eq]
    dsimp only
    rw [if_neg (by simp [whole]), commented, braces, bare_printCall, modifiers, word]
    dsimp only
    rw [if_neg (by decide), closed, simple, print?_println]
    rfl
  rw [statement_eq, shaped]

theorem opensBlock?_printCall : Dialect.java.opensBlock? (printCall text) = none := by
  obtain ⟨r, hr⟩ := exists_println_eq text
  rw [printCall_eq, hr]
  rfl

theorem newline_not_mem_printCall : '\n' ∉ printCall text := by
  unfold printCall
  rw [List.mem_append, List.mem_append, not_or, not_or]
  exact ⟨⟨by decide, newline_not_mem_literal text⟩, by decide⟩

end Java

theorem Dialect.statements_of_line (d : Dialect) {line : Text} (h : '\n' ∉ line)
    (tight : Text.Tight line) (closed : d.opensBlock? line = none) :
    d.statements none (Text.lines line) = [d.statement line] := by
  rw [Text.lines_of_not_mem h tight.ne_nil, Dialect.statements, Dialect.step, tight.trim_eq, closed]
  rfl

end SourcePreview
