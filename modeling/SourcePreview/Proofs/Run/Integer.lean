import SourcePreview.Proofs.Expression.Integer
import SourcePreview.Proofs.Run.Printing
import SourcePreview.Proofs.Statement.Python

/-! Integers as text. The numeral of an integer is read back as it, wherever a text is read as one,
and a program that reads an integer and prints it shows the numeral that it was given
(`integer_roundTrip`). -/

namespace SourcePreview

theorem solid_numeral (n : Int64) : Text.Solid (Number.numeral n.toInt) :=
  solid_of_numberLiteral?_int (numberLiteral?_numeral n)

theorem evaluate_numeral (env : Environment) (d : Dialect) (n : Int64) :
    evaluate env d (Number.numeral n.toInt) = .ok (.value (.int n)) :=
  evaluate_of_numberLiteral? env d (by rw [(solid_numeral n).tight.trim_eq, numberLiteral?_numeral])

theorem readInt?_of_blanks {a b : Text} (ha : a.all Text.isBlank = true)
    (hb : b.all Text.isBlank = true) (n : Int64) :
    Number.readInt? (Text.trim (a ++ Number.numeral n.toInt ++ b)) = some n := by
  rw [Text.trim_blanks (solid_numeral n).tight ha hb, Number.readInt?_numeral, Number.int64?_toInt]

theorem Value.coerce_numeral {a b : Text} (ha : a.all Text.isBlank = true)
    (hb : b.all Text.isBlank = true) (n : Int64) :
    coerce (a ++ Number.numeral n.toInt ++ b) .int = .ok (.int n) := by
  rw [coerce, readInt?_of_blanks ha hb]
  rfl

theorem Conversion.convert?_text (n : Int64) :
    Conversion.toInt.convert? (.str (Value.int n).text) = some (.int n) := by
  have read := readInt?_of_blanks (a := []) (b := []) rfl rfl n
  rw [List.nil_append, List.append_nil] at read
  rw [convert?, Value.text, read]
  rfl

section

variable (env : Environment) (d : Dialect) {x : Text} (identifier : Text.isIdentifier x = true)
include identifier

theorem render_of_bound {v : Value} (bound : env.get? x = some v) :
    render env d x = .ok v.text := by
  rw [render_eq, evaluate_variable env d identifier bound]
  rfl

/-- The name of a variable without a value is shown as it is written. -/
theorem render_of_unbound (unbound : env.get? x = none) : render env d x = .ok (dequote x) := by
  have unresolved := evaluate_of_isIdentifier env d identifier
  have closed := (Call.argument_of_isIdentifier identifier).closed
  have whole : looseOperands? x = none := by
    rw [looseOperands?,
      Nesting.splitTop_of_undivided closed
      (.of_not_mem ((atom_of_isIdentifier identifier).not_mem (by decide)))]
    rfl
  rw [render_eq, unresolved, unbound]
  simp only [bind, Except.bind, Evaluation.ofOption, whole]

end

theorem text_print_single {env : Environment} {d : Dialect} {e shown : Text}
    (rendered : render env d e = .ok shown) :
    Print.text ⟨[e], none, .newline, .stdout⟩ env d = .ok (shown ++ ['\n']) := by
  rw [Print.text]
  dsimp only
  rw [List.mapM_cons, rendered]
  exact congrArg (fun s => Except.ok (s ++ ['\n'])) (List.intercalate_singleton ..)

def Response.numeral (n : Int64) : Response :=
  .submission (Number.numeral n.toInt) (by
    rw [(solid_numeral n).tight.trim_eq]
    exact (solid_numeral n).ne_nil)

theorem Response.answer_numeral (n : Int64) :
    (Response.numeral n).answer = Number.numeral n.toInt :=
  (solid_numeral n).tight.trim_eq

namespace RunState

theorem received_numeral (s : RunState) (x : Text) (prompt : Text) (n : Int64) :
    s.received ⟨some x, .int, none⟩ prompt (Number.numeral n.toInt) =
      ([.echo prompt (Number.numeral n.toInt)],
        { s with openLine := [], env := s.env.assign x (.int n) }) := by
  have read := Value.coerce_numeral (a := []) (b := []) rfl rfl n
  rw [List.nil_append, List.append_nil] at read
  rw [received]
  dsimp only
  rw [read]
  rfl

end RunState

/-- The program that reads an integer into a variable and prints it. -/
def Python.readPrint (x : Text) : Text := x ++ " = int(input())\nprint(".toList ++ x ++ [')']

def Python.readPrintStatements (x : Text) : List Statement :=
  [.action (.input ⟨some x, .int, none⟩), .action (.print ⟨[x], none, .newline, .stdout⟩)]

def Python.readPrintEntries (n : Int64) : List Entry :=
  [.echo [] (Number.numeral n.toInt), .output (Number.numeral n.toInt),
    .info Dialect.python.completion]

section

variable {x : Text} (identifier : Text.isIdentifier x = true)
include identifier

theorem Python.statements_readPrint :
    Dialect.python.statements none (Text.lines (readPrint x)) = Python.readPrintStatements x := by
  have unnamed : ¬ KeywordForm x := by
    rintro ⟨name, gap, value, -, -, -, rfl⟩
    exact (atom_of_isIdentifier identifier).not_mem (by decide : '=' ∈ marks) (by simp)
  let program : List Printed :=
    [.input x (some .int) none identifier nofun, .print [x] none none
      (List.forall_mem_singleton.2 ⟨Dialect.wellFormed_of_isIdentifier identifier,
        (Call.argument_of_isIdentifier identifier).undivided⟩)
      (List.forall_mem_singleton.2 unnamed)]
  have text : Text.join ['\n'] (program.map Printed.write) = readPrint x := by
    simp [program, Printed.write, Printed.parts, Text.join, readPrint, AssignmentParts.written,
      AssignmentParts.sign, inputCall, Call.written, Kind.name]
  have read := Printed.statements_write program
  rwa [text] at read

theorem replay_play_readPrint (n : Int64) :
    (RunDialogue.play .python (.start []) (Python.readPrintStatements x)).replay
      [Number.numeral n.toInt] =
      ⟨Python.readPrintEntries n, [[]], some (.ok ())⟩ := by
  have breaks : Text.Breaks (Number.numeral n.toInt ++ ['\n']) [Number.numeral n.toInt] [] := by
    have cut := Text.breaks_cutLines (Number.numeral n.toInt ++ ['\n'])
    rwa [Text.cutLines_line (solid_numeral n).newline_not_mem] at cut
  have bound : (Environment.empty.assign x (.int n)).get? x = some (.int n) := by
    rw [Environment.get?_assign, if_pos rfl]
  have printed := text_print_single (render_of_bound _ .python identifier bound)
  rw [Python.readPrintStatements, RunDialogue.replay_play_cons]
  dsimp only [Statement.action?]
  rw [RunDialogue.replay_perform_asked .python _ _ _ rfl]
  dsimp only [InputSite.promptText]
  rw [RunState.received_numeral, replay_play_print rfl rfl printed breaks]
  rfl

theorem replay_play_readPrint_gathered (n : Int64) :
    (RunDialogue.play .python (.start [Number.numeral n.toInt])
        (Python.readPrintStatements x)).replay [] =
      ⟨Python.readPrintEntries n, [], some (.ok ())⟩ := by
  obtain ⟨entries, result, prompts⟩ :=
    RunDialogue.replay_play_withAnswers .python (Python.readPrintStatements x) (.start [])
      [Number.numeral n.toInt] []
  have asked : (RunDialogue.play .python ((RunState.start []).withAnswers [])
    (Python.readPrintStatements x)).replay
      ([Number.numeral n.toInt] ++ []) = _ := replay_play_readPrint identifier n
  rw [asked] at entries result prompts
  exact congr (congr (congrArg Replay.mk entries) prompts) result

/-- Whether it asks at its input or ahead, the program asks once and shows the integer that it is
given. -/
theorem replay_readPrint (n : Int64) (mode : InputMode) :
    (preview .python mode (Python.readPrint x)).replay [Number.numeral n.toInt] =
      ⟨Python.readPrintEntries n, [[]], some (.ok ())⟩ := by
  have read := Python.statements_readPrint identifier
  cases mode with
  | perCall =>
    rw [replay_perCall, read, replay_play_readPrint identifier]
    rfl
  | batch =>
    -- the variable has no value when the prompt is made, and its name is shown on a line that no
    -- prompt begins with
    have unbound := text_print_single (render_of_unbound .empty .python identifier rfl)
    have gathered : (RunDialogue.gather .python [] []
        (fun answers => RunDialogue.play .python (.start answers) (Python.readPrintStatements x))
        ((Python.readPrintStatements x).filterMap Statement.action?)).replay
        [Number.numeral n.toInt] =
        ((RunDialogue.play .python (.start [Number.numeral n.toInt])
          (Python.readPrintStatements x)).replay []).ask [[]] := by
      simp only [Python.readPrintStatements, List.filterMap, Statement.action?, RunDialogue.gather,
        InputSite.promptText, RunDialogue.withText, unbound, Dialogue.replay, List.nil_append]
    rw [replay_batch, actions, read, gathered, replay_play_readPrint_gathered identifier]
    rfl

end

/-- The numeral of an integer is read back as it: as input between blanks, as a literal, and by the
conversions of a text, which is what the conversions to text make of it; and a program that reads an
integer and prints it shows the numeral that it is given, without a warning. -/
theorem integer_roundTrip (n : Int64) :
    (∀ a b : Text, a.all Text.isBlank = true → b.all Text.isBlank = true →
      Value.coerce (a ++ (Value.int n).text ++ b) .int = .ok (.int n)) ∧
    (∀ env d, evaluate env d (Value.int n).text = .ok (.value (.int n))) ∧
    (∀ env d x, Text.isIdentifier x = true →
      (Environment.get? env x = some (.str (Value.int n).text) →
        ∀ function ∈ ["int".toList, "Integer.parseInt".toList],
        evaluate env d (⟨function, x⟩ : Call).written = .ok (.value (.int n))) ∧
      (env.get? x = some (.int n) → ∀ function ∈ ["str".toList, "String.valueOf".toList],
        evaluate env d (⟨function, x⟩ : Call).written = .ok (.value (.str (Value.int n).text)))) ∧
    ∀ mode x, Text.isIdentifier x = true →
      let run :=
        course .python mode (x ++ " = int(input())\nprint(".toList ++ x ++ [')'])
          [Response.numeral n]
      run.ending = some (.result (.ok ())) ∧ run.console.transcript.entries =
        [⟨(Value.int n).text, .inputEcho⟩, ⟨(Value.int n).text, .output⟩,
          ⟨Dialect.python.completion, .info⟩] := by
  refine ⟨fun a b ha hb => Value.coerce_numeral ha hb n, fun env d => evaluate_numeral env d n, ?_,
    ?_⟩
  · intro env d x identifier
    have toInt : ∀ function ∈ ["int".toList, "Integer.parseInt".toList],
        Call.conversion? function = some .toInt := by
      decide +kernel
    have toText : ∀ function ∈ ["str".toList, "String.valueOf".toList],
        Call.conversion? function = some .toText := by
      decide +kernel
    constructor
    · intro bound function known
      rw [evaluate_converted env d identifier (toInt function known) bound,
        Conversion.convert?_text]
      rfl
    · intro bound function known
      rw [evaluate_converted env d identifier (toText function known) bound]
      rfl
  · intro mode x identifier run
    have follows := course_follows .python mode (Python.readPrint x) [Response.numeral n]
    rw [List.map_singleton, Response.answer_numeral, replay_readPrint identifier] at follows
    exact ⟨follows.ending, follows.entries⟩

/-- The least integer, whose sign is no operator. -/
theorem integer_roundTrip_of_least :
    let s := "-9223372036854775808".toList
    let env := Environment.empty.assign ['x'] (.str s)
    Text.isIdentifier ['x'] = true ∧ env.get? ['x'] = some (.str s) ∧
      Value.coerce ("\t ".toList ++ s ++ " ".toList) .int = .ok (.int Int64.minValue) ∧
      evaluate env .java s = .ok (.value (.int Int64.minValue)) ∧
      evaluate env .java "Integer.parseInt(x)".toList = .ok (.value (.int Int64.minValue)) ∧
      (course .python .batch "x = int(input())\nprint(x)".toList
        [Response.numeral Int64.minValue]).console.transcript.entries =
        [⟨s, .inputEcho⟩, ⟨s, .output⟩, ⟨Dialect.python.completion, .info⟩] := by
  intro s env
  have identifier : Text.isIdentifier ['x'] = true := by decide
  have numeral : (Value.int Int64.minValue).text = s := by decide +kernel
  obtain ⟨coerced, literal, converted, programs⟩ := integer_roundTrip Int64.minValue
  rw [numeral] at coerced literal converted programs
  refine ⟨identifier, rfl, coerced _ _ (by decide) (by decide), literal env .java, ?_,
    (programs .batch ['x'] identifier).2⟩
  exact (converted env .java ['x'] identifier).1 rfl "Integer.parseInt".toList (by simp)

end SourcePreview
