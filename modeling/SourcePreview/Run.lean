import SourcePreview.Console.Dialogue
import SourcePreview.Expression.Rendering
import SourcePreview.Statement.Line

/-! The preview run of a source text: its statements are carried out once, from top to bottom, as a
dialogue with the console. Printed text is collected on an open line, which each line feed completes
and each question takes as the beginning of its prompt. In batch mode all questions are asked before
the first statement is carried out, with prompts that know no variables, and the answers are then
used in their order. -/

namespace SourcePreview

/-- When a run asks for input: at each input statement, or for all of them ahead. -/
inductive InputMode where
  | perCall
  | batch
  deriving DecidableEq, Repr

/-- How a run settled. -/
inductive Outcome where
  | completed
  | stopped
  | failed (reason : Text)
  | document (source : Text)
  deriving DecidableEq, Repr

def Print.text (p : Print) (env : Environment) (d : Dialect) : Except Overwide Text := do
  let separator ← match p.separator with
    | none => .ok [' ']
    | some e => render env d e
  let arguments ← p.arguments.mapM (render env d)
  let ending ← match p.ending with
    | .newline => .ok ['\n']
    | .nothing => .ok []
    | .expression e => render env d e
  .ok (Text.join separator arguments ++ ending)

def InputSite.promptText (site : InputSite) (openLine : Text) (env : Environment) (d : Dialect) :
    Except Overwide Text :=
  match site.prompt with
  | none => .ok openLine
  | some e => (render env d e).map (openLine ++ ·)

/-- What is said of an answer that cannot be read. -/
def InputSite.invalidText (site : InputSite) (answer : Text) : Text :=
  "Invalid input '".toList ++ answer ++ "' for ".toList ++ site.kind.name ++ "; using ".toList ++
  site.kind.zero.text

/-- The value of an assigned expression: what it comes to, or else its text. -/
def assignedValue (env : Environment) (d : Dialect) (expr : Text) : Except Overwide Value := do
  match ← evaluate env d expr with
  | .value v => .ok v
  | .fault => .ok (.str divisionByZeroMarker)
  | .unresolved => .ok (.str (dequote expr))

/-- The state of a run: its variables, the open line, and the answers gathered ahead. -/
structure RunState where
  env : Environment
  openLine : Text
  answers : List Text

namespace RunState

def start (answers : List Text) : RunState := ⟨.empty, [], answers⟩

def bind (s : RunState) (target : Option Text) (value : Value) : RunState :=
  match target with
  | none => s
  | some name => { s with env := s.env.assign name value }

end RunState

abbrev RunDialogue := Dialogue (Except Overwide Unit)

namespace RunDialogue

def withText (text : Except Overwide Text) (next : Text → RunDialogue) : RunDialogue :=
  match text with
  | .error e => .done (.error e)
  | .ok text => next text

/-- Takes the answer of an input site: it is echoed behind its prompt, read as a value, and
bound. -/
def receive (site : InputSite) (prompt answer : Text) (s : RunState)
    (next : RunState → RunDialogue) : RunDialogue :=
  .say (.echo prompt answer)
    (match Value.coerce answer site.kind with
    | .ok value => next (s.bind site.target value)
    | .error _ =>
      .say (.warning (site.invalidText answer)) (next (s.bind site.target site.kind.zero)))

def perform (d : Dialect) (s : RunState) (next : RunState → RunDialogue) : Action → RunDialogue
  | .print p =>
    withText (p.text s.env d) fun text =>
      match p.stream with
      | .stdout =>
        let (full, rest) := Text.cutLines (s.openLine ++ text)
        .sayAll (full.map Entry.output) (next { s with openLine := rest })
      | .stderr =>
        let text := (Text.dropLastIf (· == '\n') text).getD text
        .sayAll ((Text.splitAll '\n' text).map Entry.error) (next s)
  | .assign target expr =>
    match assignedValue s.env d expr with
    | .error e => .done (.error e)
    | .ok value => next (s.bind (some target) value)
  | .input site =>
    withText (site.promptText s.openLine s.env d) fun prompt =>
      let s := { s with openLine := [] }
      match s.answers with
      | answer :: answers => receive site prompt answer { s with answers } next
      | [] => .ask prompt fun answer => receive site prompt answer s next

def finish (d : Dialect) (s : RunState) : RunDialogue :=
  .sayAll ((if s.openLine.isEmpty then [] else [.output s.openLine]) ++ [.info d.completion])
    (.done (.ok ()))

def play (d : Dialect) (s : RunState) : List Statement → RunDialogue
  | [] => finish d s
  | statement :: rest =>
    .check (match statement.action? with
      | none => play d s rest
      | some a => perform d s (fun s => play d s rest) a)

/-- Asks all questions of a list of actions; `answers` are those to earlier ones. -/
def gather (d : Dialect) (openLine : Text) (answers : List Text) (next : List Text → RunDialogue) :
    List Action → RunDialogue
  | [] => next answers
  | .assign _ _ :: rest => gather d openLine answers next rest
  | .print p :: rest =>
    match p.stream with
    | .stderr => gather d openLine answers next rest
    | .stdout =>
      withText (p.text .empty d) fun text =>
      gather d (Text.cutLines (openLine ++ text)).2 answers next rest
  | .input site :: rest =>
    withText (site.promptText openLine .empty d) fun prompt =>
      .ask prompt fun answer => gather d [] (answers ++ [answer]) next rest

end RunDialogue

def preview (d : Dialect) (mode : InputMode) (source : Text) : RunDialogue :=
  let statements := d.statements none (Text.lines source)
  .sayAll (d.preamble.map Entry.info)
    (match mode with
    | .perCall => RunDialogue.play d (.start []) statements
    | .batch =>
      RunDialogue.gather d [] [] (fun answers => RunDialogue.play d (.start answers) statements)
        (statements.filterMap Statement.action?))

/-- What is said of a run whose question was refused. -/
def refusalText (e : InputError) : Text :=
  "input coordinator refused the request: ".toList ++ e.message

end SourcePreview
