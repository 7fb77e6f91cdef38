import SourcePreview.Settings.Reading
import SourcePreview.Toml.Document

/-! Loading the settings: the entries of a file, then those of the variables, then overrides, each
in place of what came before; the result is read as settings and checked. -/

namespace SourcePreview

/-- What is wrong with settings that could be read. -/
inductive Flaw where
  | blankCommand
  | zeroTimeout
  | emptyDelimiter (language : Language)
  | emptyMarker (language : Language)
  deriving DecidableEq, Repr

/-- Why there are no settings: a file that is missing, a path to a place that a list does not have,
entries that cannot be read, or a flaw. -/
inductive SettingsError where
  | missingFile (path : Text)
  | misplaced
  | unreadable
  | flawed (flaw : Flaw)
  deriving DecidableEq, Repr

def Flaw.message : Flaw → Text
  | .blankCommand => "runtime.python_command must not be empty".toList
  | .zeroTimeout => "runtime.init_timeout_secs must be at least 1".toList
  | .emptyDelimiter l =>
    "languages.".toList ++ l.name ++ ": block comment delimiters must not be empty".toList
  | .emptyMarker l => "languages.".toList ++ l.name ++ ": line_comment must not be empty".toList

/-- What is said of settings that are missing or flawed; of others nothing more is said. -/
def SettingsError.message? : SettingsError → Option Text
  | .missingFile path => some ("config file not found: ".toList ++ path)
  | .misplaced => none
  | .unreadable => none
  | .flawed f => some ("invalid configuration: ".toList ++ f.message)

/-- Settings that stand above the file and the variables. -/
structure Overrides where
  inputMode : Option InputMode
  pythonBackend : Option Backend
  pythonCommand : Option Text

namespace Overrides

def none : Overrides := ⟨.none, .none, .none⟩

def nameOf {α : Type} [DecidableEq α] (choices : List (String × α)) (a : α) : Text :=
  ((choices.find? (·.2 = a)).map fun c => c.1.toList).getD []

def entries (o : Overrides) : List (Text × Node) :=
  [o.inputMode.map fun m => ("engine.input_mode".toList, .text (nameOf Settings.inputModes m)),
    o.pythonBackend.map fun b =>
    ("engine.python_runtime".toList, .text (nameOf Settings.backends b)),
    o.pythonCommand.map fun c => ("runtime.python_command".toList, .text c)].filterMap id

end Overrides

namespace Settings

def profileFlaw? (s : Settings) (l : Language) : Option Flaw := do
  let p ← s.override? l
  if p.blockComments.any fun b => b.opening.isEmpty || b.closing.isEmpty then
    some (.emptyDelimiter l)
  else if p.lineComment = some [] then some (.emptyMarker l)
  else none

/-- The first thing that is wrong with settings. -/
def flaw? (s : Settings) : Option Flaw :=
  if Text.isBlankText s.pythonCommand then some .blankCommand
  else if s.initTimeoutSecs = 0 then some .zeroTimeout
  else Language.all.findSome? s.profileFlaw?

/-- The settings that a file, variables and overrides give together. A file may have a byte order
mark of its own in front of the one that a document may have. -/
def load (file : Option Text) (vars : List (Text × Node)) (overrides : Overrides) :
    Except SettingsError Settings :=
  match (file.map fun s => Toml.document? (Text.withoutMark s)).getD (some []) with
  | none => .error .unreadable
  | some es =>
    match ((Node.layer? (.table []) es).bind (Node.layer? · vars)).bind
      (Node.layer? · overrides.entries) with
    | none => .error .misplaced
    | some n =>
      match ofNode? n with
      | none => .error .unreadable
      | some s =>
        match s.flaw? with
        | some f => .error (.flawed f)
        | none => .ok s

end Settings

end SourcePreview
