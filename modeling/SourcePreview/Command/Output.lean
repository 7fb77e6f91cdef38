import SourcePreview.Command.Conversation
import SourcePreview.Json
import SourcePreview.Number.Digits

/-! What the command line prints: painted sources, spans and transcripts as text or JSON, and the
list of languages. -/

namespace SourcePreview

def Category.name : Category → String
  | .keyword => "keyword"
  | .builtin => "builtin"
  | .string => "string"
  | .number => "number"
  | .comment => "comment"
  | .functionName => "function-name"
  | .plain => "plain"

def LineKind.name : LineKind → String
  | .info => "info"
  | .output => "output"
  | .error => "error"
  | .warning => "warning"
  | .inputEcho => "input-echo"

namespace Command

def color? : Category → Option String
  | .keyword => some "35"
  | .builtin => some "36"
  | .string => some "32"
  | .number => some "33"
  | .comment => some "90"
  | .functionName => some "34"
  | .plain => none

def paint (s : Span) : Text :=
  match color? s.category with
  | none => s.text
  | some color => "\x1b[".toList ++ color.toList ++ 'm' :: s.text ++ "\x1b[0m".toList

/-- A painted source, which ends in a line feed. -/
def painted (spans : List Span) : Text :=
  let text := spans.flatMap paint
  if text.getLast? = some '\n' then text else text ++ ['\n']

def opening : Text := ['\x7b']

def closing : Text := ['\x7d']

def spanJson (s : Span) : Text :=
  "  ".toList ++ opening ++ "\n    \"text\": ".toList ++ Json.quote s.text ++
    ",\n    \"category\": ".toList ++ Json.quote s.category.name.toList ++
    ",\n    \"start\": ".toList ++ Number.digits s.start ++
    ",\n    \"end\": ".toList ++ Number.digits s.stop ++ "\n  ".toList ++ closing

def spansJson : List Span → Text
  | [] => "[]\n".toList
  | spans => "[\n".toList ++ Text.join ",\n".toList (spans.map spanJson) ++ "\n]\n".toList

def objectJson (fields : List (String × Text)) : Text :=
  opening ++ Text.join [','] (fields.map fun (name, value) =>
    Json.quote name.toList ++ ':' :: Json.quote value) ++
    closing ++ ['\n']

/-- What is written, on the two streams of a command. -/
structure Written where
  out : Text
  err : Text
  deriving DecidableEq, Repr

def Written.toOut (s : Text) : Written := ⟨s, []⟩

def Written.toErr (s : Text) : Written := ⟨[], s⟩

/-- One thing shown: as a JSON object, or as text with errors on the error stream and prompts left
open. -/
def written (json : Bool) : Shown → Written
  | .line e =>
    if json then .toOut (objectJson [("text", e.text), ("kind", e.kind.name.toList)])
    else if e.kind = .error then .toErr (e.text ++ ['\n'])
    else .toOut (e.text ++ ['\n'])
  | .prompt p => .toOut (if json then objectJson [("prompt", p)] else p)

def writtenAll (json : Bool) (shown : List Shown) : Written :=
  let parts := shown.map (written json)
  ⟨parts.flatMap Written.out, parts.flatMap Written.err⟩

def outcomeJson : Outcome → Text
  | .completed => objectJson [("outcome", "completed".toList)]
  | .stopped => objectJson [("outcome", "stopped".toList)]
  | .failed reason => objectJson [("outcome", "failed".toList), ("detail", reason)]
  | .document source => objectJson [("outcome", "document".toList), ("detail", source)]

def commentForms (p : Profile) : Text :=
  let forms :=
    p.lineComment.toList ++ p.blockComments.map fun b => b.opening ++ " ... ".toList ++ b.closing
  if forms.isEmpty then "none".toList else Text.join ", ".toList forms

def languageLine (l : Language) : Text :=
  let p := Profile.builtIn l
  l.name ++ List.replicate (8 - l.name.length) ' ' ++
    ' ' :: Number.digits p.keywords.words.length ++
    " keywords, ".toList ++ Number.digits p.builtins.words.length ++
    " builtins, comments: ".toList ++
    commentForms p ++ ['\n']

end Command

end SourcePreview
