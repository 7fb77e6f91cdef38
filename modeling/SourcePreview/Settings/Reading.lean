import SourcePreview.Number.Numeral
import SourcePreview.Number.Binary64
import SourcePreview.Settings
import SourcePreview.Settings.Node

/-! Settings from untyped entries. Single values convert to the type that is asked for where that
makes sense; a table that is left out, and an entry that is left out of a table, keeps its default;
unknown entries do not count. A list may stand in for a table and gives its entries in their
order. -/

namespace SourcePreview.Settings

/-- The values of the named entries: by name from a table, by place from a list. -/
def fields? (names : List String) : Node → Option (List (Option Node))
  | .table es => some (names.map fun name => es.lookup name.toList)
  | .list items => some ((List.range names.length).map fun i => items[i]?)
  | _ => none

def orDefault {α : Type} (d : α) (read : Node → Option α) : Option Node → Option α
  | none => some d
  | some n => read n

def optional? {α : Type} (read : Node → Option α) : Node → Option (Option α)
  | .gap => some none
  | n => (read n).map some

/-- The natural number below `2^64` that a value converts to. A float goes to the nearest whole
number in range, a half away from zero. -/
def natural? : Node → Option Nat
  | .int n => if 0 ≤ n.toInt then some n.toInt.toNat else none
  | .bool b => some (if b then 1 else 0)
  | .text s =>
    let word := String.ofList (Text.lower s)
    if word == "true" || word == "on" || word == "yes" then some 1
    else if word == "false" || word == "off" || word == "no" then some 0
    else Number.readNat? s
  | .float x =>
    match Number.Binary64.ofFloat x with
    | .nan => some 0
    | .infinite negative => some (if negative then 0 else 2 ^ 64 - 1)
    | .finite negative m q =>
      some (min (2 ^ 64 - 1) (Number.roundScaled (.nearest .awayFromZero) negative m q).toNat)
  | _ => none

def choice? {α : Type} (choices : List (String × α)) (n : Node) : Option α :=
  let named (name : Text) : Option α := choices.lookup (String.ofList (Text.lower name))
  match n with
  | .text s => named s
  | .table [(name, _)] => named name
  | _ => none

def list? {α : Type} (read : Node → Option α) : Node → Option (List α)
  | .list items => items.mapM read
  | _ => none

def words? (n : Node) : Option WordSet := (list? Node.text? n).map WordSet.ofList

def blockComment? (n : Node) : Option BlockComment := do
  match ← fields? ["open", "close"] n with
  | [some opening, some closing] => some ⟨← opening.text?, ← closing.text?⟩
  | _ => none

def profile? (n : Node) : Option Profile := do
  match ← fields? ["line_comment", "block_comments", "string_prefixes", "keywords",
    "builtins"] n with
  | [marker, blocks, prefixes, keywords, builtins] =>
    some {
      lineComment := ← orDefault none (optional? Node.text?) marker
      blockComments := ← orDefault [] (list? blockComment?) blocks
      stringPrefixes := ← orDefault .empty words? prefixes
      keywords := ← orDefault .empty words? keywords
      builtins := ← orDefault .empty words? builtins }
  | _ => none

def inputModes : List (String × InputMode) := [("per-call", .perCall), ("batch", .batch)]

/-- The names of what runs Python. -/
def backends : List (String × Backend) := [("pseudo", .pseudo), ("external", .external)]

def engine? (s : Settings) (n : Node) : Option Settings := do
  match ← fields? ["input_mode", "python_runtime"] n with
  | [mode, backend] =>
    some { s with
      inputMode := ← orDefault s.inputMode (choice? inputModes) mode
      pythonBackend := ← orDefault s.pythonBackend (choice? backends) backend }
  | _ => none

def runtime? (s : Settings) (n : Node) : Option Settings := do
  match ← fields? ["python_command", "init_timeout_secs"] n with
  | [command, timeout] =>
    some { s with
      pythonCommand := ← orDefault s.pythonCommand Node.text? command
      initTimeoutSecs := ← orDefault s.initTimeoutSecs natural? timeout }
  | _ => none

def languages? (s : Settings) (n : Node) : Option Settings := do
  let read := orDefault none (optional? profile?)
  match ← fields? ["python", "java", "html"] n with
  | [python, java, html] =>
    some { s with python := ← read python, java := ← read java, html := ← read html }
  | _ => none

def ofNode? (n : Node) : Option Settings := do
  let s := default
  let s ← orDefault s (engine? s) (n.entries.lookup "engine".toList)
  let s ← orDefault s (runtime? s) (n.entries.lookup "runtime".toList)
  orDefault s (languages? s) (n.entries.lookup "languages".toList)

end SourcePreview.Settings
