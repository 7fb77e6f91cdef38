import SourcePreview.Number.Numeral
import SourcePreview.Settings.Node
import SourcePreview.Text.Letter
import SourcePreview.Text.Lines

/-! Variables that hold settings. A file of assignments, one a line, adds variables to those of the
environment and never changes one that is there; a line that is no assignment ends the reading, and
what was added before it stays. Values are plain or quoted, with escapes, comments and references to
other variables. -/

namespace SourcePreview.Settings

abbrev Variables := List (Text × Text)

/-- Where the cutting into assignments stands: outside of quotes, behind a blank or a backslash
there, or inside of quotes, behind a backslash or not. -/
inductive CutState where
  | outside
  | escape
  | blank
  | quoted (quote : Char)
  | quotedEscape (quote : Char)
  deriving DecidableEq, Repr

/-- The state behind a character; `none` where a comment begins. -/
def CutState.step (c : Char) : CutState → Option CutState
  | .escape => some .outside
  | .quotedEscape q => some (.quoted q)
  | .quoted q =>
    some (if c == '\\' then .quotedEscape q else if c == q then .outside else .quoted q)
  | .blank =>
    if c == '#' then none
    else some (if c == '\\' then .escape else if c == '"' || c == '\'' then .quoted c else .outside)
  | .outside =>
    some (if Text.isBlank c && c != '\n' && c != '\r' then .blank else if c == '\\' then .escape
      else if c == '"' || c == '\'' then .quoted c else .outside)

/-- The state at the end of a line, or the text before the comment that ends it. -/
def CutState.scan (state : CutState) : Text → CutState ⊕ Text
  | [] => .inl state
  | c :: r =>
    match state.step c with
    | none => .inr []
    | some state =>
      match state.scan r with
      | .inl state => .inl state
      | .inr before => .inr (c :: before)

def fullLines (s : Text) : List Text :=
  let (full, rest) := Text.cutLines s
  full.map (· ++ ['\n']) ++ (if rest.isEmpty then [] else [rest])

/-- The texts of the assignments; quotes join lines to one. The last one is missing when a quote
stays open. `current` is what stands before the next line. -/
def assignments (state : CutState) (current : Text) : List Text → List (Option Text)
  | [] => if state = .outside then [] else [none]
  | line :: rest =>
    let text := current ++ line
    if Text.startsWith ['#'] (Text.trimStart text) then some [] :: assignments .outside [] rest
    else
      match state.scan line with
      | .inr before => some (current ++ before) :: assignments .outside [] rest
      | .inl .outside => some text :: assignments .outside [] rest
      | .inl state => assignments state text rest

/-- Where the reading of a value stands: outside of quotes, behind its end, inside of quotes, behind
a backslash, or in the name of a variable. `weak` tells whether double quotes are open. -/
inductive ValueState where
  | plain (weak : Bool)
  | ended
  | strong
  | escape (weak : Bool)
  | name (acc : Text) (braced weak : Bool)

def valueOf (vars : Variables) (name : Text) : Text := (vars.lookup name).getD []

def value? (vars : Variables) (state : ValueState) : Text → Option Text
  | [] =>
    match state with
    | .plain weak => if weak then none else some []
    | .ended => some []
    | .strong => none
    | .escape weak => if weak then none else some []
    | .name acc braced weak => if braced || weak then none else some (valueOf vars acc)
  | c :: r =>
    let add (state : ValueState) : Option Text := (value? vars state r).map (c :: ·)
    match state with
    | .ended =>
      if c == ' ' || c == '\t' then value? vars .ended r else if c == '#' then some [] else none
    | .escape weak =>
      if c == 'n' then (value? vars (.plain weak) r).map ('\n' :: ·)
      else if c == '\\' || c == '\'' || c == '"' || c == '$' || c == ' ' then add (.plain weak)
      else none
    | .strong => if c == '\'' then value? vars (.plain false) r else add .strong
    | .name acc braced weak =>
      if Text.isAlphanumeric c || (braced && c != '}') then
        value? vars (.name (acc ++ [c]) braced weak) r
      else if braced then (value? vars (.plain weak) r).map (valueOf vars acc ++ ·)
      else if c == '{' && acc.isEmpty then value? vars (.name [] true weak) r
      else if c == '$' then (value? vars (.name [] false weak) r).map (valueOf vars acc ++ ·)
      else (add (.plain weak)).map (valueOf vars acc ++ ·)
    | .plain weak =>
      if c == '$' then value? vars (.name [] false weak) r
      else if c == '"' then value? vars (.plain !weak) r
      else if c == '\\' then value? vars (.escape weak) r
      else if !weak && c == '\'' then value? vars .strong r
      else if !weak && (c == ' ' || c == '\t') then value? vars .ended r
      else add (.plain weak)

def cutName? (s : Text) : Option (Text × Text) :=
  match s with
  | [] => none
  | c :: _ =>
    if c.isAlpha || c == '_' then
      some (Text.spanOf (fun c => c.isAlphanum || c == '_' || c == '.') s) else none

/-- The name that an assignment gives a value, and the text behind the equals sign. The word
`export` may stand in front of the name. -/
def target? (s : Text) : Option (Text × Text) := do
  let (name, r) ← cutName? s
  let direct := Text.after? ['='] (Text.trimStart r)
  if name = "export".toList ∧ direct.isNone then
    let (name, r) ← cutName? (Text.trimStart r)
    some (name, ← Text.after? ['='] (Text.trimStart r))
  else some (name, ← direct)

/-- Reads assignments up to the first text that is none; each one sees the variables that those
before it added. -/
def addAssignments (vars : Variables) : List (Option Text) → Variables
  | [] => vars
  | none :: _ => vars
  | some s :: rest =>
    let s := Text.trim s
    if s.isEmpty || Text.startsWith ['#'] s then addAssignments vars rest
    else
      match target? s with
      | none => vars
      | some (name, r) =>
        let r := Text.trimStart r
        match if r.isEmpty || Text.startsWith ['#'] r then some [] else
          value? vars (.plain false) r with
        | none => vars
        | some value =>
          addAssignments (if (vars.lookup name).isSome then vars else vars ++ [(name, value)]) rest

/-- The variables with those that a file of assignments adds; a byte order mark in front of it does
not count. -/
def addVariables (vars : Variables) (file : Text) : Variables :=
  addAssignments vars (assignments .outside [] (fullLines (Text.withoutMark file)))

/-- The value that a variable stands for: a truth value, an integer or a float if it reads as
one. -/
def nodeOf (value : Text) : Node :=
  let word := Text.lower value
  if word == "true".toList then .bool true
  else if word == "false".toList then .bool false
  else
    match Number.readInt? value, Number.readFloat? value with
    | some n, _ => .int n
    | none, some x => .float x
    | none, none => .text value

/-- What the names of variables with settings start with, in lower case. -/
def variableStart : Text := "loom_".toList

def knownVariables : List String :=
  ["LOOM_CONFIG_PATH", "LOOM_ENGINE", "LOOM_ENGINE__INPUT_MODE", "LOOM_ENGINE__PYTHON_RUNTIME",
    "LOOM_RUNTIME", "LOOM_RUNTIME__PYTHON_COMMAND", "LOOM_RUNTIME__INIT_TIMEOUT_SECS",
    "LOOM_LANGUAGES"]

/-- Two underscores in a row as one point. -/
def pointed : Text → Text
  | '_' :: '_' :: r => '.' :: pointed r
  | c :: r => c :: pointed r
  | [] => []

def entriesOf (vars : Variables) : List (Text × Node) :=
  vars.filterMap fun (name, value) =>
    (Text.after? variableStart (Text.lower name)).map fun path => (pointed path, nodeOf value)

end SourcePreview.Settings
