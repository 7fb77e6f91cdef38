import SourcePreview.Expression.Call
import SourcePreview.Statement.Assignment
import SourcePreview.Statement.Comment

/-! The statements of a Python line. The word a line starts with decides on headers and print calls;
then input calls and assignments are tried. All else is some other line. -/

namespace SourcePreview

/-- A line as far as it is known before the body of a header is read. -/
inductive LineShape where
  | complete (statement : Statement)
  | header (keyword : Text) (body : Text)
  deriving DecidableEq, Repr

namespace Python

def isDocstring (s : Text) : Bool :=
  ["\"\"\"".toList, "'''".toList].any fun quotes =>
  Text.startsWith quotes s && 6 ≤ s.length && Text.endsWith quotes s

/-- Whether what follows a word makes it the target of an assignment. -/
def startsAssignment (rest : Text) : Bool :=
  match Text.trimStart rest with
  | '=' :: '=' :: _ => false
  | '=' :: _ => true
  | _ => false

def keywordArgument? (argument : Text) : Option (Text × Text) :=
  (Text.splitOnce '=' argument).bind fun (name, value) =>
    let name := Text.trim name
    if Text.isIdentifier name && !Text.startsWith ['='] value then some (name, Text.trim value)
    else none

def addArgument (print : Print) (argument : Text) : Print :=
  let argument := Text.trim argument
  if argument.isEmpty then print
  else
    match keywordArgument? argument with
    | some (name, value) =>
      if name = "sep".toList then { print with separator := some value }
      else if name = "end".toList then { print with ending := .expression value }
      else if name = "file".toList ∧ value = "sys.stderr".toList then
        { print with stream := .stderr }
      else print
    | none => { print with arguments := print.arguments ++ [argument] }

/-- The print statement of the text between the parentheses of a print call. -/
def print (inner : Text) : Print :=
  (Nesting.splitTop ',' inner).foldl addArgument ⟨[], none, .newline, .stdout⟩

/-- A place that reads a value, with the text between the parentheses of the input call. -/
def site (target : Option Text) (kind : Kind) (inner : Text) : InputSite :=
  let prompt := Text.trim inner
  ⟨target, kind, if prompt.isEmpty then none else some prompt⟩

/-- The kind that a conversion call around an input call reads. -/
def conversionKind? (function : Text) : Option Kind :=
  [Kind.int, .float, .str].find? fun kind => kind.name == function

def input? (target : Option Text) (expr : Text) : Option InputSite :=
  (Call.ofText? (Text.trim expr)).bind fun call =>
    if call.function = "input".toList then some (site target .str call.inner)
    else
      (conversionKind? call.function).bind fun kind =>
        (Call.ofText? (Text.trim call.inner)).bind fun inner =>
          if inner.function = "input".toList then some (site target kind inner.inner) else none

/-- The statement of an assignment's sides, if they were found; anything may be annotated with a
type. -/
def assignment? (s : Text) : Option Statement :=
  (AssignmentParts.ofText? s).map fun parts =>
    let target := Text.trim ((Text.splitAll ':' parts.left).headD [])
    if !Text.isIdentifier target then .other s
    else
      match if parts.op.isNone then input? (some target) parts.right else none with
      | some site => .action (.input site)
      | none => .assign target parts.op parts.right

/-- The statement of a text that is no header and no print call. -/
def simple (s : Text) : Statement :=
  match input? none s with
  | some site => .action (.input site)
  | none => (assignment? s).getD (.other s)

def print? (word rest : Text) : Option Print :=
  if word = "print".toList then (Nesting.enclosed? (Text.trim rest)).map print else none

/-- The header of a text: its body stands behind the first colon at the top level. -/
def header (keyword rest : Text) : LineShape :=
  match Nesting.splitTopOnce ':' .start rest with
  | some (_, body) =>
    let body := Text.trim body
    if body.isEmpty then .complete (.header keyword) else .header keyword body
  | none => .complete (.header keyword)

def shape (line : Text) : LineShape :=
  let s := Text.trim (Dialect.python.code line)
  if s.isEmpty then .complete (.withoutCode line)
  else if isDocstring s then .complete .comment
  else
    let (word, rest) := Text.leadingWord s
    if Dialect.python.isStructural word && !startsAssignment rest then header word rest
    else
      match print? word rest with
      | some p => .complete (.action (.print p))
      | none => .complete (simple s)

theorem length_body_lt {line keyword body : Text} (h : shape line = .header keyword body) :
    body.length < line.length := by
  simp only [shape] at h
  split at h
  · cases h
  split at h
  · cases h
  split at h
  · next hk =>
    unfold header at h
    split at h
    · next a b hs =>
      simp only at h
      split at h
      · cases h
      · simp only [LineShape.header.injEq] at h
        obtain ⟨-, rfl⟩ := h
        have h1 := congrArg List.length (Nesting.eq_of_splitTopOnce hs)
        have h2 := Text.length_trim_le b
        have h3 :=
          congrArg List.length
            (Text.spanOf_append Text.isNamePart (Text.trim (Dialect.python.code line)))
        have h4 := Text.length_trim_le (Dialect.python.code line)
        have h5 := Dialect.python.length_code_le line
        simp only [Text.leadingWord, List.length_append, List.length_cons] at h1 h3
        omega
    · cases h
  · split at h <;> cases h

def statement (line : Text) : Statement :=
  match shape line with
  | .complete s => s
  | .header keyword body =>
    .headed keyword (if body.length < line.length then statement body else .blank)
termination_by line.length

theorem statement_eq (line : Text) : statement line =
    match shape line with
    | .complete s => s
    | .header keyword body => .headed keyword (statement body) := by
  rw [statement]
  cases h : shape line with
  | complete s => rfl
  | header keyword body => simp [length_body_lt h]

end Python

end SourcePreview
