import SourcePreview.Toml.Quoted
import SourcePreview.Toml.Scalar
import SourcePreview.Toml.Table

/-! TOML documents: keys, values, headers, and the lines they stand on. A document that breaks a
rule has no reading. -/

namespace SourcePreview.Toml

/-- The depth that values and dotted keys must not reach. -/
def depthLimit : Nat := 80

/-- Whether a character may stand in an unquoted key. -/
def isBareChar (c : Char) : Bool := c.isAlphanum || c == '_' || c == '-'

def name? (s : Text) : Option (Text × Text) :=
  let (bare, r) := Text.spanOf isBareChar s
  if bare.isEmpty then lineString? s else some (bare, r)

/-- The names of a dotted key, blanks around them dropped; a text of `rounds` characters holds no
more names. -/
def names? : Nat → Text → Option (List Text × Text)
  | 0, _ => none
  | rounds + 1, s => do
    let (name, r) ← name? (skipSpace s)
    match Text.after? ['.'] (skipSpace r) with
    | none => some ([name], skipSpace r)
    | some r =>
      let (names, r) ← names? rounds r
      some (name :: names, r)

def key? (s : Text) : Option (List Text × Text × Text) := do
  let (names, r) ← names? s.length s
  if depthLimit ≤ names.length then none else some (names.dropLast, ← names.getLast?, r)

def entry? (value : Text → Option (Node × Text)) (s : Text) :
    Option (List Text × Text × Node × Text) := do
  let (path, name, r) ← key? s
  let (node, r) ← value (skipSpace (← Text.after? ['='] r))
  some (path, name, node, r)

/-- The items of an array, behind its opening bracket or a comma. -/
def items? (value : Text → Option (Node × Text)) : Nat → Text → Option (List Node × Text)
  | 0, _ => none
  | rounds + 1, s => do
    let s ← skipLines? false s
    match Text.after? [']'] s with
    | some r => some ([], r)
    | none =>
      let (item, r) ← value s
      let r ← skipLines? false r
      match Text.after? [']'] r with
      | some r => some ([item], r)
      | none =>
        let (items, r) ← items? value rounds (← Text.after? [','] r)
        some (item :: items, r)

/-- The entries of an inline table, at the first or the next one; `es` are those before. -/
def inlineEntries? (value : Text → Option (Node × Text)) :
    Nat → Entries → Text → Option (Entries × Text)
  | 0, _, _ => none
  | rounds + 1, es, s => do
    let (path, name, node, r) ← entry? value s
    let es ← es.assign name node path
    match Text.after? ['}'] (skipSpace r) with
    | some r => some (es, r)
    | none => inlineEntries? value rounds es (← Text.after? [','] (skipSpace r))

/-- A value; arrays and inline tables are nested to a limited depth. -/
def value? : Nat → Text → Option (Node × Text)
  | depth, s =>
    match s with
    | [] => none
    | c :: r =>
      if c == '"' || c == '\'' then (string? s).map fun (t, r) => (.text t, r)
      else if c == '[' then
        match depth with
        | 0 => none
        | depth + 1 => (items? (value? depth) s.length r).map fun (items, r) => (.list items, r)
      else if c == '{' then
        match depth with
        | 0 => none
        | depth + 1 =>
          match Text.after? ['}'] (skipSpace r) with
          | some r => some (.table [], r)
          | none =>
            (inlineEntries? (value? depth) s.length [] r).map fun (es, r) => (.table (nodes es), r)
      else scalar s

/-- A document so far: its entries, and the header that the next keys stand under. -/
structure Draft where
  entries : Entries
  header : List Text

def Draft.openHeader? (d : Draft) (ofSeries : Bool) (closing : Text) (s : Text) :
    Option (Draft × Text) := do
  let (path, name, r) ← key? s
  let header := path ++ [name]
  some (⟨← d.entries.openTable ofSeries header, header⟩, ← finishLine? (← Text.after? closing r))

/-- Reads one line, or an entry that runs over several. -/
def Draft.line? (d : Draft) (s : Text) : Option (Draft × Text) :=
  match Text.after? ['[', '['] s, Text.after? ['['] s with
  | some r, _ => d.openHeader? true [']', ']'] r
  | none, some r => d.openHeader? false [']'] r
  | none, none => do
    let (path, name, node, r) ← entry? (value? (depthLimit - 1)) s
    let entries ← d.entries.modifyAt (·.assign name node path) d.header
    some ({ d with entries }, ← finishLine? r)

def Draft.lines? : Nat → Draft → Text → Option Draft
  | 0, d, s => if s.isEmpty then some d else none
  | rounds + 1, d, s => do
    match ← skipLines? false s with
    | [] => some d
    | s =>
      let (d, r) ← d.line? s
      lines? rounds d r

/-- The entries of a document; a byte order mark in front of it does not count. -/
def document? (s : Text) : Option (List (Text × Node)) :=
  let s := Text.withoutMark s
  (Draft.lines? (s.length + 1) ⟨[], []⟩ s).map fun d => nodes d.entries

end SourcePreview.Toml
