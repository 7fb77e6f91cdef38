import SourcePreview.Text.Case
import SourcePreview.Text.Named
import SourcePreview.Number.Layout
import SourcePreview.Settings.Path

/-! Untyped settings: what a file or a variable gives before its type is known. Tables are merged
entry by entry, a later value in place of an earlier one, and the names of entries are told apart
without regard to case. An item that is set behind the end of a list leaves gaps between. -/

namespace SourcePreview

/-- A value without a type of its own, or the gap where a value can be put. -/
inductive Node where
  | gap
  | text (s : Text)
  | int (n : Int64)
  | float (x : Float)
  | bool (b : Bool)
  | list (items : List Node)
  | table (entries : List (Text × Node))

namespace Node

def entries : Node → List (Text × Node)
  | .table es => es
  | _ => []

def items : Node → List Node
  | .list items => items
  | _ => []

mutual

/-- Sets an entry: a table is merged into the one that is there, and any other value takes its
place. -/
def assign (name : Text) (present : List (Text × Node)) : Node → List (Text × Node)
  | .table es =>
    let name := Text.lower name
    Named.put name (merge ((present.lookup name).getD (.table [])) es) present
  | value => Named.put (Text.lower name) value present

/-- A node with entries merged into it; what is not a table gives way to the first entry. -/
def merge (present : Node) : List (Text × Node) → Node
  | [] => present
  | (name, value) :: es => merge (.table (assign name present.entries value)) es

end

def itemLimit : Nat := 2 ^ 28

/-- The index of a place in a list of `length` items. A place before the start has none, nor has one
out of reach. -/
def index? (length : Nat) (place : Int) : Option Nat :=
  if 0 ≤ place then (if place < itemLimit then some place.toNat else none)
  else if -place ≤ length then some (length - (-place).toNat)
  else none

/-- Sets what a path leads to; `none` if a place on it has no index. What stands in the way of the
path gives way to the table or the list that the path asks for. A table is merged into an entry, and
takes the place of an item. -/
def assignAt? (value : Node) : Path → Node → Option Node
  | [], _ => some value
  | [.entry name], present => some (.table (assign name present.entries value))
  | .entry name :: path, present => do
    let name := Text.lower name
    let inner ← assignAt? value path ((present.entries.lookup name).getD .gap)
    some (.table (Named.put name inner present.entries))
  | .item place :: path, present => do
    let i ← index? present.items.length place
    let inner ← assignAt? value path (present.items.getD i .gap)
    some (.list (present.items.take i ++ List.replicate (i - present.items.length) .gap ++
      inner :: present.items.drop (i + 1)))

/-- Entries set one after another, each by the path that its name is. -/
def layer? (present : Node) (es : List (Text × Node)) : Option Node :=
  es.foldlM (fun present e => assignAt? e.2 (Path.ofText e.1) present) present

/-- The text that a single value converts to. -/
def text? : Node → Option Text
  | .text s => some s
  | .bool b => some (if b then "true".toList else "false".toList)
  | .int n => some (Number.numeral n.toInt)
  | .float x => some (Number.plain x)
  | _ => none

end Node

end SourcePreview
