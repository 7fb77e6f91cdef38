import SourcePreview.Settings.Node

/-! Building the tables of a TOML document. A table is defined once: by its header, by the first
dotted key that leads through it, or as the path of a header, in which case a header of its own may
still follow. -/

namespace SourcePreview.Toml

/-- How a table came about: by a header, on the path of a header, or on the path of a dotted key. -/
inductive Origin where
  | header
  | path
  | dotted
  deriving DecidableEq, Repr

/-- What an entry of a table holds: a value, a table, or a series of tables, of which the last one
is open. -/
inductive Item where
  | leaf (node : Node)
  | table (origin : Origin) (entries : List (Text × Item))
  | series (earlier : List (List (Text × Item))) (last : List (Text × Item))

abbrev Entries := List (Text × Item)

namespace Entries

/-- Adds a value under a dotted key, given as its path and its last name. The path may create tables
and lead through those that dotted keys created. -/
def assign (name : Text) (node : Node) : List Text → Entries → Option Entries
  | [], es => if (es.lookup name).isSome then none else some (es ++ [(name, .leaf node)])
  | key :: path, es =>
    match es.lookup key with
    | none => (assign name node path []).map fun inner => es ++ [(key, .table .dotted inner)]
    | some (.table origin inner) =>
      if origin = .header ∨ (origin = .path ∧ path.isEmpty) then none
      else (assign name node path inner).map fun inner => Named.put key (.table origin inner) es
    | some (.series earlier last) =>
      if path.isEmpty then none
      else (assign name node path last).map fun last => Named.put key (.series earlier last) es
    | some (.leaf _) => none

def openTable (ofSeries : Bool) : List Text → Entries → Option Entries
  | [], _ => none
  | [key], es =>
    match es.lookup key, ofSeries with
    | none, false => some (es ++ [(key, .table .header [])])
    | none, true => some (es ++ [(key, .series [] [])])
    | some (.table .path inner), false => some (Named.put key (.table .header inner) es)
    | some (.series earlier last), true => some (Named.put key (.series (earlier ++ [last]) []) es)
    | _, _ => none
  | key :: path, es =>
    match es.lookup key with
    | none => (openTable ofSeries path []).map fun inner => es ++ [(key, .table .path inner)]
    | some (.table origin inner) =>
      (openTable ofSeries path inner).map fun inner => Named.put key (.table origin inner) es
    | some (.series earlier last) =>
      (openTable ofSeries path last).map fun last => Named.put key (.series earlier last) es
    | some (.leaf _) => none

def modifyAt (change : Entries → Option Entries) : List Text → Entries → Option Entries
  | [], es => change es
  | key :: path, es =>
    match es.lookup key with
    | some (.table origin inner) =>
      (modifyAt change path inner).map fun inner => Named.put key (.table origin inner) es
    | some (.series earlier last) =>
      (modifyAt change path last).map fun last => Named.put key (.series earlier last) es
    | _ => none

end Entries

mutual

def Item.node : Item → Node
  | .leaf n => n
  | .table _ es => .table (nodes es)
  | .series earlier last => .list (tables earlier ++ [.table (nodes last)])

/-- The entries of a table without the traces of how they were written. -/
def nodes : List (Text × Item) → List (Text × Node)
  | [] => []
  | (name, item) :: es => (name, item.node) :: nodes es

def tables : List (List (Text × Item)) → List Node
  | [] => []
  | es :: rest => .table (nodes es) :: tables rest

end

end SourcePreview.Toml
