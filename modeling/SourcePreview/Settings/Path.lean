import SourcePreview.Number.Numeral

/-! Paths into nested tables and lists. A path is written as a name and any number of steps behind
it: a point and a name lead to an entry of a table, a place in brackets to an item of a list. A text
that is not written so is the path of one name, the text itself. -/

namespace SourcePreview

/-- A step into a table or into a list; places count from zero, negative ones from the end. -/
inductive Step where
  | entry (name : Text)
  | item (place : Int)
  deriving DecidableEq, Repr

abbrev Path := List Step

namespace Path

def isNameChar (c : Char) : Bool := c.isAlphanum || c == ' ' || c == '_' || c == '-'

/-- Whether a character may stand around a place. -/
def isGap (c : Char) : Bool := c == ' ' || c == '\t'

/-- A place: a 64-bit integer without a plus sign. -/
def place? (s : Text) : Option Int :=
  let row := Text.trimEndOf isGap (s.dropWhile isGap)
  if row.head? == some '+' then none else (Number.readInt? row).map Int64.toInt

def steps? : Text → Option Path
  | [] => some []
  | c :: r =>
    if c == '.' then
      if (r.takeWhile isNameChar).isEmpty then none
      else (steps? (r.dropWhile isNameChar)).map (.entry (r.takeWhile isNameChar) :: ·)
    else if c == '[' then
      match _h : Text.splitOnce ']' r with
      | none => none
      | some (inside, r) => (place? inside).bind fun place => (steps? r).map (.item place :: ·)
    else none
termination_by s => s.length
decreasing_by
  · have := (List.dropWhile_sublist isNameChar (l := r)).length_le
    simp only [List.length_cons]
    omega
  · have := congrArg List.length (Text.eq_of_splitOnce _h)
    simp only [List.length_append, List.length_cons] at this ⊢
    omega

def ofText (s : Text) : Path :=
  let (name, r) := Text.spanOf isNameChar s
  if name.isEmpty then [.entry s]
  else match steps? r with
    | some steps => .entry name :: steps
    | none => [.entry s]

example : ofText "a b.c[-1][ 2 ].d".toList =
    [.entry "a b".toList, .entry "c".toList, .item (-1), .item 2, .entry "d".toList] := by
      decide +kernel

example : ["a..b", "a[1]b", "a[+1]", "[0]", "a.b%"].all
    (fun s => ofText s.toList = [.entry s.toList]) := by
  decide +kernel

end Path

end SourcePreview
