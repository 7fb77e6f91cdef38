import SourcePreview.Expression.Nesting
import SourcePreview.Statement
import SourcePreview.Text.Letter

/-! Assignments: the first equals sign at the top level of a text, if it is not part of a
comparison. An operator right before it makes the assignment one of an operation. -/

namespace SourcePreview

structure AssignmentParts where
  left : Text
  op : Option Operator
  right : Text
  deriving DecidableEq, Repr

namespace AssignmentParts

/-- The characters before which an equals sign ends in a comparison. -/
def isComparison (c : Char) : Bool := c == '=' || c == '!' || c == '<' || c == '>'

def atEquals (before after : Text) : Option AssignmentParts :=
  if after.head? == some '=' then none
  else
    match before with
    | [] => some ⟨[], none, after⟩
    | c :: left =>
      if isComparison c then none
      else
        match Operator.ofChar? c with
        | some op => some ⟨left.reverse, some op, after⟩
        | none => some ⟨before.reverse, none, after⟩

def scan (n : Nesting) (before : Text) : Text → Option AssignmentParts
  | [] => none
  | c :: r => if n.isTop c && c == '=' then atEquals before r else scan (n.step c) (c :: before) r

def ofText? (s : Text) : Option AssignmentParts := scan .start [] s

example : ofText? "x += f(a=1)".toList = some ⟨"x ".toList, some .add, " f(a=1)".toList⟩ ∧
    ofText? "x == 1".toList = none ∧ ofText? "f(a=1)".toList = none := by decide

end AssignmentParts

namespace Text

/-- The identifier characters a text starts with, and the rest. -/
def leadingWord (s : Text) : Text × Text := spanOf isNamePart s

end Text

end SourcePreview
