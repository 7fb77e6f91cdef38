import SourcePreview.Proofs.Expression.Tree

/-! Arithmetic expressions as they are written. Where a tree has a number in range a term has its
digits, as many as there are; it is printed as a tree is, with no more parentheses than it needs. -/

namespace SourcePreview

/-- An arithmetic expression whose numbers are rows of digits. -/
inductive Term where
  | literal (s : Text) (digits : s ≠ [] ∧ s.all Number.isDigit = true)
  | name (s : Text) (identifier : Text.isIdentifier s = true)
  | quoted (s : Text)
  | negative (operand : Term)
  | binary (op : Operator) (left right : Term)

namespace Term

def isBinary : Term → Bool
  | binary _ _ _ => true
  | _ => false

def isAdditive : Term → Bool
  | binary op _ _ => op.isAdditive
  | _ => false

def groupedLeft (op : Operator) (t : Term) : Bool := !op.isAdditive && t.isAdditive

def groupedRight (op : Operator) (t : Term) : Bool :=
  if op.isAdditive then t.isAdditive else t.isBinary

def print (w : Spelling) : Term → Text
  | literal s _ => s
  | name s _ => s
  | quoted s => quotation w.singles s
  | negative t => '-' :: grouped t.isBinary (t.print w)
  | binary op l r =>
    grouped (l.groupedLeft op) (l.print w) ++ w.gap ++
    op.symbol :: (w.gap ++ grouped (r.groupedRight op) (r.print w))

end Term

end SourcePreview
