import SourcePreview.Expression.Evaluation
import SourcePreview.Proofs.Expression.Balance
import SourcePreview.Proofs.Text.Trim

/-! Arithmetic trees: what one means, and how it is printed with no more parentheses than precedence
and association to the left need. -/

namespace SourcePreview

/-- Sums and differences, which bind less than products and quotients. -/
def Operator.isAdditive : Operator → Bool
  | .add => true
  | .sub => true
  | .mul => false
  | .div => false

/-- An arithmetic expression without a text. -/
inductive Tree where
  | number (n : Nat) (fits : n < 2 ^ 63)
  | name (s : Text) (identifier : Text.isIdentifier s = true)
  | quoted (s : Text)
  | negative (operand : Tree)
  | binary (op : Operator) (left right : Tree)

/-- How trees are printed: with blanks around binary operators or without, and whether single quotes
are escaped. -/
structure Spelling where
  spaced : Bool
  singles : Bool

def Spelling.gap (w : Spelling) : Text := if w.spaced then [' '] else []

def grouped (needed : Bool) (s : Text) : Text := if needed then '(' :: (s ++ [')']) else s

namespace Tree

def isBinary : Tree → Bool
  | binary _ _ _ => true
  | _ => false

def isAdditive : Tree → Bool
  | binary op _ _ => op.isAdditive
  | _ => false

def groupedLeft (op : Operator) (t : Tree) : Bool := !op.isAdditive && t.isAdditive

def groupedRight (op : Operator) (t : Tree) : Bool :=
  if op.isAdditive then t.isAdditive else t.isBinary

def print (w : Spelling) : Tree → Text
  | number n _ => Number.digits n
  | name s _ => s
  | quoted s => quotation w.singles s
  | negative t => '-' :: grouped t.isBinary (t.print w)
  | binary op l r =>
    grouped (l.groupedLeft op) (l.print w) ++ w.gap ++
    op.symbol :: (w.gap ++ grouped (r.groupedRight op) (r.print w))

/-- The meaning of a tree: operands from left to right, the first one without a value instead of the
whole. -/
def meaning (env : Environment) (d : Dialect) : Tree → Evaluation
  | number n _ => .value (.int (Int64.ofNat n))
  | name s _ =>
    match env.get? s with
    | some v => .value v
    | none => .unresolved
  | quoted s => .value (.str s)
  | negative t =>
    match t.meaning env d with
    | .value (.int n) =>
      .value (if n = Int64.minValue then .float (-(Number.floatOfInt n.toInt)) else .int (-n))
    | .value (.float x) => .value (.float (-x))
    | .value (.str _) => .unresolved
    | e => e
  | binary op l r =>
    match l.meaning env d with
    | .value a =>
      match r.meaning env d with
      | .value b =>
        match Value.binary d.trueDivision op a b with
        | .ok v => .value v
        | .error .divisionByZero => .fault
        | .error .unsupported => .unresolved
      | e => e
    | e => e

end Tree

end SourcePreview
