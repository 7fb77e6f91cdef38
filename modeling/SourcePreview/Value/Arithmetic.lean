import SourcePreview.Value

/-! Arithmetic on values. Integers stay exact: a result out of range, or an inexact quotient under
true division, is a float and never a wrapped integer. Texts can be joined, joined with a number,
and repeated. -/

namespace SourcePreview

inductive Operator where
  | add
  | sub
  | mul
  | div
  deriving DecidableEq, Repr

/-- Why an operation has no value. -/
inductive ArithmeticFault where
  | divisionByZero
  | unsupported
  deriving DecidableEq, Repr

namespace Operator

def ofChar? : Char → Option Operator
  | '+' => some .add
  | '-' => some .sub
  | '*' => some .mul
  | '/' => some .div
  | _ => none

def symbol : Operator → Char
  | .add => '+'
  | .sub => '-'
  | .mul => '*'
  | .div => '/'

@[simp] theorem ofChar?_symbol (op : Operator) : ofChar? op.symbol = some op := by cases op <;> rfl

end Operator

namespace Value

/-- The most bytes a repeated text may take. -/
def repeatLimit : Nat := 2 ^ 20

/-- A text `n` times over, and the empty text for a negative number; a result above the limit is
refused. -/
def repeatText (s : Text) (n : Int64) : Except ArithmeticFault Value :=
  let count := n.toInt.toNat
  if Text.byteSize s * count ≤ repeatLimit then
    .ok (.str (if s.isEmpty then [] else (List.replicate count s).flatten))
  else .error .unsupported

def floatBinary (op : Operator) (a b : Float) : Except ArithmeticFault Value :=
  match op with
  | .add => .ok (.float (a + b))
  | .sub => .ok (.float (a - b))
  | .mul => .ok (.float (a * b))
  | .div => if b == 0 then .error .divisionByZero else .ok (.float (a / b))

/-- The integer `n` if it is in range, and otherwise the float result of the operation. -/
def wholeOr (n : Int) (op : Operator) (a b : Int64) : Except ArithmeticFault Value :=
  match Number.int64? n with
  | some i => .ok (.int i)
  | none => floatBinary op (Number.floatOfInt a.toInt) (Number.floatOfInt b.toInt)

/-- An operation on integers; `trueDivision` makes every quotient a float. -/
def intBinary (trueDivision : Bool) (op : Operator) (a b : Int64) : Except ArithmeticFault Value :=
  match op with
  | .add => wholeOr (a.toInt + b.toInt) .add a b
  | .sub => wholeOr (a.toInt - b.toInt) .sub a b
  | .mul => wholeOr (a.toInt * b.toInt) .mul a b
  | .div =>
    if b = 0 then .error .divisionByZero
    else if trueDivision then .ok (.float (Number.floatOfInt a.toInt / Number.floatOfInt b.toInt))
    else wholeOr (a.toInt.tdiv b.toInt) .div a b

def binary (trueDivision : Bool) (op : Operator) : Value → Value → Except ArithmeticFault Value
  | .int a, .int b => intBinary trueDivision op a b
  | .int a, .float b => floatBinary op (Number.floatOfInt a.toInt) b
  | .float a, .int b => floatBinary op a (Number.floatOfInt b.toInt)
  | .float a, .float b => floatBinary op a b
  | .str s, .int n =>
    match op with
    | .add => .ok (.str (s ++ text (.int n)))
    | .mul => repeatText s n
    | _ => .error .unsupported
  | .int n, .str s =>
    match op with
    | .add => .ok (.str (text (.int n) ++ s))
    | .mul => repeatText s n
    | _ => .error .unsupported
  | a, b => if op = .add then .ok (.str (a.text ++ b.text)) else .error .unsupported

def negate? : Value → Option Value
  | .str _ => none
  | .int n =>
    some (match Number.int64? (-n.toInt) with
      | some i => .int i
      | none => .float (-(Number.floatOfInt n.toInt)))
  | .float x => some (.float (-x))

def magnitude? : Value → Option Value
  | .str _ => none
  | .int n =>
    some (match Number.int64? n.toInt.natAbs with
      | some i => .int i
      | none => .float (Number.floatOfInt n.toInt).abs)
  | .float x => some (.float x.abs)

end Value

end SourcePreview
