import SourcePreview.Value.Arithmetic

/-! Statements: what a source line does. A line of control flow or structure is a header; the
statement that stands on the same line behind it is its body. What a run carries out of a line is
its action. -/

namespace SourcePreview

/-- Where a print statement writes. -/
inductive Stream where
  | stdout
  | stderr
  deriving DecidableEq, Repr

/-- What follows the printed arguments: a line end, nothing, or the value of an expression. -/
inductive PrintEnd where
  | newline
  | nothing
  | expression (expr : Text)
  deriving DecidableEq, Repr

/-- A print statement: the expressions it prints, the one that stands between them, and what
follows. -/
structure Print where
  arguments : List Text
  separator : Option Text
  ending : PrintEnd
  stream : Stream
  deriving DecidableEq, Repr

/-- A place that reads one value: the variable that receives it, its kind, and the expression of the
prompt. -/
structure InputSite where
  target : Option Text
  kind : Kind
  prompt : Option Text
  deriving DecidableEq, Repr

/-- What a run carries out. -/
inductive Action where
  | print (print : Print)
  | input (site : InputSite)
  | assign (target expr : Text)
  deriving DecidableEq, Repr

inductive Statement where
  | blank
  | comment
  | action (action : Action)
  | header (keyword : Text)
  | headed (keyword : Text) (body : Statement)
  | other (text : Text)
  deriving DecidableEq, Repr

namespace Statement

/-- The action of a line; headers are looked through. -/
def action? : Statement → Option Action
  | .action a => some a
  | .headed _ body => body.action?
  | _ => none

/-- The assignment of an expression to a variable; with an operator the variable is the left operand
and the whole expression the right one. -/
def assign (target : Text) (op : Option Operator) (expr : Text) : Statement :=
  let expr := Text.trim expr
  .action (.assign target (match op with
    | some op => target ++ [' ', op.symbol, ' ', '('] ++ expr ++ [')']
    | none => expr))

end Statement

end SourcePreview
