import SourcePreview.Statement.Java
import SourcePreview.Text.Lines

/-! The numbered lines of a source text. Each line is recognised by itself, except that a comment
which runs past its line makes comments of the lines up to the one that closes it. -/

namespace SourcePreview

structure Line where
  number : Nat
  statement : Statement
  deriving DecidableEq, Repr

namespace Dialect

/-- The statement of a line outside of comments that run over several lines. -/
def statement : Dialect → Text → Statement
  | .python => Python.statement
  | .java => Java.statement

/-- The statement of a line, without blanks around it, and the delimiter that must close the comment
open behind it. -/
def step (d : Dialect) (awaited : Option Text) (line : Text) : Statement × Option Text :=
  match awaited with
  | some closing => (.comment, if Text.containsText closing line then none else some closing)
  | none =>
    match d.opensBlock? line with
    | some closing => (.comment, some closing)
    | none => (d.statement line, none)

def statements (d : Dialect) (awaited : Option Text) : List Text → List Statement
  | [] => []
  | line :: rest =>
    let (s, awaited) := d.step awaited (Text.trim line)
    s :: statements d awaited rest

end Dialect

namespace Line

def numberFrom (number : Nat) : List Statement → List Line
  | [] => []
  | s :: ss => ⟨number, s⟩ :: numberFrom (number + 1) ss

def scan (d : Dialect) (source : Text) : List Line :=
  numberFrom 1 (d.statements none (Text.lines source))

end Line

/-- The actions that a run of a source text carries out, in order. -/
def actions (d : Dialect) (source : Text) : List Action :=
  (d.statements none (Text.lines source)).filterMap Statement.action?

end SourcePreview
