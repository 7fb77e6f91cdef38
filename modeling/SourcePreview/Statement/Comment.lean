import SourcePreview.Dialect
import SourcePreview.Expression.Nesting
import SourcePreview.Statement

/-! Comments of the dialects: those that end with their line, outside of quotes, and the delimiters
of those that may run over several lines. -/

namespace SourcePreview

namespace Dialect

def startsComment (d : Dialect) (c : Char) (r : Text) : Bool :=
  match d with
  | .python => c == '#'
  | .java => c == '/' && r.head? == some '/'

/-- A text up to the first line comment outside of quotes, and that comment. -/
def cutComment (d : Dialect) (n : Nesting) : Text → Text × Option Text
  | [] => ([], none)
  | c :: r =>
    if n.quote.isNone && d.startsComment c r then ([], some (c :: r))
    else
      let (code, comment) := cutComment d (n.step c) r
      (c :: code, comment)

def code (d : Dialect) (s : Text) : Text := (d.cutComment .start s).1

/-- The delimiters of comments that may run over several lines. -/
def blockDelimiters : Dialect → List (Text × Text)
  | .python => [("\"\"\"".toList, "\"\"\"".toList), ("'''".toList, "'''".toList)]
  | .java => [("/*".toList, "*/".toList)]

/-- The closing delimiter of a comment that starts a line and runs past it. -/
def opensBlock? (d : Dialect) (line : Text) : Option Text :=
  d.blockDelimiters.findSome? fun (opening, closing) =>
    (Text.after? opening line).bind fun rest => if Text.containsText closing rest then none else
    some closing

theorem length_cutComment_le (d : Dialect) (n : Nesting) (s : Text) :
    (d.cutComment n s).1.length ≤ s.length := by
  induction s generalizing n with
  | nil => simp [cutComment]
  | cons c r ih =>
    simp only [cutComment]
    split
    · simp
    · have := ih (n.step c); simp only [List.length_cons]; omega

theorem length_code_le (d : Dialect) (s : Text) : (d.code s).length ≤ s.length :=
  d.length_cutComment_le .start s

end Dialect

namespace Statement

def withoutCode (line : Text) : Statement := if Text.isBlankText line then .blank else .comment

end Statement

end SourcePreview
