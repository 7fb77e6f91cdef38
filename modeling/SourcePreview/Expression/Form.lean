import SourcePreview.Expression.Call
import SourcePreview.Expression.Cut
import SourcePreview.Expression.Literal

/-! The form of an expression: what its text is at the outermost level, with the texts of its parts
still to be read. The forms are tried in a fixed order: parentheses around it all, a quoted text, a
number, a name, a binary operator, a sign, a call. Every part is shorter than the text. -/

namespace SourcePreview

/-- What a text is at the outermost level. -/
inductive Form where
  | unknown
  | group (inner : Text)
  | quoted (literal : Quoted)
  | number (value : Value)
  | name (name : Text)
  | binary (cut : Cut)
  | negation (operand : Text)
  | application (application : Application)

namespace Form

def ofTrimmed (s : Text) : Form :=
  if s.isEmpty then .unknown
  else
    match Nesting.enclosed? s with
    | some inner => .group inner
    | none =>
      match Quoted.ofText? s with
      | some literal => .quoted literal
      | none =>
        match numberLiteral? s with
        | some value => .number value
        | none =>
          if Text.isIdentifier s then .name s
          else
            match Cut.ofText? s with
            | some cut => .binary cut
            | none =>
              match s with
              | '-' :: operand => .negation operand
              | _ =>
                match Call.ofText? s with
                | some call => .application call.application
                | none => .unknown

def ofText (s : Text) : Form := ofTrimmed (Text.trim s)

/-- The texts that a form leaves to be read; those of a template are shorter than its body. -/
def parts : Form → List Text
  | .unknown => []
  | .group inner => [inner]
  | .quoted literal => [literal.body]
  | .number _ => []
  | .name _ => []
  | .binary cut => [cut.left, cut.right]
  | .negation operand => [operand]
  | .application a => a.operands

theorem length_lt_of_mem_ofTrimmed {s x : Text} (h : x ∈ (ofTrimmed s).parts) :
    x.length < s.length := by
  unfold ofTrimmed at h
  split at h
  · cases h
  split at h
  · next he =>
      simp only [parts, List.mem_singleton] at h
      subst h
      exact Nesting.length_lt_of_enclosed? he
  split at h
  · next hq =>
      simp only [parts, List.mem_singleton] at h
      subst h
      exact Quoted.length_lt_of_ofText? hq
  split at h
  · cases h
  split at h
  · cases h
  split at h
  · next hc =>
    have := Cut.length_lt_of_ofText? hc
    simp only [parts, List.mem_cons, List.not_mem_nil, or_false] at h
    rcases h with rfl | rfl
    · exact this.1
    · exact this.2
  split at h
  · simp only [parts, List.mem_singleton] at h; subst h; simp
  split at h
  · next hc => exact Call.length_operand_lt hc h
  · cases h

theorem length_lt_of_mem_parts {s x : Text} (h : x ∈ (ofText s).parts) : x.length < s.length :=
  Nat.lt_of_lt_of_le (length_lt_of_mem_ofTrimmed h) (Text.length_trim_le s)

end Form

end SourcePreview
