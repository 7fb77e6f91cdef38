import SourcePreview.Language
import SourcePreview.Text.WordSet

/-! Profiles: what the highlighter knows of a language. They are plain data, so that settings can
replace them. -/

namespace SourcePreview

/-- The delimiters of a comment that may run over several lines. -/
structure BlockComment where
  opening : Text
  closing : Text
  deriving DecidableEq, Repr

/-- The comment markers, string prefixes and words of a language. -/
structure Profile where
  lineComment : Option Text
  blockComments : List BlockComment
  stringPrefixes : WordSet
  keywords : WordSet
  builtins : WordSet
  deriving DecidableEq, Repr

namespace Profile

/-- Whether the marker of line comments, if there is one, does not begin with the line feed that
ends them. -/
def Inline (p : Profile) : Prop := ∀ marker, p.lineComment = some marker → marker.head? ≠ some '\n'

instance (p : Profile) : Decidable p.Inline :=
  decidable_of_iff (p.lineComment.bind List.head? ≠ some '\n') (by
    unfold Inline
    cases p.lineComment <;> simp)

def python : Profile where
  lineComment := some "#".toList
  blockComments := [⟨"\"\"\"".toList, "\"\"\"".toList⟩, ⟨"'''".toList, "'''".toList⟩]
  stringPrefixes := .ofStrings
    ["f", "r", "b", "u", "rb", "br", "fr", "rf", "F", "R", "B", "U", "Rb", "bR", "RB", "BR", "Br",
      "rB", "Fr", "fR", "FR", "RF", "Rf", "rF"]
  keywords := .ofStrings
    ["def", "return", "if", "else", "elif", "for", "in", "range", "import", "from", "class", "True",
      "False", "None", "and", "or", "not", "while", "break", "continue", "pass", "try", "except",
      "finally", "with", "as", "lambda", "yield"]
  builtins := .ofStrings
    ["print", "len", "range", "str", "int", "float", "list", "dict", "set", "tuple", "sum", "min",
      "max", "abs", "round", "sorted", "enumerate", "zip", "map", "filter", "input"]

def java : Profile where
  lineComment := some "//".toList
  blockComments := [⟨"/*".toList, "*/".toList⟩]
  stringPrefixes := .empty
  keywords := .ofStrings
    ["public", "private", "protected", "static", "void", "int", "double", "float", "String",
      "boolean", "class", "return", "if", "else", "for", "while", "new", "this", "super", "extends",
      "implements", "import", "package", "true", "false", "null", "try", "catch", "finally",
      "throw", "throws"]
  builtins := .ofStrings
    ["System", "String", "Math", "Integer", "Double", "Boolean", "Array", "List", "ArrayList",
      "HashMap", "println", "print"]

def html : Profile where
  lineComment := none
  blockComments := [⟨"<!--".toList, "-->".toList⟩]
  stringPrefixes := .empty
  keywords := .ofStrings
    ["DOCTYPE", "html", "head", "body", "title", "style", "script", "div", "span", "a", "img",
      "input", "button", "form", "meta", "link"]
  builtins := .empty

def builtIn : Language → Profile
  | .python => python
  | .java => java
  | .html => html

end Profile

end SourcePreview
