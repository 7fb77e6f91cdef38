import SourcePreview.Language

/-! The two dialects a run understands: the lines around a run's output, the rule of division, and
the words that start a line of control flow or structure. -/

namespace SourcePreview

/-- The statement shapes and arithmetic of a run. -/
inductive Dialect where
  | python
  | java
  deriving DecidableEq, Repr

namespace Dialect

def ofLanguage? : Language → Option Dialect
  | .python => some .python
  | .java => some .java
  | .html => none

def preamble : Dialect → List Text
  | .python => []
  | .java => [">>> Compiling Java...".toList, ">>> Running Main class...".toList]

/-- The line that ends a run which reached the end of its source. -/
def completion : Dialect → Text
  | .python => ">>> Execution Completed Successfully".toList
  | .java => ">>> BUILD SUCCESSFUL".toList

/-- Whether the quotient of two integers is a float. -/
def trueDivision : Dialect → Bool
  | .python => true
  | .java => false

/-- The words that start a line of control flow or structure. -/
def structuralWords : Dialect → List Text
  | .python =>
    ["if", "elif", "else", "for", "while", "def", "class", "try", "except", "finally", "with",
      "match", "case", "import", "from", "return", "pass", "break", "continue"].map String.toList
  | .java =>
    ["if", "else", "for", "while", "do", "switch", "case", "default", "try", "catch", "finally",
      "class", "interface", "enum", "import", "package", "return", "break",
      "continue"].map String.toList

/-- Whether a word starts a line of control flow or structure. -/
def isStructural (d : Dialect) (word : Text) : Bool := d.structuralWords.contains word

end Dialect

end SourcePreview
