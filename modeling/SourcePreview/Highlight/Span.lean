import SourcePreview.Highlight.Token

/-! Spans: the tokens of a source text with their places, neighbouring plain tokens made one. Places
count bytes of UTF-8. -/

namespace SourcePreview

/-- A piece of source text, what it is, and where it begins and ends. -/
structure Span where
  text : Text
  category : Category
  start : Nat
  stop : Nat
  deriving DecidableEq, Repr

namespace Token

/-- A token in front of others; two plain tokens become one. -/
def consMerged (t : Token) : List Token → List Token
  | [] => [t]
  | u :: us =>
    if t.category = .plain ∧ u.category = .plain then ⟨.plain, t.text ++ u.text⟩ :: us
    else t :: u :: us

/-- The tokens with neighbouring plain tokens made one. -/
def merge (ts : List Token) : List Token := ts.foldr consMerged []

end Token

namespace Span

def place (start : Nat) : List Token → List Span
  | [] => []
  | t :: ts =>
    let stop := start + Text.byteSize t.text
    ⟨t.text, t.category, start, stop⟩ :: place stop ts

def classify? (p : Profile) (source : Text) : Option (List Span) :=
  (Token.tokens? p source).map fun ts => place 0 (Token.merge ts)

def classify (p : Profile) (source : Text) : List Span := (classify? p source).getD []

def classifyLanguage (l : Language) (source : Text) : List Span := classify (.builtIn l) source

end Span

end SourcePreview
