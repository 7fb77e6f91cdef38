import SourcePreview.Text.Basic

/-! Sets of words, kept in ascending order of their characters and without duplicates, so that a set
is listed in one way only. -/

namespace SourcePreview

namespace Text

/-- Whether a text comes before another in the order of their characters. -/
def isBefore : Text → Text → Bool
  | _, [] => false
  | [], _ :: _ => true
  | a :: s, b :: t => a.toNat < b.toNat || (a == b && isBefore s t)

end Text

structure WordSet where
  words : List Text
  deriving DecidableEq, Repr

namespace WordSet

def empty : WordSet := ⟨[]⟩

/-- A word put into an ascending list of words. -/
def insertInto (w : Text) : List Text → List Text
  | [] => [w]
  | v :: vs =>
    if w = v then v :: vs else if Text.isBefore w v then w :: v :: vs else v :: insertInto w vs

def insert (s : WordSet) (w : Text) : WordSet := ⟨insertInto w s.words⟩

def ofList (ws : List Text) : WordSet := ws.foldl insert empty

def ofStrings (ws : List String) : WordSet := ofList (ws.map String.toList)

def contains (s : WordSet) (w : Text) : Bool := s.words.contains w

end WordSet

end SourcePreview
