import SourcePreview.Text.Basic

/-! Classes of characters given by ascending bounds: the class begins at the first bound, ends
before the second, begins again at the third, and so on. -/

namespace SourcePreview.Text

/-- Whether an odd number of bounds is at or below `n`. -/
def inBounds (bounds : List Nat) (n : Nat) : Bool := bounds.countP (· ≤ n) % 2 == 1

end SourcePreview.Text
