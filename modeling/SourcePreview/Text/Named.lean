import SourcePreview.Text.Basic

/-! Things under names: at most one under each name, in the order in which the names first came. The
law is that the name put last is found with its new thing and every other name with the one it
had. -/

namespace SourcePreview.Named

variable {α : Type}

def put (name : Text) (value : α) : List (Text × α) → List (Text × α)
  | [] => [(name, value)]
  | e :: es => if e.1 = name then (name, value) :: es else e :: put name value es

theorem lookup_put (name other : Text) (value : α) (es : List (Text × α)) :
    (put name value es).lookup other = if other = name then some value else es.lookup other := by
  induction es with
  | nil =>
    by_cases h : other = name
    · simp [put, h]
    · simp [put, List.lookup_cons, h, show (other == name) = false by simpa using h]
  | cons e es ih =>
    obtain ⟨key, old⟩ := e
    by_cases he : key = name
    · by_cases h : other = name
      · simp [put, he, h]
      · simp [put, he, h, List.lookup_cons, show (other == name) = false by simpa using h]
    · simp only [put, he, if_false, List.lookup_cons, ih]
      by_cases hx : other = key
      · subst hx; simp [he]
      · simp [show (other == key) = false by simpa using hx]

end SourcePreview.Named
