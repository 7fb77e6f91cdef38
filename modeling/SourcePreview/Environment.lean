import SourcePreview.Text.Named
import SourcePreview.Value

/-!
The variables of a run: each name has at most one value, the last one assigned.
-/

namespace SourcePreview

/-- The variables of a run and their values. -/
structure Environment where
  bindings : List (Text × Value)

namespace Environment

def empty : Environment := ⟨[]⟩

def assign (env : Environment) (name : Text) (value : Value) : Environment :=
  ⟨Named.put name value env.bindings⟩

def get? (env : Environment) (name : Text) : Option Value := env.bindings.lookup name

def contains (env : Environment) (name : Text) : Bool := (env.get? name).isSome

/-- The number of names that have a value. -/
def size (env : Environment) : Nat := env.bindings.length

theorem get?_assign (env : Environment) (name other : Text) (value : Value) :
    (env.assign name value).get? other = if other = name then some value else env.get? other :=
  Named.lookup_put name other value env.bindings

end Environment

end SourcePreview
