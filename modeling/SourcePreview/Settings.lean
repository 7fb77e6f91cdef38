import SourcePreview.Highlight.Profile
import SourcePreview.Run

/-! The settings of a session: when input is asked for, what runs Python, and which profiles replace
the built-in ones. -/

namespace SourcePreview

/-- What runs Python sources: the preview itself or an interpreter. -/
inductive Backend where
  | pseudo
  | external
  deriving DecidableEq, Repr

/-- The settings. A profile that is set replaces the built-in one as a whole. -/
structure Settings where
  inputMode : InputMode
  pythonBackend : Backend
  pythonCommand : Text
  initTimeoutSecs : Nat
  python : Option Profile
  java : Option Profile
  html : Option Profile
  deriving DecidableEq, Repr

namespace Settings

def default : Settings := ⟨.perCall, .pseudo, "python3".toList, 10, none, none, none⟩

def override? (s : Settings) : Language → Option Profile
  | .python => s.python
  | .java => s.java
  | .html => s.html

def profile (s : Settings) (l : Language) : Profile := (s.override? l).getD (.builtIn l)

end Settings

end SourcePreview
