import SourcePreview.Text.Basic

/-!
The languages of the preview, how they are named, and how the name of a file tells its language.
-/

namespace SourcePreview

/-- The languages the preview knows. -/
inductive Language where
  | python
  | java
  | html
  deriving DecidableEq, Repr

structure UnknownLanguage where
  name : Text
  deriving DecidableEq, Repr

namespace UnknownLanguage

def message (e : UnknownLanguage) : Text :=
  "unknown language '".toList ++ e.name ++ "' (expected python, java or html)".toList

end UnknownLanguage

namespace Language

def all : List Language := [.python, .java, .html]

def name : Language → Text
  | .python => "python".toList
  | .java => "java".toList
  | .html => "html".toList

/-- A text with its ASCII letters in lower case. -/
def fold (s : Text) : Text := s.map Char.toLower

/-- The language a text names; blanks around it and the case of its letters do not count. -/
def ofName? (s : Text) : Except UnknownLanguage Language :=
  match String.ofList (fold (Text.trim s)) with
  | "python" => .ok .python
  | "py" => .ok .python
  | "java" => .ok .java
  | "html" => .ok .html
  | "htm" => .ok .html
  | _ => .error ⟨s⟩

def fileName? (path : Text) : Option Text :=
  match ((Text.splitAll '/' path).filter fun part => !part.isEmpty && part != ['.']).getLast? with
  | some part => if part = ['.', '.'] then none else some part
  | none => none

/-- What follows the last point of a file's name, unless that point starts the name. -/
def extension? (path : Text) : Option Text :=
  (fileName? path).bind fun file =>
    (Text.splitOnceLast '.' file).bind fun (stem, ending) =>
    if stem.isEmpty then none else some ending

def ofPath? (path : Text) : Option Language :=
  (extension? path).bind fun ending =>
    match String.ofList (fold ending) with
    | "py" => some .python
    | "java" => some .java
    | "html" => some .html
    | "htm" => some .html
    | _ => none

example : ofPath? "demo/Main.java".toList = some .java ∧ ofPath? "a/.py".toList = none ∧
    ofPath? "x.py/.".toList = some .python ∧ ofPath? "x.py/..".toList = none := by decide

end Language

end SourcePreview
