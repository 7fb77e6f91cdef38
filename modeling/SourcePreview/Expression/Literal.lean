import SourcePreview.Expression.Nesting
import SourcePreview.Text.Letter
import SourcePreview.Value

/-!
Literals: quoted texts with their prefixes and escapes, and numbers with separators and suffixes.
-/

namespace SourcePreview

/-- Processes backslash escapes; a backslash before any other character stays. -/
def unescape : Text → Text
  | [] => []
  | ['\\'] => ['\\']
  | '\\' :: c :: r =>
    match c with
    | 'n' => '\n' :: unescape r
    | 't' => '\t' :: unescape r
    | 'r' => '\r' :: unescape r
    | '0' => '\x00' :: unescape r
    | '\\' => '\\' :: unescape r
    | '"' => '"' :: unescape r
    | '\'' => '\'' :: unescape r
    | _ => '\\' :: c :: unescape r
  | c :: r => c :: unescape r

/-- A quoted text: what stands between the quotes, whether placeholders in it are replaced, and
whether its backslashes are plain characters. -/
structure Quoted where
  body : Text
  interpolated : Bool
  raw : Bool
  deriving DecidableEq, Repr

namespace Quoted

/-- The letters of a quoted text's prefix. -/
def isPrefixLetter (c : Char) : Bool := "fFrRbBuU".toList.contains c

/-- Whether a body between single quotes `q` ends where they say: every `q` in it and its end are
behind a backslash or not there. -/
def closes (q : Char) : Text → Bool
  | [] => true
  | ['\\'] => false
  | '\\' :: _ :: r => closes q r
  | c :: r => c != q && closes q r

/-- Whether the last character of a body is not a backslash that hides the closing quotes. -/
def closesTriple : Text → Bool
  | [] => true
  | ['\\'] => false
  | '\\' :: _ :: r => closesTriple r
  | _ :: r => closesTriple r

/-- A text without a given beginning and a given end that do not overlap. -/
def between? (mark s : Text) : Option Text :=
  (Text.after? mark s).bind (Text.before? mark)

/-- The body of a text in quotes `q`; three quotes that open a text of six or more characters are
one delimiter. -/
def body? (q : Char) (s : Text) : Option Text :=
  let triple := [q, q, q]
  if 6 ≤ s.length ∧ Text.startsWith triple s then (between? triple s).filter closesTriple
  else (between? [q] s).filter (closes q)

def ofText? (s : Text) : Option Quoted :=
  (Text.cutAtFirst Nesting.isQuote s).bind fun (letters, q, r) =>
    if letters.length ≤ 2 ∧ letters.all isPrefixLetter then
      (body? q (q :: r)).map fun body =>
        ⟨body, letters.any fun c => c.toLower == 'f', letters.any fun c => c.toLower == 'r'⟩
    else none

theorem length_lt_of_between? {mark s body : Text} (h : between? mark s = some body)
    (pos : 0 < mark.length) :
    body.length < s.length := by
  obtain ⟨r, hr, h⟩ := Option.bind_eq_some_iff.1 h
  rw [Text.after?_eq_some_iff.1 hr, Text.before?_eq_some_iff.1 h]
  simp only [List.length_append]
  omega

theorem length_lt_of_body? {q : Char} {s body : Text} (h : body? q s = some body) :
    body.length < s.length := by
  simp only [body?] at h
  split at h <;> exact length_lt_of_between? (Option.filter_eq_some_iff.1 h).1 (by simp)

theorem length_lt_of_ofText? {s : Text} {l : Quoted} (h : ofText? s = some l) :
    l.body.length < s.length := by
  simp only [ofText?, Option.bind_eq_some_iff] at h
  obtain ⟨⟨letters, q, r⟩, hc, h⟩ := h
  obtain ⟨rfl, -, -⟩ := Text.eq_of_cutAtFirst hc
  simp only at h
  split at h
  · obtain ⟨body, hb, rfl⟩ := Option.map_eq_some_iff.1 h
    have := length_lt_of_body? hb
    simp only [List.length_append, List.length_cons] at this ⊢
    omega
  · cases h

example : (ofText? "rb'a\\'b'".toList).map body = some "a\\'b".toList ∧
    ofText? "'a' + 'b'".toList = none := by
  decide +kernel

end Quoted

/-- Whether a text begins as a number does: with a digit, or with a sign or point before a digit or
point. -/
def startsNumber : Text → Bool
  | [] => false
  | c :: r =>
    Number.isDigit c || ((c == '-' || c == '+' || c == '.') && match r with
      | [] => false
      | d :: _ => Number.isDigit d || d == '.')

/-- The suffixes that say how wide a number is. -/
def isWidthSuffix (c : Char) : Bool := "LlfFdD".toList.contains c

/-- A whole text as one number: underscores do not count, a width suffix is dropped, and what is no
integer in range is read as a float. -/
def numberLiteral? (s : Text) : Option Value :=
  if startsNumber s then
    let row := s.filter (· != '_')
    let row := (Text.dropLastIf isWidthSuffix row).getD row
    match Number.readInt? row with
    | some n => some (.int n)
    | none => (Number.readFloat? row).map .float
  else none

end SourcePreview
