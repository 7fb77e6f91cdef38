import SourcePreview.Highlight.Profile
import SourcePreview.Text.Letter
import SourcePreview.Number.Digits

/-! Tokens: the pieces a source text falls into. At each place a comment is tried first, then a
quoted string, a number and an identifier; what is none of them is one plain character. Comments and
strings that nothing closes run to the end. A line comment ends before its line feed, so one that
begins with a line feed has no character, and a scan that comes to it never gets on. Main
statements: a token and the rest after it are the text (`next_append`), and a token is not empty
when the profile opens no comment with a line feed (`next_ne_nil`). -/

namespace SourcePreview

/-- What a piece of source text is. -/
inductive Category where
  | keyword
  | builtin
  | string
  | number
  | comment
  | functionName
  | plain
  deriving DecidableEq, Repr

/-- A piece of source text and what it is. -/
structure Token where
  category : Category
  text : Text
  deriving DecidableEq, Repr

namespace Token

/-- A comment between delimiters at the start of a text, and the rest; empty delimiters open nothing
and close nothing. -/
def blockComment? (block : BlockComment) (s : Text) : Option (Text × Text) :=
  if block.opening.isEmpty then none
  else
    (Text.after? block.opening s).map fun body =>
      match if block.closing.isEmpty then none else Text.cutAtText block.closing body with
      | some (inside, rest) => (block.opening ++ inside ++ block.closing, rest)
      | none => (s, [])

def lineComment? (marker s : Text) : Option (Text × Text) :=
  if marker.isEmpty || !Text.startsWith marker s then none else some (Text.spanOf (· != '\n') s)

def comment? (p : Profile) (s : Text) : Option (Text × Text) :=
  (p.blockComments.findSome? (blockComment? · s)).or (p.lineComment.bind (lineComment? · s))

/-- What follows an opening quote `q` up to the quote that closes it, and the rest; a backslash
takes the next character with it. -/
def closeQuote (q : Char) : Text → Text × Text
  | [] => ([], [])
  | ['\\'] => (['\\'], [])
  | '\\' :: c :: r =>
    let (body, rest) := closeQuote q r
    ('\\' :: c :: body, rest)
  | c :: r =>
    if c == q then ([c], r)
    else
      let (body, rest) := closeQuote q r
      (c :: body, rest)

/-- Whether a character opens a quoted string. -/
def isQuote (c : Char) : Bool := c == '"' || c == '\''

/-- A quoted string at the start of a text, and the rest; an identifier in front of the quote
belongs to the string if it is one of the profile's string prefixes. -/
def string? (p : Profile) (s : Text) : Option (Text × Text) :=
  match s with
  | [] => none
  | c :: r =>
    if isQuote c then
      let (body, rest) := closeQuote c r
      some (c :: body, rest)
    else if Text.isNameStart c then
      match Text.spanOf Text.isNamePart s with
      | (word, q :: r) =>
        if isQuote q && p.stringPrefixes.contains word then
          let (body, rest) := closeQuote q r
          some (word ++ q :: body, rest)
        else none
      | _ => none
    else none

/-- A number at the start of a text, and the rest: digits and points behind a first digit. -/
def number? (s : Text) : Option (Text × Text) :=
  match s with
  | [] => none
  | c :: _ =>
    if Number.isDigit c then some (Text.spanOf (fun c => Number.isDigit c || c == '.') s) else none

/-- What an identifier is, by the profile's words and the character after it. -/
def wordCategory (p : Profile) (word rest : Text) : Category :=
  if p.keywords.contains word then .keyword
  else if p.builtins.contains word then .builtin
  else if rest.head? == some '(' then .functionName
  else .plain

def word? (s : Text) : Option (Text × Text) :=
  match s with
  | [] => none
  | c :: _ => if Text.isNameStart c then some (Text.spanOf Text.isNamePart s) else none

def next (p : Profile) (c : Char) (r : Text) : Token × Text :=
  let s := c :: r
  match comment? p s with
  | some (text, rest) => (⟨.comment, text⟩, rest)
  | none =>
    match string? p s with
    | some (text, rest) => (⟨.string, text⟩, rest)
    | none =>
      match number? s with
      | some (text, rest) => (⟨.number, text⟩, rest)
      | none =>
        match word? s with
        | some (text, rest) => (⟨wordCategory p text rest, text⟩, rest)
        | none => (⟨.plain, [c]⟩, r)

theorem cutAtText_append {needle s a b : Text} (h : Text.cutAtText needle s = some (a, b)) :
    s = a ++ needle ++ b := by
  induction s generalizing a with
  | nil =>
    simp only [Text.cutAtText] at h
    split at h
    · next hn => cases h; simpa using hn
    · cases h
  | cons c r ih =>
    simp only [Text.cutAtText] at h
    split at h
    · next hn => cases h; simpa using Text.after?_eq_some_iff.1 hn
    · obtain ⟨⟨a', b'⟩, h', heq⟩ := Option.map_eq_some_iff.1 h
      simp only [Prod.mk.injEq] at heq
      obtain ⟨rfl, rfl⟩ := heq
      simp [ih h']

theorem blockComment?_append {block : BlockComment} {s text rest : Text}
    (h : blockComment? block s = some (text, rest)) :
    text ++ rest = s ∧ text ≠ [] := by
  simp only [blockComment?] at h
  split at h
  · cases h
  · next ho =>
    obtain ⟨body, hb, h⟩ := Option.map_eq_some_iff.1 h
    have hs := Text.after?_eq_some_iff.1 hb
    have ho : block.opening ≠ [] := by simpa using ho
    split at h
    · next inside rest' hc =>
      simp only [Prod.mk.injEq] at h
      obtain ⟨rfl, rfl⟩ := h
      split at hc
      · cases hc
      · simp [hs, cutAtText_append hc, ho]
    · simp only [Prod.mk.injEq] at h
      obtain ⟨rfl, rfl⟩ := h
      simp [hs, ho]

theorem lineComment?_append {marker s text rest : Text}
    (h : lineComment? marker s = some (text, rest)) :
    text ++ rest = s := by
  unfold lineComment? at h
  split at h
  · cases h
  · have e := Text.spanOf_append (· != '\n') s
    rwa [Option.some.inj h] at e

theorem lineComment?_ne_nil {marker s text rest : Text} (hm : marker.head? ≠ some '\n')
    (h : lineComment? marker s = some (text, rest)) : text ≠ [] := by
  unfold lineComment? at h
  split at h
  · cases h
  · next hs =>
    simp only [Bool.or_eq_true, Bool.not_eq_true', not_or, Bool.not_eq_false, Text.startsWith,
      Option.isSome_iff_exists, Text.after?_eq_some_iff] at hs
    obtain ⟨he, behind, rfl⟩ := hs
    cases marker with
    | nil => exact absurd rfl he
    | cons m marker =>
      have hm : (m != '\n') = true := by simpa using hm
      rintro rfl
      simp [Text.spanOf, hm] at h

theorem comment?_append {p : Profile} {s text rest : Text} (h : comment? p s = some (text, rest)) :
    text ++ rest = s := by
  simp only [comment?, Option.or_eq_some_iff] at h
  rcases h with h | ⟨-, h⟩
  · obtain ⟨block, -, h⟩ := List.exists_of_findSome?_eq_some h
    exact (blockComment?_append h).1
  · obtain ⟨marker, -, h⟩ := Option.bind_eq_some_iff.1 h
    exact lineComment?_append h

theorem comment?_ne_nil {p : Profile} (inline : p.Inline) {s text rest : Text}
    (h : comment? p s = some (text, rest)) :
    text ≠ [] := by
  simp only [comment?, Option.or_eq_some_iff] at h
  rcases h with h | ⟨-, h⟩
  · obtain ⟨block, -, h⟩ := List.exists_of_findSome?_eq_some h
    exact (blockComment?_append h).2
  · obtain ⟨marker, hm, h⟩ := Option.bind_eq_some_iff.1 h
    exact lineComment?_ne_nil (inline marker hm) h

theorem closeQuote_append (q : Char) (s : Text) : (closeQuote q s).1 ++ (closeQuote q s).2 = s := by
  fun_induction closeQuote q s <;> simp_all

theorem string?_append {p : Profile} {s text rest : Text} (h : string? p s = some (text, rest)) :
    text ++ rest = s ∧ text ≠ [] := by
  unfold string? at h
  split at h
  · cases h
  · next c r =>
    split at h
    · cases h
      simp [closeQuote_append]
    · split at h
      · split at h
        · next word q r' hw =>
          split at h
          · cases h
            have e := Text.spanOf_append Text.isNamePart (c :: r)
            rw [hw] at e
            simp [← e, closeQuote_append]
          · cases h
        · cases h
      · cases h

theorem number?_append {s text rest : Text} (h : number? s = some (text, rest)) :
    text ++ rest = s ∧ text ≠ [] := by
  unfold number? at h
  split at h
  · cases h
  · next c r =>
    split at h
    · next hd =>
      have e := Text.spanOf_append (fun c => Number.isDigit c || c == '.') (c :: r)
      simp only [Option.some.injEq] at h
      rw [h] at e
      refine ⟨e, ?_⟩
      rintro rfl
      simp [Text.spanOf, hd] at h
    · cases h

theorem word?_append {s text rest : Text} (h : word? s = some (text, rest)) :
    text ++ rest = s ∧ text ≠ [] := by
  unfold word? at h
  split at h
  · cases h
  · next c r =>
    split at h
    · next hd =>
      have e := Text.spanOf_append Text.isNamePart (c :: r)
      simp only [Option.some.injEq] at h
      rw [h] at e
      refine ⟨e, ?_⟩
      rintro rfl
      simp [Text.spanOf, Text.isNamePart_of_isNameStart hd] at h
    · cases h

/-- A token and the rest after it are the text. -/
theorem next_append (p : Profile) (c : Char) (r : Text) :
    (next p c r).1.text ++ (next p c r).2 = c :: r := by
  simp only [next]
  split
  · next h => exact comment?_append h
  split
  · next h => exact (string?_append h).1
  split
  · next h => exact (number?_append h).1
  split
  · next h => exact (word?_append h).1
  · rfl

theorem next_ne_nil {p : Profile} (inline : p.Inline) (c : Char) (r : Text) :
    (next p c r).1.text ≠ [] := by
  simp only [next]
  split
  · next h => exact comment?_ne_nil inline h
  split
  · next h => exact (string?_append h).2
  split
  · next h => exact (number?_append h).2
  split
  · next h => exact (word?_append h).2
  · exact List.cons_ne_nil c []

theorem length_next_lt_iff (p : Profile) (c : Char) (r : Text) :
    (next p c r).2.length < (c :: r).length ↔ (next p c r).1.text ≠ [] := by
  have e := congrArg List.length (next_append p c r)
  rw [← List.length_pos_iff]
  simp only [List.length_append] at e
  omega

/-- The tokens of a text; none when the scan comes to a token without a character, where it stays
for ever. -/
def tokens? (p : Profile) : Text → Option (List Token)
  | [] => some []
  | c :: r =>
    let step := next p c r
    if step.2.length < (c :: r).length then (tokens? p step.2).map (step.1 :: ·) else none
termination_by s => s.length
decreasing_by assumption

@[simp] theorem tokens?_nil (p : Profile) : tokens? p [] = some [] := by rw [tokens?]

theorem tokens?_cons (p : Profile) (c : Char) (r : Text) : tokens? p (c :: r) =
    if (next p c r).1.text = [] then none
    else (tokens? p (next p c r).2).map ((next p c r).1 :: ·) := by
  rw [tokens?]
  by_cases h : (next p c r).1.text = []
  · rw [if_pos h, if_neg fun hl => (length_next_lt_iff p c r).1 hl h]
  · rw [if_neg h, if_pos ((length_next_lt_iff p c r).2 h)]

end Token

end SourcePreview
