import SourcePreview.Proofs.Highlight.Step
import SourcePreview.Proofs.Text.Search
import SourcePreview.Statement.Comment

/-! The comments of a dialect as its highlighter sees them. A comment is a block up to its first
closing delimiter, or it ends with its line; only a block or a string runs past a line; and blanks
are plain. -/

namespace SourcePreview

open Text (Solid upTo)

namespace Dialect

def language : Dialect → Language
  | .python => .python
  | .java => .java

def profile (d : Dialect) : Profile := .builtIn d.language

/-- What a comment up to the end of its line begins with. -/
def lineMarker : Dialect → Text
  | .python => ['#']
  | .java => ['/', '/']

variable {d : Dialect} {opening closing s body : Text}

theorem inline_profile (d : Dialect) : d.profile.Inline := by cases d <;> decide

theorem lineComment_profile (d : Dialect) : d.profile.lineComment = some d.lineMarker := by
  cases d <;> rfl

theorem solid_lineMarker (d : Dialect) : Solid d.lineMarker := by
  cases d with
  | python => exact .of_any (by decide) (by decide)
  | java => exact .of_any (by decide) (by decide)

theorem solid_blockDelimiters (h : (opening, closing) ∈ d.blockDelimiters) :
    Solid opening ∧ Solid closing := by
  have key : ∀ delimiters ∈ d.blockDelimiters,
      (delimiters.1 ≠ [] ∧ delimiters.1.any Text.isBlank = false) ∧
      delimiters.2 ≠ [] ∧ delimiters.2.any Text.isBlank = false := by
    cases d <;> decide
  obtain ⟨⟨h1, h2⟩, h3, h4⟩ := key _ h
  exact ⟨.of_any h1 h2, .of_any h3 h4⟩

theorem findSome?_opening {α : Type} (f : Text → Text → Text → Option α)
    (h : (opening, closing) ∈ d.blockDelimiters) (body : Text) :
    (d.blockDelimiters.findSome? fun (o, c) => (Text.after? o (opening ++ body)).bind (f o c)) =
      f opening closing body := by
  cases d with
  | java =>
    simp only [blockDelimiters, List.mem_singleton, Prod.mk.injEq] at h
    obtain ⟨rfl, rfl⟩ := h
    cases hf : f "/*".toList "*/".toList body <;> simp_all [blockDelimiters, Text.after?]
  | python =>
    simp only [blockDelimiters, List.mem_cons, List.not_mem_nil, or_false, Prod.mk.injEq] at h
    rcases h with ⟨rfl, rfl⟩ | ⟨rfl, rfl⟩
    · cases hf : f "\"\"\"".toList "\"\"\"".toList body <;> simp_all [blockDelimiters, Text.after?]
    · cases hf : f "'''".toList "'''".toList body <;> simp_all [blockDelimiters, Text.after?]

theorem opensBlock?_eq_some_iff : d.opensBlock? s = some closing ↔
    ∃ opening body, (opening, closing) ∈ d.blockDelimiters ∧ s = opening ++ body ∧
      ¬ closing <:+: body := by
  constructor
  · intro h
    obtain ⟨⟨opening, c⟩, mem, h⟩ := List.exists_of_findSome?_eq_some h
    obtain ⟨body, hb, h⟩ := Option.bind_eq_some_iff.1 h
    split at h
    · cases h
    · next absent =>
      cases h
      exact ⟨opening, body, mem, Text.after?_eq_some_iff.1 hb,
        fun hi => absent (Text.containsText_iff.2 hi)⟩
  · rintro ⟨opening, body, mem, rfl, absent⟩
    rw [opensBlock?,
      findSome?_opening (fun _ c rest => if Text.containsText c rest then none else some c) mem]
    rw [if_neg fun hc => absent (Text.containsText_iff.1 hc)]

theorem blockComment?_eq (ho : Solid opening) (hc : Solid closing) (s : Text) :
    Token.blockComment? ⟨opening, closing⟩ s =
    (Text.after? opening s).bind fun body =>
    some (opening ++ (upTo closing body).1, (upTo closing body).2) := by
  have ho : opening.isEmpty = false := by simpa using ho.ne_nil
  have hc : closing.isEmpty = false := by simpa using hc.ne_nil
  simp only [Token.blockComment?, ho, hc, Bool.false_eq_true, if_false]
  cases hb : Text.after? opening s with
  | none => rfl
  | some body =>
    rw [Option.map_some, Option.bind_some, upTo]
    cases Text.cutAtText closing body with
    | none => rw [Text.after?_eq_some_iff.1 hb]
    | some parts => simp

theorem findSome?_blockComment (d : Dialect) (s : Text) :
    d.profile.blockComments.findSome? (Token.blockComment? · s) =
    d.blockDelimiters.findSome? fun (o, c) =>
      (Text.after? o s).bind fun body => some (o ++ (upTo c body).1, (upTo c body).2) := by
  have blocks : d.profile.blockComments = d.blockDelimiters.map fun (o, c) => ⟨o, c⟩ := by
    cases d <;> rfl
  have each : ∀ delimiters ∈ d.blockDelimiters, Token.blockComment? ⟨delimiters.1, delimiters.2⟩ s =
      (Text.after? delimiters.1 s).bind fun body =>
        some (delimiters.1 ++ (upTo delimiters.2 body).1, (upTo delimiters.2 body).2) := by
    intro delimiters mem
    obtain ⟨ho, hc⟩ := solid_blockDelimiters mem
    exact blockComment?_eq ho hc s
  rw [blocks, List.findSome?_map]
  generalize d.blockDelimiters = delimiters at each
  induction delimiters with
  | nil => rfl
  | cons first others ih =>
    rw [List.forall_mem_cons] at each
    rw [List.findSome?_cons, List.findSome?_cons, ih each.2, Function.comp_apply, each.1]

theorem comment?_opening (h : (opening, closing) ∈ d.blockDelimiters) (body : Text) :
    Token.comment? d.profile (opening ++ body) = some (opening ++ (upTo closing body).1,
      (upTo closing body).2) := by
  rw [Token.comment?, findSome?_blockComment,
    findSome?_opening (fun o c body => some (o ++ (upTo c body).1, (upTo c body).2)) h]
  rfl

theorem comment?_cases {text rest : Text} (h : Token.comment? d.profile s = some (text, rest)) :
    (∃ opening closing body, (opening, closing) ∈ d.blockDelimiters ∧ s = opening ++ body ∧
      text = opening ++ (upTo closing body).1) ∨ d.lineMarker <+: s ∧ '\n' ∉ text := by
  rw [Token.comment?, findSome?_blockComment, lineComment_profile, Option.or_eq_some_iff] at h
  rcases h with h | ⟨-, h⟩
  · left
    obtain ⟨⟨opening, closing⟩, mem, h⟩ := List.exists_of_findSome?_eq_some h
    obtain ⟨body, hb, h⟩ := Option.bind_eq_some_iff.1 h
    cases h
    exact ⟨opening, closing, body, mem, Text.after?_eq_some_iff.1 hb, rfl⟩
  · right
    rw [Option.bind_some, Token.lineComment?] at h
    split at h
    · cases h
    · next starts =>
      cases h
      simp only [Bool.or_eq_true, Bool.not_eq_true', not_or, Bool.not_eq_false, Text.startsWith]
        at starts
      obtain ⟨rest, hr⟩ := Option.isSome_iff_exists.1 starts.2
      refine ⟨⟨rest, (Text.after?_eq_some_iff.1 hr).symm⟩, fun hm => ?_⟩
      exact absurd (List.all_eq_true.1 List.all_takeWhile _ hm) (by decide)

end Dialect

namespace Token

variable {p : Profile} {d : Dialect} {c : Char} {r : Text}

theorem comment?_of_next (h : (next p c r).1.category = .comment) :
    comment? p (c :: r) = some ((next p c r).1.text, (next p c r).2) := by
  have reads := reads_next p c r
  generalize next p c r = step at reads h ⊢
  cases reads with
  | comment commented => exact commented
  | word => exact absurd h (wordCategory_ne _ _ _).1
  | string | number | other => cases h

theorem category_of_newline (h : '\n' ∈ (next p c r).1.text) :
    (next p c r).1.category = .comment ∨ (next p c r).1.category = .string ∨
    (next p c r).1.text = ['\n'] := by
  have reads := reads_next p c r
  generalize next p c r = step at reads h ⊢
  cases reads with
  | comment => exact Or.inl rfl
  | string => exact Or.inr (Or.inl rfl)
  | number _ _ _ digits =>
    exact absurd (List.all_eq_true.1 (Text.spanOf_eq_iff.1 digits).2.1 _ h) (by decide)
  | word _ _ _ _ parts =>
    exact absurd (List.all_eq_true.1 (Text.spanOf_eq_iff.1 parts).2.1 _ h) (by decide +kernel)
  | other => exact Or.inr (Or.inr (by rw [List.mem_singleton.1 h]))

theorem StandsAt.category_of_newline {source before a b : Text} {t : Token}
    (h : StandsAt p source before t) (text : t.text = a ++ ['\n'] ++ b) (hb : b ≠ []) :
    t.category = .comment ∨ t.category = .string := by
  obtain ⟨c, r, -, rfl⟩ := h.eq_next
  rcases Token.category_of_newline (by rw [text]; simp) with hc | hc | hc
  · exact Or.inl hc
  · exact Or.inr hc
  · have length := congrArg List.length (text.symm.trans hc)
    have filled := List.length_pos_iff.2 hb
    simp only [List.length_append, List.length_singleton] at length
    omega

theorem StandsAt.eq_comment {before opening closing body : Text} {t : Token}
    (h : StandsAt d.profile (before ++ (opening ++ body)) before t)
    (mem : (opening, closing) ∈ d.blockDelimiters) :
    t = ⟨.comment, opening ++ (upTo closing body).1⟩ := by
  obtain ⟨c, r, rfl⟩ := List.exists_cons_of_ne_nil (Dialect.solid_blockDelimiters mem).1.ne_nil
  have comment : comment? d.profile (c :: (r ++ body)) = some _ := Dialect.comment?_opening mem body
  rw [StandsAt.eq_next_of_eq (c := c) (r := r ++ body) h, next_of_comment? comment]

theorem next_blank (hb : Text.isBlank c = true) (r : Text) :
    next d.profile c r = (⟨.plain, [c]⟩, r) := by
  have key : ∀ n ∈ Text.blankPoints, isQuote (Char.ofNat n) = false ∧
      Number.isDigit (Char.ofNat n) = false ∧
      Text.isNameStart (Char.ofNat n) = false := by
    decide +kernel
  obtain ⟨quote, digit, name⟩ := key c.toNat (Text.mem_blankPoints hb)
  rw [Char.ofNat_toNat] at quote digit name
  have unsolid : ∀ {s t : Text}, Solid s → c :: r ≠ s ++ t := by
    rintro s t hs he
    obtain ⟨e, u, rfl⟩ := List.exists_cons_of_ne_nil hs.ne_nil
    obtain ⟨rfl, -⟩ := List.cons.inj he
    rw [hs.filled _ List.mem_cons_self] at hb
    cases hb
  have comment : comment? d.profile (c :: r) = none := by
    cases hc : comment? d.profile (c :: r) with
    | none => rfl
    | some parts =>
      rcases Dialect.comment?_cases hc with ⟨opening, closing, body, mem, he, -⟩ | ⟨⟨body, he⟩, -⟩
      · exact absurd he (unsolid (Dialect.solid_blockDelimiters mem).1)
      · exact absurd he.symm (unsolid d.solid_lineMarker)
  simp [next, comment, string?, number?, word?, quote, digit, name]

theorem StandsAt.follow_blanks {before blanks s : Text} {t : Token}
    (hb : blanks.all Text.isBlank = true) (hs : s ≠ [])
    (h : StandsAt d.profile (before ++ (blanks ++ s)) before t) :
    ∃ t', StandsAt d.profile (before ++ (blanks ++ s)) (before ++ blanks) t' := by
  induction blanks generalizing before t with
  | nil =>
    rw [List.append_nil]
    exact ⟨t, h⟩
  | cons b blanks ih =>
    rw [List.all_cons, Bool.and_eq_true] at hb
    have text : t.text = [b] := by
      rw [h.eq_next_of_eq (c := b) (r := blanks ++ s), next_blank hb.1]
    have step : before ++ (b :: blanks ++ s) = before ++ [b] ++ (blanks ++ s) := by simp
    rw [step] at h ⊢
    obtain ⟨t', ht'⟩ := h.follow (by rw [text]) (List.append_ne_nil_of_right_ne_nil blanks hs)
    rw [text] at ht'
    rw [List.append_cons before b blanks]
    exact ih hb.2 ht'

end Token

end SourcePreview
