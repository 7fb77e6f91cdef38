import SourcePreview.Proofs.Highlight.Quote
import SourcePreview.Proofs.Highlight.Step
import SourcePreview.Proofs.Text.Search

/-! The delimiters of comments and strings. A comment begins with the first opening that stands
there and goes up to the first closing behind it, or up to the end of its line
(`isComment_of_comment?`); a string goes up to the first quote that is left over
(`isString_of_string?`). What nothing closes is the last span. -/

namespace SourcePreview

def BlockComment.Opens (block : BlockComment) (s : Text) : Prop :=
  block.opening ≠ [] ∧ block.opening <+: s

namespace Profile

def Opens (p : Profile) (s : Text) (block : BlockComment) : Prop :=
  ∃ earlier later, p.blockComments = earlier ++ block :: later ∧ block.Opens s ∧ ∀ other ∈ earlier,
    ¬ other.Opens s

/-- A comment and the text behind it. Of a line marker that holds a line feed, only what is in front
of the line feed is in the comment. -/
inductive IsComment (p : Profile) : Text → Text → Prop
  | closed {block : BlockComment} {inside behind : Text}
      (opens : p.Opens (block.opening ++ inside ++ block.closing ++ behind) block)
      (closes : block.closing ≠ [])
      (first : ∀ x, x ++ block.closing <+: inside ++ block.closing ++ behind → inside <+: x) :
    IsComment p (block.opening ++ inside ++ block.closing) behind
  | unclosed {block : BlockComment} {inside : Text}
      (opens : p.Opens (block.opening ++ inside) block)
      (endless : block.closing = [] ∨ ¬ block.closing <:+: inside) :
    IsComment p (block.opening ++ inside) []
  | line {marker text behind : Text}
      (unopened : ∀ block ∈ p.blockComments, ¬ block.Opens (text ++ behind))
      (line : p.lineComment = some marker) (filled : marker ≠ [])
      (begins : marker <+: text ++ behind) (starts : marker.takeWhile (· != '\n') <+: text)
      (inline : '\n' ∉ text) (ends : behind = [] ∨ behind.head? = some '\n') :
    IsComment p text behind

/-- A string and the text behind it. Behind the word in front of the quote, if there is one, the
name does not go on. -/
inductive IsString (p : Profile) : Text → Text → Prop
  | closed {word body behind : Text} {q : Char} (introduces : Token.Introduces p word)
      (quote : Token.isQuote q = true) (maximal : Text.isNamePart q = false)
      (unquoted : Token.Unquoted q body) :
    IsString p (word ++ q :: (body ++ [q])) behind
  | unclosed {word body : Text} {q : Char} (introduces : Token.Introduces p word)
      (quote : Token.isQuote q = true) (maximal : Text.isNamePart q = false)
      (unclosed : Token.Unclosed q body) :
    IsString p (word ++ q :: body) []

end Profile

namespace Token

variable {p : Profile} {block : BlockComment} {marker s text rest : Text}

theorem blockComment?_eq_none_iff : blockComment? block s = none ↔ ¬ block.Opens s := by
  rw [blockComment?, BlockComment.Opens]
  by_cases empty : block.opening = []
  · simp [empty]
  · rw [if_neg (by simpa using empty), Option.map_eq_none_iff, Option.eq_none_iff_forall_ne_some]
    constructor
    · rintro absent ⟨-, rest, rfl⟩
      exact absent rest (Text.after?_eq_some_iff.2 rfl)
    · intro unopened rest he
      exact unopened ⟨empty, rest, (Text.after?_eq_some_iff.1 he).symm⟩

theorem isComment_of_blockComment? (opens : p.Opens s block)
    (h : blockComment? block s = some (text, rest)) :
    p.IsComment text rest := by
  have ⟨_, _, _, opened, _⟩ := opens
  rw [blockComment?, if_neg (by simpa using opened.1), Option.map_eq_some_iff] at h
  obtain ⟨body, hb, h⟩ := h
  obtain rfl := Text.after?_eq_some_iff.1 hb
  split at h
  · next inside behind hc =>
    obtain ⟨rfl, rfl⟩ := Prod.mk.inj h
    split at hc
    · cases hc
    · next closing =>
      have body_eq := cutAtText_append hc
      refine .closed ?_ (by simpa using closing) fun x occurs =>
        Text.prefix_of_cutAtText hc (body_eq ▸ occurs)
      rwa [List.append_assoc, List.append_assoc, ← List.append_assoc inside, ← body_eq]
  · next hc =>
    obtain ⟨rfl, rfl⟩ := Prod.mk.inj h
    refine .unclosed opens ?_
    split at hc
    · next closing => exact Or.inl (by simpa using closing)
    · right
      rw [← Text.containsText_iff, Text.containsText, hc]
      exact Bool.false_ne_true

theorem isComment_of_lineComment? (unopened : ∀ block ∈ p.blockComments, ¬ block.Opens s)
    (line : p.lineComment = some marker) (h : lineComment? marker s = some (text, rest)) :
    p.IsComment text rest := by
  rw [lineComment?] at h
  split at h
  · cases h
  · next begins =>
    rw [Bool.or_eq_true, not_or, Bool.not_eq_true', Bool.not_eq_false, Text.startsWith,
      Option.isSome_iff_exists] at begins
    obtain ⟨filled, behind, begins⟩ := begins
    obtain rfl := Text.after?_eq_some_iff.1 begins
    rw [Option.some_inj] at h
    obtain ⟨whole, inside, stops⟩ := Text.spanOf_eq_iff.1 h
    refine .line (whole ▸ unopened) line (by simpa using filled) ⟨behind, whole⟩ ?_ ?_ ?_
    · -- the marker may go on behind the line feed that ends the comment
      rw [← (Prod.mk.inj h).1, List.takeWhile_append]
      split
      · exact (List.takeWhile_prefix _).trans (List.prefix_append marker _)
      · exact List.prefix_rfl
    · intro newline
      exact absurd (List.all_eq_true.1 inside _ newline) (by decide)
    · cases rest with
      | nil => exact Or.inl rfl
      | cons d rest => exact Or.inr (by simpa using stops d rfl)

theorem isComment_of_comment? (h : comment? p s = some (text, rest)) : p.IsComment text rest := by
  rw [comment?, Option.or_eq_some_iff] at h
  rcases h with h | ⟨none, h⟩
  · obtain ⟨earlier, block, later, blocks, found, others⟩ := List.findSome?_eq_some_iff.1 h
    have unopened : ∀ other ∈ earlier, ¬ other.Opens s :=
      fun other mem => blockComment?_eq_none_iff.1 (others other mem)
    have opened : block.Opens s := by
      by_contra absent
      rw [blockComment?_eq_none_iff.2 absent] at found
      cases found
    exact isComment_of_blockComment? ⟨earlier, later, blocks, opened, unopened⟩ found
  · obtain ⟨marker, line, h⟩ := Option.bind_eq_some_iff.1 h
    rw [List.findSome?_eq_none_iff] at none
    exact isComment_of_lineComment? (fun block mem => blockComment?_eq_none_iff.1 (none block mem))
      line h

theorem isString_of_string? (h : string? p s = some (text, rest)) : p.IsString text rest := by
  obtain ⟨word, q, behind, rfl, introduces, quote, rfl, rfl⟩ := string?_eq_some_iff.1 h
  have maximal := not_isNamePart_of_isQuote quote
  rcases closeQuote_cases q behind with ⟨body, rest, rfl, unquoted, he⟩ | ⟨unclosed, he⟩
  · rw [he]
    exact .closed introduces quote maximal unquoted
  · rw [he]
    exact .unclosed introduces quote maximal unclosed

end Token

namespace Span

variable {p : Profile}

/-- Comments and strings are delimited, and one up to the end of the text is the last span. -/
theorem classify_delimited (inline : p.Inline) (source : Text) :
    ∀ s ∈ classify p source, s.category = .comment ∨ s.category = .string →
      ∃ before behind, source = before ++ (s.text ++ behind) ∧
        s = ofToken before ⟨s.category, s.text⟩ ∧
        (behind = [] → (classify p source).getLast? = some s) ∧
        (s.category = .comment → p.IsComment s.text behind) ∧
        (s.category = .string → p.IsString s.text behind) := by
  intro s mem delimited
  have plain : s.category ≠ .plain := by rcases delimited with h | h <;> rw [h] <;> decide
  obtain ⟨before, t, stands, rfl⟩ := (mem_classify_iff inline plain).1 mem
  obtain ⟨c, r, rfl, rfl⟩ := stands.eq_next
  have whole := Token.next_append p c r
  refine ⟨before, (Token.next p c r).2, congrArg (before ++ ·) whole.symm, rfl, ?_, ?_⟩
  · intro he
    refine getLast?_classify inline mem ?_
    rw [he, List.append_nil] at whole
    exact congrArg (fun s => Text.byteSize (before ++ s)) whole
  · have reads := Token.reads_next p c r
    change (Token.next p c r).1.category = _ ∨ (Token.next p c r).1.category = _ at delimited
    change ((Token.next p c r).1.category = _ → p.IsComment (Token.next p c r).1.text _) ∧
      ((Token.next p c r).1.category = _ → p.IsString (Token.next p c r).1.text _)
    generalize Token.next p c r = step at reads delimited
    cases reads with
    | comment h => exact ⟨fun _ => Token.isComment_of_comment? h, nofun⟩
    | string uncommented h => exact ⟨nofun, fun _ => Token.isString_of_string? h⟩
    | number | other => simp at delimited
    | word =>
      obtain ⟨uncommented, unquoted⟩ := Token.wordCategory_ne p _ _
      exact ⟨fun h => absurd h uncommented, fun h => absurd h unquoted⟩

/-- A closing that would share a character with its opening, and a string that ends in an escaped
quote. -/
theorem classify_delimited_of_escape :
    let p : Profile := { Profile.java with stringPrefixes := .ofStrings ["f"] }
    let source : Text := "/*/ */f'\\\\'\"\\\"".toList
    let comment : Span := ⟨"/*/ */".toList, .comment, 0, 6⟩
    let string : Span := ⟨"\"\\\"".toList, .string, 11, 14⟩
    p.Inline ∧ comment ∈ classify p source ∧ string ∈ classify p source ∧
      (∃ before behind, source = before ++ (comment.text ++ behind) ∧
        comment = ofToken before ⟨.comment, comment.text⟩ ∧
        (behind = [] → (classify p source).getLast? = some comment) ∧
        p.IsComment comment.text behind) ∧
      ∃ before behind, source = before ++ (string.text ++ behind) ∧
        string = ofToken before ⟨.string, string.text⟩ ∧
        (behind = [] → (classify p source).getLast? = some string) ∧
        p.IsString string.text behind := by
  intro p source comment string
  have inline : p.Inline := by decide
  have spans : classify p source = _ := classify_of_within (n := 5) (by decide +kernel)
  have commented : comment ∈ classify p source := by
    rw [spans]
    decide +kernel
  have quoted : string ∈ classify p source := by
    rw [spans]
    decide +kernel
  obtain ⟨before, behind, whole, place, last, delimited, -⟩ :=
    classify_delimited inline source comment commented (Or.inl rfl)
  obtain ⟨before', behind', whole', place', last', -, delimited'⟩ :=
    classify_delimited inline source string quoted (Or.inr rfl)
  exact ⟨inline, commented, quoted, ⟨before, behind, whole, place, last, delimited rfl⟩,
    before', behind', whole', place', last', delimited' rfl⟩

/-- A comment whose marker holds a line feed ends within the marker. -/
theorem classify_of_marker_with_newline :
    let p : Profile := ⟨some "a\nb".toList, [], .empty, .empty, .empty⟩
    p.Inline ∧ ∃ s ∈ classify p "a\nb".toList, s.category = .comment ∧
      (∀ block ∈ p.blockComments, ¬ block.opening <+: s.text) ∧
      ∀ marker, p.lineComment = some marker → ¬ marker <+: s.text := by
  intro p
  have spans : classify p "a\nb".toList = _ := classify_of_within (n := 4) (by decide +kernel)
  have mem : ⟨"a".toList, .comment, 0, 1⟩ ∈ classify p "a\nb".toList := by
    rw [spans]
    decide +kernel
  refine ⟨by decide, _, mem, rfl, nofun, ?_⟩
  rintro marker ⟨⟩
  decide +kernel

end Span

end SourcePreview
