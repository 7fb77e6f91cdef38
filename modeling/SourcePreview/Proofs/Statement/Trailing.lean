import Mathlib.Data.List.TakeWhile
import SourcePreview.Proofs.Expression.Shape
import SourcePreview.Proofs.Highlight.Comment
import SourcePreview.Proofs.Highlight.Quote

/-! The comment at the end of a line, as the scan of statements cuts it off and as the highlighter
colours it. The scan walks from character to character and heeds quotes, the highlighter goes from
token to token; outside of quotes both are at the same place, for a walk through a token that is no
comment ends outside of quotes again (`cutComment_next`). -/

namespace SourcePreview

open Token (closeQuote next)

namespace Nesting

variable {n m : Nesting}

theorem step_quoted (k : Nat) (q c : Char) : (⟨k, some q, false⟩ : Nesting).step c =
    if c == '\\' then ⟨k, some q, true⟩ else if c == q then level k else ⟨k, some q, false⟩ := rfl

theorem step_unquoted (outside : n.quote = none) {c : Char} (unquoted : isQuote c = false) :
    (n.step c).quote = none ∧ (n.step c).escaped = n.escaped := by
  unfold step
  simp only [outside, unquoted, Bool.false_eq_true, if_false]
  split_ifs <;> simp [outside]

theorem step_congr (quote : n.quote = m.quote) (escaped : n.escaped = m.escaped) (c : Char) :
    (n.step c).quote = (m.step c).quote ∧ (n.step c).escaped = (m.step c).escaped := by
  unfold step
  cases h : m.quote with
  | none =>
    simp only [quote, h]
    split_ifs <;> simp [quote, escaped, h]
  | some q =>
    simp only [quote, h, escaped]
    split_ifs <;> simp [quote, escaped, h]

end Nesting

namespace Dialect

variable {d : Dialect} {n m : Nesting} {c : Char} {r s : Text}

/-- The place of the first comment outside of quotes in a text that begins at a place; places count
bytes. -/
def commentFrom? (d : Dialect) (n : Nesting) (place : Nat) : Text → Option Nat
  | [] => none
  | c :: r =>
    if n.quote.isNone && d.startsComment c r then some place
    else commentFrom? d (n.step c) (place + c.utf8Size) r

def commentPlace? (d : Dialect) (s : Text) : Option Nat := d.commentFrom? .start 0 s

theorem commentFrom?_eq (d : Dialect) (n : Nesting) (place : Nat) (s : Text) :
    d.commentFrom? n place s = (d.cutComment n s).2.map fun _ =>
    place + Text.byteSize (d.cutComment n s).1 := by
  induction s generalizing n place with
  | nil => rfl
  | cons c r ih =>
    rw [commentFrom?, cutComment]
    split
    · rfl
    · have size : Text.byteSize (c :: (d.cutComment (n.step c) r).1) =
          c.utf8Size + Text.byteSize (d.cutComment (n.step c) r).1 := rfl
      rw [ih]
      simp only [size, Nat.add_assoc]

theorem commentPlace?_eq (d : Dialect) (s : Text) :
    d.commentPlace? s = (d.cutComment .start s).2.map fun _ => Text.byteSize (d.code s) := by
  simp only [commentPlace?, commentFrom?_eq, Nat.zero_add, code]

theorem cutComment_congr (quote : n.quote = m.quote) (escaped : n.escaped = m.escaped) (s : Text) :
    d.cutComment n s = d.cutComment m s := by
  induction s generalizing n m with
  | nil => rfl
  | cons c r ih =>
    have same := Nesting.step_congr quote escaped c
    rw [cutComment, cutComment, quote, ih same.1 same.2]

theorem cutComment_cons (unquoted : Nesting.isQuote c = false)
    (code : d.startsComment c r = false) :
    d.cutComment .start (c :: r) = (c :: (d.cutComment .start r).1, (d.cutComment .start r).2) := by
  have outside := Nesting.step_unquoted (n := .start) rfl unquoted
  rw [cutComment, code, Bool.and_false, if_neg Bool.false_ne_true,
    cutComment_congr (m := .start) outside.1 outside.2]

theorem cutComment_append (plain : ∀ c ∈ s, Nesting.isQuote c = false ∧ c ≠ '#' ∧ c ≠ '/')
    (r : Text) :
    d.cutComment .start (s ++ r) = (s ++ (d.cutComment .start r).1, (d.cutComment .start r).2) := by
  induction s with
  | nil => rfl
  | cons c s ih =>
    rw [List.forall_mem_cons] at plain
    obtain ⟨⟨unquoted, hash, slash⟩, plain⟩ := plain
    have code : d.startsComment c (s ++ r) = false := by
      cases d <;> simp [startsComment, hash, slash]
    rw [List.cons_append, cutComment_cons unquoted code, ih plain]
    rfl

theorem cutComment_quoted (q : Char) (s : Text) : d.cutComment ⟨0, some q, false⟩ s =
    ((closeQuote q s).1 ++ (d.cutComment .start (closeQuote q s).2).1,
      (d.cutComment .start (closeQuote q s).2).2) := by
  have unescaped : ∀ {c : Char} {r : Text}, (c = '\\' → r = [] → False) →
      (∀ e t, c = '\\' → r = e :: t → False) →
      (c == '\\') = false := by
    intro c r last pair
    rw [beq_eq_false_iff_ne]
    intro hc
    cases r with
    | nil => exact last hc rfl
    | cons e t => exact pair e t hc rfl
  fun_induction closeQuote q s with
  | case1 => rfl
  | case2 => rfl
  | case3 c r body rest h ih =>
    have passed : ((⟨0, some q, false⟩ : Nesting).step '\\').step c = ⟨0, some q, false⟩ := rfl
    rw [cutComment, cutComment, passed, ih, h]
    rfl
  | case4 c r last pair closing =>
    have closed : (⟨0, some q, false⟩ : Nesting).step c = .start := by
      rw [Nesting.step_quoted, unescaped last pair, closing]
      rfl
    rw [cutComment, closed]
    rfl
  | case5 c r last pair inside body rest h ih =>
    have passed : (⟨0, some q, false⟩ : Nesting).step c = ⟨0, some q, false⟩ := by
      rw [Nesting.step_quoted, unescaped last pair, if_neg Bool.false_ne_true, if_neg inside]
    rw [cutComment, passed, ih, h]
    rfl

theorem cutComment_quotation {q : Char} (quote : Nesting.isQuote q = true) (r : Text) :
    d.cutComment .start (q :: r) =
    (q :: (closeQuote q r).1 ++ (d.cutComment .start (closeQuote q r).2).1,
      (d.cutComment .start (closeQuote q r).2).2) := by
  have opened : Nesting.start.step q = ⟨0, some q, false⟩ := by
    simp [Nesting.step, Nesting.start, quote]
  have code : d.startsComment q r = false := by
    simp only [Nesting.isQuote, Bool.or_eq_true, beq_iff_eq] at quote
    rcases quote with rfl | rfl <;> cases d <;> rfl
  rw [cutComment, code, Bool.and_false, if_neg Bool.false_ne_true, opened, cutComment_quoted]
  rfl

end Dialect

namespace Token

variable {d : Dialect} {c : Char} {r s text rest : Text}

structure Plain (d : Dialect) (s : Text) : Prop where
  single : '\n' ∉ s
  clear : ∀ delimiters ∈ d.blockDelimiters, ¬ delimiters.1 <:+: s

theorem Plain.of_suffix (h : Plain d (text ++ s)) : Plain d s := by
  refine ⟨fun hm => h.single (List.mem_append_right text hm), fun delimiters mem hi => ?_⟩
  exact h.clear delimiters mem (hi.trans (List.suffix_append text s).isInfix)

theorem startsComment_iff : d.startsComment c r = true ↔ d.lineMarker <+: c :: r := by
  cases d with
  | python =>
    simp only [Dialect.startsComment, Dialect.lineMarker, beq_iff_eq, List.cons_prefix_cons,
      List.nil_prefix, and_true]
    exact eq_comm
  | java =>
    cases r with
    | nil => simp [Dialect.startsComment, Dialect.lineMarker]
    | cons e r =>
      simp only [Dialect.startsComment, Dialect.lineMarker, Bool.and_eq_true, beq_iff_eq,
        List.head?_cons, Option.some.injEq, List.cons_prefix_cons, List.nil_prefix, and_true]
      exact and_congr eq_comm eq_comm

theorem comment?_of_plain (h : Plain d (c :: r)) :
    comment? d.profile (c :: r) = if d.startsComment c r then some (c :: r, []) else none := by
  have unblocked : d.profile.blockComments.findSome? (blockComment? · (c :: r)) = none := by
    rw [Dialect.findSome?_blockComment, List.findSome?_eq_none_iff]
    rintro ⟨opening, closing⟩ mem
    have absent : Text.after? opening (c :: r) = none := by
      rw [Option.eq_none_iff_forall_ne_some]
      intro body ha
      exact h.clear _ mem ⟨[], body, (Text.after?_eq_some_iff.1 ha).symm⟩
    dsimp only
    rw [absent]
    rfl
  have whole : Text.spanOf (· != '\n') (c :: r) = (c :: r, []) := by
    have all : ∀ x ∈ c :: r, (x != '\n') = true :=
      fun x hx => bne_iff_ne.2 fun he => h.single (he ▸ hx)
    rw [Text.spanOf, List.takeWhile_eq_self_iff.2 all, List.dropWhile_eq_nil_iff.2 all]
  have marked : Text.startsWith d.lineMarker (c :: r) = d.startsComment c r := by
    rw [Bool.eq_iff_iff, startsComment_iff, Text.startsWith, Option.isSome_iff_exists]
    exact exists_congr fun rest => Text.after?_eq_some_iff.trans eq_comm
  have filled : d.lineMarker.isEmpty = false := by cases d <;> rfl
  rw [comment?, unblocked, Option.none_or, Dialect.lineComment_profile, Option.bind_some,
    lineComment?, filled, marked, whole]
  cases d.startsComment c r <;> rfl

theorem isQuote_of_string?_eq_none {p : Profile} (h : string? p (c :: r) = none) :
    Nesting.isQuote c = false := by
  unfold string? at h
  dsimp only at h
  split at h
  · cases h
  · next unquoted => exact Bool.eq_false_iff.2 unquoted

theorem forall_mem_of_number? (h : number? s = some (text, rest)) :
    ∀ c ∈ text, (Number.isDigit c || c == '.') = true := by
  unfold number? at h
  split at h
  · cases h
  · split at h
    · cases h
      exact List.all_eq_true.1 List.all_takeWhile
    · cases h

theorem forall_mem_of_word? (h : word? s = some (text, rest)) :
    ∀ c ∈ text, Text.isNamePart c = true := by
  unfold word? at h
  split at h
  · cases h
  · split at h
    · cases h
      exact List.all_eq_true.1 List.all_takeWhile
    · cases h

theorem plain_of_isNamePart (h : Text.isNamePart c = true) :
    Nesting.isQuote c = false ∧ c ≠ '#' ∧ c ≠ '/' := by
  have key : ("\"'#/".toList.all fun c => !Text.isNamePart c) = true := by decide +kernel
  have absent : c ∉ "\"'#/".toList := by
    intro hc
    have other := List.all_eq_true.1 key c hc
    rw [h] at other
    cases other
  simp only [show "\"'#/".toList = ['"', '\'', '#', '/'] from rfl, List.mem_cons, List.not_mem_nil,
    or_false, not_or] at absent
  simp [Nesting.isQuote, absent]

/-- A walk through a token that is no comment ends outside of quotes, where the next token
begins. -/
theorem cutComment_next (h : Plain d (c :: r)) (code : d.startsComment c r = false) :
    (next d.profile c r).1.category ≠ .comment ∧ d.cutComment .start (c :: r) =
      ((next d.profile c r).1.text ++ (d.cutComment .start (next d.profile c r).2).1,
        (d.cutComment .start (next d.profile c r).2).2) := by
  have uncommented : comment? d.profile (c :: r) = none := by
    rw [comment?_of_plain h, code, if_neg Bool.false_ne_true]
  refine ⟨fun hc => ?_, ?_⟩
  · rw [comment?_of_next hc] at uncommented
    cases uncommented
  simp only [next, uncommented]
  split
  · next text rest hs =>
    obtain ⟨word, q, behind, whole, introduces, quote, rfl, rfl⟩ := string?_eq_some_iff.1 hs
    have parts := List.all_eq_true.1 introduces.all_isNamePart
    rw [whole, Dialect.cutComment_append (fun c hc => plain_of_isNamePart (parts c hc)),
      Dialect.cutComment_quotation quote, List.append_assoc]
  · next hs =>
    have unquoted := isQuote_of_string?_eq_none hs
    split
    · next text rest hn =>
      have plain : ∀ c ∈ text, Nesting.isQuote c = false ∧ c ≠ '#' ∧ c ≠ '/' := by
        intro c hc
        have digit := forall_mem_of_number? hn c hc
        rw [Bool.or_eq_true, beq_iff_eq] at digit
        rcases digit with digit | rfl
        · exact plain_of_isNamePart (isNamePart_of_isDigit digit)
        · decide
      rw [← (number?_append hn).1, Dialect.cutComment_append plain]
    · split
      · next text rest hw =>
        rw [← (word?_append hw).1, Dialect.cutComment_append fun c hc =>
          plain_of_isNamePart (forall_mem_of_word? hw c hc)]
      · exact Dialect.cutComment_cons unquoted code

theorem tokens_of_plain (h : Plain d s) {ts : List Token} (hts : tokens? d.profile s = some ts) :
    ∃ us, ts = us ++ ((d.cutComment .start s).2.map (⟨.comment, ·⟩)).toList ∧
      (∀ t ∈ us, t.category ≠ .comment) ∧
      us.flatMap Token.text = d.code s := by
  induction ts generalizing s with
  | nil =>
    have empty : s = [] := (flatMap_tokens? hts).1.symm
    subst empty
    exact ⟨[], rfl, List.forall_mem_nil _, rfl⟩
  | cons t ts ih =>
    obtain ⟨c, r, rfl, rfl, filled, hts⟩ := tokens?_eq_cons hts
    cases code : d.startsComment c r with
    | true =>
      have comment : comment? d.profile (c :: r) = some (c :: r, []) := by
        rw [comment?_of_plain h, code, if_pos rfl]
      have cut : d.cutComment .start (c :: r) = ([], some (c :: r)) := by
        rw [Dialect.cutComment, code]
        rfl
      rw [next_of_comment? comment] at hts ⊢
      rw [tokens?_nil, Option.some.injEq] at hts
      subst hts
      exact ⟨[], by rw [cut]; rfl, List.forall_mem_nil _, by rw [Dialect.code, cut]; rfl⟩
    | false =>
      obtain ⟨uncommented, cut⟩ := cutComment_next h code
      rw [← next_append d.profile c r] at h
      obtain ⟨us, rfl, others, text⟩ := ih h.of_suffix hts
      refine ⟨(next d.profile c r).1 :: us, ?_, List.forall_mem_cons.2 ⟨uncommented, others⟩, ?_⟩
      · rw [cut]
        rfl
      · rw [List.flatMap_cons, text, Dialect.code, Dialect.code, cut]

end Token

namespace Span

variable {d : Dialect} {s : Text}

theorem classifyLanguage_of_plain (h : Token.Plain d s) : ∃ spans,
    classifyLanguage d.language s = spans ++ ((d.cutComment .start s).2.map fun comment =>
      ⟨comment, .comment, Text.byteSize (d.code s),
        Text.byteSize (d.code s) + Text.byteSize comment⟩).toList ∧
      (∀ span ∈ spans, span.category ≠ .comment) ∧ spans.flatMap Span.text = d.code s := by
  obtain ⟨ts, hts⟩ := Token.exists_tokens? d.inline_profile s
  obtain ⟨us, rfl, others, text⟩ := Token.tokens_of_plain h hts
  have placed : classifyLanguage d.language s =
      place 0 (Token.merge (us ++ ((d.cutComment .start s).2.map (⟨.comment, ·⟩)).toList)) := by
    change (classify? d.profile s).getD [] = _
    rw [classify?, hts]
    rfl
  refine ⟨place 0 (Token.merge us), ?_, ?_, ?_⟩
  · rw [placed]
    cases (d.cutComment .start s).2 with
    | none => simp
    | some comment =>
      rw [Option.map_some, Option.toList_some, Token.merge_concat us (by simp), place_append,
        Token.flatMap_merge, text, Nat.zero_add]
      rfl
  · intro span mem hc
    rw [mem_place_merge (by simp [hc])] at mem
    rw [← Text.byteSize_nil, mem_place_iff] at mem
    obtain ⟨before, t, behind, rfl, rfl⟩ := mem
    exact others t (by simp) hc
  · rw [flatMap_place, Token.flatMap_merge, text]

end Span

/-- In a text on one line without the delimiters of blocks, the scan of statements and the
highlighter find the same comment: it is the last span and the only comment, and the code is what
stands before it. -/
theorem Dialect.trailing_comment (d : Dialect) {s : Text} (single : '\n' ∉ s)
    (clear : ∀ delimiters ∈ d.blockDelimiters, ¬ delimiters.1 <:+: s) :
    (∀ place, d.commentPlace? s = some place ↔
      ∃ span ∈ Span.classifyLanguage d.language s, span.category = .comment ∧ span.start = place) ∧
    (∀ front span behind, Span.classifyLanguage d.language s = front ++ span :: behind →
      span.category = .comment → behind = [] ∧ ∀ other ∈ front, other.category ≠ .comment) ∧
    d.code s =
      ((Span.classifyLanguage d.language s).takeWhile (·.category != .comment)).flatMap
        Span.text := by
  obtain ⟨spans, classified, others, text⟩ :=
    Span.classifyLanguage_of_plain (d := d) ⟨single, clear⟩
  have front : ∀ rest,
    (spans ++ rest).takeWhile (·.category != .comment) =
      spans ++ rest.takeWhile (·.category != .comment) :=
    fun rest => List.takeWhile_append_of_pos fun span mem => bne_iff_ne.2 (others span mem)
  rw [d.commentPlace?_eq, classified, front, ← text]
  cases (d.cutComment .start s).2 with
  | none =>
    simp only [Option.map_none, Option.toList_none, List.append_nil, List.takeWhile_nil]
    refine ⟨fun place => ⟨fun h => (nomatch h), ?_⟩, ?_, trivial⟩
    · rintro ⟨span, mem, comment, -⟩
      exact absurd comment (others span mem)
    · rintro front span behind rfl comment
      exact absurd comment (others span (by simp))
  | some comment =>
    simp only [Option.map_some, Option.toList_some]
    refine ⟨fun place => ⟨fun h => ?_, ?_⟩, ?_, by simp⟩
    · exact ⟨_, List.mem_append_right spans (List.mem_singleton_self _), rfl, Option.some.inj h⟩
    · rintro ⟨span, mem, hc, rfl⟩
      rcases List.mem_append.1 mem with mem | mem
      · exact absurd hc (others span mem)
      · rw [List.mem_singleton.1 mem]
    · intro front span behind whole hc
      rcases List.eq_nil_or_concat' behind with rfl | ⟨behind, last, rfl⟩
      · obtain ⟨rfl, -⟩ := List.append_inj' whole rfl
        exact ⟨rfl, others⟩
      · rw [← List.cons_append, ← List.append_assoc] at whole
        obtain ⟨rfl, -⟩ := List.append_inj' whole rfl
        exact absurd hc (others span (by simp))

/-- The sign in the raw bytes is no comment, and neither is the one behind the escaped quote. -/
theorem Dialect.trailing_comment_of_quoted :
    let s := "x = rb'#\\'#' + f(\"é#\") # \"done".toList
    ('\n' ∉ s ∧ ∀ delimiters ∈ Dialect.python.blockDelimiters, ¬ delimiters.1 <:+: s) ∧
      Dialect.python.commentPlace? s = some 24 ∧
      ∃ span ∈ Span.classifyLanguage .python s, span.category = .comment ∧ span.start = 24 := by
  intro s
  have single : '\n' ∉ s := by decide
  have clear : ∀ delimiters ∈ Dialect.python.blockDelimiters, ¬ delimiters.1 <:+: s := by
    decide +kernel
  have place : Dialect.python.commentPlace? s = some 24 := by decide +kernel
  exact ⟨⟨single, clear⟩, place, ((Dialect.python.trailing_comment single clear).1 24).1 place⟩

end SourcePreview
