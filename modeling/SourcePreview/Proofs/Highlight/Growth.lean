import Mathlib.Data.List.Infix
import SourcePreview.Proofs.Expression.Shape
import SourcePreview.Proofs.Highlight.Quote
import SourcePreview.Proofs.Highlight.Restart
import SourcePreview.Proofs.Highlight.Step
import SourcePreview.Proofs.Text.Search

/-! A text that grows at its end. A token is still there when more text follows, unless it reached
the end of the text or stands where the text broke off within the opening of a comment
(`next_append_right`). So the tokens part at one place only, near the end, and of the spans none but
the last two are touched: the one at that place and a plain one in front of it. -/

namespace SourcePreview

/-- What a text is tested to begin with is there with more text behind it as well, unless the text
ended within it. -/
theorem Text.after?_append_right {start s : Text} (h : s <+: start → s = start) (t : Text) :
    after? start (s ++ t) = (after? start s).map (· ++ t) := by
  cases hs : after? start s with
  | some rest =>
    rw [after?_eq_some_iff.1 hs, List.append_assoc]
    exact after?_eq_some_iff.2 rfl
  | none =>
    rw [Option.map_none, Option.eq_none_iff_forall_ne_some]
    intro rest he
    have absent : ¬ start <+: s := by
      rintro ⟨behind, rfl⟩
      rw [after?_eq_some_iff.2 rfl] at hs
      cases hs
    rcases List.append_eq_append_iff.1 (after?_eq_some_iff.1 he) with ⟨w, rfl, -⟩ | ⟨w, rfl, -⟩
    · exact absent (h (List.prefix_append s w) ▸ List.prefix_rfl)
    · exact absent (List.prefix_append start w)

namespace Token

variable {p : Profile} {c : Char} {q r s t text rest : Text}

/-- What was read from a text is read from the grown text as well, or it took all of the text. -/
def Extends (t : Text) (found grown : Option (Text × Text)) : Prop :=
  grown = found.map (Prod.map id (· ++ t)) ∨ ∃ text, found = some (text, [])

theorem Extends.eq_none {grown : Option (Text × Text)} (h : Extends t none grown) :
    grown = none := by
  rcases h with rfl | ⟨_, h⟩
  · rfl
  · cases h

theorem Extends.eq_some {grown : Option (Text × Text)} (h : Extends t (some (text, rest)) grown) :
    grown = some (text, rest ++ t) ∨ rest = [] := by
  rcases h with rfl | ⟨text', h⟩
  · exact Or.inl rfl
  · cases h
    exact Or.inr rfl

theorem Extends.or {found found' grown grown' : Option (Text × Text)} (h : Extends t found grown)
    (h' : Extends t found' grown') :
    Extends t (found.or found') (grown.or grown') := by
  cases found with
  | none =>
    rw [h.eq_none]
    exact h'
  | some parts =>
    rcases h.eq_some with rfl | he
    · exact Or.inl rfl
    · exact Or.inr ⟨parts.1, by rw [Option.some_or, ← he]⟩

theorem Extends.findSome? {α : Type} {as : List α} {f g : α → Option (Text × Text)}
    (h : ∀ a ∈ as, Extends t (f a) (g a)) :
    Extends t (as.findSome? f) (as.findSome? g) := by
  induction as with
  | nil => exact Or.inl rfl
  | cons a as ih =>
    rw [List.forall_mem_cons] at h
    have unfolded :
        ∀ f : α → Option (Text × Text), (a :: as).findSome? f = (f a).or (as.findSome? f) := by
      intro f
      rw [List.findSome?_cons]
      cases f a <;> rfl
    rw [unfolded, unfolded]
    exact h.1.or (ih h.2)

theorem blockComment?_extends {block : BlockComment} (h : s <+: block.opening → s = block.opening)
    (t : Text) :
    Extends t (blockComment? block s) (blockComment? block (s ++ t)) := by
  unfold blockComment?
  split
  · exact Or.inl rfl
  · rw [Text.after?_append_right h]
    cases Text.after? block.opening s with
    | none => exact Or.inl rfl
    | some body =>
      rw [Option.map_some, Option.map_some, Option.map_some]
      split
      · next inside rest hc =>
        left
        split at hc
        · cases hc
        · next closing =>
          rw [if_neg closing, Text.cutAtText_append_right hc]
          rfl
      · exact Or.inr ⟨s, rfl⟩

theorem lineComment?_extends {marker : Text} (h : s <+: marker → s = marker) (t : Text) :
    Extends t (lineComment? marker s) (lineComment? marker (s ++ t)) := by
  have starts : Text.startsWith marker (s ++ t) = Text.startsWith marker s := by
    rw [Text.startsWith, Text.startsWith, Text.after?_append_right h, Option.isSome_map]
  unfold lineComment?
  rw [starts]
  split
  · exact Or.inl rfl
  · by_cases he : (Text.spanOf (· != '\n') s).2 = []
    · exact Or.inr ⟨(Text.spanOf (· != '\n') s).1, by rw [← he]⟩
    · left
      rw [Text.spanOf_append_right rfl he]
      rfl

end Token

def Profile.openings (p : Profile) : List Text :=
  p.blockComments.map BlockComment.opening ++ p.lineComment.toList

/-- A text that ends within the opening of a comment. -/
def Profile.Awaits (p : Profile) (s : Text) : Prop :=
  ∃ opening ∈ p.openings, s <+: opening ∧ s ≠ opening

/-- A profile with openings of comments that are one span at most as long as they are not
complete. -/
def Profile.Compact (p : Profile) : Prop :=
  ∀ s ts, p.Awaits s → Token.tokens? p s = some ts → (Token.merge ts).length ≤ 1

namespace Token

variable {p : Profile} {c : Char} {r s t text rest : Text} {ts : List Token}

theorem comment?_extends (decided : ¬ p.Awaits s) (t : Text) :
    Extends t (comment? p s) (comment? p (s ++ t)) := by
  have complete : ∀ opening ∈ p.openings, s <+: opening → s = opening := fun opening mem starts =>
    by_contra fun he => decided ⟨opening, mem, starts, he⟩
  refine .or (.findSome? fun block mem => blockComment?_extends (complete _ ?_) t) ?_
  · exact List.mem_append_left _ (List.mem_map_of_mem mem)
  · cases line : p.lineComment with
    | none => exact Or.inl rfl
    | some marker =>
      refine lineComment?_extends (complete marker ?_) t
      exact List.mem_append_right _ (by rw [line]; exact List.mem_singleton_self marker)

theorem closeQuote_append_right {q : Char} (quote : isQuote q = true) (s t : Text) :
    closeQuote q (s ++ t) = ((closeQuote q s).1, (closeQuote q s).2 ++ t) ∨
    (closeQuote q s).2 = [] := by
  rcases closeQuote_cases q s with ⟨body, rest, rfl, unquoted, he⟩ | ⟨-, he⟩
  · left
    rw [he, List.append_assoc, List.cons_append,
      unquoted.closeQuote_eq (ne_backslash_of_isQuote quote)]
  · right
    rw [he]

/-- A string is read from the grown text as well, unless the text is an identifier, which may turn
out to be a string prefix. -/
theorem string?_extends (c : Char) (r t : Text) :
    Extends t (string? p (c :: r)) (string? p (c :: (r ++ t))) ∨
      string? p (c :: r) = none ∧ Text.isIdentifier (c :: r) = true := by
  cases hs : string? p (c :: r) with
  | some parts =>
    obtain ⟨word, q, behind, whole, introduces, quote, ht, hr⟩ := string?_eq_some_iff.1 hs
    left
    rcases closeQuote_append_right quote behind t with hq | hq
    · left
      refine string?_eq_some_iff.2 ⟨word, q, behind ++ t, ?_, introduces, quote, ?_, ?_⟩
      · rw [← List.cons_append, whole, List.append_assoc, List.cons_append]
      · rw [hq]
        exact ht
      · rw [hq, ← hr]
    · exact Or.inr ⟨parts.1, by rw [← hq, ← hr]⟩
  | none =>
    cases hg : string? p (c :: (r ++ t)) with
    | none => exact Or.inl (Or.inl rfl)
    | some parts =>
      obtain ⟨word, q, behind, whole, introduces, quote, -, -⟩ := string?_eq_some_iff.1 hg
      rw [← List.cons_append] at whole
      have identifier : word ≠ [] → Text.isIdentifier word = true :=
        fun he => (introduces.resolve_left he).1
      -- the quote stands in the text that was there, right behind it, or further on
      rcases List.append_eq_append_iff.1 whole with ⟨w, rfl, -⟩ | ⟨w, hw, he⟩
      · have started := identifier (List.cons_ne_nil c (r ++ w))
        simp only [List.cons_append, Text.isIdentifier, List.all_append, Bool.and_eq_true]
          at started
        exact Or.inr ⟨rfl, by simp only [Text.isIdentifier, started.1, started.2.1, Bool.and_self]⟩
      · cases w with
        | nil =>
          rw [List.append_nil] at hw
          exact Or.inr ⟨rfl, hw ▸ identifier (hw ▸ List.cons_ne_nil c r)⟩
        | cons d w =>
          obtain ⟨rfl, -⟩ := List.cons.inj he
          rw [string?_eq_some_iff.2 ⟨word, q, w, hw, introduces, quote, rfl, rfl⟩] at hs
          cases hs

theorem wordCategory_append (word t : Text) (h : rest ≠ []) :
    wordCategory p word (rest ++ t) = wordCategory p word rest := by
  rw [wordCategory, wordCategory, List.head?_append_of_ne_nil rest h]

/-- A token is there with more text behind it as well, unless it reached the end of the text or the
text ended within the opening of a comment. -/
theorem next_append_right (decided : ¬ p.Awaits (c :: r)) (t : Text) :
    next p c (r ++ t) = ((next p c r).1, (next p c r).2 ++ t) ∨ (next p c r).2 = [] := by
  have comment := comment?_extends decided t
  have string := string?_extends (p := p) c r t
  have reads := reads_next p c r
  generalize next p c r = step at reads ⊢
  rw [List.cons_append] at comment
  cases reads with
  | comment h =>
    rw [h] at comment
    exact comment.eq_some.imp_left next_of_comment?
  | string uncommented h =>
    rw [uncommented] at comment
    rw [h] at string
    rcases string with string | ⟨unquoted, -⟩
    · exact string.eq_some.imp_left (next_of_string? comment.eq_none)
    · cases unquoted
  | @number text rest uncommented unquoted digit h =>
    rw [uncommented] at comment
    rw [unquoted] at string
    by_cases he : rest = []
    · exact Or.inr he
    · rcases string with string | ⟨-, identifier⟩
      · exact Or.inl
          (next_of_digit comment.eq_none string.eq_none digit (Text.spanOf_append_right h he t))
      · rw [Text.isIdentifier, isNameStart_of_isDigit digit] at identifier
        cases identifier
  | @word text rest uncommented unquoted digit start h =>
    rw [uncommented] at comment
    rw [unquoted] at string
    by_cases he : rest = []
    · exact Or.inr he
    · rcases string with string | ⟨-, identifier⟩
      · left
        rw [next_of_nameStart comment.eq_none string.eq_none digit start
          (Text.spanOf_append_right h he t), wordCategory_append text t he]
      · have whole : Text.spanOf Text.isNamePart (c :: r) = (c :: r, []) :=
          Text.spanOf_eq_iff.2 ⟨(List.append_nil _).symm, Text.all_isNamePart identifier, by simp⟩
        rw [whole] at h
        exact absurd (Prod.mk.inj h).2.symm he
  | other uncommented unquoted digit start =>
    rw [uncommented] at comment
    rw [unquoted] at string
    rcases string with string | ⟨-, identifier⟩
    · exact Or.inl (next_of_other comment.eq_none string.eq_none digit start)
    · rw [Text.isIdentifier, start] at identifier
      cases identifier

/-- The tokens of a text and of the text with more behind it are the same up to the last token or to
the place where the text ended within the opening of a comment. -/
theorem exists_tokens?_append (inline : p.Inline) (t : Text) (h : tokens? p s = some ts) :
    ∃ us vs vs', ts = us ++ vs ∧ tokens? p (s ++ t) = some (us ++ vs') ∧
      (vs.length ≤ 1 ∨ ∃ q, p.Awaits q ∧ tokens? p q = some vs) := by
  induction ts generalizing s with
  | nil =>
    obtain ⟨vs', hv⟩ := exists_tokens? inline (s ++ t)
    exact ⟨[], [], vs', rfl, hv, Or.inl (Nat.zero_le 1)⟩
  | cons u ts ih =>
    by_cases awaits : p.Awaits s
    · obtain ⟨vs', hv⟩ := exists_tokens? inline (s ++ t)
      exact ⟨[], u :: ts, vs', rfl, hv, Or.inr ⟨s, awaits, h⟩⟩
    · obtain ⟨c, r, rfl, rfl, filled, hts⟩ := tokens?_eq_cons h
      rcases next_append_right awaits t with step | last
      · obtain ⟨us, vs, vs', rfl, hv, hl⟩ := ih hts
        refine ⟨(next p c r).1 :: us, vs, vs', rfl, ?_, hl⟩
        rw [List.cons_append, tokens?_cons, step, if_neg filled, hv]
        rfl
      · rw [last, tokens?_nil] at hts
        cases hts
        obtain ⟨vs', hv⟩ := exists_tokens? inline (c :: r ++ t)
        exact ⟨[], [(next p c r).1], vs', rfl, hv, Or.inl (Nat.le_refl 1)⟩

theorem consMerged_of_plain {t u : Token} (ht : t.category = .plain) (hu : u.category = .plain)
    (ts : List Token) :
    consMerged t (consMerged u ts) = consMerged ⟨.plain, t.text ++ u.text⟩ ts := by
  cases ts with
  | nil => rw [consMerged, consMerged, consMerged, if_pos ⟨ht, hu⟩]
  | cons v vs =>
    rw [consMerged, consMerged]
    by_cases hv : v.category = .plain
    · rw [if_pos ⟨hu, hv⟩, if_pos ⟨rfl, hv⟩, consMerged, if_pos ⟨ht, rfl⟩, List.append_assoc]
    · rw [if_neg fun h => hv h.2, if_neg fun h => hv h.2, consMerged, if_pos ⟨ht, hu⟩]

theorem consMerged_of_apart {t u : Token} (h : Apart t u) (ts : List Token) :
    consMerged t (consMerged u ts) = t :: consMerged u ts := by
  cases ts with
  | nil => rw [consMerged, consMerged, if_neg h]
  | cons v vs =>
    rw [consMerged]
    split
    · next plain => rw [consMerged, if_neg fun ht => h ⟨ht.1, plain.1⟩]
    · rw [consMerged, if_neg h]

theorem exists_merge_append {us : List Token} (h : us ≠ []) :
    ∃ front t, ∀ vs, merge (us ++ vs) = front ++ consMerged t (merge vs) := by
  induction us with
  | nil => exact absurd rfl h
  | cons u us ih =>
    by_cases he : us = []
    · subst he
      exact ⟨[], u, fun vs => rfl⟩
    · obtain ⟨front, t, hf⟩ := ih he
      cases front with
      | nil =>
        by_cases plain : u.category = .plain ∧ t.category = .plain
        · refine ⟨[], ⟨.plain, u.text ++ t.text⟩, fun vs => ?_⟩
          rw [List.cons_append, merge_cons, hf, List.nil_append,
            consMerged_of_plain plain.1 plain.2, List.nil_append]
        · refine ⟨[u], t, fun vs => ?_⟩
          rw [List.cons_append, merge_cons, hf, List.nil_append, consMerged_of_apart plain]
          rfl
      | cons f front =>
        by_cases plain : u.category = .plain ∧ f.category = .plain
        · refine ⟨⟨.plain, u.text ++ f.text⟩ :: front, t, fun vs => ?_⟩
          rw [List.cons_append, merge_cons, hf, List.cons_append, consMerged, if_pos plain,
            List.cons_append]
        · refine ⟨u :: f :: front, t, fun vs => ?_⟩
          rw [List.cons_append, merge_cons, hf, List.cons_append, consMerged, if_neg plain]
          rfl

theorem length_consMerged_le (t : Token) (ts : List Token) :
    (consMerged t ts).length ≤ ts.length + 1 := by
  cases ts with
  | nil => exact Nat.le_refl 1
  | cons u us =>
    rw [consMerged]
    split <;> simp

theorem length_merge_le (ts : List Token) : (merge ts).length ≤ ts.length := by
  induction ts with
  | nil => exact Nat.le_refl 0
  | cons t ts ih => exact (length_consMerged_le t (merge ts)).trans (Nat.succ_le_succ ih)

theorem compact_builtIn (l : Language) : (Profile.builtIn l).Compact := by
  have key : ∀ opening ∈ (Profile.builtIn l).openings, ∀ s ∈ opening.inits, s ≠ opening →
      (tokensWithin? (.builtIn l) 4 s).any (fun ts => (merge ts).length ≤ 1) = true := by
    cases l <;> decide +kernel
  rintro s ts ⟨opening, mem, starts, other⟩ h
  obtain ⟨us, hu, length⟩ :=
    (Option.any_eq_true _ _).1 (key opening mem s ((List.mem_inits s opening).2 starts) other)
  rw [tokens?_of_within hu] at h
  cases h
  exact of_decide_eq_true length

end Token

namespace Span

variable {p : Profile}

theorem length_place (start : Nat) (ts : List Token) : (place start ts).length = ts.length := by
  induction ts generalizing start with
  | nil => rfl
  | cons t ts ih => rw [place, List.length_cons, List.length_cons, ih]

theorem dropLast_dropLast_isPrefix {α : Type} (as : List α) {bs : List α} (h : bs.length ≤ 2) :
    (as ++ bs).dropLast.dropLast <+: as := by
  refine List.prefix_of_prefix_length_le ?_ (List.prefix_append as bs) ?_
  · exact (List.dropLast_prefix _).trans (List.dropLast_prefix _)
  · simp only [List.length_dropLast, List.length_append]
    omega

theorem classify_append_isPrefix (inline : p.Inline) (compact : p.Compact) (s t : Text) :
    (classify p s).dropLast.dropLast <+: classify p (s ++ t) := by
  obtain ⟨ts, hts⟩ := Token.exists_tokens? inline s
  obtain ⟨us, vs, vs', rfl, hv, last⟩ := Token.exists_tokens?_append inline t hts
  have single : (Token.merge vs).length ≤ 1 := by
    rcases last with length | ⟨q, awaits, hq⟩
    · exact (Token.length_merge_le vs).trans length
    · exact compact q vs awaits hq
  rw [classify_of_tokens? hts, classify_of_tokens? hv]
  by_cases he : us = []
  · subst he
    have short : (place 0 (Token.merge vs)).length ≤ 2 := by
      rw [length_place]
      omega
    exact (dropLast_dropLast_isPrefix [] short).trans List.nil_prefix
  · obtain ⟨front, u, merged⟩ := Token.exists_merge_append he
    rw [merged, merged, place_append, place_append]
    refine (dropLast_dropLast_isPrefix (place 0 front) ?_).trans (List.prefix_append _ _)
    rw [length_place]
    exact (Token.length_consMerged_le u (Token.merge vs)).trans (by omega)

theorem inline_builtIn (l : Language) : (Profile.builtIn l).Inline := by cases l <;> decide

/-- Typing at the end of a text leaves all spans but the last two as they are. -/
theorem classifyLanguage_append (l : Language) (s t : Text) :
    (classifyLanguage l s).dropLast.dropLast <+: classifyLanguage l (s ++ t) :=
  classify_append_isPrefix (inline_builtIn l) (Token.compact_builtIn l) s t

/-- Two spans are touched when a keyword grows to a name. -/
example : classifyLanguage .python "x if".toList = [⟨"x ".toList, .plain, 0, 2⟩,
      ⟨"if".toList, .keyword, 2, 4⟩] ∧
    classifyLanguage .python "x ify".toList = [⟨"x ify".toList, .plain, 0, 5⟩] := by
  rw [classifyLanguage, classifyLanguage, classify_of_within (n := 9) (by decide +kernel),
    classify_of_within (n := 9) (by decide +kernel)]
  decide +kernel

end Span

end SourcePreview
