import Mathlib.Data.List.Chain
import SourcePreview.Highlight.Span

/-! The spans of a source text tile it. A scan that opens no comment with a line feed gets on by a
character at least with each token, so it ends; its tokens are the text, and making neighbouring
plain ones one keeps the text and leaves no two plain ones side by side. -/

namespace SourcePreview

/-- Whether a text stands between two places of another, which are counted in bytes and lie between
characters. -/
def Text.HasPart (s : Text) (start stop : Nat) (part : Text) : Prop :=
  ∃ before behind, s = before ++ part ++ behind ∧ start = byteSize before ∧
    stop = byteSize (before ++ part)

theorem Text.byteSize_pos {s : Text} (h : s ≠ []) : 0 < byteSize s := by
  obtain ⟨c, r, rfl⟩ := List.exists_cons_of_ne_nil h
  have hc := c.utf8Size_pos
  change 0 < c.utf8Size + byteSize r
  omega

namespace Token

variable {p : Profile} {s : Text} {t : Token} {ts : List Token}

def Apart (t u : Token) : Prop := ¬ (t.category = .plain ∧ u.category = .plain)

theorem exists_tokens? (inline : p.Inline) (s : Text) : ∃ ts, tokens? p s = some ts := by
  -- on the length of the text, which each token shortens
  induction hn : s.length using Nat.strongRecOn generalizing s with
  | ind n ih =>
    cases s with
    | nil => exact ⟨[], tokens?_nil p⟩
    | cons c r =>
      have hc := next_ne_nil inline c r
      obtain ⟨ts, hts⟩ := ih _ (hn ▸ (length_next_lt_iff p c r).2 hc) _ rfl
      exact ⟨(next p c r).1 :: ts, by rw [tokens?_cons, if_neg hc, hts]; rfl⟩

theorem flatMap_tokens? (h : tokens? p s = some ts) :
    ts.flatMap text = s ∧ ∀ t ∈ ts, t.text ≠ [] := by
  induction ts generalizing s with
  | nil =>
    cases s with
    | nil => exact ⟨rfl, by simp⟩
    | cons c r =>
      rw [tokens?_cons] at h
      split at h
      · cases h
      · simp at h
  | cons t ts ih =>
    cases s with
    | nil => simp at h
    | cons c r =>
      rw [tokens?_cons] at h
      split at h
      · cases h
      · next hc =>
        obtain ⟨us, hus, he⟩ := Option.map_eq_some_iff.1 h
        obtain ⟨rfl, rfl⟩ := List.cons.inj he
        obtain ⟨h1, h2⟩ := ih hus
        refine ⟨?_, List.forall_mem_cons.2 ⟨hc, h2⟩⟩
        rw [List.flatMap_cons, h1]
        exact next_append p c r

theorem flatMap_consMerged (t : Token) (ts : List Token) :
    (consMerged t ts).flatMap text = t.text ++ ts.flatMap text := by
  cases ts with
  | nil => rfl
  | cons u us =>
    rw [consMerged]
    split
    · simp
    · rfl

theorem ne_nil_of_mem_consMerged (ht : t.text ≠ []) (hts : ∀ u ∈ ts, u.text ≠ []) :
    ∀ u ∈ consMerged t ts, u.text ≠ [] := by
  cases ts with
  | nil =>
    intro u hu
    rw [List.mem_singleton.1 hu]
    exact ht
  | cons v vs =>
    rw [consMerged]
    split
    · rw [List.forall_mem_cons] at hts ⊢
      exact ⟨List.append_ne_nil_of_left_ne_nil ht v.text, hts.2⟩
    · exact List.forall_mem_cons.2 ⟨ht, hts⟩

theorem isChain_consMerged (t : Token) (h : ts.IsChain Apart) :
    (consMerged t ts).IsChain Apart := by
  cases ts with
  | nil => exact .singleton t
  | cons u us =>
    rw [consMerged]
    split
    · next hp =>
      -- the plain token in front takes the place of the one that was there
      cases us with
      | nil => exact .singleton _
      | cons v vs =>
        rw [List.isChain_cons_cons] at h ⊢
        exact ⟨fun hv => h.1 ⟨hp.2, hv.2⟩, h.2⟩
    · next hp => exact List.isChain_cons_cons.2 ⟨hp, h⟩

theorem flatMap_merge (ts : List Token) : (merge ts).flatMap text = ts.flatMap text := by
  induction ts with
  | nil => rfl
  | cons t ts ih =>
    change (consMerged t (merge ts)).flatMap text = _
    rw [flatMap_consMerged, ih, List.flatMap_cons]

theorem ne_nil_of_mem_merge (h : ∀ t ∈ ts, t.text ≠ []) : ∀ t ∈ merge ts, t.text ≠ [] := by
  induction ts with
  | nil => exact h
  | cons t ts ih =>
    rw [List.forall_mem_cons] at h
    exact ne_nil_of_mem_consMerged h.1 (ih h.2)

theorem isChain_merge (ts : List Token) : (merge ts).IsChain Apart := by
  induction ts with
  | nil => exact .nil
  | cons t ts ih => exact isChain_consMerged t ih

end Token

namespace Span

/-- Spans that take up a source text: none is empty, each begins where the one before it ends, and
their texts are the source. -/
structure Tile (source : Text) (spans : List Span) : Prop where
  nonempty : ∀ s ∈ spans, s.text ≠ [] ∧ s.start < s.stop
  first : ∀ s, spans.head? = some s → s.start = 0
  contiguous : spans.IsChain fun s t => s.stop = t.start
  last : (spans.getLast?.map stop).getD 0 = Text.byteSize source
  parts : ∀ s ∈ spans, source.HasPart s.start s.stop s.text
  whole : spans.flatMap text = source
  apart : spans.IsChain fun s t => ¬ (s.category = .plain ∧ t.category = .plain)

variable {start : Nat} {ts : List Token}

theorem flatMap_place (start : Nat) (ts : List Token) :
    (place start ts).flatMap text = ts.flatMap Token.text := by
  induction ts generalizing start with
  | nil => rfl
  | cons t ts ih =>
    rw [place, List.flatMap_cons, List.flatMap_cons, ih]

theorem head?_place {s : Span} (h : (place start ts).head? = some s) : s.start = start := by
  cases ts with
  | nil => cases h
  | cons t ts =>
    cases h
    rfl

theorem isChain_place (start : Nat) (ts : List Token) :
    (place start ts).IsChain fun s t => s.stop = t.start := by
  induction ts generalizing start with
  | nil => exact .nil
  | cons t ts ih =>
    cases ts with
    | nil => exact .singleton _
    | cons u us =>
      have h := ih (start + Text.byteSize t.text)
      rw [place] at h
      rw [place, place]
      exact List.isChain_cons_cons.2 ⟨rfl, h⟩

theorem getLast?_place (start : Nat) (ts : List Token) :
    ((place start ts).getLast?.map stop).getD start =
      start + Text.byteSize (ts.flatMap Token.text) := by
  induction ts generalizing start with
  | nil => rfl
  | cons t ts ih =>
    have h := ih (start + Text.byteSize t.text)
    rw [List.flatMap_cons, Text.byteSize_append, ← Nat.add_assoc, ← h, place, List.getLast?_cons]
    cases (place (start + Text.byteSize t.text) ts).getLast? <;> rfl

theorem hasPart_of_mem_place {before : Text} {s : Span} (h : s ∈ place (Text.byteSize before) ts) :
    (before ++ ts.flatMap Token.text).HasPart s.start s.stop s.text := by
  induction ts generalizing before with
  | nil => cases h
  | cons t ts ih =>
    rw [List.flatMap_cons, ← List.append_assoc]
    rw [place, ← Text.byteSize_append] at h
    rcases List.mem_cons.1 h with rfl | h
    · exact ⟨before, ts.flatMap Token.text, rfl, rfl, rfl⟩
    · exact ih h

theorem nonempty_of_mem_place (h : ∀ t ∈ ts, t.text ≠ []) :
    ∀ s ∈ place start ts, s.text ≠ [] ∧ s.start < s.stop := by
  induction ts generalizing start with
  | nil => exact fun s hs => nomatch hs
  | cons t ts ih =>
    rw [List.forall_mem_cons] at h
    have ht := Text.byteSize_pos h.1
    rw [place]
    refine List.forall_mem_cons.2 ⟨⟨h.1, ?_⟩, ih h.2⟩
    change start < start + Text.byteSize t.text
    omega

theorem apart_place (start : Nat) (h : ts.IsChain Token.Apart) :
    (place start ts).IsChain fun s t => ¬ (s.category = .plain ∧ t.category = .plain) := by
  induction ts generalizing start with
  | nil => exact .nil
  | cons t ts ih =>
    cases ts with
    | nil => exact .singleton _
    | cons u us =>
      rw [List.isChain_cons_cons] at h
      have hs := ih (start + Text.byteSize t.text) h.2
      rw [place] at hs
      rw [place, place]
      exact List.isChain_cons_cons.2 ⟨h.1, hs⟩

/-- The scan of a source text ends, and its spans tile the text. -/
theorem classify_tile (p : Profile) (inline : p.Inline) (source : Text) :
    ∃ spans, classify? p source = some spans ∧ classify p source = spans ∧ Tile source spans := by
  obtain ⟨ts, hts⟩ := Token.exists_tokens? inline source
  have hc : classify? p source = some (place 0 (Token.merge ts)) := by rw [classify?, hts]; rfl
  refine ⟨_, hc, by rw [classify, hc]; rfl, ?_⟩
  obtain ⟨whole, filled⟩ := Token.flatMap_tokens? hts
  have whole : (Token.merge ts).flatMap Token.text = source := (Token.flatMap_merge ts).trans whole
  constructor
  · exact nonempty_of_mem_place (Token.ne_nil_of_mem_merge filled)
  · intro s hs
    exact head?_place hs
  · exact isChain_place 0 (Token.merge ts)
  · rw [getLast?_place, whole, Nat.zero_add]
  · intro s hs
    have hs : s ∈ place (Text.byteSize []) (Token.merge ts) := hs
    have h := hasPart_of_mem_place hs
    rwa [List.nil_append, whole] at h
  · rw [flatMap_place, whole]
  · exact apart_place 0 (Token.isChain_merge ts)

/-- Delimiters that overlap each other, one that closes nothing and a marker that is part of a
delimiter. -/
theorem classify_tile_of_overlapping :
    let p : Profile :=
      ⟨some "/".toList, [⟨"/*".toList, "*/".toList⟩, ⟨"*/".toList, []⟩, ⟨[], "/*".toList⟩],
        .empty, .empty, .empty⟩
    let source := "é/*/ x */ 1.5 \"\\".toList
    p.Inline ∧ ∃ spans, classify? p source = some spans ∧ classify p source = spans ∧
      Tile source spans :=
  ⟨by decide, classify_tile _ (by decide) _⟩

/-- A scan that comes to a comment whose marker begins with a line feed does not end. -/
theorem classify?_eq_none {p : Profile} {marker : Text} (blocks : p.blockComments = [])
    (line : p.lineComment = some ('\n' :: marker)) (behind : Text) :
    classify? p ('\n' :: marker ++ behind) = none := by
  have opens : Text.startsWith ('\n' :: marker) ('\n' :: (marker ++ behind)) = true := by
    rw [Text.startsWith, Text.after?_eq_some_iff.2 (List.cons_append ..).symm]
    rfl
  have stays : (Token.next p '\n' (marker ++ behind)).1.text = [] := by
    simp [Token.next, Token.comment?, blocks, line, Token.lineComment?, opens, Text.spanOf]
  rw [classify?, List.cons_append, Token.tokens?_cons, if_pos stays, Option.map_none]

end Span

end SourcePreview
