import SourcePreview.Proofs.Highlight.Place

/-! The highlighter taken up again at a span. No token heeds the text in front of it, and where
spans are parted, the tokens they were merged from are parted as well (`exists_of_merge_eq_append`).
So the spans from one span on are those of the text from there on, moved to its place. -/

namespace SourcePreview

namespace Token

variable {ts front behind : List Token}

theorem merge_cons (t : Token) (ts : List Token) : merge (t :: ts) = consMerged t (merge ts) := rfl

/-- A list of merged tokens is parted only between tokens. -/
theorem exists_of_merge_eq_append (h : merge ts = front ++ behind) :
    ∃ us vs, ts = us ++ vs ∧ merge us = front ∧ merge vs = behind := by
  induction ts generalizing front with
  | nil =>
    obtain ⟨rfl, rfl⟩ := List.append_eq_nil_iff.1 h.symm
    exact ⟨[], [], rfl, rfl, rfl⟩
  | cons t ts ih =>
    cases front with
    | nil => exact ⟨[], t :: ts, rfl, rfl, h⟩
    | cons f front =>
      rw [merge_cons] at h
      cases hm : merge ts with
      | nil =>
        rw [hm] at h
        obtain ⟨rfl, he⟩ := List.cons.inj h
        obtain ⟨rfl, rfl⟩ := List.append_eq_nil_iff.1 he.symm
        exact ⟨[t], ts, rfl, rfl, hm⟩
      | cons u us =>
        rw [hm, consMerged] at h
        split at h
        · next plain =>
          obtain ⟨rfl, rfl⟩ := List.cons.inj h
          obtain ⟨xs, ys, rfl, hx, hy⟩ := @ih (u :: front) hm
          refine ⟨t :: xs, ys, rfl, ?_, hy⟩
          rw [merge_cons, hx, consMerged, if_pos plain]
        · next apart =>
          obtain ⟨rfl, he⟩ := List.cons.inj h
          obtain ⟨xs, ys, rfl, hx, hy⟩ := ih (hm.trans he)
          refine ⟨t :: xs, ys, rfl, ?_, hy⟩
          rw [merge_cons, hx]
          cases front with
          | nil => rfl
          | cons v front =>
            obtain ⟨rfl, -⟩ := List.cons.inj he
            rw [consMerged, if_neg apart]

end Token

namespace Span

variable {p : Profile} {source : Text} {span : Span} {front others : List Span} {ts : List Token}

/-- A span that begins and ends a number of bytes later. -/
def shift (n : Nat) (s : Span) : Span := ⟨s.text, s.category, s.start + n, s.stop + n⟩

theorem place_add (start n : Nat) (ts : List Token) :
    place (start + n) ts = (place start ts).map (shift n) := by
  induction ts generalizing start with
  | nil => rfl
  | cons t ts ih =>
    rw [place, place, List.map_cons, ← ih, Nat.add_right_comm]
    rfl

theorem exists_of_place_eq_append {start : Nat} (h : place start ts = front ++ others) :
    ∃ us vs, ts = us ++ vs ∧ place (start + Text.byteSize (us.flatMap Token.text)) vs = others := by
  induction front generalizing start ts with
  | nil => exact ⟨[], ts, rfl, h⟩
  | cons s front ih =>
    cases ts with
    | nil => cases h
    | cons t ts =>
      rw [place] at h
      obtain ⟨us, vs, rfl, hv⟩ := ih (List.cons.inj h).2
      refine ⟨t :: us, vs, rfl, ?_⟩
      rwa [List.flatMap_cons, Text.byteSize_append, ← Nat.add_assoc]

/-- The scan of the text from the place of a span on ends, and its spans are that span and those
behind it, each of them that much further in front. -/
theorem classify_resume (inline : p.Inline) (h : classify p source = front ++ span :: others) :
    ∃ before behind, source = before ++ behind ∧ Text.byteSize before = span.start ∧
      classify? p behind = some (classify p behind) ∧
      (classify p behind).map (shift span.start) = span :: others := by
  obtain ⟨ts, hts⟩ := Token.exists_tokens? inline source
  rw [classify_of_tokens? hts] at h
  obtain ⟨ms, ns, parted, hn⟩ := exists_of_place_eq_append h
  obtain ⟨us, vs, rfl, hu, rfl⟩ := Token.exists_of_merge_eq_append parted
  obtain ⟨behind, rfl, hv⟩ := Token.tokens?_split hts
  rw [← hu, Token.flatMap_merge] at hn
  have place : span.start = 0 + Text.byteSize (us.flatMap Token.text) :=
    head?_place (congrArg List.head? hn)
  refine ⟨us.flatMap Token.text, behind, rfl, by rw [place, Nat.zero_add], ?_, ?_⟩
  · rw [classify?_of_tokens? hv, classify_of_tokens? hv]
  · rw [classify_of_tokens? hv, ← hn, place, Nat.zero_add, ← place_add, Nat.zero_add]

/-- Taken up behind a letter of two bytes, at a string whose first letter is no keyword of its
own. -/
theorem classify_resume_of_string :
    let source := "é = f\"x\" # f".toList
    let span : Span := ⟨"f\"x\"".toList, .string, 5, 9⟩
    let others : List Span := [⟨" ".toList, .plain, 9, 10⟩, ⟨"# f".toList, .comment, 10, 13⟩]
    Profile.python.Inline ∧
      classify .python source = [⟨"é = ".toList, .plain, 0, 5⟩] ++ span :: others ∧
      ∃ before behind, source = before ++ behind ∧ Text.byteSize before = 5 ∧
        classify? .python behind = some (classify .python behind) ∧
        (classify .python behind).map (shift 5) = span :: others := by
  intro source span others
  have inline : Profile.python.Inline := by decide
  have spans : classify .python source = [⟨"é = ".toList, .plain, 0, 5⟩] ++ span :: others := by
    rw [classify_of_within (n := 20) (by decide +kernel)]
    decide +kernel
  exact ⟨inline, spans, classify_resume inline spans⟩

end Span

end SourcePreview
