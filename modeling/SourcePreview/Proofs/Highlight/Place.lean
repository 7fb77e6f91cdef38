import SourcePreview.Proofs.Highlight.Tiling

/-! The places of tokens. A token stands behind the tokens before it, is the one that the text there
begins with, and is followed by the next one; each place of the text is in one of them. The spans
that are not plain are these tokens (`mem_classify_iff`), since only plain ones are made one. -/

namespace SourcePreview

theorem Text.byteSize_lt_append {s : Text} (h : s ≠ []) (t : Text) :
    byteSize t < byteSize (t ++ s) := by
  rw [byteSize_append]
  exact Nat.lt_add_of_pos_right (byteSize_pos h)

theorem Text.prefix_of_byteSize_le {s t whole : Text} (hs : s <+: whole) (ht : t <+: whole)
    (h : byteSize s ≤ byteSize t) :
    s <+: t := by
  rcases List.prefix_or_prefix_of_prefix hs ht with hp | ⟨r, rfl⟩
  · exact hp
  · cases r with
    | nil => exact (List.append_nil t).symm ▸ List.prefix_rfl
    | cons c r => exact absurd (byteSize_lt_append (List.cons_ne_nil c r) t) (Nat.not_lt_of_le h)

theorem Text.eq_of_byteSize_eq {s t whole : Text} (hs : s <+: whole) (ht : t <+: whole)
    (h : byteSize s = byteSize t) : s = t :=
  (prefix_of_byteSize_le hs ht (Nat.le_of_eq h)).eq_of_length_le
    (prefix_of_byteSize_le ht hs (Nat.le_of_eq h.symm)).length_le

namespace Token

def tokensWithin? (p : Profile) : Nat → Text → Option (List Token)
  | 0, _ => none
  | _ + 1, [] => some []
  | n + 1, c :: r =>
    if (next p c r).1.text.isEmpty then none
    else (tokensWithin? p n (next p c r).2).map ((next p c r).1 :: ·)

theorem tokens?_of_within {p : Profile} {n : Nat} {s : Text} {ts : List Token}
    (h : tokensWithin? p n s = some ts) :
    tokens? p s = some ts := by
  induction n generalizing s ts with
  | zero => cases h
  | succ n ih =>
    cases s with
    | nil =>
      cases h
      exact tokens?_nil p
    | cons c r =>
      rw [tokensWithin?] at h
      split at h
      · cases h
      · next filled =>
        obtain ⟨us, hu, rfl⟩ := Option.map_eq_some_iff.1 h
        rw [tokens?_cons, if_neg (by simpa using filled), ih hu]
        rfl

def StandsAt (p : Profile) (source before : Text) (t : Token) : Prop :=
  ∃ us vs, tokens? p source = some (us ++ t :: vs) ∧ us.flatMap text = before

variable {p : Profile} {source before before' : Text} {t t' : Token}

theorem tokens?_split {us vs : List Token} (h : tokens? p source = some (us ++ vs)) :
    ∃ s, source = us.flatMap text ++ s ∧ tokens? p s = some vs := by
  induction us generalizing source with
  | nil => exact ⟨source, rfl, h⟩
  | cons u us ih =>
    cases source with
    | nil => simp at h
    | cons c r =>
      rw [tokens?_cons] at h
      split at h
      · cases h
      · obtain ⟨ts, hts, he⟩ := Option.map_eq_some_iff.1 h
        obtain ⟨rfl, rfl⟩ := List.cons.inj he
        obtain ⟨s, hs, hv⟩ := ih hts
        refine ⟨s, ?_, hv⟩
        rw [List.flatMap_cons, List.append_assoc, ← hs]
        exact (next_append p c r).symm

theorem tokens?_eq_cons {s : Text} {ts : List Token} (h : tokens? p s = some (t :: ts)) :
    ∃ c r, s = c :: r ∧ t = (next p c r).1 ∧ t.text ≠ [] ∧ tokens? p (next p c r).2 = some ts := by
  cases s with
  | nil => simp at h
  | cons c r =>
    rw [tokens?_cons] at h
    split at h
    · cases h
    · next filled =>
      obtain ⟨ts', hts, he⟩ := Option.map_eq_some_iff.1 h
      obtain ⟨rfl, rfl⟩ := List.cons.inj he
      exact ⟨c, r, rfl, rfl, filled, hts⟩

namespace StandsAt

theorem eq_next (h : StandsAt p source before t) :
    ∃ c r, source = before ++ c :: r ∧ t = (next p c r).1 := by
  obtain ⟨us, vs, hs, rfl⟩ := h
  obtain ⟨s, rfl, hv⟩ := tokens?_split hs
  obtain ⟨c, r, rfl, ht, -⟩ := tokens?_eq_cons hv
  exact ⟨c, r, rfl, ht⟩

theorem eq_next_of_eq {c : Char} {r : Text} (h : StandsAt p (before ++ c :: r) before t) :
    t = (next p c r).1 := by
  obtain ⟨d, s, he, ht⟩ := h.eq_next
  obtain ⟨rfl, rfl⟩ := List.cons.inj (List.append_cancel_left he)
  exact ht

theorem isPrefix (h : StandsAt p source before t) : before ++ t.text <+: source := by
  obtain ⟨c, r, rfl, rfl⟩ := h.eq_next
  refine ⟨(next p c r).2, ?_⟩
  rw [List.append_assoc, next_append]

theorem follow (h : StandsAt p source before t) {s : Text} (hs : source = before ++ t.text ++ s)
    (hn : s ≠ []) :
    ∃ t', StandsAt p source (before ++ t.text) t' := by
  obtain ⟨us, vs, ht, rfl⟩ := h
  have joined : us.flatMap text ++ t.text = (us ++ [t]).flatMap text := by simp
  rw [List.append_cons] at ht
  obtain ⟨s', hs', hv⟩ := tokens?_split ht
  rw [joined, hs', List.append_cancel_left_eq] at hs
  subst hs
  cases vs with
  | nil =>
    obtain ⟨c, r, rfl⟩ := List.exists_cons_of_ne_nil hn
    rw [tokens?_cons] at hv
    split at hv <;> simp at hv
  | cons v vs => exact ⟨v, us ++ [t], vs, ht, joined.symm⟩

/-- Of two tokens the one that stands further in front ends before the other one. -/
theorem isPrefix_of_length_lt (h : StandsAt p source before t) (h' : StandsAt p source before' t')
    (hl : before.length < before'.length) : before ++ t.text <+: before' := by
  obtain ⟨us, vs, ht, rfl⟩ := h
  obtain ⟨us', vs', ht', rfl⟩ := h'
  rw [ht, Option.some_inj] at ht'
  rcases List.append_eq_append_iff.1 ht' with ⟨ws, rfl, he⟩ | ⟨ws, rfl, -⟩
  · cases ws with
    | nil => simp at hl
    | cons w ws =>
      obtain ⟨rfl, -⟩ := List.cons.inj he
      simp
  · rw [List.flatMap_append, List.length_append] at hl
    omega

end StandsAt

theorem exists_standsAt_behind {us vs : List Token} (h : tokens? p source = some (us ++ vs))
    {a s : Text} (hv : vs.flatMap text = a ++ s) (hs : s ≠ []) :
    ∃ before t a' b, StandsAt p source before t ∧ us.flatMap text ++ a = before ++ a' ∧
      t.text = a' ++ b ∧ b ≠ [] := by
  induction vs generalizing us a s with
  | nil => exact absurd (List.append_eq_nil_iff.1 hv.symm).2 hs
  | cons v vs ih =>
    have passed : ∀ a, us.flatMap text ++ (v.text ++ a) = (us ++ [v]).flatMap text ++ a := by simp
    rw [List.flatMap_cons] at hv
    rcases List.append_eq_append_iff.1 hv with ⟨w, rfl, hw⟩ | ⟨w, he, rfl⟩
    · rw [passed]
      exact ih (by rwa [← List.append_cons]) hw hs
    · cases w with
      | nil =>
        rw [List.append_nil] at he
        rw [← he, ← List.append_nil v.text, passed]
        exact ih (by rwa [← List.append_cons]) rfl hs
      | cons c w =>
        exact ⟨us.flatMap text, v, a, c :: w, ⟨us, vs, h, rfl⟩, rfl, he, List.cons_ne_nil c w⟩

theorem exists_standsAt (inline : p.Inline) {x s : Text} (hs : s ≠ []) :
    ∃ before t a b, StandsAt p (x ++ s) before t ∧ x = before ++ a ∧ t.text = a ++ b ∧ b ≠ [] := by
  obtain ⟨ts, hts⟩ := exists_tokens? inline (x ++ s)
  have behind : tokens? p (x ++ s) = some ([] ++ ts) := hts
  exact exists_standsAt_behind behind (flatMap_tokens? hts).1 hs

theorem merge_concat (ts : List Token) {t : Token} (colored : t.category ≠ .plain) :
    merge (ts ++ [t]) = merge ts ++ [t] := by
  induction ts with
  | nil => rfl
  | cons u us ih =>
    change consMerged u (merge (us ++ [t])) = consMerged u (merge us) ++ [t]
    rw [ih]
    cases merge us with
    | nil => simp [consMerged, colored]
    | cons v vs =>
      rw [List.cons_append, consMerged, consMerged]
      split <;> rfl

end Token

namespace Span

variable {p : Profile} {source : Text} {s span : Span} {start : Nat} {ts : List Token}

theorem place_append (start : Nat) (ts us : List Token) :
    place start (ts ++ us) = place start ts ++ place (start + Text.byteSize (ts.flatMap Token.text))
    us := by
  induction ts generalizing start with
  | nil => rfl
  | cons t ts ih =>
    rw [List.cons_append, place, place, ih, List.flatMap_cons, Text.byteSize_append, Nat.add_assoc]
    rfl

theorem classify?_of_tokens? (h : Token.tokens? p source = some ts) :
    classify? p source = some (place 0 (Token.merge ts)) := by
  rw [classify?, h]
  rfl

theorem classify_of_tokens? (h : Token.tokens? p source = some ts) :
    classify p source = place 0 (Token.merge ts) := by
  rw [classify, classify?_of_tokens? h]
  rfl

theorem classify_of_within {n : Nat} (h : (Token.tokensWithin? p n source).isSome = true) :
    classify p source = place 0 (Token.merge ((Token.tokensWithin? p n source).getD [])) := by
  obtain ⟨ts, ht⟩ := Option.isSome_iff_exists.1 h
  rw [classify_of_tokens? (Token.tokens?_of_within ht), ht]
  rfl

theorem start_le_of_mem_place (h : s ∈ place start ts) : start ≤ s.start := by
  induction ts generalizing start with
  | nil => cases h
  | cons t ts ih =>
    rw [place] at h
    rcases List.mem_cons.1 h with rfl | h
    · exact Nat.le_refl start
    · exact (Nat.le_add_right _ _).trans (ih h)

theorem pairwise_place (start : Nat) (ts : List Token) :
    (place start ts).Pairwise fun s t => s.stop ≤ t.start := by
  induction ts generalizing start with
  | nil => exact .nil
  | cons t ts ih =>
    rw [place]
    exact .cons (fun s => start_le_of_mem_place) (ih _)

theorem pairwise_classify (inline : p.Inline) (source : Text) :
    (classify p source).Pairwise fun s t => s.stop ≤ t.start := by
  obtain ⟨ts, hts⟩ := Token.exists_tokens? inline source
  rw [classify_of_tokens? hts]
  exact pairwise_place 0 (Token.merge ts)

theorem getLast?_classify (inline : p.Inline) (mem : span ∈ classify p source)
    (ends : span.stop = Text.byteSize source) :
    (classify p source).getLast? = some span := by
  obtain ⟨spans, -, rfl, tile⟩ := classify_tile p inline source
  have ordered := pairwise_classify inline source
  obtain ⟨us, vs, he⟩ := List.append_of_mem mem
  cases vs with
  | nil => rw [he, List.getLast?_concat]
  | cons v vs =>
    -- a span behind it would stand behind the end of the text
    have listed : v ∈ classify p source := by rw [he]; simp
    have filled := (tile.nonempty v listed).2
    obtain ⟨before, behind, whole, -, stop⟩ := tile.parts v listed
    have size := congrArg Text.byteSize whole
    rw [Text.byteSize_append] at size
    rw [he, List.pairwise_append, List.pairwise_cons] at ordered
    have later := ordered.2.1.1 v List.mem_cons_self
    omega

def ofToken (before : Text) (t : Token) : Span :=
  ⟨t.text, t.category, Text.byteSize before, Text.byteSize (before ++ t.text)⟩

theorem mem_place_iff {before : Text} : span ∈ place (Text.byteSize before) ts ↔
    ∃ us t vs, ts = us ++ t :: vs ∧ span = ofToken (before ++ us.flatMap Token.text) t := by
  induction ts generalizing before with
  | nil => simp [place]
  | cons t ts ih =>
    rw [place, ← Text.byteSize_append, List.mem_cons, ih]
    constructor
    · rintro (rfl | ⟨us, u, vs, rfl, rfl⟩)
      · exact ⟨[], t, ts, rfl, by simp [ofToken]⟩
      · exact ⟨t :: us, u, vs, rfl, by simp⟩
    · rintro ⟨us, u, vs, he, rfl⟩
      cases us with
      | nil =>
        obtain ⟨rfl, rfl⟩ := List.cons.inj he
        exact Or.inl (by simp [ofToken])
      | cons w us =>
        obtain ⟨rfl, rfl⟩ := List.cons.inj he
        exact Or.inr ⟨us, u, vs, rfl, by simp⟩

theorem mem_place_consMerged (t : Token) (hp : span.category ≠ .plain) :
    span ∈ place start (Token.consMerged t ts) ↔ span ∈ place start (t :: ts) := by
  have other : ∀ {text a b}, span ≠ ⟨text, .plain, a, b⟩ := by
    rintro text a b rfl
    exact hp rfl
  cases ts with
  | nil => rfl
  | cons u us =>
    rw [Token.consMerged]
    split
    · next plain => simp [place, plain.1, plain.2, other, Nat.add_assoc]
    · rfl

theorem mem_place_merge (hp : span.category ≠ .plain) :
    span ∈ place start (Token.merge ts) ↔ span ∈ place start ts := by
  induction ts generalizing start with
  | nil => rfl
  | cons t ts ih =>
    change span ∈ place start (Token.consMerged t (Token.merge ts)) ↔ _
    rw [mem_place_consMerged t hp, place, place, List.mem_cons, List.mem_cons, ih]

/-- The spans that are not plain are the tokens that are not. -/
theorem mem_classify_iff (inline : p.Inline) (hp : span.category ≠ .plain) :
    span ∈ classify p source ↔ ∃ before t, Token.StandsAt p source before t ∧
    span = ofToken before t := by
  obtain ⟨ts, hts⟩ := Token.exists_tokens? inline source
  have spans : classify p source = place (Text.byteSize []) (Token.merge ts) :=
    classify_of_tokens? hts
  rw [spans, mem_place_merge hp, mem_place_iff]
  constructor
  · rintro ⟨us, t, vs, rfl, he⟩
    exact ⟨us.flatMap Token.text, t, ⟨us, vs, hts, rfl⟩, he⟩
  · rintro ⟨before, t, ⟨us, vs, ht, rfl⟩, he⟩
    rw [hts, Option.some_inj] at ht
    exact ⟨us, t, vs, ht, he⟩

theorem ofToken_mem_classify (inline : p.Inline) {before : Text} {t : Token}
    (h : Token.StandsAt p source before t) (hp : t.category ≠ .plain) :
    ofToken before t ∈ classify p source := by
  have colored : (ofToken before t).category ≠ .plain := hp
  exact (mem_classify_iff inline colored).2 ⟨before, t, h, rfl⟩

end Span

end SourcePreview
