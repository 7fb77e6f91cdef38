import SourcePreview.Proofs.Highlight.Word

/-! The words of a profile decide what identifiers are called, and nothing else. Profiles with the
same markers and string prefixes read the same texts one after the other, so they find the same
comments, strings and numbers; how many plain tokens become one differs. What the words are told by
is a scan that forgets them (`Token.unworded`). -/

namespace SourcePreview

/-- Profiles that differ in their words only. -/
structure Profile.SameMarks (p q : Profile) : Prop where
  lineComment : p.lineComment = q.lineComment
  blockComments : p.blockComments = q.blockComments
  stringPrefixes : p.stringPrefixes = q.stringPrefixes

def Profile.Lists (p : Profile) (word : Text) : Prop :=
  word ∈ p.keywords.words ∨ word ∈ p.builtins.words

namespace Category

/-- Whether the words of a profile have no part in it. -/
def isFixed : Category → Bool
  | .comment | .string | .number => true
  | .keyword | .builtin | .functionName | .plain => false

/-- A category without what the words of a profile say. -/
def unworded (c : Category) : Category := if c.isFixed then c else .plain

@[simp] theorem isFixed_unworded (c : Category) : c.unworded.isFixed = c.isFixed := by
  cases c <;> rfl

theorem unworded_of_isFixed {c : Category} (h : c.isFixed = true) : c.unworded = c := by
  rw [unworded, if_pos h]

theorem unworded_of_not_isFixed {c : Category} (h : c.isFixed = false) : c.unworded = .plain := by
  rw [unworded, if_neg (Bool.eq_false_iff.1 h)]

end Category

namespace Token

variable {p q : Profile} {s : Text}

/-- A token without what the words of a profile say. -/
def unworded (t : Token) : Token := ⟨t.category.unworded, t.text⟩

theorem isFixed_wordCategory (p : Profile) (word rest : Text) :
    (wordCategory p word rest).isFixed = false := by
  unfold wordCategory
  split
  · rfl
  · split
    · rfl
    · split <;> rfl

theorem wordCategory_of_not_lists {word : Text} (h : ¬ p.Lists word) (rest : Text) :
    wordCategory p word rest = if rest.head? == some '(' then .functionName else .plain := by
  obtain ⟨keyword, builtin⟩ := not_or.1 h
  rw [wordCategory, if_neg (by simpa [WordSet.contains] using keyword),
    if_neg (by simpa [WordSet.contains] using builtin)]

theorem comment?_congr (same : p.SameMarks q) (s : Text) : comment? p s = comment? q s := by
  rw [comment?, comment?, same.lineComment, same.blockComments]

theorem string?_congr (same : p.SameMarks q) (s : Text) : string? p s = string? q s := by
  unfold string?
  rw [same.stringPrefixes]

theorem next_congr (same : p.SameMarks q) (c : Char) (r : Text) :
    (next p c r).1.unworded = (next q c r).1.unworded ∧ (next p c r).2 = (next q c r).2 := by
  have reads := reads_next p c r
  generalize next p c r = step at reads
  cases reads with
  | comment h => rw [next_of_comment? (comment?_congr same _ ▸ h)]; exact ⟨rfl, rfl⟩
  | string uncommented h =>
    rw [next_of_string? (comment?_congr same _ ▸ uncommented) (string?_congr same _ ▸ h)]
    exact ⟨rfl, rfl⟩
  | number uncommented unquoted digit h =>
    rw [next_of_digit (comment?_congr same _ ▸ uncommented) (string?_congr same _ ▸ unquoted) digit
      h]
    exact ⟨rfl, rfl⟩
  | word uncommented unquoted digit start h =>
    rw [next_of_nameStart (comment?_congr same _ ▸ uncommented) (string?_congr same _ ▸ unquoted)
      digit start h]
    simp only [unworded, Category.unworded_of_not_isFixed (isFixed_wordCategory _ _ _), and_self]
  | other uncommented unquoted digit start =>
    rw [next_of_other (comment?_congr same _ ▸ uncommented) (string?_congr same _ ▸ unquoted) digit
      start]
    exact ⟨rfl, rfl⟩

theorem tokens?_congr (same : p.SameMarks q) (s : Text) :
    (tokens? p s).map (List.map unworded) = (tokens? q s).map (List.map unworded) := by
  -- on the length of the text, which each token that has a character shortens
  induction hn : s.length using Nat.strongRecOn generalizing s with
  | ind n ih =>
    cases s with
    | nil => rw [tokens?_nil, tokens?_nil]
    | cons c r =>
      obtain ⟨alike, rest⟩ := next_congr same c r
      have text : (next p c r).1.text = (next q c r).1.text := (Token.mk.inj alike).2
      rw [tokens?_cons, tokens?_cons, ← text, ← rest]
      by_cases filled : (next p c r).1.text = []
      · rw [if_pos filled, if_pos filled]
      · rw [if_neg filled, if_neg filled, Option.map_map, Option.map_map]
        have tails := ih _ (hn ▸ (length_next_lt_iff p c r).2 filled) _ rfl
        calc (tokens? p (next p c r).2).map (List.map unworded ∘ ((next p c r).1 :: ·))
            = ((tokens? p (next p c r).2).map (List.map unworded)).map
                ((next p c r).1.unworded :: ·) := by
              rw [Option.map_map]; rfl
          _ = ((tokens? q (next p c r).2).map (List.map unworded)).map
              ((next q c r).1.unworded :: ·) := by
              rw [tails, alike]
          _ = (tokens? q (next p c r).2).map (List.map unworded ∘ ((next q c r).1 :: ·)) := by
              rw [Option.map_map]; rfl

end Token

namespace Span

variable {p q : Profile} {source before word behind : Text} {start stop : Nat} {ts : List Token}
  {spans : List Span}

/-- The comments, strings and numbers among spans. -/
def fixed (spans : List Span) : List Span := spans.filter (·.category.isFixed)

theorem fixed_place_unworded (start : Nat) (ts : List Token) :
    fixed (place start (ts.map Token.unworded)) = fixed (place start ts) := by
  induction ts generalizing start with
  | nil => rfl
  | cons t ts ih =>
    simp only [fixed, List.map_cons, place, List.filter_cons, Token.unworded,
      Category.isFixed_unworded] at ih ⊢
    rw [ih]
    by_cases h : t.category.isFixed = true
    · rw [if_pos h, if_pos h, Category.unworded_of_isFixed h]
    · rw [if_neg h, if_neg h]

theorem fixed_place_consMerged (start : Nat) (t : Token) (ts : List Token) :
    fixed (place start (Token.consMerged t ts)) = fixed (place start (t :: ts)) := by
  cases ts with
  | nil => rfl
  | cons u us =>
    rw [Token.consMerged]
    split
    · next plain => simp [fixed, place, plain.1, plain.2, Category.isFixed, Nat.add_assoc]
    · rfl

theorem fixed_place_merge (start : Nat) (ts : List Token) :
    fixed (place start (Token.merge ts)) = fixed (place start ts) := by
  induction ts generalizing start with
  | nil => rfl
  | cons t ts ih =>
    change fixed (place start (Token.consMerged t (Token.merge ts))) = _
    rw [fixed_place_consMerged, place, place]
    simp only [fixed, List.filter_cons] at ih ⊢
    rw [ih]

theorem fixed_classify (h : Token.tokens? p source = some ts) :
    fixed (classify p source) = fixed (place 0 (ts.map Token.unworded)) := by
  rw [classify_of_tokens? h, fixed_place_merge, fixed_place_unworded]

/-- No comment, string or number among the spans has a byte in common with the place from `start` to
`stop`. -/
def Free (spans : List Span) (start stop : Nat) : Prop := ∀ s ∈ fixed spans, ¬ Meets start stop s

/-- An identifier of a text outside the comments, strings and numbers among spans, and no part of a
longer one there. -/
structure IsFreeWord (spans : List Span) (source before word behind : Text) : Prop where
  whole : source = before ++ (word ++ behind)
  identifier : Text.isIdentifier word = true
  free : Free spans (Text.byteSize before) (Text.byteSize (before ++ word))
  longest : ∀ front a b back, before = front ++ a → behind = b ++ back → Text.isIdentifier
      (a ++ (word ++ b)) = true →
    Free spans (Text.byteSize front) (Text.byteSize (front ++ (a ++ (word ++ b)))) → a = [] ∧ b = []

theorem isFreeWord_of_isWord (h : source.IsWord before word behind)
    (free : Free spans (Text.byteSize before) (Text.byteSize (before ++ word))) :
    IsFreeWord spans source before word behind := by
  refine ⟨h.whole, h.identifier, free, fun front a b back hf hb name _ => ?_⟩
  have parts := Text.all_isNamePart name
  rw [List.all_append, List.all_append, Bool.and_eq_true, Bool.and_eq_true] at parts
  constructor
  · rcases List.eq_nil_or_concat a with rfl | ⟨a, c, rfl⟩
    · rfl
    · have other := h.front c (by simp [hf])
      rw [List.all_eq_true.1 parts.1 c (by simp)] at other
      cases other
  · cases b with
    | nil => rfl
    | cons c b =>
      have other := h.back c (by simp [hb])
      rw [List.all_eq_true.1 parts.2.2 c List.mem_cons_self] at other
      cases other

section Inline

variable (inline : p.Inline)

include inline

theorem filter_meets_of_standsAt {t : Token} (h : Token.StandsAt p source before t)
    (filled : t.text ≠ []) :
    ∃ s, (classify p source).filter
      (Meets (Text.byteSize before) (Text.byteSize (before ++ t.text))) = [s] ∧
      s.category = t.category := by
  obtain ⟨s, mem, covers, -⟩ := exists_covers_of_standsAt inline h
  exact ⟨s, filter_meets (pairwise_classify inline source) mem
    (Text.byteSize_lt_append filled before) covers.front covers.back, covers.category⟩

theorem free_of_standsAt {t : Token} (h : Token.StandsAt p source before t) (filled : t.text ≠ [])
    (other : t.category.isFixed = false) :
    Free (classify p source) (Text.byteSize before) (Text.byteSize (before ++ t.text)) := by
  intro s hs meets
  obtain ⟨mem, fixed⟩ := List.mem_filter.1 hs
  obtain ⟨u, only, category⟩ := filter_meets_of_standsAt inline h filled
  have met : s ∈ [u] := only ▸ List.mem_filter.2 ⟨mem, decide_eq_true meets⟩
  rw [List.mem_singleton.1 met, category, other] at fixed
  cases fixed

/-- A token that reaches into a free place is no comment, string or number. -/
theorem Free.isFixed_eq_false {front a b : Text} {t : Token}
    (free : Free (classify p source) (Text.byteSize (front ++ a)) stop)
    (filled : Text.byteSize (front ++ a) < stop) (h : Token.StandsAt p source front t)
    (text : t.text = a ++ b) (hb : b ≠ []) :
    t.category.isFixed = false := by
  by_contra fixed
  rw [Bool.not_eq_false] at fixed
  have colored : t.category ≠ .plain := by
    intro plain
    rw [plain] at fixed
    cases fixed
  exact free _ (List.mem_filter.2 ⟨ofToken_mem_classify inline h colored, fixed⟩)
    (meets_ofToken text hb filled)

theorem standsAt_of_isFreeWord (h : IsFreeWord (classify p source) source before word behind) :
    Token.StandsAt p source before ⟨Token.wordCategory p word behind, word⟩ := by
  obtain ⟨rfl, identifier, free, longest⟩ := h
  obtain ⟨c, w, rfl, start, -⟩ := Text.exists_cons_of_isIdentifier identifier
  have filled := Text.byteSize_lt_append (List.cons_ne_nil c w) before
  have outside :
      ∀ front t a b, Token.StandsAt p (before ++ c :: (w ++ behind)) front t → before = front ++ a →
      t.text = a ++ b → b ≠ [] → t.category ≠ .comment ∧ t.category ≠ .string := by
    rintro front t a b stands rfl text hb
    have other := free.isFixed_eq_false inline filled stands text hb
    constructor <;> intro category <;> rw [category] at other <;> cases other
  obtain ⟨front, a, b, rest, rfl, hr, name, ends, stands⟩ :=
    Token.exists_name_of_isNameStart inline start outside
  -- the word is all of parts of names, so the token that it begins in goes up to its end at least
  obtain ⟨b', rfl, rfl⟩ : ∃ b', b = w ++ b' ∧ behind = b' ++ rest := by
    rcases List.append_eq_append_iff.1 hr with h | ⟨d, rfl, rfl⟩
    · exact h
    · cases d with
      | nil => exact ⟨[], by simp, rfl⟩
      | cons d ds =>
        have part : Text.isNamePart d = true :=
          List.all_eq_true.1 (Text.all_isNamePart identifier) d (by simp)
        rw [ends d rfl] at part
        cases part
  have around := free_of_standsAt inline stands (by simp) (Token.isFixed_wordCategory _ _ _)
  obtain ⟨rfl, rfl⟩ := longest front a b' rest rfl rfl name around
  simpa using stands

end Inline

/-- Profiles that differ in their words only find the same comments, strings and numbers, and an
identifier outside them that is in no list of either is called the same. -/
theorem classify_of_sameMarks (inline : p.Inline) (same : p.SameMarks q) (source : Text) :
    fixed (classify p source) = fixed (classify q source) ∧
    ∀ before word behind, IsFreeWord (classify p source) source before word behind →
      ¬ p.Lists word → ¬ q.Lists word →
      ∃ s t, (classify p source).filter
          (Meets (Text.byteSize before) (Text.byteSize (before ++ word))) = [s] ∧
        (classify q source).filter
          (Meets (Text.byteSize before) (Text.byteSize (before ++ word))) = [t] ∧
        s.category = t.category := by
  have inline' : q.Inline := fun marker h => inline marker (same.lineComment.trans h)
  obtain ⟨ts, hts⟩ := Token.exists_tokens? inline source
  obtain ⟨us, hus⟩ := Token.exists_tokens? inline' source
  have tokens : ts.map Token.unworded = us.map Token.unworded := by
    have both := Token.tokens?_congr same source
    rw [hts, hus] at both
    exact Option.some.inj both
  have agree : fixed (classify p source) = fixed (classify q source) := by
    rw [fixed_classify hts, fixed_classify hus, tokens]
  refine ⟨agree, fun before word behind h unlisted unlisted' => ?_⟩
  have h' : IsFreeWord (classify q source) source before word behind := by
    obtain ⟨whole, identifier, free, longest⟩ := h
    unfold Free at free longest
    rw [agree] at free longest
    exact ⟨whole, identifier, free, longest⟩
  have filled : word ≠ [] := by
    obtain ⟨c, w, rfl, -⟩ := Text.exists_cons_of_isIdentifier h.identifier
    exact List.cons_ne_nil c w
  obtain ⟨s, met, hs⟩ := filter_meets_of_standsAt inline (standsAt_of_isFreeWord inline h) filled
  obtain ⟨t, met', ht⟩ :=
    filter_meets_of_standsAt inline' (standsAt_of_isFreeWord inline' h') filled
  refine ⟨s, t, met, met', hs.trans (Eq.trans ?_ ht.symm)⟩
  exact (Token.wordCategory_of_not_lists unlisted behind).trans
    (Token.wordCategory_of_not_lists unlisted' behind).symm

/-- Behind a number a function name, which is in no list; a keyword of one profile goes into a plain
span of the other. -/
theorem classify_of_sameMarks_of_number :
    let p : Profile :=
      ⟨some "#".toList, [], .ofStrings ["f"], .ofStrings ["if"], .ofStrings ["len"]⟩
    let q : Profile := ⟨some "#".toList, [], .ofStrings ["f"], .ofStrings ["len", "else"], .empty⟩
    let source : Text := "if len: f\"len\" + 1.z(if) # z".toList
    let before : Text := "if len: f\"len\" + 1.".toList
    let behind : Text := "(if) # z".toList
    p.Inline ∧ p.SameMarks q ∧ IsFreeWord (classify p source) source before "z".toList behind ∧
      ¬ p.Lists "z".toList ∧ ¬ q.Lists "z".toList ∧
      fixed (classify p source) = fixed (classify q source) ∧
      ∃ s t, (classify p source).filter
          (Meets (Text.byteSize before) (Text.byteSize (before ++ "z".toList))) = [s] ∧
        (classify q source).filter
          (Meets (Text.byteSize before) (Text.byteSize (before ++ "z".toList))) = [t] ∧
        s.category = t.category := by
  intro p q source before behind
  have inline : p.Inline := by decide
  have same : p.SameMarks q := ⟨rfl, rfl, rfl⟩
  have isWord : source.IsWord before "z".toList behind := by
    refine ⟨rfl, by decide, ?_, ?_⟩ <;> rintro c ⟨⟩ <;> decide
  have free : IsFreeWord (classify p source) source before "z".toList behind := by
    refine isFreeWord_of_isWord isWord ?_
    rw [Free, classify_of_within (n := 30) (by decide)]
    decide
  have unlisted : ¬ p.Lists "z".toList := by
    unfold Profile.Lists
    decide
  have unlisted' : ¬ q.Lists "z".toList := by
    unfold Profile.Lists
    decide
  obtain ⟨agree, called⟩ := classify_of_sameMarks inline same source
  exact ⟨inline, same, free, unlisted, unlisted', agree,
    called before "z".toList behind free unlisted unlisted'⟩

end Span

end SourcePreview
