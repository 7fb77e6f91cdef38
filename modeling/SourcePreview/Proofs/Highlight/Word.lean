import SourcePreview.Proofs.Expression.Shape
import SourcePreview.Proofs.Highlight.Step

/-! The words of a text, its whole identifiers, in the highlighter. Outside comments and strings the
scan comes to each word and reads all of it (`standsAt_of_isWord`), and a plain one goes into the
plain span around it (`exists_covers`). So a word is one span of its kind, and spans of these kinds
are words. -/

namespace SourcePreview

/-- A word of a text: an identifier with no part of a name right in front of it or right behind
it. -/
structure Text.IsWord (source before word behind : Text) : Prop where
  whole : source = before ++ (word ++ behind)
  identifier : isIdentifier word = true
  front : ∀ c, before.getLast? = some c → isNamePart c = false
  back : ∀ c, behind.head? = some c → isNamePart c = false

def Profile.Calls (p : Profile) (word behind : Text) : Category → Prop
  | .keyword => word ∈ p.keywords.words
  | .builtin => word ∉ p.keywords.words ∧ word ∈ p.builtins.words
  | .functionName => word ∉ p.keywords.words ∧ word ∉ p.builtins.words ∧ behind.head? = some '('
  | .plain => word ∉ p.keywords.words ∧ word ∉ p.builtins.words ∧ behind.head? ≠ some '('
  | .string | .number | .comment => False

namespace Token

variable {p : Profile} {source before word behind : Text}

theorem calls_wordCategory (p : Profile) (word behind : Text) :
    p.Calls word behind (wordCategory p word behind) := by
  unfold wordCategory
  by_cases keyword : word ∈ p.keywords.words
  · rw [if_pos (by simpa [WordSet.contains] using keyword)]
    exact keyword
  rw [if_neg (by simpa [WordSet.contains] using keyword)]
  by_cases builtin : word ∈ p.builtins.words
  · rw [if_pos (by simpa [WordSet.contains] using builtin)]
    exact ⟨keyword, builtin⟩
  rw [if_neg (by simpa [WordSet.contains] using builtin)]
  by_cases called : behind.head? = some '('
  · rw [if_pos (beq_iff_eq.2 called)]
    exact ⟨keyword, builtin, called⟩
  · rw [if_neg (by simpa using called)]
    exact ⟨keyword, builtin, called⟩

theorem not_isNumberPart_of_isNameStart {c : Char} (h : Text.isNameStart c = true) :
    isNumberPart c = false := by
  rw [isNumberPart, Bool.or_eq_false_iff]
  constructor
  · cases digit : Number.isDigit c with
    | false => rfl
    | true =>
      rw [isNameStart_of_isDigit digit] at h
      cases h
  · rw [beq_eq_false_iff_ne]
    rintro rfl
    revert h
    decide

theorem exists_name_of_isNameStart (inline : p.Inline) {c : Char} {r : Text}
    (start : Text.isNameStart c = true)
    (outside : ∀ front t a b, StandsAt p (before ++ c :: r) front t → before = front ++ a →
      t.text = a ++ b → b ≠ [] →
      t.category ≠ .comment ∧ t.category ≠ .string) :
    ∃ front a b rest, before = front ++ a ∧ r = b ++ rest ∧ Text.isIdentifier (a ++ c :: b) = true ∧
      (∀ e, rest.head? = some e → Text.isNamePart e = false) ∧
      StandsAt p (before ++ c :: r) front ⟨wordCategory p (a ++ c :: b) rest, a ++ c :: b⟩ := by
  obtain ⟨front, t, a, b, stands, rfl, text, filled⟩ :=
    exists_standsAt inline (x := before) (List.cons_ne_nil c r)
  have colored := outside front t a b stands rfl text filled
  obtain ⟨d, s, whole, rfl⟩ := stands.eq_next
  rw [List.append_assoc, List.append_cancel_left_eq] at whole
  have rest := next_append p d s
  -- what is left of the token at the letter begins with it
  obtain ⟨e, b, rfl⟩ := List.exists_cons_of_ne_nil filled
  obtain ⟨rfl, hr⟩ : c = e ∧ r = b ++ (next p d s).2 := by
    rw [text, ← whole, List.append_assoc, List.append_cancel_left_eq, List.cons_append] at rest
    exact ⟨(List.cons.inj rest).1.symm, (List.cons.inj rest).2.symm⟩
  have reads := reads_next p d s
  generalize next p d s = step at reads stands text colored hr
  cases reads with
  | comment h => exact absurd rfl colored.1
  | string uncommented h => exact absurd rfl colored.2
  | number uncommented unquoted digit h =>
    have digits := (Text.spanOf_eq_iff.1 h).2.1
    obtain rfl := text
    rw [List.all_append, List.all_cons, not_isNumberPart_of_isNameStart start, Bool.false_and,
      Bool.and_false] at digits
    cases digits
  | word uncommented unquoted digit start' h =>
    obtain rfl := text
    exact ⟨front, a, b, _, rfl, hr, Text.isIdentifier_of_spanOf start' h,
      (Text.spanOf_eq_iff.1 h).2.2, stands⟩
  | other uncommented unquoted digit start' =>
    cases a with
    | nil =>
      obtain ⟨rfl, -⟩ := List.cons.inj text
      rw [start] at start'
      cases start'
    | cons e a => simp at text

/-- Where no comment and no string takes it in, a word is a token. -/
theorem standsAt_of_isWord (inline : p.Inline) (h : source.IsWord before word behind)
    (outside : ∀ front t a b, StandsAt p source front t → before = front ++ a → t.text = a ++ b →
      b ≠ [] → t.category ≠ .comment ∧ t.category ≠ .string) :
    StandsAt p source before ⟨wordCategory p word behind, word⟩ := by
  obtain ⟨rfl, identifier, front, back⟩ := h
  obtain ⟨c, w, rfl, start, -⟩ := Text.exists_cons_of_isIdentifier identifier
  obtain ⟨x, a, b, rest, rfl, hr, name, ends, stands⟩ :=
    exists_name_of_isNameStart inline start outside
  -- in front of the word there is no part of a name, so the token begins with it
  obtain rfl : a = [] := by
    rcases List.eq_nil_or_concat a with rfl | ⟨a', e, rfl⟩
    · rfl
    · have other := front e (by simp)
      rw [List.all_eq_true.1 (Text.all_isNamePart name) e (by simp)] at other
      cases other
  have word : Text.spanOf Text.isNamePart (c :: w ++ behind) = (c :: w, behind) :=
    Text.spanOf_eq_iff.2 ⟨rfl, Text.all_isNamePart identifier, back⟩
  have token : Text.spanOf Text.isNamePart (c :: w ++ behind) = (c :: b, rest) :=
    Text.spanOf_eq_iff.2 ⟨congrArg (c :: ·) hr, Text.all_isNamePart name, ends⟩
  obtain ⟨he, rfl⟩ := Prod.mk.inj (word.symm.trans token)
  rw [List.nil_append, ← he] at stands
  simpa using stands

end Token

namespace Span

variable {p : Profile} {source : Text} {s t u : Span} {start stop : Nat} {ts : List Token}
  {spans : List Span}

/-- A span of the same kind that takes up at least the place of the other one. -/
structure Covers (s t : Span) : Prop where
  category : s.category = t.category
  front : s.start ≤ t.start
  back : t.stop ≤ s.stop

theorem Covers.refl (s : Span) : Covers s s := ⟨rfl, Nat.le_refl _, Nat.le_refl _⟩

theorem Covers.trans (h : Covers s t) (h' : Covers t u) : Covers s u :=
  ⟨h.category.trans h'.category, h.front.trans h'.front, h'.back.trans h.back⟩

theorem exists_covers_consMerged (t : Token) (h : s ∈ place start (t :: ts)) :
    ∃ s' ∈ place start (Token.consMerged t ts), Covers s' s := by
  cases ts with
  | nil => exact ⟨s, h, .refl s⟩
  | cons u us =>
    rw [Token.consMerged]
    split
    · next plain =>
      rw [place]
      rw [place, place, List.mem_cons, List.mem_cons] at h
      rw [Text.byteSize_append, ← Nat.add_assoc]
      rcases h with rfl | rfl | h
      · exact ⟨_, List.mem_cons_self, plain.1.symm, Nat.le_refl _, Nat.le_add_right _ _⟩
      · exact ⟨_, List.mem_cons_self, plain.2.symm, Nat.le_add_right _ _, Nat.le_refl _⟩
      · exact ⟨s, List.mem_cons_of_mem _ h, .refl s⟩
    · exact ⟨s, h, .refl s⟩

/-- Each token lies in a span of its kind. -/
theorem exists_covers (h : s ∈ place start ts) :
    ∃ s' ∈ place start (Token.merge ts), Covers s' s := by
  induction ts generalizing start with
  | nil => cases h
  | cons t ts ih =>
    rw [place, List.mem_cons] at h
    have merged : ∃ s' ∈ place start (t :: Token.merge ts), Covers s' s := by
      rw [place]
      rcases h with rfl | h
      · exact ⟨_, List.mem_cons_self, .refl _⟩
      · obtain ⟨s', mem, covers⟩ := ih h
        exact ⟨s', List.mem_cons_of_mem _ mem, covers⟩
    obtain ⟨s', mem, covers⟩ := merged
    obtain ⟨s'', mem', covers'⟩ := exists_covers_consMerged t mem
    exact ⟨s'', mem', covers'.trans covers⟩

/-- A span that has a byte in common with the place from `start` to `stop`. -/
def Meets (start stop : Nat) (s : Span) : Prop := s.start < stop ∧ start < s.stop

instance : DecidablePred (Meets start stop) :=
  fun s => inferInstanceAs (Decidable (s.start < stop ∧ start < s.stop))

theorem filter_meets (apart : spans.Pairwise fun s t => s.stop ≤ t.start) (mem : s ∈ spans)
    (filled : start < stop) (front : s.start ≤ start) (back : stop ≤ s.stop) :
    spans.filter (Meets start stop) = [s] := by
  obtain ⟨us, vs, rfl⟩ := List.append_of_mem mem
  rw [List.pairwise_append, List.pairwise_cons] at apart
  obtain ⟨-, ⟨later, -⟩, earlier⟩ := apart
  have meets : Meets start stop s := ⟨front.trans_lt filled, filled.trans_le back⟩
  have none_before : us.filter (Meets start stop) = [] := by
    refine List.filter_eq_nil_iff.2 fun u hu => ?_
    have := earlier u hu s List.mem_cons_self
    rw [decide_eq_true_eq, Meets]
    omega
  have none_behind : vs.filter (Meets start stop) = [] := by
    refine List.filter_eq_nil_iff.2 fun v hv => ?_
    have := later v hv
    rw [decide_eq_true_eq, Meets]
    omega
  rw [List.filter_append, none_before, List.nil_append, List.filter_cons,
    if_pos (decide_eq_true meets), none_behind]

theorem exists_covers_of_standsAt (inline : p.Inline) {before : Text} {t : Token}
    (h : Token.StandsAt p source before t) :
    ∃ s ∈ classify p source, Covers s (ofToken before t) ∧
      (t.category ≠ .plain → s = ofToken before t) := by
  by_cases plain : t.category = .plain
  · obtain ⟨us, vs, hts, rfl⟩ := h
    have mem : ofToken (us.flatMap Token.text) t ∈ place (Text.byteSize []) (us ++ t :: vs) :=
      mem_place_iff.2 ⟨us, t, vs, rfl, rfl⟩
    obtain ⟨s, hs, covers⟩ := exists_covers mem
    rw [classify_of_tokens? hts]
    exact ⟨s, hs, covers, absurd plain⟩
  · exact ⟨ofToken before t, ofToken_mem_classify inline h plain, .refl _, fun _ => rfl⟩

theorem meets_ofToken {front a b : Text} {t : Token} (text : t.text = a ++ b) (hb : b ≠ [])
    (filled : Text.byteSize (front ++ a) < stop) :
    Meets (Text.byteSize (front ++ a)) stop (ofToken front t) := by
  have behind := Text.byteSize_lt_append hb (front ++ a)
  rw [List.append_assoc front a b, ← text] at behind
  refine ⟨Nat.lt_of_le_of_lt ?_ filled, behind⟩
  rw [Text.byteSize_append]
  exact Nat.le_add_right _ _

theorem exists_word_of_mem (inline : p.Inline) (mem : s ∈ classify p source)
    (called : s.category = .keyword ∨ s.category = .builtin ∨ s.category = .functionName) :
    ∃ before behind, source = before ++ (s.text ++ behind) ∧
      s = ofToken before ⟨s.category, s.text⟩ ∧
      Text.isIdentifier s.text = true ∧ (∀ c, behind.head? = some c → Text.isNamePart c = false) ∧
      p.Calls s.text behind s.category := by
  have plain : s.category ≠ .plain := by rcases called with h | h | h <;> rw [h] <;> decide
  obtain ⟨before, t, stands, rfl⟩ := (mem_classify_iff inline plain).1 mem
  obtain ⟨c, r, rfl, rfl⟩ := stands.eq_next
  change (Token.next p c r).1.category = _ ∨ (Token.next p c r).1.category = _ ∨
    (Token.next p c r).1.category = _ at called
  have reads := Token.reads_next p c r
  generalize Token.next p c r = step at reads called
  cases reads with
  | @word text rest uncommented unquoted digit start h =>
    obtain ⟨whole, -, back⟩ := Text.spanOf_eq_iff.1 h
    exact ⟨before, rest, by rw [whole]; rfl, rfl, Text.isIdentifier_of_spanOf start h, back,
      Token.calls_wordCategory p text rest⟩
  | comment | string | number | other => simp at called

/-- A word of the text that no comment and no string meets is met by one span, which is what the
word is called: the word itself, or a plain span around it. A keyword, builtin or function name is
an identifier up to its end, and is called so. -/
theorem classify_words (inline : p.Inline) (source : Text) :
    (∀ before word behind, source.IsWord before word behind →
      (∀ s ∈ classify p source, s.category = .comment ∨ s.category = .string →
        ¬ Meets (Text.byteSize before) (Text.byteSize (before ++ word)) s) →
      ∃ s, (classify p source).filter
        (Meets (Text.byteSize before) (Text.byteSize (before ++ word))) = [s] ∧
        p.Calls word behind s.category ∧ Covers s (ofToken before ⟨s.category, word⟩) ∧
        (s.category ≠ .plain → s = ofToken before ⟨s.category, word⟩)) ∧
    ∀ s ∈ classify p source, s.category = .keyword ∨ s.category = .builtin ∨
      s.category = .functionName →
      ∃ before behind, source = before ++ (s.text ++ behind) ∧
        s = ofToken before ⟨s.category, s.text⟩ ∧
        Text.isIdentifier s.text = true ∧ (∀ c, behind.head? = some c → Text.isNamePart c = false) ∧
        p.Calls s.text behind s.category := by
  refine ⟨fun before word behind isWord outside => ?_, fun s mem called =>
    exists_word_of_mem inline mem called⟩
  have filled : Text.byteSize before < Text.byteSize (before ++ word) := by
    obtain ⟨c, w, rfl, -⟩ := Text.exists_cons_of_isIdentifier isWord.identifier
    exact Text.byteSize_lt_append (List.cons_ne_nil c w) before
  have stands : Token.StandsAt p source before ⟨Token.wordCategory p word behind, word⟩ := by
    refine Token.standsAt_of_isWord inline isWord fun front t a b stands he text hb => ?_
    have meets := meets_ofToken text hb (he ▸ filled)
    rw [← he] at meets
    constructor
    · intro hc
      exact outside _ (ofToken_mem_classify inline stands (by rw [hc]; decide)) (Or.inl hc) meets
    · intro hc
      exact outside _ (ofToken_mem_classify inline stands (by rw [hc]; decide)) (Or.inr hc) meets
  obtain ⟨s, mem, covers, colored⟩ := exists_covers_of_standsAt inline stands
  have called : s.category = Token.wordCategory p word behind := covers.category
  refine ⟨s, filter_meets (pairwise_classify inline source) mem filled covers.front covers.back, ?_,
    ?_, ?_⟩
  · rw [called]
    exact Token.calls_wordCategory p word behind
  · rw [called]
    exact covers
  · rw [called]
    exact colored

/-- Behind a number a builtin, and behind a comment that ends within a name the rest of it, which is
called. -/
theorem classify_words_of_lettered_markers :
    let p : Profile :=
      ⟨some "rem".toList, [⟨"x1".toList, "y".toList⟩], .ofStrings ["f"], .ofStrings ["if"],
        .ofStrings ["len"]⟩
    let source : Text := "1.len f\"if\" x1 if yes(z remark".toList
    let behind : Text := " f\"if\" x1 if yes(z remark".toList
    let called : Span := ⟨"es".toList, .functionName, 19, 21⟩
    p.Inline ∧ source.IsWord "1.".toList "len".toList behind ∧
      (∀ s ∈ classify p source, s.category = .comment ∨ s.category = .string → ¬ Meets 2 5 s) ∧
      called ∈ classify p source ∧
      (∃ s, (classify p source).filter (Meets 2 5) = [s] ∧ p.Calls "len".toList behind s.category ∧
        Covers s (ofToken "1.".toList ⟨s.category, "len".toList⟩) ∧
        (s.category ≠ .plain → s = ofToken "1.".toList ⟨s.category, "len".toList⟩)) ∧
      ∃ before behind, source = before ++ ("es".toList ++ behind) ∧
        called = ofToken before ⟨.functionName, "es".toList⟩ ∧
        Text.isIdentifier "es".toList = true ∧
        (∀ c, behind.head? = some c → Text.isNamePart c = false) ∧
        p.Calls "es".toList behind .functionName := by
  intro p source behind called
  have inline : p.Inline := by decide
  have isWord : source.IsWord "1.".toList "len".toList behind := by
    refine ⟨rfl, by decide +kernel, ?_, ?_⟩
    · rintro c ⟨⟩
      decide +kernel
    · rintro c ⟨⟩
      decide +kernel
  have spans : classify p source = _ := classify_of_within (n := 40) (by decide +kernel)
  have outside :
      ∀ s ∈ classify p source, s.category = .comment ∨ s.category = .string → ¬ Meets 2 5 s := by
    rw [spans]
    decide +kernel
  have mem : called ∈ classify p source := by
    rw [spans]
    decide +kernel
  obtain ⟨forward, backward⟩ := classify_words inline source
  exact ⟨inline, isWord, outside, mem, forward _ _ behind isWord outside,
    backward called mem (Or.inr (Or.inr rfl))⟩

end Span

end SourcePreview
