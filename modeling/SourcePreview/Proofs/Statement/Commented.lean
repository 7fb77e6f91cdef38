import Mathlib.Data.List.Induction
import SourcePreview.Proofs.Statement.Comment
import SourcePreview.Proofs.Statement.Scan

/-! Lines that stand in comments. The highlighter reads a source text character by character, the
scan of statements line by line; as long as no comment that runs past its line stands behind
something else on it, both agree on which lines a comment is open at (`awaited_iff`), and a line
whose characters are all in comments carries nothing out (`commented_inert`). -/

namespace SourcePreview

open Text (Solid upTo Breaks)

namespace Dialect

variable {d : Dialect} {x rest line closing : Text} {full : List Text}

/-- A comment between two delimiters begins in a text and is open behind it, where a line begins. -/
structure OpenAt (d : Dialect) (x rest closing before opening m : Text) : Prop where
  delimiters : (opening, closing) ∈ d.blockDelimiters
  front : x = before ++ (opening ++ (m ++ ['\n']))
  stands : Token.StandsAt d.profile
      (x ++ rest) before ⟨.comment, opening ++ (upTo closing (m ++ '\n' :: rest)).1⟩
  unclosed : ¬ closing <:+: m

/-- The comment that a delimiter closes is open between two texts. -/
def IsOpen (d : Dialect) (x rest closing : Text) : Prop :=
  ∃ before opening m, d.OpenAt x rest closing before opening m

theorem isOpen_of_standsAt {before a b : Text} {t : Token}
    (h : Token.StandsAt d.profile (before ++ (a ++ ['\n']) ++ rest) before t)
    (comment : t.category = .comment) (text : t.text = a ++ ['\n'] ++ b) (hb : b ≠ []) :
    ∃ closing, d.IsOpen (before ++ (a ++ ['\n'])) rest closing := by
  obtain ⟨c, r, hs, ht⟩ := h.eq_next
  have rest_eq : a ++ '\n' :: rest = c :: r := by simpa using hs
  rw [ht] at comment
  have hc := Token.comment?_of_next comment
  rw [← ht] at hc
  rcases Dialect.comment?_cases hc with ⟨opening, closing, body, mem, he, hp⟩ | ⟨-, absent⟩
  · obtain ⟨ho, hcl⟩ := solid_blockDelimiters mem
    obtain ⟨m, rfl⟩ : opening <+: a := by
      refine Text.prefix_of_absent (b := '\n') (t := rest) ho.newline_not_mem ⟨body, ?_⟩
      rw [rest_eq, he]
    obtain rfl : body = m ++ '\n' :: rest := by
      rw [← rest_eq, List.append_assoc] at he
      exact (List.append_cancel_left he).symm
    refine ⟨closing, before, opening, m, mem, by rw [List.append_assoc], ?_, fun hi => ?_⟩
    · rw [← hp, ← comment, ← ht]
      exact h
    · -- with a closing delimiter in the line, the comment would end there
      have hl := (Text.upTo_prefix hi ('\n' :: rest)).length_le
      have hn := List.length_pos_iff.2 hb
      rw [text] at hp
      have := congrArg List.length hp
      simp only [List.length_append, List.length_cons, List.length_nil] at this
      omega
  · exact absurd (text ▸ by simp) absent

theorem standsAt_of_not_open (hb : Breaks x full []) (hn : rest ≠ [])
    (unopen : ∀ closing, ¬ d.IsOpen x rest closing)
    (unquoted : ∀ span ∈ Span.classifyLanguage d.language (x ++ rest), span.category = .string →
      span.start < Text.byteSize x → ¬ Text.byteSize x < span.stop) :
    ∃ t, Token.StandsAt d.profile (x ++ rest) x t := by
  obtain ⟨before, t, a, b, stands, rfl, text, hbn⟩ :=
    Token.exists_standsAt (x := x) d.inline_profile hn
  rcases hb.eq_nil_or_newline with rfl | ⟨a, rfl⟩
  · rw [List.append_nil] at stands ⊢
    exact ⟨t, stands⟩
  · exfalso
    rcases stands.category_of_newline text hbn with comment | string
    · obtain ⟨closing, ho⟩ := isOpen_of_standsAt stands comment text hbn
      exact unopen closing ho
    · have span := Span.ofToken_mem_classify d.inline_profile stands (by simp [string])
      refine unquoted _ span string (Text.byteSize_lt_append (by simp) before) ?_
      change Text.byteSize (before ++ (a ++ ['\n'])) < Text.byteSize (before ++ t.text)
      rw [text, ← List.append_assoc before (a ++ ['\n']) b]
      exact Text.byteSize_lt_append hbn _

theorem IsOpen.past (h : d.IsOpen x (line ++ '\n' :: rest) closing)
    (unclosed : ¬ closing <:+: line) :
    d.IsOpen (x ++ (line ++ ['\n'])) rest closing := by
  obtain ⟨before, opening, m, ho⟩ := h
  have solid := (solid_blockDelimiters ho.delimiters).2
  refine ⟨before, opening, m ++ '\n' :: line, ho.delimiters, ?_, ?_, fun hi => ?_⟩
  · rw [ho.front]
    simp
  · have stands := ho.stands
    simpa using stands
  · rcases solid.infix_of_append (by decide) hi with hi | hi
    · exact ho.unclosed hi
    · exact unclosed hi

theorem isOpen_of_opens {t : Token}
    (stands : Token.StandsAt d.profile (x ++ (line ++ '\n' :: rest)) x t)
    (opens : d.opensBlock? (Text.trim line) = some closing) :
    d.IsOpen (x ++ (line ++ ['\n'])) rest closing := by
  obtain ⟨opening, body, mem, ht, absent⟩ := opensBlock?_eq_some_iff.1 opens
  obtain ⟨ho, hc⟩ := solid_blockDelimiters mem
  obtain ⟨a, b, ha, hb, he⟩ := Text.exists_trim line
  have whole : line ++ '\n' :: rest = a ++ (opening ++ (body ++ b ++ '\n' :: rest)) := by
    rw [he, ht]
    simp
  rw [whole] at stands
  obtain ⟨u, hu⟩ := stands.follow_blanks ha (List.append_ne_nil_of_left_ne_nil ho.ne_nil _)
  obtain rfl : u = ⟨.comment, opening ++ (upTo closing (body ++ b ++ '\n' :: rest)).1⟩ := by
    rw [← List.append_assoc] at hu
    exact hu.eq_comment mem
  refine ⟨x ++ a, opening, body ++ b, mem, ?_, ?_, fun hi => absent (hc.infix_append_blanks hb hi)⟩
  · rw [he, ht]
    simp
  · rw [List.append_assoc, List.append_assoc, List.singleton_append, whole]
    exact hu

theorem IsOpen.cases (hb : Breaks x full []) (single : '\n' ∉ line)
    (h : d.IsOpen (x ++ (line ++ ['\n'])) rest closing) :
    d.IsOpen x (line ++ '\n' :: rest) closing ∧ ¬ closing <:+: line ∨
      ∃ a opening m, line = a ++ (opening ++ m) ∧ (opening, closing) ∈ d.blockDelimiters ∧
        ¬ closing <:+: m ∧
        Token.StandsAt d.profile (x ++ (line ++ '\n' :: rest)) (x ++ a)
          ⟨.comment, opening ++ (upTo closing (m ++ '\n' :: rest)).1⟩ := by
  obtain ⟨before, opening, m, mem, front, stands, unclosed⟩ := h
  obtain ⟨ho, hc⟩ := solid_blockDelimiters mem
  have stands : Token.StandsAt d.profile (x ++ (line ++ '\n' :: rest)) before
      ⟨.comment, opening ++ (upTo closing (m ++ '\n' :: rest)).1⟩ := by
    simpa using stands
  have front : x ++ line = before ++ opening ++ m := by
    have front : x ++ line ++ ['\n'] = before ++ opening ++ m ++ ['\n'] := by simpa using front
    exact List.append_cancel_right front
  rcases List.append_eq_append_iff.1 front with ⟨k, hk, rfl⟩ | ⟨k, rfl, rfl⟩
  · rcases List.append_eq_append_iff.1 hk with ⟨j, rfl, rfl⟩ | ⟨a, rfl, rfl⟩
    · -- a delimiter has no line feed, so it does not run over the beginning of the line
      rcases hb.eq_nil_or_newline with rfl | ⟨j, rfl⟩
      · rw [List.append_nil] at stands ⊢
        exact Or.inr ⟨[], k, m, rfl, mem, unclosed, by simpa using stands⟩
      · exact absurd (by simp) ho.newline_not_mem
    · exact Or.inr ⟨a, opening, m, by simp, mem, unclosed, stands⟩
  · left
    rcases hb.eq_nil_or_newline with rfl | ⟨k, rfl⟩
    · rw [List.append_nil] at hb
      rcases hb.eq_nil_or_newline with rfl | ⟨j, rfl⟩
      · exact absurd rfl ho.ne_nil
      · exact absurd (by simp) ho.newline_not_mem
    · refine ⟨⟨before, opening, k, mem, by simp, by simpa using stands, fun hi => unclosed ?_⟩,
        fun hi => unclosed ?_⟩
      · exact hi.trans ⟨[], '\n' :: line, by simp⟩
      · exact hi.trans ⟨k ++ ['\n'], [], by simp⟩

theorem IsOpen.not_standsAt {a s : Text} {t : Token} (h : d.IsOpen x (a ++ s) closing) (hs : s ≠ [])
    (ha : a.all Text.isBlank = true) :
    ¬ Token.StandsAt d.profile (x ++ (a ++ s)) (x ++ a) t := by
  intro stands
  obtain ⟨before, opening, m, ho⟩ := h
  obtain ⟨hop, hc⟩ := solid_blockDelimiters ho.delimiters
  have later : before.length < (x ++ a).length := by
    have := List.length_pos_iff.2 hop.ne_nil
    rw [ho.front]
    simp only [List.length_append]
    omega
  have ends := ho.stands.isPrefix_of_length_lt stands later
  have line : x ++ a = before ++ (opening ++ (m ++ '\n' :: a)) := by
    rw [ho.front]
    simp
  rw [line, List.prefix_append_right_inj, List.prefix_append_right_inj] at ends
  have found : closing <:+: m ++ '\n' :: a := by
    refine Text.infix_of_upTo (t := s) ?_ hs
    simpa using ends
  refine ho.unclosed (hc.infix_append_blanks ?_ found)
  rw [List.all_cons, ha]
  rfl

/-- Up to a place of a source text, a comment that runs past its line has only blanks before it on
that line, and a line that begins in a string does not look like one that opens a comment. -/
structure Aligned (d : Dialect) (source front : Text) : Prop where
  comments : ∀ span ∈ Span.classifyLanguage d.language source, span.category = .comment →
      '\n' ∈ span.text →
    ∀ x y, front = x ++ y → y ≠ [] → span.start = Text.byteSize x →
      Text.isBlankText (Text.cutLines x).2 = true
  strings : ∀ span ∈ Span.classifyLanguage d.language source, span.category = .string →
    ∀ x line y, front = x ++ (line ++ '\n' :: y) → (Text.cutLines x).2 = [] → '\n' ∉ line →
      span.start < Text.byteSize x → Text.byteSize x < span.stop →
      d.opensBlock? (Text.trim line) = none

theorem Aligned.of_append {source y : Text} (h : d.Aligned source (x ++ y)) :
    d.Aligned source x := by
  refine ⟨fun span hs hc hn u v he hv => h.comments span hs hc hn u (v ++ y) ?_ ?_, ?_⟩
  · rw [he, List.append_assoc]
  · exact List.append_ne_nil_of_left_ne_nil hv y
  · intro span hs hc u line v he
    refine h.strings span hs hc u line (v ++ y) ?_
    rw [he]
    simp

theorem Aligned.blanks {a opening m : Text} (hb : Breaks x full [])
    (single : '\n' ∉ a ++ (opening ++ m))
    (aligned : d.Aligned (x ++ (a ++ (opening ++ m) ++ '\n' :: rest))
      (x ++ (a ++ (opening ++ m) ++ ['\n'])))
    (mem : (opening, closing) ∈ d.blockDelimiters) (unclosed : ¬ closing <:+: m)
    (stands : Token.StandsAt d.profile (x ++ (a ++ (opening ++ m) ++ '\n' :: rest)) (x ++ a)
      ⟨.comment, opening ++ (upTo closing (m ++ '\n' :: rest)).1⟩) : a.all Text.isBlank = true := by
  have span := Span.ofToken_mem_classify d.inline_profile stands (by simp)
  have runs : '\n' ∈ opening ++ (upTo closing (m ++ '\n' :: rest)).1 := by
    rw [(solid_blockDelimiters mem).2.upTo_line unclosed]
    simp
  have line : Text.cutLines (x ++ a) = (full ++ [], a) :=
    (hb.append (Breaks.of_not_mem fun hm => single (List.mem_append_left _ hm))).cutLines_eq
  have blank :=
    aligned.comments _ span rfl runs (x ++ a) (opening ++ (m ++ ['\n'])) (by simp) (by simp) rfl
  rwa [line] at blank

/-- A line that begins in no comment awaits the delimiter of the comment that it leaves open, and no
other. -/
theorem opensBlock?_iff (hb : Breaks x full []) (single : '\n' ∉ line)
    (aligned : d.Aligned (x ++ (line ++ '\n' :: rest)) (x ++ (line ++ ['\n'])))
    (unopen : ∀ closing, ¬ d.IsOpen x (line ++ '\n' :: rest) closing) :
    d.opensBlock? (Text.trim line) = some closing ↔
    d.IsOpen (x ++ (line ++ ['\n'])) rest closing := by
  constructor
  · intro opens
    obtain ⟨t, stands⟩ := standsAt_of_not_open hb (by simp) unopen fun span hs hc start stop => by
      have := aligned.strings span hs hc x line [] rfl (by rw [hb.cutLines_eq]) single start stop
      rw [opens] at this
      cases this
    exact isOpen_of_opens stands opens
  · intro h
    rcases h.cases hb single with ⟨before, -⟩ | ⟨a, opening, m, rfl, mem, unclosed, stands⟩
    · exact absurd before (unopen closing)
    · rw [Text.trim_blanks_append (aligned.blanks hb single mem unclosed stands),
        (solid_blockDelimiters mem).1.trim_append]
      refine opensBlock?_eq_some_iff.2 ⟨opening, Text.trimEnd m, mem, rfl,
        fun hi => unclosed (hi.trans ?_)⟩
      exact List.IsPrefix.isInfix ⟨_, Text.trimEnd_append m⟩

theorem IsOpen.past_iff {c : Text} (h : d.IsOpen x (line ++ '\n' :: rest) c) (hb : Breaks x full [])
    (single : '\n' ∉ line)
    (aligned : d.Aligned (x ++ (line ++ '\n' :: rest)) (x ++ (line ++ ['\n'])))
    (only : ∀ closing, d.IsOpen x (line ++ '\n' :: rest) closing → closing = c) :
    d.IsOpen (x ++ (line ++ ['\n'])) rest closing ↔ closing = c ∧ ¬ c <:+: line := by
  constructor
  · intro behind
    rcases behind.cases hb single with ⟨before, unclosed⟩ | ⟨a, opening, m, rfl, mem, unclosed,
      stands⟩
    · obtain rfl := only closing before
      exact ⟨rfl, unclosed⟩
    · have blank := aligned.blanks hb single mem unclosed stands
      rw [List.append_assoc] at h stands
      exact absurd stands (h.not_standsAt (by simp) blank)
  · rintro ⟨rfl, unclosed⟩
    exact h.past unclosed

/-- The scan of statements awaits the delimiter of the comment that is open where a line begins. -/
theorem awaited_iff (hb : Breaks x full []) (hn : rest ≠ []) (aligned : d.Aligned (x ++ rest) x) :
    d.awaited none full = some closing ↔ d.IsOpen x rest closing := by
  -- line by line: one that begins in a comment goes on or closes it, and another one may open one
  induction full using List.reverseRecOn generalizing x rest closing with
  | nil =>
    obtain rfl : x = [] := hb.whole
    constructor
    · intro h
      cases h
    · rintro ⟨before, opening, m, ho⟩
      have := congrArg List.length ho.front
      simp at this
  | append_singleton full line ih =>
    have single : '\n' ∉ line := hb.full_closed line (by simp)
    have hb' : Breaks (full.map (· ++ ['\n'])).flatten full [] :=
      ⟨(List.append_nil _).symm, fun l hl => hb.full_closed l (List.mem_append_left _ hl),
        List.not_mem_nil⟩
    obtain rfl : x = (full.map (· ++ ['\n'])).flatten ++ (line ++ ['\n']) := by simpa using hb.whole
    generalize (full.map (· ++ ['\n'])).flatten = x at hb' aligned ⊢
    have aligned : d.Aligned (x ++ (line ++ '\n' :: rest)) (x ++ (line ++ ['\n'])) := by
      simpa using aligned
    have before :
      ∀ {closing}, d.awaited none full = some closing ↔ d.IsOpen x (line ++ '\n' :: rest) closing :=
      ih hb' (by simp) aligned.of_append
    rw [awaited_concat]
    cases ha : d.awaited none full with
    | none =>
      rw [← opensBlock?_iff hb' single aligned fun closing h => by
        rw [← before, ha] at h
        cases h]
      rw [step]
      cases d.opensBlock? (Text.trim line) with
      | none => rfl
      | some c => rfl
    | some c =>
      have opened := before.1 ha
      obtain ⟨_, _, _, ho⟩ := id opened
      have closes : Text.containsText c (Text.trim line) = true ↔ c <:+: line :=
        Text.containsText_iff.trans (solid_blockDelimiters ho.delimiters).2.infix_trim
      have only : ∀ closing, d.IsOpen x (line ++ '\n' :: rest) closing → closing = c := by
        intro closing h
        rw [← before, ha] at h
        exact (Option.some.inj h).symm
      rw [opened.past_iff hb' single aligned only, step]
      simp only [closes]
      split
      · next closed => simp [closed]
      · next unclosed => simp [unclosed, eq_comm]

/-- A line of a source text that has a character, and whose characters all stand in comments; blanks
do not count. -/
structure Commented (d : Dialect) (before line after : Text) : Prop where
  filled : ∃ c ∈ line, Text.isBlank c = false
  covered : ∀ i : Fin line.length, Text.isBlank (line.get i) = false →
    ∃ span ∈ Span.classifyLanguage d.language (before ++ (line ++ after)),
      span.category = .comment ∧
      span.start ≤ Text.byteSize (before ++ line.take i) ∧
      Text.byteSize (before ++ line.take i) < span.stop

theorem Commented.first {before after : Text} (h : d.Commented before line after)
    (hb : Breaks before full []) :
    (∃ closing, d.IsOpen before (line ++ after) closing) ∨ ∃ a c b, line = a ++ c :: b ∧
      a.all Text.isBlank = true ∧
      (Token.next d.profile c (b ++ after)).1.category = .comment := by
  obtain ⟨a, c, b, rfl, blank, filled⟩ := Text.exists_filled h.filled
  obtain ⟨span, mem, comment, start, stop⟩ := h.covered ⟨a.length, by simp⟩ (by simpa using filled)
  rw [List.take_left] at start stop
  obtain ⟨y, t, stands, rfl⟩ := (Span.mem_classify_iff d.inline_profile (by simp [comment])).1 mem
  have comment : t.category = .comment := comment
  have start : Text.byteSize y ≤ Text.byteSize (before ++ a) := start
  have stop : Text.byteSize (before ++ a) < Text.byteSize (y ++ t.text) := stop
  have front : before ++ a <+: before ++ (a ++ c :: b ++ after) := ⟨c :: b ++ after, by simp⟩
  obtain ⟨k, hk⟩ :=
    Text.prefix_of_byteSize_le ((List.prefix_append y t.text).trans stands.isPrefix) front start
  have begins : ∀ j k, y = before ++ j → a = j ++ k →
      (Token.next d.profile c (b ++ after)).1.category = .comment := by
    rintro j k rfl rfl
    cases k with
    | nil =>
      have stands :
          Token.StandsAt d.profile (before ++ j ++ c :: (b ++ after)) (before ++ j) t := by
        simpa using stands
      rwa [← stands.eq_next_of_eq]
    | cons e k =>
      -- a blank begins no comment
      have stands :
          Token.StandsAt d.profile (before ++ j ++ e :: (k ++ c :: b ++ after)) (before ++ j)
          t := by
        simpa using stands
      rw [List.all_append, List.all_cons, Bool.and_eq_true, Bool.and_eq_true] at blank
      rw [stands.eq_next_of_eq, Token.next_blank blank.2.1] at comment
      cases comment
  rcases List.append_eq_append_iff.1 hk with ⟨j, hy, hj⟩ | ⟨j, hy, hj⟩
  · subst hy
    rcases hb.eq_nil_or_newline with rfl | ⟨j, rfl⟩
    · exact Or.inr ⟨a, c, b, rfl, blank, begins [] a (by simp) rfl⟩
    · left
      have inside : Text.byteSize (y ++ (j ++ ['\n'])) < Text.byteSize (y ++ t.text) := by
        refine Nat.lt_of_le_of_lt ?_ stop
        rw [Text.byteSize_append _ a]
        exact Nat.le_add_right _ _
      obtain ⟨u, hu⟩ :=
        Text.prefix_of_byteSize_le (List.prefix_append _ _) stands.isPrefix (Nat.le_of_lt inside)
      rw [List.append_assoc] at hu
      have text := List.append_cancel_left hu
      refine isOpen_of_standsAt stands comment text.symm ?_
      rintro rfl
      rw [← hu, List.append_nil] at inside
      exact Nat.lt_irrefl _ inside
  · exact Or.inr ⟨a, c, b, rfl, blank, begins j k hy hj⟩

/-- A line whose characters all stand in comments carries nothing out, as long as the comments
before it that run past their line begin it. -/
theorem commented_inert (d : Dialect) {before line after : Text}
    (start : (Text.cutLines before).2 = []) (single : '\n' ∉ line)
    (stop : after = [] ∨ ∃ rest, after = '\n' :: rest) (commented : d.Commented before line after)
    (aligned : d.Aligned (before ++ (line ++ after)) before) :
    ∃ statement, (Line.scan d (before ++ (line ++ after)))[(Text.cutLines before).1.length]? =
      some ⟨(Text.cutLines before).1.length + 1, statement⟩ ∧ statement.action? = none := by
  have hb := Text.breaks_cutLines before
  rw [start] at hb
  have hn : line ≠ [] := by
    rintro rfl
    obtain ⟨c, hc, -⟩ := commented.filled
    cases hc
  refine ⟨_, getElem?_scan d hb single hn stop, ?_⟩
  cases ha : d.awaited none (Text.cutLines before).1 with
  | some closing => rfl
  | none =>
    rcases commented.first hb with ⟨closing, ho⟩ | ⟨a, c, b, rfl, blank, comment⟩
    · rw [← awaited_iff hb (by simp [hn]) aligned, ha] at ho
      cases ho
    · rw [Text.trim_blanks_append blank]
      apply action?_step
      rcases comment?_cases (Token.comment?_of_next comment)
        with ⟨opening, closing, body, mem, he, -⟩ | ⟨marked, -⟩
      · right
        have solid := (solid_blockDelimiters mem).1
        exact ⟨opening, closing, mem, solid.prefix_trim (solid.prefix_of_line stop ⟨body, he.symm⟩)⟩
      · left
        exact d.solid_lineMarker.prefix_trim (d.solid_lineMarker.prefix_of_line stop marked)

/-- The last line of a comment that begins a line, with another comment behind it. -/
theorem commented_inert_of_block :
    let before := "int a = 1;\n  /* off\n".toList
    let line := "  System.out.println(a); */ // done".toList
    Dialect.java.Commented before line [] ∧ ∃ statement,
      (Line.scan .java (before ++ (line ++ [])))[2]? = some ⟨3, statement⟩ ∧
      statement.action? = none := by
  intro before line
  have within :
      (Token.tokensWithin? (.builtIn .java) 100 (before ++ (line ++ []))).isSome = true := by
    decide +kernel
  have spans := Span.classify_of_within within
  have commented : Dialect.java.Commented before line [] := by
    refine ⟨⟨'S', by decide, by decide⟩, ?_⟩
    rw [language, Span.classifyLanguage, spans]
    decide +kernel
  have aligned : Dialect.java.Aligned (before ++ (line ++ [])) before := by
    have runs : ∀ span ∈ Span.classifyLanguage .java (before ++ (line ++ [])),
        span.category = .comment → '\n' ∈ span.text →
        span.start = Text.byteSize "int a = 1;\n  ".toList := by
      rw [Span.classifyLanguage, spans]
      decide +kernel
    have unquoted :
        ∀ span ∈ Span.classifyLanguage .java (before ++ (line ++ [])), span.category ≠ .string := by
      rw [Span.classifyLanguage, spans]
      decide +kernel
    refine ⟨fun span mem comment long x y front _ start => ?_, fun span mem string =>
      absurd string (unquoted span mem)⟩
    obtain rfl : x = "int a = 1;\n  ".toList := by
      refine Text.eq_of_byteSize_eq ⟨y, front.symm⟩ ⟨"/* off\n".toList, rfl⟩ ?_
      rw [← start, runs span mem comment long]
    decide +kernel
  exact ⟨commented,
    commented_inert .java (by decide +kernel) (by decide +kernel) (Or.inl rfl) commented aligned⟩

/-- Behind code on its line, a comment is not seen by the scan of statements: what it holds on the
next line is carried out. -/
theorem commented_acts_behind_code :
    let before := "draw(); /* off\n".toList
    let line := "System.out.println(1);".toList
    let after := "\n*/".toList
    Dialect.java.Commented before line after ∧ (Line.scan .java (before ++ (line ++ after)))[1]? =
      some ⟨2, .action (.print ⟨["1".toList], none, .newline, .stdout⟩)⟩ := by
  intro before line after
  have within :
      (Token.tokensWithin? (.builtIn .java) 100 (before ++ (line ++ after))).isSome = true := by
    decide +kernel
  have spans := Span.classify_of_within within
  refine ⟨⟨⟨'S', by decide, by decide⟩, ?_⟩, by decide +kernel⟩
  rw [language, Span.classifyLanguage, spans]
  decide +kernel

end Dialect

end SourcePreview
