import SourcePreview.Proofs.Expression.Cover
import SourcePreview.Proofs.Statement.Scan
import SourcePreview.Proofs.Statement.Trailing

/-! Lines put together of texts that hide nothing from the scans: no comment begins in a line whose
parts are clear and do not make up a marker between them (`Clear.append`), and the first equals sign
at the top level is the one of the assignment (`ofText?_joined`). -/

namespace SourcePreview

namespace Nesting

variable {n m : Nesting}

theorem quote_after_congr (quote : n.quote = m.quote) (escaped : n.escaped = m.escaped) (s : Text) :
    (n.after s).quote = (m.after s).quote ∧ (n.after s).escaped = (m.after s).escaped := by
  induction s generalizing n m with
  | nil => exact ⟨quote, escaped⟩
  | cons c s ih =>
    have same := step_congr quote escaped c
    exact ih same.1 same.2

end Nesting

namespace Dialect

open Nesting (start)

variable {d : Dialect} {n : Nesting} {s t : Text}

theorem cutComment_eq_none_iff : (d.cutComment n s).2 = none ↔
    ∀ a b, s = a ++ (d.lineMarker ++ b) → (n.after a).quote ≠ none := by
  induction s generalizing n with
  | nil =>
    refine ⟨fun _ a b h => ?_, fun _ => rfl⟩
    have solid := d.solid_lineMarker.ne_nil
    simp_all
  | cons c r ih =>
    rw [cutComment]
    constructor
    · intro h a b whole
      split at h
      · cases h
      · next code =>
        cases a with
        | nil =>
          intro hq
          have starts : d.startsComment c r = true := Token.startsComment_iff.2 ⟨b, whole.symm⟩
          exact code (by simp [starts, show n.quote = none from hq])
        | cons e a =>
          rw [List.cons_append, List.cons.injEq] at whole
          obtain ⟨rfl, whole⟩ := whole
          exact ih.1 h a b whole
    · intro h
      split
      · next comment =>
        rw [Bool.and_eq_true, Option.isNone_iff_eq_none] at comment
        obtain ⟨b, whole⟩ := Token.startsComment_iff.1 comment.2
        exact absurd comment.1 (h [] b whole.symm)
      · exact ih.2 fun a b whole => h (c :: a) b (congrArg (c :: ·) whole)

theorem cutComment_fst (h : (d.cutComment n s).2 = none) : (d.cutComment n s).1 = s := by
  induction s generalizing n with
  | nil => rfl
  | cons c r ih =>
    rw [cutComment] at h ⊢
    split at h
    · cases h
    · next code =>
      rw [if_neg code]
      exact congrArg (c :: ·) (ih h)

/-- A text that closes all its quotes and has no comment marker outside of them. -/
structure Clear (d : Dialect) (s : Text) : Prop where
  quote : (start.after s).quote = none
  unmarked : ∀ a b, s = a ++ (d.lineMarker ++ b) → (start.after a).quote ≠ none

theorem Clear.code_eq (h : d.Clear s) : d.code s = s :=
  cutComment_fst (cutComment_eq_none_iff.2 h.unmarked)

theorem Clear.of_cutComment (quote : (start.after s).quote = none)
    (uncut : (d.cutComment start s).2 = none) : d.Clear s :=
  ⟨quote, cutComment_eq_none_iff.1 uncut⟩

theorem Clear.after_append (h : d.Clear s) (t : Text) :
    (start.after (s ++ t)).quote = (start.after t).quote := by
  rw [Nesting.after_append]
  exact (Nesting.quote_after_congr h.quote (Nesting.escaped_after (fun _ => rfl) s h.quote) t).1

/-- The slash is the only character that two parts of a line can make a marker of. -/
theorem Clear.append (hs : d.Clear s) (ht : d.Clear t)
    (seam : s.getLast? ≠ some '/' ∨ t.head? ≠ some '/') : d.Clear (s ++ t) := by
  refine ⟨by rw [hs.after_append, ht.quote], fun a b whole => ?_⟩
  rcases List.append_eq_append_iff.1 whole with ⟨m, rfl, ht'⟩ | ⟨m, rfl, hm⟩
  · rw [hs.after_append]
    exact ht.unmarked m b ht'
  · have unstarted : ∀ b, t ≠ d.lineMarker ++ b := fun b he => ht.unmarked [] b he rfl
    cases m with
    | nil => exact absurd hm.symm (unstarted b)
    | cons c m =>
      cases d with
      | python =>
        obtain ⟨rfl, -⟩ := List.cons.inj hm
        exact hs.unmarked a m rfl
      | java =>
        cases m with
        | nil =>
          obtain ⟨rfl, rfl⟩ := List.cons.inj hm
          simp at seam
        | cons e m =>
          obtain ⟨rfl, rest⟩ : '/' = c ∧ '/' :: b = e :: m ++ t := List.cons.inj hm
          obtain rfl : '/' = e := (List.cons.inj rest).1
          exact hs.unmarked a m rfl

theorem Clear.of_plain (plain : ∀ c ∈ s, Nesting.isQuote c = false ∧ c ≠ '#' ∧ c ≠ '/') :
    d.Clear s := by
  have cut := cutComment_append (d := d) plain []
  rw [List.append_nil] at cut
  refine .of_cutComment ?_ (by rw [cut]; rfl)
  clear cut
  have outside : ∀ {n : Nesting}, n.quote = none → (n.after s).quote = none := by
    intro n hn
    induction s generalizing n with
    | nil => exact hn
    | cons c s ih =>
      rw [List.forall_mem_cons] at plain
      exact ih plain.2 (Nesting.step_unquoted hn plain.1.1).1
  exact outside rfl

theorem Clear.join {parts : List Text} (h : ∀ s ∈ parts, d.Clear s) :
    d.Clear (Text.join ", ".toList parts) := by
  have between : d.Clear ", ".toList := .of_plain (by simp [Nesting.isQuote])
  unfold Text.join
  induction parts with
  | nil => exact .of_plain (List.forall_mem_nil _)
  | cons first others ih =>
    rw [List.forall_mem_cons] at h
    cases others with
    | nil =>
      rw [List.intercalate_singleton]
      exact h.1
    | cons second others =>
      rw [List.intercalate_cons_cons, List.append_assoc]
      exact h.1.append (between.append (ih h.2) (Or.inl (by decide))) (Or.inr fun h => by cases h)

/-- A text on one line that closes its quotes and brackets, and in which no comment begins. -/
structure Sealed (d : Dialect) (s : Text) : Prop where
  single : '\n' ∉ s
  closed : Nesting.Closed s
  unmarked : ∀ a b, s = a ++ (d.lineMarker ++ b) → (start.after a).quote ≠ none

theorem Sealed.clear (h : d.Sealed s) : d.Clear s := ⟨by rw [h.closed.after]; rfl, h.unmarked⟩

theorem Sealed.append (hs : d.Sealed s) (ht : d.Sealed t)
    (seam : s.getLast? ≠ some '/' ∨ t.head? ≠ some '/') :
    d.Sealed (s ++ t) :=
  ⟨by simp [hs.single, ht.single], hs.closed.append ht.closed,
    (hs.clear.append ht.clear seam).unmarked⟩

theorem Sealed.of_plain (plain : ∀ c ∈ s, Nesting.isPlain c = true ∧ c ≠ '\n' ∧ c ≠ '#' ∧ c ≠ '/') :
    d.Sealed s := by
  have clear : d.Clear s :=
    .of_plain fun c hc => ⟨Nesting.isQuote_of_isPlain (plain c hc).1, (plain c hc).2.2⟩
  exact ⟨fun hc => (plain _ hc).2.1 rfl, .of_plain (List.all_eq_true.2 fun c hc => (plain c hc).1),
    clear.unmarked⟩

instance (d : Dialect) (s : Text) : Decidable (d.Sealed s) :=
  decidable_of_iff ('\n' ∉ s ∧ Nesting.Closed s ∧ (d.cutComment start s).2 = none)
    ⟨fun ⟨single, closed, uncut⟩ => ⟨single, closed, cutComment_eq_none_iff.1 uncut⟩,
      fun h => ⟨h.single, h.closed, cutComment_eq_none_iff.2 h.unmarked⟩⟩

theorem Sealed.of_blanks {a b : Text} (ha : a.all Text.isBlank = true)
    (hb : b.all Text.isBlank = true) (h : d.Sealed (a ++ s ++ b)) : d.Sealed s := by
  refine ⟨fun mem => h.single (by simp [mem]),
    (h.closed.of_append_plain (plain_of_blanks hb)).of_plain_append (plain_of_blanks ha), ?_⟩
  rintro x y rfl
  have marked := h.unmarked (a ++ x) (y ++ b) (by simp)
  rwa [Nesting.after_append, (Nesting.Closed.of_plain (plain_of_blanks ha)).after] at marked

theorem Sealed.trimEnd (h : d.Sealed s) : d.Sealed (Text.trimEnd s) := by
  obtain ⟨b, hb, whole⟩ := Text.exists_trimEnd s
  rw [whole] at h
  exact .of_blanks (a := []) rfl hb h

theorem Sealed.trim (h : d.Sealed s) : d.Sealed (Text.trim s) := by
  obtain ⟨a, b, ha, hb, whole⟩ := Text.exists_trim s
  rw [whole] at h
  exact .of_blanks ha hb h

theorem plain_of_isNamePart {c : Char} (part : Text.isNamePart c = true) :
    Nesting.isPlain c = true ∧ c ≠ '\n' ∧ c ≠ '#' ∧ c ≠ '/' := by
  refine ⟨isPlain_of_not_mem_marks (not_mem_marks part), ?_, (Token.plain_of_isNamePart part).2⟩
  rintro rfl
  exact absurd part (by decide)

theorem Sealed.of_isPath (path : Call.isPath s = true) : d.Sealed s := by
  refine .of_plain fun c hc => ?_
  rcases Call.forall_mem_of_isPath path c hc with part | rfl
  · exact plain_of_isNamePart part
  · decide

theorem Sealed.join {parts : List Text} (h : ∀ s ∈ parts, d.Sealed s) :
    d.Sealed (Text.join ", ".toList parts) :=
  ⟨Text.not_mem_join (by decide) fun s hs => (h s hs).single,
    .join (.of_plain (by decide)) fun s hs => (h s hs).closed,
    (Clear.join fun s hs => (h s hs).clear).unmarked⟩

/-- An expression that may stand in any statement: sealed, without blanks at its ends, and without
an equals sign in front. -/
structure WellFormed (d : Dialect) (e : Text) : Prop extends Sealed d e where
  tight : Text.Tight e
  unequal : e.head? ≠ some '='

instance (d : Dialect) (e : Text) : Decidable (d.WellFormed e) :=
  decidable_of_iff ('\n' ∉ e ∧ Nesting.Closed e ∧ (d.cutComment start e).2 = none ∧ Text.Tight e ∧
    e.head? ≠ some '=')
    ⟨fun ⟨single, closed, uncut, tight, unequal⟩ =>
      ⟨⟨single, closed, cutComment_eq_none_iff.1 uncut⟩, tight, unequal⟩,
      fun h => ⟨h.single, h.closed, cutComment_eq_none_iff.2 h.unmarked, h.tight, h.unequal⟩⟩

/-- What may follow the sign of an assignment: a sealed text without an equals sign in front and
without a blank at its end. -/
structure RightSide (d : Dialect) (right : Text) : Prop extends Sealed d right where
  unequal : right.head? ≠ some '='
  last : ∀ c, right.getLast? = some c → Text.isBlank c = false

theorem sealed_blank (d : Dialect) : d.Sealed [' '] :=
  .of_plain (List.forall_mem_singleton.2 (by decide))

theorem wellFormed_of_isIdentifier (identifier : Text.isIdentifier s = true) : d.WellFormed s := by
  have atom := atom_of_isIdentifier identifier
  exact ⟨.of_plain fun c hc => plain_of_isNamePart (atom.parts c hc), atom.operand.tight,
    atom.head?_ne (by decide)⟩

theorem WellFormed.rightSide (h : d.WellFormed s) : d.RightSide (' ' :: s) := by
  refine ⟨d.sealed_blank.append h.toSealed (Or.inl (by decide)), by simp,
    fun c hc => h.tight.last c ?_⟩
  obtain ⟨e, r, rfl⟩ := List.exists_cons_of_ne_nil h.tight.ne_nil
  rwa [List.getLast?_cons_cons] at hc

theorem Sealed.rightSide (h : d.Sealed s) : d.RightSide (Text.trimEnd (' ' :: s)) := by
  refine ⟨(d.sealed_blank.append h (Or.inl (by decide))).trimEnd, fun first => ?_,
    fun c hc => Text.getLast?_trimEnd hc⟩
  obtain ⟨r, hr⟩ := List.head?_eq_some_iff.1 first
  have front : Text.trimEnd (' ' :: s) <+: ' ' :: s := ⟨_, Text.trimEnd_append _⟩
  rw [hr] at front
  cases (List.cons_prefix_cons.1 front).1

theorem sealed_getD {e : Option Text} (h : ∀ s ∈ e, d.WellFormed s) : d.Sealed (e.getD []) := by
  cases e with
  | none => exact .of_plain (List.forall_mem_nil _)
  | some s => exact (h s rfl).toSealed

theorem Sealed.call {function inner : Text} (h : d.Sealed inner)
    (path : Call.isPath function = true) :
    d.WellFormed (⟨function, inner⟩ : Call).written := by
  have named : d.Sealed function := .of_isPath path
  have opened : d.Clear ['('] := .of_plain (List.forall_mem_singleton.2 (by decide))
  have shut : d.Clear [')'] := .of_plain (List.forall_mem_singleton.2 (by decide))
  have clear : d.Clear (⟨function, inner⟩ : Call).written :=
    named.clear.append
      (opened.append (h.clear.append shut (Or.inr fun h => by cases h)) (Or.inl (by decide)))
      (Or.inr fun h => by cases h)
  obtain ⟨c, r, rfl⟩ := List.exists_cons_of_ne_nil (Call.ne_nil_of_isPath path)
  have first := Call.isBlank_of_isPath path c List.mem_cons_self
  refine ⟨⟨?_, named.closed.append (h.closed.group rfl rfl), clear.unmarked⟩, ?_, ?_⟩
  · have := named.single
    simp only [Call.written, List.mem_append, List.mem_cons, List.not_mem_nil, not_or, or_false]
    simpa [h.single] using this
  · have whole : (⟨c :: r, inner⟩ : Call).written = c :: (r ++ '(' :: inner) ++ [')'] := by
      simp [Call.written]
    rw [whole]
    exact Text.tight_append_singleton first rfl _
  · rintro he
    obtain rfl : c = '=' := Option.some.inj he
    exact Call.not_mem_of_isPath path (by decide) (by decide) List.mem_cons_self

end Dialect

/-- The characters that begin no code: those of quotes, comments, braces and semicolons. -/
def codeless : List Char := ['"', '\'', '/', '*', '{', '}', ';']

/-- A line of code: it has no blanks at its ends, and begins with code. -/
structure CodeLine (s : Text) : Prop where
  tight : Text.Tight s
  first : ∀ c, s.head? = some c → c ∉ codeless

theorem CodeLine.opensBlock?_eq_none {s : Text} (h : CodeLine s) (d : Dialect) :
    d.opensBlock? s = none := by
  rw [Dialect.opensBlock?, List.findSome?_eq_none_iff]
  rintro ⟨opening, closing⟩ mem
  obtain ⟨c, r, rfl, hc⟩ : ∃ c r, opening = c :: r ∧ c ∈ codeless := by
    cases d with
    | python =>
      simp only [Dialect.blockDelimiters, List.mem_cons, Prod.mk.injEq, List.not_mem_nil, or_false]
        at mem
      rcases mem with ⟨rfl, -⟩ | ⟨rfl, -⟩
      · exact ⟨'"', _, rfl, by decide⟩
      · exact ⟨'\'', _, rfl, by decide⟩
    | java =>
      simp only [Dialect.blockDelimiters, List.mem_singleton, Prod.mk.injEq] at mem
      exact ⟨'/', _, mem.1, by decide⟩
  have absent : Text.after? (c :: r) s = none := by
    rw [← Option.isNone_iff_eq_none, ← Option.isSome_eq_false_iff]
    exact Text.startsWith_of_head?_ne fun first => h.first c first hc
  dsimp only
  rw [absent]
  rfl

/-- A line that begins with a name, without blanks at its ends. -/
structure NamedLine (s : Text) : Prop where
  single : '\n' ∉ s
  tight : Text.Tight s
  named : ∀ c, s.head? = some c → Text.isNamePart c = true

theorem isNamePart_of_codeless {c : Char} (mem : c ∈ codeless) : Text.isNamePart c = false := by
  -- tested over the list: a `∀ c ∈ codeless` may be decided by a run over all characters
  have key : codeless.all (!Text.isNamePart ·) = true := by decide
  exact Bool.not_eq_eq_eq_not.1 (List.all_eq_true.1 key c mem)

theorem NamedLine.codeLine {s : Text} (h : NamedLine s) : CodeLine s := by
  refine ⟨h.tight, fun c hc mem => ?_⟩
  have other := isNamePart_of_codeless mem
  rw [h.named c hc] at other
  cases other

namespace Text

/-- Lines without blanks at their ends are found again between line feeds. -/
theorem lines_join {ls : List Text} (h : ∀ l ∈ ls, '\n' ∉ l ∧ Tight l) :
    lines (join ['\n'] ls) = ls := by
  unfold join
  induction ls with
  | nil => rfl
  | cons first others ih =>
    rw [List.forall_mem_cons] at h
    cases others with
    | nil =>
      rw [List.intercalate_singleton]
      exact lines_of_not_mem h.1.1 h.1.2.ne_nil
    | cons second others =>
      have kept : dropReturn first = first := by
        unfold dropReturn dropLastIf
        split
        · next c hc =>
          have filled : (c == '\r') = false := by
            rw [beq_eq_false_iff_ne]
            rintro rfl
            exact absurd (h.1.2.last _ hc) (by decide)
          rw [if_neg (by simp [filled])]
          rfl
        · rfl
      have rest := ih h.2
      rw [lines] at rest
      rw [List.intercalate_cons_cons, List.append_assoc, List.singleton_append, lines,
        cutLines_line h.1.1]
      dsimp only at rest ⊢
      rw [List.map_cons, List.cons_append, rest, kept]

theorem splitAll_of_not_mem {sep : Char} {s : Text} (h : sep ∉ s) : splitAll sep s = [s] := by
  induction s with
  | nil => rfl
  | cons c s ih =>
    rw [List.mem_cons, not_or] at h
    have other : (c == sep) = false := beq_eq_false_iff_ne.2 (Ne.symm h.1)
    rw [splitAll, other, if_neg Bool.false_ne_true, ih h.2]

end Text

namespace AssignmentParts

open Nesting (start)

def sign : Option Operator → Text
  | none => ['=']
  | some op => [op.symbol, '=']

variable {left : Text}

def joined (left : Text) (op : Option Operator) (right : Text) : Text :=
  left ++ ' ' :: (sign op ++ right)

def written (left : Text) (op : Option Operator) (e : Text) : Text :=
  left ++ ' ' :: (sign op ++ ' ' :: e)

theorem scan_append {n : Nesting} {s : Text} (h : ∀ p ∈ n.path s, p.1.isTop p.2 = true → p.2 ≠ '=')
    (before r : Text) :
    scan n before (s ++ r) = scan (n.after s) (s.reverse ++ before) r := by
  induction s generalizing n before with
  | nil => rfl
  | cons c s ih =>
    rw [Nesting.path, List.forall_mem_cons] at h
    have hc : (n.isTop c && c == '=') = false := by
      rw [Bool.and_eq_false_imp]
      exact fun top => beq_eq_false_iff_ne.2 (h.1 top)
    rw [List.cons_append, scan, hc, if_neg Bool.false_ne_true, ih h.2]
    simp

/-- The equals sign of an assignment is the one that is found. -/
theorem ofText?_joined (plain : left.all Nesting.isPlain = true) (unequal : '=' ∉ left)
    (op : Option Operator) {right : Text} (other : right.head? ≠ some '=') :
    ofText? (joined left op right) = some ⟨left ++ [' '], op, right⟩ := by
  have closed : Nesting.Closed (left ++ [' ']) := .of_plain (by simp [plain]; decide)
  have passed : Nesting.Undivided '=' (left ++ [' ']) := .of_not_mem (by simp [unequal])
  have whole : joined left op right = (left ++ [' ']) ++ (sign op ++ right) := by simp [joined]
  rw [ofText?, whole, scan_append passed, closed.after, List.reverse_append]
  have behind : ∀ before, scan start before ('=' :: right) = atEquals before right := fun _ => rfl
  cases op with
  | none =>
    rw [sign, List.singleton_append, behind]
    simp [atEquals, isComparison, Operator.ofChar?, other]
  | some op =>
    have symbol :
        ∀ before r, scan start before (op.symbol :: r) = scan start (op.symbol :: before) r := by
      cases op <;> exact fun _ _ => rfl
    have uncompared : isComparison op.symbol = false := by cases op <;> rfl
    rw [sign, List.cons_append, List.singleton_append, symbol, behind]
    simp [atEquals, uncompared, other]

theorem joined_eq (left : Text) (op : Option Operator) (right : Text) :
    joined left op right = left ++ ' ' :: sign op ++ right := by
  rw [joined, List.append_assoc, List.cons_append]

section

variable {d : Dialect} (names : ∀ c ∈ left, Text.isNamePart c = true ∨ c = ' ')
include names

theorem clear_joined (op : Option Operator) {right : Text} (h : d.Clear right) :
    d.Clear (joined left op right) := by
  have front : d.Clear left := by
    refine .of_plain fun c hc => ?_
    rcases names c hc with part | rfl
    · exact Token.plain_of_isNamePart part
    · decide
  have middle : d.Clear (' ' :: sign op) :=
    .of_cutComment (by rcases op with _ | op <;> [rfl; cases op <;> rfl])
      (by cases d <;> rcases op with _ | op <;> [rfl; cases op <;> rfl; rfl; cases op <;> rfl])
  have ends : (' ' :: sign op).getLast? ≠ some '/' := by
    rcases op with _ | op <;> [decide; cases op <;> decide]
  rw [joined, ← List.cons_append]
  exact front.append (middle.append h (Or.inl ends)) (Or.inr fun h => by cases h)

theorem newline_not_mem_joined (op : Option Operator) {right : Text} (h : '\n' ∉ right) :
    '\n' ∉ joined left op right := by
  have front : '\n' ∉ left := by
    intro hc
    rcases names _ hc with part | h
    · exact absurd part (by decide)
    · cases h
  have middle : '\n' ∉ sign op := by
    cases op with
    | none => decide
    | some op => cases op <;> decide
  simp [joined, front, middle, h]

end

theorem tight_sign (tight : Text.Tight left) (op : Option Operator) :
    Text.Tight (left ++ ' ' :: sign op) :=
  tight.append [' '] (by rcases op with _ | op <;> [decide; cases op <;> decide])

theorem tight_joined (tight : Text.Tight left) (op : Option Operator) {right : Text}
    (last : ∀ c, right.getLast? = some c → Text.isBlank c = false) :
    Text.Tight (joined left op right) := by
  have front := tight_sign tight op
  rw [joined_eq]
  generalize left ++ ' ' :: sign op = s at front
  obtain ⟨c, r, rfl⟩ := List.exists_cons_of_ne_nil front.ne_nil
  refine ⟨by simp, front.head, fun d hd => ?_⟩
  rw [List.getLast?_append, Option.or_eq_some_iff] at hd
  rcases hd with hd | ⟨-, hd⟩
  · exact last d hd
  · exact front.last d hd

end AssignmentParts

theorem Line.scan_line (d : Dialect) {line : Text} (single : '\n' ∉ line)
    (code : CodeLine (Text.trim line)) :
    Line.scan d line = [⟨1, d.statement (Text.trim line)⟩] := by
  have filled : line ≠ [] := by
    rintro rfl
    exact code.tight.ne_nil rfl
  rw [Line.scan, Text.lines_of_not_mem single filled, Dialect.statements_cons, Dialect.step,
    code.opensBlock?_eq_none d]
  rfl

theorem Dialect.statements_join (d : Dialect) {ls : List Text} (h : ∀ l ∈ ls, NamedLine l) :
    d.statements none (Text.lines (Text.join ['\n'] ls)) = ls.map d.statement := by
  rw [Text.lines_join fun l hl => ⟨(h l hl).single, (h l hl).tight⟩]
  induction ls with
  | nil => rfl
  | cons l ls ih =>
    rw [List.forall_mem_cons] at h
    have own : d.step none (Text.trim l) = (d.statement l, none) := by
      rw [h.1.tight.trim_eq, Dialect.step, h.1.codeLine.opensBlock?_eq_none d]
    rw [Dialect.statements_cons, own, ih h.2, List.map_cons]

theorem Line.scan_join (d : Dialect) {ls : List Text} (h : ∀ l ∈ ls, NamedLine l) :
    Line.scan d (Text.join ['\n'] ls) = Line.numberFrom 1 (ls.map d.statement) := by
  rw [Line.scan, d.statements_join h]

end SourcePreview
