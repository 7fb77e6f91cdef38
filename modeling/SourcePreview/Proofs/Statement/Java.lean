import SourcePreview.Proofs.Statement.Formed
import SourcePreview.Proofs.Statement.Print

/-! The statements that are printed on a Java line, and that they are read back from it. -/

namespace SourcePreview

namespace Text

theorem splitOnceLast_append {sep : Char} {b : Text} (h : sep ∉ b) (a : Text) :
    splitOnceLast sep (a ++ sep :: b) = some (a, b) := by
  have split : splitOnce sep (b.reverse ++ sep :: a.reverse) = some (b.reverse, a.reverse) :=
    splitOnce_append (by simpa using h) a.reverse
  rw [splitOnceLast, List.reverse_append, List.reverse_cons, List.append_assoc,
    List.singleton_append, split]
  simp

theorem before?_eq_none {ending s : Text} {c : Char} (last : ending.getLast? = some c)
    (other : s.getLast? ≠ some c) :
    before? ending s = none := by
  rw [Option.eq_none_iff_forall_ne_some]
  intro r hr
  rw [before?_eq_some_iff.1 hr, List.getLast?_append, last] at other
  exact other rfl

theorem words_go_append {w : Text} (filled : ∀ c ∈ w, isBlank c = false) (current r : Text) :
    words.go current (w ++ r) = words.go (w.reverse ++ current) r := by
  induction w generalizing current with
  | nil => rfl
  | cons c w ih =>
    rw [List.forall_mem_cons] at filled
    rw [List.cons_append, words.go, filled.1, if_neg Bool.false_ne_true, ih filled.2]
    simp

theorem getLast?_words {w : Text} (h : Solid w) : (words w).getLast? = some w ∧
    ∀ v, Solid v → (words (v ++ ' ' :: w)).getLast? = some w := by
  have last : words.go [] (w ++ []) = [w] := by
    rw [words_go_append h.filled, words.go]
    simp [h.ne_nil]
  rw [List.append_nil] at last
  refine ⟨by rw [words, last]; rfl, fun v hv => ?_⟩
  rw [words, words_go_append hv.filled, words.go, if_pos (by decide : isBlank ' ' = true), last]
  simp [hv.ne_nil]

end Text

namespace Java

open AssignmentParts (joined written)

variable {s b e right : Text}

theorem shape_of_code {line code : Text} (whole : Text.trim (Dialect.java.code line) = code)
    (first : CodeLine code) (body : bare code = s) (unbraced : s.getLast? ≠ some '{')
    (free : Dialect.java.isStructural (Text.leadingWord (dropModifiers s)).1 = false) :
    shape line = .complete (simple s) := by
  obtain ⟨c, r, rfl⟩ := List.exists_cons_of_ne_nil first.tight.ne_nil
  have other := first.first c rfl
  simp only [codeless, List.mem_cons, List.not_mem_nil, or_false, not_or] at other
  have commented :
      (Text.startsWith "/*".toList (c :: r) || Text.startsWith ['*'] (c :: r)) = false := by
    rw [show "/*".toList = ['/', '*'] from rfl, Text.startsWith_of_head?_ne (by simp [other]),
      Text.startsWith_of_head?_ne (by simp [other])]
    rfl
  have braces : ((c :: r).all fun c => c == '{' || c == '}' || c == ';') = false := by
    simp [other]
  have opened : Text.endsWith ['{'] s = false := by
    rw [Text.endsWith, Text.before?_eq_none rfl unbraced]
    rfl
  unfold shape
  rw [whole]
  dsimp only
  rw [if_neg (by simp), commented, if_neg Bool.false_ne_true, braces, if_neg Bool.false_ne_true,
    body]
  rw [free, if_neg Bool.false_ne_true, opened, if_neg Bool.false_ne_true]

section

variable (line : CodeLine s)
include line

theorem bare_append (r : Text) :
    bare (s ++ r) = Text.trimEnd ((Text.before? [';'] (s ++ r)).getD (s ++ r)) := by
  have start : (s ++ r).dropWhile (fun c => c == '}' || Text.isBlank c) = s ++ r := by
    obtain ⟨c, s, rfl⟩ := List.exists_cons_of_ne_nil line.tight.ne_nil
    have brace := line.first c rfl
    simp only [codeless, List.mem_cons, List.not_mem_nil, or_false, not_or] at brace
    exact List.dropWhile_cons_of_neg (by simp [brace, line.tight.head c rfl])
  rw [bare, start]

theorem codeLine_ended (b : Text) : CodeLine (s ++ (b ++ [';'])) := by
  obtain ⟨c, r, rfl⟩ := List.exists_cons_of_ne_nil line.tight.ne_nil
  exact ⟨line.tight.append b (by decide), line.first⟩

/-- What stands before the semicolon, and the blanks in front of that, of a line that opens no
brace. -/
theorem shape_of_ended (clear : Dialect.java.Clear s) (unbraced : s.getLast? ≠ some '{')
    (free : Dialect.java.isStructural (Text.leadingWord (dropModifiers s)).1 = false)
    (hb : b.all Text.isBlank = true) :
    shape (s ++ (b ++ [';'])) = .complete (simple s) := by
  have ended := codeLine_ended line b
  have plain : ∀ d ∈ b ++ [';'], Nesting.isQuote d = false ∧ d ≠ '#' ∧ d ≠ '/' := by
    intro d hd
    rcases List.mem_append.1 hd with hd | hd
    · exact (plain_of_isBlank (List.all_eq_true.1 hb d hd)).imp_left Nesting.isQuote_of_isPlain
    · rw [List.mem_singleton.1 hd]
      decide
  have seam : (b ++ [';']).head? ≠ some '/' := fun h => (plain _ (List.mem_of_head? h)).2.2 rfl
  have code : Dialect.java.code (s ++ (b ++ [';'])) = s ++ (b ++ [';']) :=
    (clear.append (.of_plain plain) (Or.inr seam)).code_eq
  have body : bare (s ++ (b ++ [';'])) = s := by
    have before : Text.before? [';'] (s ++ (b ++ [';'])) = some (s ++ b) :=
      Text.before?_eq_some_iff.2 (by rw [List.append_assoc])
    rw [bare_append line, before]
    exact Text.trimEnd_blanks line.tight.last hb
  exact shape_of_code (by rw [code, ended.tight.trim_eq]) ended body unbraced free

theorem shape_of_body (clear : Dialect.java.Clear s) (unbraced : s.getLast? ≠ some '{')
    (free : Dialect.java.isStructural (Text.leadingWord (dropModifiers s)).1 = false) :
    shape (s ++ [';']) = .complete (simple s) :=
  shape_of_ended line clear unbraced free (b := []) rfl

theorem shape_of_unended (clear : Dialect.java.Clear s) (unbraced : s.getLast? ≠ some '{')
    (unended : s.getLast? ≠ some ';')
    (free : Dialect.java.isStructural (Text.leadingWord (dropModifiers s)).1 = false) :
    shape s = .complete (simple s) := by
  have body : bare s = s := by
    have whole := bare_append line []
    rw [List.append_nil, Text.before?_eq_none rfl unended] at whole
    have kept := Text.trimEnd_blanks (b := []) line.tight.last rfl
    rw [List.append_nil] at kept
    exact whole.trans kept
  exact shape_of_code (by rw [clear.code_eq, line.tight.trim_eq]) line body unbraced free

end

/-- An identifier that may stand at the front of a line: no word of control flow or structure. -/
structure Name (s : Text) : Prop where
  identifier : Text.isIdentifier s = true
  free : Dialect.java.isStructural s = false

theorem free_of_sign {c : Char} (sign : Text.isNamePart c = false) (r : Text) :
    Dialect.java.isStructural (Text.leadingWord (dropModifiers (c :: r))).1 = false := by
  have word : Text.leadingWord (c :: r) = ([], c :: r) := Text.spanOf_append_cons [] rfl sign r
  rw [dropModifiers, word]
  dsimp only
  rw [if_neg (by decide), word]
  exact (by decide : Dialect.java.isStructural [] = false)

theorem print?_eq_none {name r : Text} {c : Char} (simple : '.' ∉ name)
    (sign : Text.isNamePart c = false) (other : c ≠ '.') :
    print? (name ++ c :: r) = none := by
  have absent :
      ∀ {object : Text}, '.' ∈ object → object.all (fun d => Text.isNamePart d || d == '.') = true →
      Text.after? object (name ++ c :: r) = none := by
    intro object dot parts
    have unnamed : c ∉ object := fun mem => by
      simpa [sign, other] using List.all_eq_true.1 parts c mem
    rw [Option.eq_none_iff_forall_ne_some]
    intro rest hr
    have starts : object <+: name :=
      Text.prefix_of_absent unnamed ⟨rest, (Text.after?_eq_some_iff.1 hr).symm⟩
    exact simple (starts.subset dot)
  rw [print?, printCall?, absent (by decide) (by decide), absent (by decide) (by decide)]
  rfl

theorem free_of_name {name r : Text} {c : Char} (h : Name name) (sign : Text.isNamePart c = false)
    (rest : Dialect.java.isStructural
      (Text.leadingWord (dropModifiers (Text.trimStart (c :: r)))).1 = false) :
    Dialect.java.isStructural (Text.leadingWord (dropModifiers (name ++ c :: r))).1 = false := by
  have word : Text.leadingWord (name ++ c :: r) = (name, c :: r) :=
    Text.spanOf_append_cons name (List.all_eq_true.2 (atom_of_isIdentifier h.identifier).parts) sign
      r
  rw [dropModifiers, word]
  dsimp only
  split
  · have shorter : (c :: r).length < (name ++ c :: r).length := by
      have := List.length_pos_iff.2 (atom_of_isIdentifier h.identifier).ne_nil
      simp only [List.length_append, List.length_cons]
      omega
    rw [if_pos shorter]
    exact rest
  · rw [word]
    exact h.free

theorem free_of_name_blank {name r : Text} (h : Name name)
    (filled : ∀ c, r.head? = some c → Text.isBlank c = false)
    (rest : Dialect.java.isStructural (Text.leadingWord (dropModifiers r)).1 = false) :
    Dialect.java.isStructural (Text.leadingWord (dropModifiers (name ++ ' ' :: r))).1 = false := by
  have trimmed : Text.trimStart (' ' :: r) = r := Text.dropWhile_blanks (a := [' ']) rfl filled
  exact free_of_name h (by decide) (by rwa [trimmed])

/-- What stands before the sign of an assignment: the variable, perhaps behind its type. -/
def declaration (type : Option Text) (target : Text) : Text :=
  match type with
  | none => target
  | some type => type ++ ' ' :: target

section

variable {type : Option Text} {target : Text} (typed : ∀ name ∈ type, Name name)
  (named : Name target)
include typed named

theorem forall_mem_declaration :
    ∀ c ∈ declaration type target, Text.isNamePart c = true ∨ c = ' ' := by
  have parts := (atom_of_isIdentifier named.identifier).parts
  intro c hc
  cases type with
  | none => exact Or.inl (parts c hc)
  | some type =>
    rcases List.mem_append.1 hc with hc | hc
    · exact Or.inl ((atom_of_isIdentifier (typed type rfl).identifier).parts c hc)
    rcases List.mem_cons.1 hc with rfl | hc
    · exact Or.inr rfl
    · exact Or.inl (parts c hc)

theorem tight_declaration : Text.Tight (declaration type target) := by
  have last := (atom_of_isIdentifier named.identifier).operand.tight
  cases type with
  | none => exact last
  | some type =>
    exact (atom_of_isIdentifier (typed type rfl).identifier).operand.tight.append [' '] last

theorem line_joined (op : Option Operator) (h : Dialect.java.RightSide right) :
    NamedLine (joined (declaration type target) op right) := by
  have names := forall_mem_declaration typed named
  have tight := tight_declaration typed named
  refine ⟨AssignmentParts.newline_not_mem_joined names op h.single,
    AssignmentParts.tight_joined tight op h.last, fun c hc => ?_⟩
  obtain ⟨d, r, hd⟩ := List.exists_cons_of_ne_nil tight.ne_nil
  obtain rfl : d = c := by
    rw [joined, hd] at hc
    exact Option.some.inj hc
  rcases names d (by rw [hd]; simp) with part | rfl
  · exact part
  · exact absurd (tight.head ' ' (by rw [hd]; rfl)) (by decide)

theorem ofText?_declaration (op : Option Operator) (other : right.head? ≠ some '=') :
    AssignmentParts.ofText? (joined (declaration type target) op right) =
      some ⟨declaration type target ++ [' '], op, right⟩ := by
  have clear : ∀ c ∈ declaration type target, Nesting.isPlain c = true ∧ c ≠ '=' := by
    intro c hc
    rcases forall_mem_declaration typed named c hc with part | rfl
    · have mark := not_mem_marks part
      exact ⟨isPlain_of_not_mem_marks mark, fun he => mark (by rw [he]; decide)⟩
    · decide
  exact AssignmentParts.ofText?_joined (List.all_eq_true.2 fun c hc => (clear c hc).1) (fun hc =>
    (clear _ hc).2 rfl) op other

theorem declared?_declaration : declared? (declaration type target ++ [' ']) = some target := by
  have solid : ∀ {name : Text}, Name name → Text.Solid name := fun h =>
    have atom := atom_of_isIdentifier h.identifier
    ⟨atom.ne_nil, fun c hc => Text.isBlank_of_isNamePart (atom.parts c hc)⟩
  have trimmed : Text.trim (declaration type target ++ [' ']) = declaration type target := by
    have := Text.trim_blanks (a := []) (b := [' ']) (tight_declaration typed named) rfl rfl
    rwa [List.nil_append] at this
  have simple : (declaration type target).any (fun c => c == '[' || c == '.') = false := by
    rw [List.any_eq_false]
    intro c hc
    rcases forall_mem_declaration typed named c hc with part | rfl
    · have mark := not_mem_marks part
      simp only [Bool.or_eq_true, beq_iff_eq, not_or]
      exact ⟨fun he => mark (by rw [he]; decide), fun he => mark (by rw [he]; decide)⟩
    · decide
  have last : (Text.words (declaration type target)).getLast? = some target := by
    cases type with
    | none => exact (Text.getLast?_words (solid named)).1
    | some type => exact (Text.getLast?_words (solid named)).2 type (solid (typed type rfl))
  rw [declared?, trimmed, simple, if_neg Bool.false_ne_true, last, Option.filter_some,
    named.identifier, if_pos rfl]

theorem free_joined (op : Option Operator) (right : Text) :
    Dialect.java.isStructural
    (Text.leadingWord (dropModifiers (joined (declaration type target) op right))).1 = false := by
  have first : ∃ c r, AssignmentParts.sign op ++ right = c :: r ∧ Text.isBlank c = false ∧
      Text.isNamePart c = false := by
    cases op with
    | none => exact ⟨'=', right, rfl, by decide, by decide⟩
    | some op => exact ⟨op.symbol, '=' :: right, rfl, by cases op <;> rfl, by cases op <;> decide⟩
  obtain ⟨c, r, he, filled, sign⟩ := first
  have base := free_of_sign sign r
  have inner := free_of_name_blank named (fun d hd => by rwa [← Option.some.inj hd]) base
  cases type with
  | none => rwa [declaration, joined, he]
  | some type =>
    obtain ⟨d, name, hn⟩ :=
      List.exists_cons_of_ne_nil (atom_of_isIdentifier named.identifier).ne_nil
    have start : Text.isBlank d = false :=
      Text.isBlank_of_isNamePart
        ((atom_of_isIdentifier named.identifier).parts d (by rw [hn]; simp))
    have whole : joined (declaration (some type) target) op right =
        type ++ ' ' :: (target ++ ' ' :: (c :: r)) := by
      rw [declaration, joined, he]
      simp
    rw [whole]
    refine free_of_name_blank (typed type rfl) (fun c hc => ?_) inner
    rw [hn] at hc
    rwa [← Option.some.inj hc]

theorem print?_joined (op : Option Operator) (right : Text) :
    print? (joined (declaration type target) op right) = none := by
  obtain ⟨name, r, he, first⟩ : ∃ name r,
      joined (declaration type target) op right = name ++ ' ' :: r ∧ Name name := by
    cases type with
    | none => exact ⟨target, _, rfl, named⟩
    | some type =>
      exact ⟨type, target ++ ' ' :: (AssignmentParts.sign op ++ right),
        by simp [joined, declaration], typed type rfl⟩
  rw [he]
  exact print?_eq_none ((atom_of_isIdentifier first.identifier).not_mem (by decide)) (by decide)
    (by decide)

theorem statement_joined (op : Option Operator) (h : Dialect.java.RightSide right)
    (hb : b.all Text.isBlank = true) :
    statement (joined (declaration type target) op right ++ (b ++ [';'])) =
      if op.isSome then .assign target op right
      else
        match read? right with
        | some kind => .action (.input ⟨some target, kind, none⟩)
        | none =>
          if Text.startsWith "new ".toList (Text.trimStart right) then
            .other (joined (declaration type target) op right)
          else .assign target none right := by
  have line := line_joined typed named op h
  have clear : Dialect.java.Clear (joined (declaration type target) op right) :=
    AssignmentParts.clear_joined (forall_mem_declaration typed named) op h.clear
  have unbraced : (joined (declaration type target) op right).getLast? ≠ some '{' := by
    have ends :
        (declaration type target ++ ' ' :: AssignmentParts.sign op).getLast? ≠ some '{' := by
      rw [List.getLast?_append]
      rcases op with _ | op <;> [simp [AssignmentParts.sign]; simp [AssignmentParts.sign]]
    rw [AssignmentParts.joined_eq, List.getLast?_append]
    intro last
    rcases Option.or_eq_some_iff.1 last with last | ⟨-, last⟩
    · exact h.closed.getLast?_ne rfl last
    · exact ends last
  rw [statement_eq,
    shape_of_ended line.codeLine clear unbraced (free_joined typed named op right) hb]
  dsimp only
  rw [simple, print?_joined typed named, assignment?, ofText?_declaration typed named op h.unequal,
    Option.map_some]
  dsimp only
  rewrite [declared?_declaration typed named]
  rfl

theorem statement_written (op : Option Operator) (formed : Dialect.java.WellFormed e) :
    statement (written (declaration type target) op e ++ [';']) =
      if op.isSome then .assign target op (' ' :: e)
      else
        match read? (' ' :: e) with
        | some kind => .action (.input ⟨some target, kind, none⟩)
        | none =>
          if Text.startsWith "new ".toList (Text.trimStart (' ' :: e)) then
            .other (written (declaration type target) op e)
          else .assign target none (' ' :: e) :=
  statement_joined typed named op formed.rightSide (b := []) rfl

end

/-- A read of a scanner as it is written: one of the reading methods, with nothing but blanks
between its parentheses. -/
def ReadForm (e : Text) : Prop :=
  ∃ receiver method inner, (methodKind? method).isSome = true ∧ inner.all Text.isBlank = true ∧
    (⟨receiver ++ '.' :: method, inner⟩ : Call).Covers e

theorem read?_eq_none (other : ¬ ReadForm (Text.trim e)) : read? e = none := by
  rw [Option.eq_none_iff_forall_ne_some]
  intro kind h
  obtain ⟨call, found, h⟩ := Option.bind_eq_some_iff.1 h
  split at h
  · next blank =>
    obtain ⟨⟨receiver, method⟩, split, reads⟩ := Option.bind_eq_some_iff.1 h
    have covers := ((Call.ofText?_trim e).1 found).2
    refine other ⟨receiver, method, call.inner, by simp [reads], blank, ?_⟩
    rwa [← Text.eq_of_splitOnceLast split]
  · cases h

theorem dot_not_mem_of_methodKind? {method : Text} {kind : Kind}
    (h : methodKind? method = some kind) : '.' ∉ method := by
  have named :
      ∀ {name : String}, String.ofList method = name → '.' ∉ name.toList → '.' ∉ method := by
    rintro name rfl absent
    rwa [String.toList_ofList] at absent
  unfold methodKind? at h
  split at h
  all_goals first
    | next he => exact named he (by decide)
    | cases h

theorem read?_written {receiver method : Text} {kind : Kind}
    (path : Call.isPath (receiver ++ '.' :: method) = true)
    (reads : methodKind? method = some kind) :
    read? (' ' :: (⟨receiver ++ '.' :: method, []⟩ : Call).written) = some kind := by
  have formed : Dialect.java.WellFormed (⟨receiver ++ '.' :: method, []⟩ : Call).written :=
    Dialect.Sealed.call (.of_plain (List.forall_mem_nil _)) path
  have found : Call.ofText? (⟨receiver ++ '.' :: method, []⟩ : Call).written =
    some ⟨receiver ++ '.' :: method, []⟩ :=
    Call.ofText?_of_covers path (Call.covers_written .nil)
  have blank : Text.isBlankText [] = true := rfl
  rw [read?, formed.tight.trim_blank_cons rfl, found, Option.bind_eq_bind, Option.bind_some]
  dsimp only
  rw [if_pos blank, Text.splitOnceLast_append (dot_not_mem_of_methodKind? reads),
    Option.bind_eq_bind, Option.bind_some]
  exact reads

/-- A statement as it is printed on a line. -/
inductive Printed where
  | assign (type : Option Text) (target e : Text) (typed : ∀ name ∈ type, Name name)
      (named : Name target)
      (formed : Dialect.java.WellFormed e) (calculated : ¬ ReadForm e)
      (kept : ¬ "new ".toList <+: e)
  | update (target : Text) (op : Operator) (e : Text) (named : Name target)
      (formed : Dialect.java.WellFormed e)
  | read (type : Option Text) (target receiver method : Text) (kind : Kind)
      (typed : ∀ name ∈ type, Name name)
      (named : Name target) (path : Call.isPath (receiver ++ '.' :: method) = true)
      (reads : methodKind? method = some kind)
  | print (stream : Stream) (ends : Bool) (argument : Option Text)
      (formed : ∀ e ∈ argument, Dialect.java.WellFormed e)

namespace Printed

/-- The name of a stream's printing method. -/
def printer (stream : Stream) (ends : Bool) : Text :=
  (match stream with
    | .stdout => "System.out."
    | .stderr => "System.err.").toList ++ (if ends then "println" else "print").toList

def write : Printed → Text
  | assign type target e _ _ _ _ _ => written (declaration type target) none e ++ [';']
  | update target op e _ _ => written (declaration none target) (some op) e ++ [';']
  | read type target receiver method _ _ _ _ _ =>
    written (declaration type target) none (⟨receiver ++ '.' :: method, []⟩ : Call).written ++ [';']
  | print stream ends argument _ =>
    (⟨printer stream ends, argument.getD []⟩ : Call).written ++ [';']

def action : Printed → Action
  | assign _ target e _ _ _ _ _ => .assign target e
  | update target op e _ _ => .assign target (target ++ [' ', op.symbol, ' ', '('] ++ e ++ [')'])
  | read _ target _ _ kind _ _ _ _ => .input ⟨some target, kind, none⟩
  | print stream ends argument _ =>
    .print ⟨argument.toList, none, if ends then .newline else .nothing, stream⟩

section

variable {inner : Text} (sealed : Dialect.java.Sealed inner) (stream : Stream) (ends : Bool)
include sealed

theorem print?_printer : print? (⟨printer stream ends, inner⟩ : Call).written =
    some ⟨if (Text.trim inner).isEmpty then [] else [Text.trim inner], none,
      if ends then .newline else .nothing, stream⟩ := by
  have called : printCall? (⟨printer stream ends, inner⟩ : Call).written =
      some (stream, (⟨(if ends then "println" else "print").toList, inner⟩ : Call).written) := by
    cases stream <;> rfl
  have path : Call.isPath (if ends then "println" else "print").toList = true := by
    cases ends <;> decide
  have found : Call.ofText? (⟨(if ends then "println" else "print").toList, inner⟩ : Call).written =
      some ⟨(if ends then "println" else "print").toList, inner⟩ :=
    Call.ofText?_of_covers path (Call.covers_written sealed.closed)
  rw [print?, called, Option.bind_eq_bind, Option.bind_some]
  dsimp only
  rw [found]
  cases ends <;> rfl

omit sealed in
theorem exists_printer_eq :
    ∃ r, (⟨printer stream ends, inner⟩ : Call).written = "System".toList ++ '.' :: r := by
  cases stream <;> exact ⟨_, rfl⟩

theorem wellFormed_printer :
    Dialect.java.WellFormed (⟨printer stream ends, inner⟩ : Call).written :=
  have path : Call.isPath (printer stream ends) = true := by cases stream <;> cases ends <;> decide
  sealed.call path

theorem line_printer : NamedLine (⟨printer stream ends, inner⟩ : Call).written := by
  have formed := wellFormed_printer sealed stream ends
  refine ⟨formed.single, formed.tight, fun c hc => ?_⟩
  obtain ⟨r, hr⟩ :
    ∃ r, (⟨printer stream ends, inner⟩ : Call).written = "System".toList ++ '.' :: r :=
    exists_printer_eq stream ends
  rw [hr] at hc
  obtain rfl : 'S' = c := Option.some.inj hc
  decide

theorem statement_printer : statement ((⟨printer stream ends, inner⟩ : Call).written ++ [';']) =
    .action (.print ⟨if (Text.trim inner).isEmpty then [] else [Text.trim inner], none,
      if ends then .newline else .nothing, stream⟩) := by
  have line := wellFormed_printer sealed stream ends
  obtain ⟨r, hr⟩ :
    ∃ r, (⟨printer stream ends, inner⟩ : Call).written = "System".toList ++ '.' :: r :=
    exists_printer_eq stream ends
  have word : Text.leadingWord (⟨printer stream ends, inner⟩ : Call).written =
      ("System".toList, '.' :: r) := by
    rw [hr]
    exact Text.spanOf_append_cons "System".toList (by decide) (by decide) r
  have free : Dialect.java.isStructural
      (Text.leadingWord (dropModifiers (⟨printer stream ends, inner⟩ : Call).written)).1 =
        false := by
    rw [dropModifiers, word]
    dsimp only
    rw [if_neg (by decide), word]
    exact (by decide : Dialect.java.isStructural "System".toList = false)
  rw [statement_eq,
    shape_of_body (line_printer sealed stream ends).codeLine line.clear
    (line.closed.getLast?_ne rfl) free]
  dsimp only
  rw [simple, print?_printer sealed]

end

theorem line_write (p : Printed) : NamedLine p.write := by
  have closed : ∀ {s : Text}, NamedLine s → NamedLine (s ++ [';']) := by
    rintro s ⟨single, tight, named⟩
    obtain ⟨c, r, rfl⟩ := List.exists_cons_of_ne_nil tight.ne_nil
    exact ⟨by simpa using single, Text.tight_append_singleton (tight.head c rfl) rfl r, named⟩
  cases p with
  | assign type target e typed named formed calculated kept =>
    exact closed (line_joined typed named none formed.rightSide)
  | update target op e named formed =>
    exact closed (line_joined (by simp) named (some op) formed.rightSide)
  | read type target receiver method kind typed named path reads =>
    exact closed (line_joined typed named none
      (Dialect.Sealed.call (.of_plain (List.forall_mem_nil _)) path).rightSide)
  | print stream ends argument formed =>
    exact closed (line_printer (Dialect.sealed_getD formed) stream ends)

theorem statement_write (p : Printed) : Java.statement p.write = .action p.action := by
  cases p with
  | assign type target e typed named formed calculated kept =>
    have unread : read? (' ' :: e) = none :=
      read?_eq_none (by rwa [formed.tight.trim_blank_cons rfl])
    have old : Text.startsWith "new ".toList (Text.trimStart (' ' :: e)) = false := by
      have start : Text.trimStart (' ' :: e) = e :=
        Text.dropWhile_blanks (a := [' ']) rfl formed.tight.head
      rw [start, Text.startsWith, Option.isSome_eq_false_iff, Option.isNone_iff_eq_none,
        Option.eq_none_iff_forall_ne_some]
      exact fun rest hr => kept ⟨rest, (Text.after?_eq_some_iff.1 hr).symm⟩
    rw [write, statement_written typed named none formed, unread, old, Statement.assign,
      formed.tight.trim_blank_cons rfl]
    rfl
  | update target op e named formed =>
    rw [write, statement_written (by simp) named (some op) formed, Option.isSome_some, if_pos rfl,
      Statement.assign, formed.tight.trim_blank_cons rfl]
    rfl
  | read type target receiver method kind typed named path reads =>
    have formed : Dialect.java.WellFormed (⟨receiver ++ '.' :: method, []⟩ : Call).written :=
      Dialect.Sealed.call (.of_plain (List.forall_mem_nil _)) path
    rw [write, statement_written typed named none formed, read?_written path reads]
    rfl
  | print stream ends argument formed =>
    rw [write, statement_printer (Dialect.sealed_getD formed)]
    cases argument with
    | none => rfl
    | some e =>
      have tight := (formed e rfl).tight
      simp [action, tight.trim_eq, tight.ne_nil]

end Printed

end Java

end SourcePreview
