import SourcePreview.Proofs.Expression.Cover
import SourcePreview.Proofs.Expression.Meaning

/-! Calls as they are written. The call of a dotted name is read as what the name computes
(`Call.form_written`), an argument is one text as long as no comma stands in it outside of brackets
and quotes, and the items of a list are found again (`Call.sequence?_listing`). -/

namespace SourcePreview

theorem Cut.ofText?_of_hidden {s : Text} (h : Nesting.Hidden s) : ofText? s = none := by
  have passed := scan_hidden h [] ⟨none, none⟩ []
  rw [List.append_nil] at passed
  rw [ofText?, passed]
  rfl

namespace Call

section

variable {s : Text}

theorem isNameStart_of_isPath {c : Char} {r : Text} (h : isPath (c :: r) = true) :
    Text.isNameStart c = true := by
  rw [isPath, Text.splitAll] at h
  split at h
  · cases h
  · split at h
    · rw [List.all_cons, Bool.and_eq_true, Text.isIdentifier, Bool.and_eq_true] at h
      exact h.1.1
    · rw [List.all_cons, Bool.and_eq_true, Text.isIdentifier, Bool.and_eq_true] at h
      exact h.1.1

theorem isPlain_of_isPath (h : isPath s = true) :
    ∀ c ∈ s, Nesting.isPlain c = true ∧ Operator.ofChar? c = none := by
  intro c hc
  rcases forall_mem_of_isPath h c hc with part | rfl
  · exact ⟨isPlain_of_not_mem_marks (not_mem_marks part),
      ofChar?_of_not_mem_marks (not_mem_marks part)⟩
  · decide

end

section

variable {call : Call} (path : isPath call.function = true)
include path

theorem exists_written : ∃ c r, call.written = c :: r ∧ Text.isNameStart c = true := by
  obtain ⟨c, r, hf⟩ := List.exists_cons_of_ne_nil (ne_nil_of_isPath path)
  rw [hf] at path
  exact ⟨c, r ++ '(' :: (call.inner ++ [')']), by rw [written, hf, List.cons_append],
    isNameStart_of_isPath path⟩

theorem operand_written : Operand call.written := by
  obtain ⟨c, r, hw, start⟩ := exists_written path
  refine ⟨⟨c, r, hw, Text.isBlank_of_isNamePart (Text.isNamePart_of_isNameStart start)⟩, ?_⟩
  exact ⟨call.function ++ '(' :: call.inner, ')', by simp [written], rfl, rfl⟩

theorem bare_written : Bare call.written := by
  refine ⟨(operand_written path).tight.ne_nil, Nesting.enclosed?_of_head?_ne ?_, ?_⟩
  · obtain ⟨c, r, hw, start⟩ := exists_written path
    rw [hw]
    rintro ⟨⟩
    exact absurd start (by decide)
  · refine Quoted.ofText?_eq_none (fun c hc => ?_) (by decide)
    rcases List.mem_append.1 hc with hc | hc
    · exact Nesting.isQuote_of_isPlain (isPlain_of_isPath path c hc).1
    · rw [List.mem_singleton.1 hc]
      rfl

theorem startsNumber_written : startsNumber call.written = false := by
  obtain ⟨c, r, hw, start⟩ := exists_written path
  have digit : Number.isDigit c = false := by
    cases hd : Number.isDigit c with
    | false => rfl
    | true =>
      rw [isNameStart_of_isDigit hd] at start
      cases start
  have mark : c ∉ ['-', '+', '.'] := fun mem => by
    simp only [List.mem_cons, List.not_mem_nil, or_false] at mem
    rcases mem with rfl | rfl | rfl <;> exact absurd start (by decide)
  simp only [List.mem_cons, List.not_mem_nil, or_false, not_or] at mark
  simp [hw, startsNumber, digit, mark]

/-- A written call is read as what its function computes from its arguments. -/
theorem form_written (closed : Nesting.Closed call.inner) :
    Form.ofText call.written = .application call.application := by
  have hidden : Nesting.Hidden call.written :=
    (Nesting.Hidden.of_plain (isPlain_of_isPath path)).append (.group closed)
  have paren : '(' ∈ call.written := by simp [written]
  have unnamed : Text.isIdentifier call.written = false := by
    cases hi : Text.isIdentifier call.written with
    | false => rfl
    | true => exact absurd paren ((atom_of_isIdentifier hi).not_mem (by decide))
  rw [ofText_of_operand (operand_written path)]
  apply (bare_written path).form_of_call
  · exact numberLiteral?_of_startsNumber_eq_false (startsNumber_written path)
  · exact unnamed
  · exact Cut.ofText?_of_hidden hidden
  · obtain ⟨c, r, hw, start⟩ := exists_written path
    rw [hw]
    rintro ⟨⟩
    exact absurd start (by decide)
  · exact ofText?_of_covers path (covers_written closed)

end

structure Argument (x : Text) : Prop where
  closed : Nesting.Closed x
  undivided : Nesting.Undivided ',' x
  filled : Text.isBlankText x = false

theorem Argument.of_plain {x : Text} (plain : x.all Nesting.isPlain = true) (absent : ',' ∉ x)
    (filled : Text.isBlankText x = false) :
    Argument x := ⟨.of_plain plain, .of_not_mem absent, filled⟩

theorem argument_padded {before x behind : Text} (ne_nil : x ≠ [])
    (plain : ∀ c ∈ x, Nesting.isPlain c = true ∧ Text.isBlank c = false ∧ c ≠ ',')
    (hb : before.all Text.isBlank = true) (ha : behind.all Text.isBlank = true) :
    Argument (before ++ x ++ behind) := by
  have absent : ∀ {t : Text}, t.all Text.isBlank = true → ',' ∉ t := fun blank mem => by
    cases List.all_eq_true.1 blank ',' mem
  apply Argument.of_plain
  · rw [List.all_append, List.all_append, plain_of_blanks hb, plain_of_blanks ha,
      List.all_eq_true.2 fun c hc => (plain c hc).1]
    rfl
  · rw [List.mem_append, List.mem_append]
    exact not_or.2 ⟨not_or.2 ⟨absent hb, fun mem => (plain ',' mem).2.2 rfl⟩, absent ha⟩
  · obtain ⟨c, hc⟩ := List.exists_mem_of_ne_nil _ ne_nil
    have filled : x.all Text.isBlank = false :=
      List.all_eq_false.2 ⟨c, hc, Bool.not_eq_true _ ▸ (plain c hc).2.1⟩
    rw [Text.isBlankText, List.all_append, List.all_append, filled, Bool.and_false, Bool.false_and]

theorem argument_name {before x behind : Text} (identifier : Text.isIdentifier x = true)
    (hb : before.all Text.isBlank = true) (ha : behind.all Text.isBlank = true) :
    Argument (before ++ x ++ behind) := by
  have atom := atom_of_isIdentifier identifier
  refine argument_padded atom.ne_nil (fun c hc => ?_) hb ha
  refine ⟨isPlain_of_not_mem_marks (not_mem_marks (atom.parts c hc)),
    Text.isBlank_of_isNamePart (atom.parts c hc), ?_⟩
  rintro rfl
  exact atom.not_mem (by decide) hc

theorem argument_of_isIdentifier {x : Text} (identifier : Text.isIdentifier x = true) :
    Argument x := by
  simpa using @argument_name [] x [] identifier rfl rfl

theorem arguments_single (function : Text) {x : Text} (argument : Argument x) :
    (⟨function, x⟩ : Call).arguments = [x] := by
  rw [arguments, argument.filled, if_neg Bool.false_ne_true,
    Nesting.splitTop_of_undivided argument.closed argument.undivided]

def listing (items : List Text) : Text := '[' :: (Text.join [','] items ++ [']'])

/-- What may stand behind the last item of a list: nothing, or a comma and blanks. -/
def Trailing (items trailing : List Text) : Prop :=
  trailing = [] ∨ items ≠ [] ∧ ∃ blanks, blanks.all Text.isBlank = true ∧ trailing = [blanks]

theorem isBlankText_join {first : Text} (others : List Text)
    (filled : Text.isBlankText first = false) :
    Text.isBlankText (Text.join [','] (first :: others)) = false := by
  unfold Text.join Text.isBlankText at *
  cases others with
  | nil => rwa [List.intercalate_singleton]
  | cons second others =>
    rw [List.intercalate_cons_cons, List.append_assoc, List.all_append, filled, Bool.false_and]

theorem argument_listing {items : List Text} (closed : ∀ x ∈ items, Nesting.Closed x) :
    Argument (listing items) :=
  have inside : Nesting.Closed (Text.join [','] items) := .join (.singleton rfl) closed
  ⟨inside.group rfl rfl, .group inside rfl rfl, by simp [listing, Text.isBlankText, Text.isBlank]⟩

section

variable {items trailing : List Text} (each : ∀ x ∈ items, Argument x)
  (ends : Trailing items trailing)
include each ends

theorem apart_of_trailing :
    ∀ x ∈ items ++ trailing, Nesting.Closed x ∧ Nesting.Undivided ',' x := by
  intro x hx
  rcases List.mem_append.1 hx with hx | hx
  · exact ⟨(each x hx).closed, (each x hx).undivided⟩
  · rcases ends with rfl | ⟨-, blanks, blank, rfl⟩
    · cases hx
    · obtain rfl := List.mem_singleton.1 hx
      exact ⟨.of_plain (plain_of_blanks blank),
        .of_not_mem fun mem => by cases List.all_eq_true.1 blank ',' mem⟩

/-- The items of a list are found again, also with a comma behind the last one. -/
theorem sequence?_listing : sequence? (listing (items ++ trailing)) = some items := by
  have tight : Text.Tight (listing (items ++ trailing)) := Text.tight_append_singleton rfl rfl _
  have inside :
      sequenceInside? (listing (items ++ trailing)) =
        some (Text.join [','] (items ++ trailing)) := by
    rw [sequenceInside?, tight.trim_eq]
    simp [listing, Text.dropLastIf]
  rw [sequence?, inside, Option.map_some]
  cases items with
  | nil =>
    obtain rfl := ends.resolve_right fun h => h.1 rfl
    rfl
  | cons first others =>
    have apart := apart_of_trailing each ends
    rw [List.cons_append] at apart ⊢
    have parts :=
      Nesting.splitTop_intercalate rfl (fun x hx => (apart x hx).1) fun x hx => (apart x hx).2
    rw [isBlankText_join _ (each first List.mem_cons_self).filled, if_neg Bool.false_ne_true, parts,
      ← List.cons_append]
    rcases ends with rfl | ⟨-, blanks, blank, rfl⟩
    · rw [List.append_nil]
      dsimp only
      rw [List.getLast?_eq_some_getLast (List.cons_ne_nil first others)]
      dsimp only
      rw [(each _ (List.getLast_mem _)).filled, if_neg Bool.false_ne_true]
    · dsimp only
      rw [List.getLast?_concat]
      dsimp only
      rw [List.dropLast_concat, Text.isBlankText, blank, if_pos rfl]

end

section

variable {function : Text}

theorem path_of_conversion {conversion : Conversion}
    (known : conversion? function = some conversion) :
    isPath function = true ∧ ∀ x, apply function [x] = .convert conversion x := by
  unfold conversion? at known
  split at known
  case h_12 => cases known
  all_goals
    next name =>
    cases known
    obtain rfl := (String.toList_ofList (l := function)).symm.trans (congrArg String.toList name)
    exact ⟨by decide +kernel, fun x => rfl⟩

theorem path_of_aggregate {kind : Aggregate} (known : aggregate? function = some kind) :
    isPath function = true ∧ ∀ arguments,
    apply function arguments = aggregation kind arguments := by
  constructor
  · unfold aggregate? at known
    split at known
    case h_6 => cases known
    all_goals
      next name =>
      obtain rfl := (String.toList_ofList (l := function)).symm.trans (congrArg String.toList name)
      decide +kernel
  · intro arguments
    unfold apply
    rw [known]

variable (env : Environment) (d : Dialect)

theorem evaluate_conversion {conversion : Conversion}
    (known : conversion? function = some conversion) {x : Text} (argument : Argument x) {v : Value}
    (value : evaluate env d x = .ok (.value v)) :
    evaluate env d (⟨function, x⟩ : Call).written = .ok (.ofOption (conversion.convert? v)) := by
  obtain ⟨path, converted⟩ := path_of_conversion known
  rw [evaluate_eq, form_written path argument.closed, application,
    arguments_single function argument, converted]
  rw [Form.evaluate, Application.evaluate, value]
  rfl

theorem evaluate_aggregate {kind : Aggregate} (known : aggregate? function = some kind)
    {items trailing : List Text} (each : ∀ x ∈ items, Argument x) (ends : Trailing items trailing)
    {values : List Value} (numbers : evaluateNumbers (evaluate env d) items = .ok (.ok values)) :
    evaluate env d (⟨function, listing (items ++ trailing)⟩ : Call).written =
      .ok (.ofOption (kind.reduce? d.trueDivision values)) := by
  obtain ⟨path, reduced⟩ := path_of_aggregate known
  have argument := argument_listing fun x hx => (apart_of_trailing each ends x hx).1
  rw [evaluate_eq, form_written path argument.closed, application,
    arguments_single function argument, reduced]
  rw [aggregation, sequence?_listing each ends, Form.evaluate, Application.evaluate, numbers]
  rfl

end

end Call

theorem evaluateNumbers_map {ε α : Type} {evaluate : Text → Except ε Evaluation} {items : List α}
    {text : α → Text} {value : α → Value}
    (each : ∀ x ∈ items, evaluate (text x) = .ok (.value (value x)) ∧ (value x).isNumeric = true) :
    evaluateNumbers evaluate (items.map text) = .ok (.ok (items.map value)) := by
  induction items with
  | nil => rfl
  | cons x items ih =>
    rw [List.forall_mem_cons] at each
    obtain ⟨⟨first, numeric⟩, others⟩ := each
    rw [List.map_cons, List.map_cons, evaluateNumbers, first]
    simp only [bind, Except.bind, numeric, if_true, ih others]

end SourcePreview
