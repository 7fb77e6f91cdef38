import SourcePreview.Proofs.Expression.Overwide
import SourcePreview.Statement.Line

/-! The expressions of a statement stand in its line. Only an assignment with an operator composes a
new text, which asks for decimal places just where its operand does (`Statement.within_assign`). -/

namespace SourcePreview

def Action.expressions : Action → List Text
  | .print p => p.arguments ++ p.separator.toList ++ (match p.ending with
    | .expression e => [e]
    | _ => [])
  | .input site => site.prompt.toList
  | .assign _ expr => [expr]

/-- The texts that a statement evaluates ask for no decimal places but those that `s` asks for. -/
def Statement.Within (statement : Statement) (s : Text) : Prop :=
  ∀ a, statement.action? = some a → ∀ x ∈ a.expressions, ∀ n, Text.AsksPlaces n x →
    Text.AsksPlaces n s

namespace Statement.Within

variable {statement : Statement} {s t : Text}

theorem mono (h : statement.Within s) (hs : s <:+: t) : statement.Within t :=
  fun a ha x hx n asks => (h a ha x hx n asks).mono hs

theorem of_action {a : Action} (h : ∀ x ∈ a.expressions, x <:+: s) :
    (Statement.action a).Within s := by
  intro a' ha x hx n asks
  cases ha
  exact asks.mono (h x hx)

theorem of_none (h : statement.action? = none) : statement.Within s := by
  intro a ha
  rw [h] at ha
  cases ha

theorem withoutCode (line : Text) : (Statement.withoutCode line).Within s := by
  refine .of_none ?_
  unfold Statement.withoutCode
  split <;> rfl

end Statement.Within

/-- What a line of such a shape evaluates stands in `s`, as does the body that it leaves to be
read. -/
def LineShape.Within (shape : LineShape) (s : Text) : Prop :=
  match shape with
  | .complete statement => statement.Within s
  | .header _ body => body <:+: s

theorem LineShape.Within.mono {shape : LineShape} {s t : Text} (h : shape.Within s)
    (hs : s <:+: t) : shape.Within t := by
  cases shape with
  | complete statement => exact Statement.Within.mono h hs
  | header keyword body => exact List.IsInfix.trans h hs

theorem Text.dot_not_mem_of_isIdentifier {s : Text} (h : Text.isIdentifier s = true) : '.' ∉ s := by
  intro hm
  exact absurd (List.all_eq_true.1 (Text.all_isNamePart h) '.' hm) (by decide +kernel)

/-- An assignment evaluates its right side, alone or in parentheses behind its target and its
operator. -/
theorem Statement.within_assign {target expr s : Text} (name : Text.isIdentifier target = true)
    (op : Option Operator) (h : expr <:+: s) : (Statement.assign target op expr).Within s := by
  have trimmed : Text.trim expr <:+: s := (Text.trim_isInfix expr).trans h
  cases op with
  | none => exact .of_action fun x hx => List.mem_singleton.1 hx ▸ trimmed
  | some op =>
    intro a ha x hx n asks
    cases ha
    rw [List.mem_singleton.1 hx] at asks
    have composed : target ++ [' ', op.symbol, ' ', '('] ++ Text.trim expr ++ [')'] =
        target ++ ' ' :: ([op.symbol] ++ ' ' :: ([] ++ '(' :: (Text.trim expr ++ ')' :: []))) := by
      simp only [List.append_assoc, List.cons_append, List.nil_append]
    dsimp only at asks
    rw [composed] at asks
    -- what asks for places holds a point, and the expression is the only part that can
    have undotted : ∀ {t : Text}, '.' ∉ t → ¬ Text.AsksPlaces n t := fun ht ask => ht ask.dot_mem
    have operator : '.' ∉ [op.symbol] := by cases op <;> decide
    have behindTarget :=
      (asks.of_append (by decide)).resolve_left (undotted (Text.dot_not_mem_of_isIdentifier name))
    have behindOperator := (behindTarget.of_append (by decide)).resolve_left (undotted operator)
    have inParentheses :=
      (behindOperator.of_append (by decide)).resolve_left (undotted List.not_mem_nil)
    have inside := (inParentheses.of_append (by decide)).resolve_right (undotted List.not_mem_nil)
    exact inside.mono trimmed

namespace Text

variable {s : Text}

theorem spanOf_isInfix (p : Char → Bool) (s : Text) :
    (spanOf p s).1 <:+: s ∧ (spanOf p s).2 <:+: s :=
  ⟨(List.takeWhile_prefix p).isInfix, (List.dropWhile_suffix p).isInfix⟩

theorem trimStart_suffix (s : Text) : trimStart s <:+ s := List.dropWhile_suffix isBlank

theorem trimEndOf_isPrefix (p : Char → Bool) (s : Text) : trimEndOf p s <+: s := by
  obtain ⟨b, h⟩ := List.dropWhile_suffix p (l := s.reverse)
  refine ⟨b.reverse, ?_⟩
  rw [trimEndOf, ← List.reverse_append, h, List.reverse_reverse]

end Text

theorem Dialect.code_isPrefix (d : Dialect) (s : Text) : d.code s <+: s := by
  have cut : ∀ n, (d.cutComment n s).1 <+: s := by
    induction s with
    | nil => exact fun n => List.prefix_refl []
    | cons c r ih =>
      intro n
      rw [cutComment]
      split
      · exact List.nil_prefix
      · exact List.cons_prefix_cons.2 ⟨rfl, ih _⟩
  exact cut .start

theorem AssignmentParts.suffix_of_ofText? {s : Text} {parts : AssignmentParts}
    (h : ofText? s = some parts) :
    parts.right <:+ s := by
  have found : ∀ n before, scan n before s = some parts → parts.right <:+ s := by
    clear h
    induction s with
    | nil => intro n before h; cases h
    | cons c r ih =>
      intro n before h
      rw [scan] at h
      split at h
      · have right : parts.right = r := by
          unfold atEquals at h
          split at h
          · cases h
          · split at h
            · cases h; rfl
            · split at h
              · cases h
              · split at h <;> cases h <;> rfl
        rw [right]
        exact List.suffix_cons c r
      · exact (ih _ _ h).trans (List.suffix_cons c r)
  exact found _ _ h

namespace Python

variable {s : Text}

theorem infix_of_keywordArgument? {argument name value : Text}
    (h : keywordArgument? argument = some (name, value)) :
    value <:+: argument := by
  obtain ⟨⟨front, behind⟩, hs, h⟩ := Option.bind_eq_some_iff.1 h
  dsimp only at h
  split at h
  · cases h
    rw [Text.eq_of_splitOnce hs]
    exact (Text.trim_isInfix behind).trans
      ((List.suffix_cons '=' behind).trans (List.suffix_append front _)).isInfix
  · cases h

theorem expressions_addArgument {p : Print} {argument : Text}
    (h : ∀ x ∈ (Action.print p).expressions, x <:+: s) (ha : argument <:+: s) :
    ∀ x ∈ (Action.print (addArgument p argument)).expressions, x <:+: s := by
  have trimmed : Text.trim argument <:+: s := (Text.trim_isInfix argument).trans ha
  simp only [Action.expressions, List.forall_mem_append] at h ⊢
  obtain ⟨⟨arguments, separator⟩, ending⟩ := h
  unfold addArgument
  dsimp only
  split
  · exact ⟨⟨arguments, separator⟩, ending⟩
  · split
    · next name value hk =>
      have value := (infix_of_keywordArgument? hk).trans trimmed
      split
      · exact ⟨⟨arguments, by simpa using value⟩, ending⟩
      · split
        · exact ⟨⟨arguments, separator⟩, by simpa using value⟩
        · split
          · exact ⟨⟨arguments, separator⟩, ending⟩
          · exact ⟨⟨arguments, separator⟩, ending⟩
    · exact ⟨⟨List.forall_mem_append.2 ⟨arguments, by simpa using trimmed⟩, separator⟩, ending⟩

theorem expressions_print (inner : Text) :
    ∀ x ∈ (Action.print (print inner)).expressions, x <:+: inner := by
  have added : ∀ (arguments : List Text) (p : Print), (∀ a ∈ arguments, a <:+: inner) →
      (∀ x ∈ (Action.print p).expressions, x <:+: inner) →
      ∀ x ∈ (Action.print (arguments.foldl addArgument p)).expressions, x <:+: inner := by
    intro arguments
    induction arguments with
    | nil => exact fun p _ hp => hp
    | cons a arguments ih =>
      intro p ha hp
      rw [List.forall_mem_cons] at ha
      exact ih _ ha.2 (expressions_addArgument hp ha.1)
  exact added _ _ (fun a ha => Nesting.infix_of_mem_splitTop ha) (List.forall_mem_nil _)

theorem expressions_site (target : Option Text) (kind : Kind) (inner : Text) :
    ∀ x ∈ (Action.input (site target kind inner)).expressions, x <:+: inner := by
  intro x hx
  unfold site Action.expressions at hx
  dsimp only at hx
  split at hx
  · cases hx
  · rw [List.mem_singleton.1 hx]
    exact Text.trim_isInfix inner

theorem expressions_input? {target : Option Text} {expr : Text} {site : InputSite}
    (h : input? target expr = some site) :
    ∀ x ∈ (Action.input site).expressions, x <:+: expr := by
  obtain ⟨call, hc, h⟩ := Option.bind_eq_some_iff.1 h
  have outer : call.inner <:+: expr := (Call.infix_of_ofText? hc).2.trans (Text.trim_isInfix expr)
  split at h
  · cases h
    exact fun x hx => (expressions_site _ _ _ x hx).trans outer
  · obtain ⟨kind, -, h⟩ := Option.bind_eq_some_iff.1 h
    obtain ⟨inner, hi, h⟩ := Option.bind_eq_some_iff.1 h
    split at h
    · cases h
      have nested : inner.inner <:+: call.inner :=
        (Call.infix_of_ofText? hi).2.trans (Text.trim_isInfix call.inner)
      exact fun x hx => ((expressions_site _ _ _ x hx).trans nested).trans outer
    · cases h

theorem within_simple (s : Text) : (simple s).Within s := by
  unfold simple
  split
  · next site hi => exact .of_action (expressions_input? hi)
  · cases ha : assignment? s with
    | none => exact .of_none rfl
    | some statement =>
      obtain ⟨parts, hp, rfl⟩ := Option.map_eq_some_iff.1 ha
      have right := (AssignmentParts.suffix_of_ofText? hp).isInfix
      rw [Option.getD_some]
      dsimp only
      split
      · exact .of_none rfl
      · next name =>
        rw [Bool.not_eq_true', Bool.not_eq_false] at name
        split
        · next site hi =>
          split at hi
          · exact Statement.Within.mono (.of_action (expressions_input? hi)) right
          · cases hi
        · exact Statement.within_assign name parts.op right

theorem within_header (keyword rest : Text) : (header keyword rest).Within rest := by
  unfold header
  split
  · next front behind hc =>
    dsimp only
    split
    · exact Statement.Within.of_none rfl
    · exact (Text.trim_isInfix _).trans (Nesting.infix_of_splitTopOnce hc).2
  · exact Statement.Within.of_none rfl

theorem within_shape (line : Text) : (shape line).Within line := by
  have code : Text.trim (Dialect.python.code line) <:+: line :=
    (Text.trim_isInfix _).trans (Dialect.python.code_isPrefix line).isInfix
  obtain ⟨-, rest⟩ := Text.spanOf_isInfix Text.isNamePart (Text.trim (Dialect.python.code line))
  simp only [shape]
  split
  · exact Statement.Within.withoutCode line
  split
  · exact Statement.Within.of_none rfl
  split
  · exact (within_header _ _).mono (rest.trans code)
  split
  · next p hp =>
    unfold print? at hp
    split at hp
    · obtain ⟨inner, hi, rfl⟩ := Option.map_eq_some_iff.1 hp
      have inside :=
        ((Nesting.infix_of_enclosed? hi).trans (Text.trim_isInfix _)).trans (rest.trans code)
      exact Statement.Within.mono (.of_action (expressions_print inner)) inside
    · cases hp
  · exact (within_simple _).mono code

theorem within_statement (line : Text) : (statement line).Within line := by
  -- on the length of the line: the body of a header is shorter
  induction hl : line.length using Nat.strongRecOn generalizing line with
  | ind l ih =>
    have within := within_shape line
    rw [statement_eq]
    cases hs : shape line with
    | complete s =>
      rw [hs] at within
      exact within
    | header keyword body =>
      rw [hs] at within
      exact (ih body.length (hl ▸ length_body_lt hs) body rfl).mono within

end Python

namespace Java

theorem dropModifiers_suffix (s : Text) : dropModifiers s <:+ s := by
  fun_induction dropModifiers s with
  | case1 s word rest hw hm hl ih =>
    have behind : rest <:+ s := by
      have split := congrArg Prod.snd hw
      dsimp only at split
      rw [← split]
      exact List.dropWhile_suffix _
    exact ih.trans ((Text.trimStart_suffix rest).trans behind)
  | case2 => exact List.suffix_refl _
  | case3 => exact List.suffix_refl _

theorem bare_isInfix (code : Text) : bare code <:+: code := by
  unfold bare
  dsimp only
  refine (Text.trimEnd_isPrefix _).isInfix.trans ?_
  have front : code.dropWhile (fun c => c == '}' || Text.isBlank c) <:+ code :=
    List.dropWhile_suffix _
  generalize code.dropWhile (fun c => c == '}' || Text.isBlank c) = s at front ⊢
  cases h : Text.before? [';'] s with
  | none => exact front.isInfix
  | some t =>
    have whole := Text.before?_eq_some_iff.1 h
    exact List.IsInfix.trans ⟨[], [';'], whole.symm⟩ front.isInfix

theorem infix_of_inline? {keyword rest body : Text} (h : inline? keyword rest = some body) :
    body <:+: rest := by
  unfold inline? at h
  split at h
  · split at h
    · next r =>
      obtain ⟨⟨front, behind⟩, hc, rfl⟩ := Option.map_eq_some_iff.1 h
      obtain ⟨c, -, rfl⟩ := Nesting.eq_of_closing? hc
      exact ⟨'(' :: front ++ [c], [], by simp⟩
    · cases h
  · split at h
    · cases h
      exact List.infix_refl _
    · cases h

/-- What follows the arguments of a print call. -/
def ending? (function : Text) : Option PrintEnd :=
  if function = "println".toList then some .newline else if function = "print".toList then
    some .nothing else none

theorem print?_eq (s : Text) : print? s = (printCall? s).bind fun (stream, call) =>
    (Call.ofText? call).bind fun call => (ending? call.function).map fun ending =>
      ⟨if (Text.trim call.inner).isEmpty then [] else [Text.trim call.inner], none, ending,
        stream⟩ := by
  unfold print?
  cases printCall? s with
  | none => rfl
  | some p =>
    simp only [Option.bind_eq_bind, Option.bind_some]
    cases Call.ofText? p.2 with
    | none => rfl
    | some call =>
      simp only [Option.bind_some, ending?]
      split
      · rfl
      · split <;> rfl

theorem expressions_print? {s : Text} {p : Print} (h : print? s = some p) :
    ∀ x ∈ (Action.print p).expressions, x <:+: s := by
  rw [print?_eq] at h
  obtain ⟨⟨stream, call⟩, hp, h⟩ := Option.bind_eq_some_iff.1 h
  obtain ⟨parsed, hc, h⟩ := Option.bind_eq_some_iff.1 h
  obtain ⟨ending, he, rfl⟩ := Option.map_eq_some_iff.1 h
  have suffix : call <:+ s := by
    unfold printCall? at hp
    split at hp
    · next ho =>
      cases hp
      rw [Text.after?_eq_some_iff.1 ho]
      exact List.suffix_append _ _
    · obtain ⟨behind, ho, hp⟩ := Option.map_eq_some_iff.1 hp
      cases hp
      rw [Text.after?_eq_some_iff.1 ho]
      exact List.suffix_append _ _
  have inner : Text.trim parsed.inner <:+: s :=
    ((Text.trim_isInfix _).trans (Call.infix_of_ofText? hc).2).trans suffix.isInfix
  have argument : ∀ x ∈ if (Text.trim parsed.inner).isEmpty then [] else [Text.trim parsed.inner],
      x <:+: s := by
    split
    · exact List.forall_mem_nil _
    · exact List.forall_mem_singleton.2 inner
  unfold Action.expressions
  dsimp only
  rw [Option.toList_none, List.append_nil, List.forall_mem_append]
  refine ⟨argument, ?_⟩
  unfold ending? at he
  split at he
  · cases he
    exact List.forall_mem_nil _
  · split at he
    · cases he
      exact List.forall_mem_nil _
    · cases he

theorem within_assignment? {s : Text} {statement : Statement} (h : assignment? s = some statement) :
    statement.Within s := by
  obtain ⟨parts, hp, rfl⟩ := Option.map_eq_some_iff.1 h
  have right := (AssignmentParts.suffix_of_ofText? hp).isInfix
  split
  · exact .of_none rfl
  · next target ht =>
    have name : Text.isIdentifier target = true := by
      unfold declared? at ht
      dsimp only at ht
      split at ht
      · cases ht
      · exact (Option.filter_eq_some_iff.1 ht).2
    split
    · exact Statement.within_assign name parts.op right
    · split
      · exact .of_action fun x hx => by cases hx
      · split
        · exact .of_none rfl
        · exact Statement.within_assign name none right

theorem within_increment? {s : Text} {statement : Statement} (h : increment? s = some statement) :
    statement.Within s := by
  obtain ⟨⟨name, op⟩, -, h⟩ := Option.bind_eq_some_iff.1 h
  dsimp only at h
  split at h
  · next identifier =>
    cases h
    -- the other operand is the number one, which asks for nothing
    intro a ha x hx n asks
    have own :=
      Statement.within_assign identifier (some op) (List.infix_refl ['1']) a ha x hx n asks
    exact absurd own.dot_mem (by decide)
  · cases h

theorem within_simple (s : Text) : (simple s).Within s := by
  unfold simple
  split
  · next p hp => exact .of_action (expressions_print? hp)
  · split
    · next statement ha => exact within_assignment? ha
    · cases hi : increment? s with
      | none => exact .of_none rfl
      | some statement => exact within_increment? hi

theorem within_header (keyword rest : Text) : (header keyword rest).Within rest := by
  unfold header
  split
  · next b hb =>
    have front := (infix_of_inline? hb).trans (Text.trim_isInfix _)
    have trimmed :=
      ((Text.trim_isInfix _).trans (Text.trimEndOf_isPrefix (· == '{') (Text.trim b)).isInfix).trans
      (Text.trim_isInfix b)
    dsimp only
    split
    · exact Statement.Within.of_none rfl
    · exact trimmed.trans front
  · exact Statement.Within.of_none rfl

theorem within_shape (line : Text) : (shape line).Within line := by
  have code : bare (Text.trim (Dialect.java.code line)) <:+: line :=
    ((bare_isInfix _).trans (Text.trim_isInfix _)).trans (Dialect.java.code_isPrefix line).isInfix
  obtain ⟨-, rest⟩ :=
    Text.spanOf_isInfix Text.isNamePart (dropModifiers (bare (Text.trim (Dialect.java.code line))))
  simp only [shape]
  split
  · exact Statement.Within.withoutCode line
  split
  · exact Statement.Within.of_none rfl
  split
  · exact Statement.Within.of_none rfl
  split
  · exact (within_header _ _).mono (rest.trans ((dropModifiers_suffix _).isInfix.trans code))
  split
  · exact Statement.Within.of_none rfl
  · exact (within_simple _).mono code

theorem within_statement (line : Text) : (statement line).Within line := by
  induction hl : line.length using Nat.strongRecOn generalizing line with
  | ind l ih =>
    have within := within_shape line
    rw [statement_eq]
    cases hs : shape line with
    | complete s =>
      rw [hs] at within
      exact within
    | header keyword body =>
      rw [hs] at within
      exact (ih body.length (hl ▸ length_body_lt hs) body rfl).mono within

end Java

namespace Dialect

theorem within_step (d : Dialect) (awaited : Option Text) (line : Text) :
    (d.step awaited line).1.Within line := by
  unfold step
  split
  · exact .of_none rfl
  · split
    · exact .of_none rfl
    · cases d with
      | python => exact Python.within_statement line
      | java => exact Java.within_statement line

theorem exists_within_of_mem_statements (d : Dialect) {awaited : Option Text} {lines : List Text}
    {statement : Statement} (h : statement ∈ d.statements awaited lines) :
    ∃ line ∈ lines, statement.Within line := by
  induction lines generalizing awaited with
  | nil => cases h
  | cons line lines ih =>
    rcases List.mem_cons.1 h with rfl | h
    · exact ⟨line, List.mem_cons_self, (d.within_step awaited _).mono (Text.trim_isInfix line)⟩
    · obtain ⟨line', hl, hw⟩ := ih h
      exact ⟨line', List.mem_cons_of_mem line hl, hw⟩

end Dialect

theorem Text.infix_of_mem_lines {s line : Text} (h : line ∈ Text.lines s) : line <:+: s := by
  have whole := Text.join_cutLines s
  unfold Text.lines at h
  rcases List.mem_append.1 h with h | h
  · obtain ⟨full, hf, rfl⟩ := List.mem_map.1 h
    obtain ⟨before, after, split⟩ := List.append_of_mem hf
    have inside : full <:+: s := by
      rw [← whole, split]
      exact ⟨(before.map (· ++ ['\n'])).flatten,
        '\n' :: ((after.map (· ++ ['\n'])).flatten ++ (Text.cutLines s).2), by simp⟩
    refine List.IsInfix.trans ?_ inside
    unfold Text.dropReturn
    cases hd : Text.dropLastIf (· == '\r') full with
    | none => exact List.infix_refl full
    | some t => exact (Text.dropLastIf_isPrefix hd).isInfix
  · split at h
    · cases h
    · rw [List.mem_singleton.1 h]
      exact ⟨((Text.cutLines s).1.map (· ++ ['\n'])).flatten, [],
        by rw [List.append_nil]; exact whole⟩

theorem Dialect.within_of_mem_statements (d : Dialect) {source : Text} {statement : Statement}
    (h : statement ∈ d.statements none (Text.lines source)) : statement.Within source := by
  obtain ⟨line, hl, hw⟩ := d.exists_within_of_mem_statements h
  exact hw.mono (Text.infix_of_mem_lines hl)

end SourcePreview
