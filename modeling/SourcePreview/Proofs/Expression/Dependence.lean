import SourcePreview.Expression.Rendering
import SourcePreview.Proofs.Expression.Part

/-! What the value of an expression depends on: the variables whose names stand in its text, and the
rule of division if there is a quotient in it. Two readings that agree on these come to the same
(`evaluate_alike`, `render_alike`, `interpolate_alike`), and without a quotient nothing is divided
by zero (`evaluate_fault`). -/

namespace SourcePreview

/-- Two environments bind the names that stand in a text alike. -/
def Environment.AgreeOn (env env' : Environment) (s : Text) : Prop :=
  ∀ name, Text.isIdentifier name = true → name <:+: s → env.get? name = env'.get? name

namespace Environment.AgreeOn

variable {env env' : Environment} {s t name : Text}

theorem refl (env : Environment) (s : Text) : env.AgreeOn env s := fun _ _ _ => rfl

theorem mono (h : env.AgreeOn env' t) (hs : s <:+: t) : env.AgreeOn env' s :=
  fun name identifier inside => h name identifier (inside.trans hs)

theorem of_assign (h : ¬ name <:+: s) (value : Value) : (env.assign name value).AgreeOn env s := by
  intro other _ inside
  have distinct : other ≠ name := by
    rintro rfl
    exact h inside
  rw [get?_assign, if_neg distinct]

end Environment.AgreeOn

theorem Value.binary_division {op : Operator} (h : op ≠ .div) (rule rule' : Bool) (a b : Value) :
    binary rule op a b = binary rule' op a b := by
  cases a <;> cases b <;> cases op <;> first | rfl | exact absurd rfl h

theorem Value.binary_ne_divisionByZero {op : Operator} (h : op ≠ .div) (rule : Bool) (a b : Value) :
    binary rule op a b ≠ .error .divisionByZero := by
  have float : ∀ x y, floatBinary op x y ≠ .error .divisionByZero := by
    intro x y
    cases op with
    | add | sub | mul => exact nofun
    | div => exact absurd rfl h
  have whole : ∀ n i j, wholeOr n op i j ≠ .error .divisionByZero := by
    intro n i j
    unfold wholeOr
    split
    · exact nofun
    · exact float _ _
  have repeated : ∀ s n, repeatText s n ≠ .error .divisionByZero := by
    intro s n
    unfold repeatText
    dsimp only
    split <;> exact nofun
  cases a <;> cases b <;> cases op <;>
    first
    | exact absurd rfl h
    | exact whole _ _ _
    | exact float _ _
    | exact repeated _ _
    | exact nofun

theorem Aggregate.reduce?_division (kind : Aggregate) (rule rule' : Bool) (vs : List Value) :
    kind.reduce? rule vs = kind.reduce? rule' vs := by
  cases kind with
  | sum =>
    have same : (fun sum v => (Value.binary rule .add sum v).toOption) =
        fun sum v => (Value.binary rule' .add sum v).toOption := by
      funext sum v
      rw [Value.binary_division (by decide) rule rule']
    rw [reduce?, reduce?, same]
  | min => rfl
  | max => rfl

namespace Form

variable {s : Text}

theorem name_of_ofText {name : Text} (h : ofText s = .name name) :
    Text.isIdentifier name = true ∧ name <:+: s := by
  refine And.imp_right (fun inside => List.IsInfix.trans inside (Text.trim_isInfix s)) ?_
  rw [ofText] at h
  generalize Text.trim s = s at h ⊢
  unfold ofTrimmed at h
  split at h; · cases h
  split at h; · cases h
  split at h; · cases h
  split at h; · cases h
  split at h
  · next identifier =>
    cases h
    exact ⟨identifier, List.infix_refl _⟩
  split at h; · cases h
  split at h; · cases h
  split at h <;> cases h

theorem cut_of_ofText {cut : Cut} (h : ofText s = .binary cut) : cut.op.symbol ∈ s := by
  refine (Text.trim_isInfix s).subset ?_
  rw [ofText] at h
  generalize Text.trim s = s at h ⊢
  unfold ofTrimmed at h
  split at h; · cases h
  split at h; · cases h
  split at h; · cases h
  split at h; · cases h
  split at h; · cases h
  split at h
  · next hc =>
    cases h
    rw [Cut.eq_of_ofText? hc]
    simp
  split at h; · cases h
  split at h <;> cases h

end Form

/-- A computation in two steps that gets through gets through both. -/
theorem ok_of_bind {ε α β : Type} {x : Except ε α} {f : α → Except ε β} {b : β}
    (h : (x >>= f) = .ok b) :
    ∃ a, x = .ok a ∧ f a = .ok b := by
  cases x with
  | error e => cases h
  | ok a => exact ⟨a, rfl, h⟩

section

variable {e e' : Evaluator}

theorem resolveSegments_alike {raw : Bool} {segments : List Segment}
    (h : ∀ inner, .hole inner ∈ segments → ∀ t, t <:+: inner → e t = e' t) :
    resolveSegments e raw segments = resolveSegments e' raw segments := by
  induction segments with
  | nil => rfl
  | cons segment rest ih =>
    have later := ih fun inner mem => h inner (List.mem_cons_of_mem segment mem)
    cases segment with
    | plain s => rw [resolveSegments, resolveSegments, later]
    | hole inner =>
      have first := h inner List.mem_cons_self _ (Segment.splitFormat_isInfix inner).1
      simp only [resolveSegments, resolveHole, later, first]

theorem Application.evaluate_alike {a : Application} (h : ∀ x ∈ a.operands, e x = e' x)
    (rule rule' : Bool) :
    a.evaluate e rule = a.evaluate e' rule' := by
  rw [evaluate_congr h]
  cases a with
  | aggregate kind items => simp only [evaluate, kind.reduce?_division rule rule']
  | unknown | itemCount | textLength | convert | roundPlaces | power | method => rfl

/-- A form comes to the same if what stands in its parts does, its name has the same value, and it
is no quotient or the rule of division is the same. -/
theorem Form.evaluate_alike {env env' : Environment} {rule rule' : Bool} {form : Form}
    (parts : ∀ x ∈ form.parts, ∀ t, t <:+: x → e t = e' t)
    (names : ∀ name, form = .name name → env.get? name = env'.get? name)
    (division : ∀ cut, form = .binary cut → cut.op = .div → rule = rule') :
    form.evaluate e env rule = form.evaluate e' env' rule' := by
  have whole : ∀ x ∈ form.parts, e x = e' x := fun x hx => parts x hx x (List.infix_refl x)
  cases form with
  | unknown => rfl
  | number v => rfl
  | group inner => exact whole inner (List.mem_singleton_self inner)
  | name n => rw [evaluate, evaluate, names n rfl]
  | quoted literal =>
    have body := parts literal.body (List.mem_singleton_self _)
    have holes :
      ∀ inner, .hole inner ∈ Segment.ofTemplate literal.body → ∀ t, t <:+: inner → e t = e' t :=
      fun inner mem t ht => body t (ht.trans (Segment.infix_of_mem_ofTemplate mem))
    rw [evaluate, evaluate, resolveSegments_alike holes]
  | negation operand =>
    have operand := whole operand (List.mem_singleton_self operand)
    rw [evaluate, evaluate, operand]
  | application a => exact a.evaluate_alike whole rule rule'
  | binary cut =>
    have left : e cut.left = e' cut.left := whole cut.left (by simp [Form.parts])
    have right : e cut.right = e' cut.right := whole cut.right (by simp [Form.parts])
    have combined : Value.binary rule cut.op = Value.binary rule' cut.op := by
      by_cases quotient : cut.op = .div
      · rw [division cut rfl quotient]
      · funext a b
        exact Value.binary_division quotient rule rule' a b
    rw [evaluate, evaluate, left, right, combined]

end

variable {env env' : Environment} {d d' : Dialect} {s : Text}

/-- An evaluation depends on the names in its text, and on the dialect only if there is a quotient
in it. -/
theorem evaluate_alike (names : env.AgreeOn env' s) (division : d = d' ∨ '/' ∉ s) :
    evaluate env d s = evaluate env' d' s := by
  -- on the length of the text: all that is read of it stands in a part of its form, which is
  -- shorter
  induction hl : s.length using Nat.strongRecOn generalizing s with
  | ind l ih =>
    rw [evaluate_eq, evaluate_eq]
    apply Form.evaluate_alike
    · intro x hx t ht
      have shorter : t.length < l :=
        hl ▸ Nat.lt_of_le_of_lt ht.length_le (Form.length_lt_of_mem_parts hx)
      have inside : t <:+: s := ht.trans (Form.infix_of_mem_parts hx)
      exact ih t.length shorter (names.mono inside) (division.imp_right fun absent mem =>
        absent (inside.subset mem)) rfl
    · intro name hn
      obtain ⟨identifier, inside⟩ := Form.name_of_ofText hn
      exact names name identifier inside
    · intro cut hc quotient
      have mem := Form.cut_of_ofText hc
      rw [quotient] at mem
      have same : d = d' := division.resolve_right fun absent => absent mem
      rw [same]

theorem interpolate_alike (names : env.AgreeOn env' s) (division : d = d' ∨ '/' ∉ s) (raw : Bool) :
    interpolate env d raw s = interpolate env' d' raw s := by
  apply resolveSegments_alike
  intro inner mem t ht
  have inside : t <:+: s := ht.trans (Segment.infix_of_mem_ofTemplate mem)
  exact evaluate_alike (names.mono inside) (division.imp_right fun absent hm =>
    absent (inside.subset hm))

theorem looseOperands?_eq_some {operands : List Text} (h : looseOperands? s = some operands) :
    ∀ t ∈ operands, t.length < s.length ∧ t <:+: s := by
  unfold looseOperands? at h
  dsimp only at h
  split at h
  · next several =>
    cases h
    exact fun t ht =>
      ⟨Nesting.length_lt_of_mem_splitTop ht several.1, Nesting.infix_of_mem_splitTop ht⟩
  · cases h

theorem render_alike (names : env.AgreeOn env' s) (division : d = d' ∨ '/' ∉ s) :
    render env d s = render env' d' s := by
  induction hl : s.length using Nat.strongRecOn generalizing s with
  | ind l ih =>
    rw [render_eq, render_eq, evaluate_alike names division]
    cases ho : looseOperands? s with
    | none => rfl
    | some operands =>
      have each : ∀ t ∈ operands, render env d t = render env' d' t := by
        intro t ht
        obtain ⟨shorter, inside⟩ := looseOperands?_eq_some ho t ht
        exact ih t.length (hl ▸ shorter) (names.mono inside) (division.imp_right fun absent hm =>
          absent (inside.subset hm)) rfl
      dsimp only
      rw [renderAll_congr each]

/-- What is evaluated, shown or filled in depends only on the variables whose names stand in the
text. -/
theorem Environment.AgreeOn.read_alike (h : env.AgreeOn env' s) (d : Dialect) (raw : Bool) :
    evaluate env d s = evaluate env' d s ∧ render env d s = render env' d s ∧
      interpolate env d raw s = interpolate env' d raw s :=
  ⟨evaluate_alike h (.inl rfl), render_alike h (.inl rfl), interpolate_alike h (.inl rfl) raw⟩

/-- The name `y` stands in neither the call nor the placeholder, so its value is of no account. -/
theorem Environment.AgreeOn.read_alike_of_unmentioned :
    let s := "max([x, 2]) + f\"\x7bx:.1f\x7d\" + z".toList
    let env := Environment.empty.assign ['x'] (.int 3)
    let env' := env.assign ['y'] (.str "no".toList)
    env'.AgreeOn env s ∧ render env' .java s = render env .java s := by
  intro s env env'
  have absent : 'y' ∉ s := by decide +kernel
  have agree : env'.AgreeOn env s :=
    .of_assign (fun inside => absent (inside.subset (List.mem_singleton_self 'y'))) _
  exact ⟨agree, (agree.read_alike .java true).2.1⟩

section

variable {evaluate : Evaluator}

theorem evaluateNumbers_fault {ss : List Text}
    (h : evaluateNumbers evaluate ss = .ok (.error .fault)) :
    ∃ s ∈ ss, evaluate s = .ok .fault := by
  induction ss with
  | nil => cases h
  | cons s ss ih =>
    obtain ⟨v, hs, h⟩ := ok_of_bind h
    split at h
    · split at h
      · obtain ⟨vs, hss, h⟩ := ok_of_bind h
        cases vs with
        | ok vs => cases h
        | error e =>
          cases h
          obtain ⟨t, ht, he⟩ := ih hss
          exact ⟨t, List.mem_cons_of_mem s ht, he⟩
      · cases h
    · exact ⟨s, List.mem_cons_self, hs⟩
    · cases h

theorem Evaluation.ofOption_ne_fault (v : Option Value) : ofOption v ≠ .fault := by
  cases v <;> exact nofun

theorem Evaluation.ofArithmetic_ne_fault {r : Except ArithmeticFault Value}
    (h : r ≠ .error .divisionByZero) :
    ofArithmetic r ≠ .fault := by
  cases r with
  | ok v => exact nofun
  | error e =>
    cases e with
    | divisionByZero => exact absurd rfl h
    | unsupported => exact nofun

/-- Only the operands of an application divide by zero. -/
theorem Application.evaluate_fault {rule : Bool} {a : Application}
    (h : a.evaluate evaluate rule = .ok .fault) :
    ∃ x ∈ a.operands, evaluate x = .ok .fault := by
  cases a with
  | unknown => cases h
  | itemCount count => cases h
  | aggregate kind items =>
    obtain ⟨vs, hs, h⟩ := ok_of_bind h
    split at h
    · exact absurd (Except.ok.inj h) (Evaluation.ofOption_ne_fault _)
    · cases h
      exact evaluateNumbers_fault hs
  | textLength operand =>
    obtain ⟨v, hx, h⟩ := ok_of_bind h
    split at h
    · cases h
    · exact ⟨operand, List.mem_singleton_self operand, hx⟩
    · cases h
  | convert conversion operand =>
    obtain ⟨v, hx, h⟩ := ok_of_bind h
    split at h
    · exact absurd (Except.ok.inj h) (Evaluation.ofOption_ne_fault _)
    · cases h
      exact ⟨operand, List.mem_singleton_self operand, hx⟩
  | roundPlaces operand places =>
    obtain ⟨v, -, h⟩ := ok_of_bind h
    split at h
    · obtain ⟨v, hx, h⟩ := ok_of_bind h
      split at h
      · exact absurd (Except.ok.inj h) (Evaluation.ofOption_ne_fault _)
      · cases h
        exact ⟨operand, by simp [operands], hx⟩
    · cases h
  | power base exponent =>
    obtain ⟨b, -, h⟩ := ok_of_bind h
    obtain ⟨v, -, h⟩ := ok_of_bind h
    split at h
    · split at h <;> cases h
    · cases h
  | method m receiver =>
    obtain ⟨v, -, h⟩ := ok_of_bind h
    split at h <;> cases h

/-- A form divides by zero as a quotient, or because a part of it does. -/
theorem Form.evaluate_fault {env : Environment} {rule : Bool} {form : Form}
    (h : form.evaluate evaluate env rule = .ok .fault) :
    (∃ cut, form = .binary cut ∧ cut.op = .div) ∨ ∃ x ∈ form.parts, evaluate x = .ok .fault := by
  cases form with
  | unknown => cases h
  | number v => cases h
  | name n => exact absurd (Except.ok.inj h) (Evaluation.ofOption_ne_fault _)
  | group inner => exact .inr ⟨inner, List.mem_singleton_self inner, h⟩
  | quoted literal =>
    rw [Form.evaluate] at h
    split at h
    · obtain ⟨s, -, h⟩ := ok_of_bind h
      cases h
    · cases h
  | negation operand =>
    obtain ⟨v, hx, h⟩ := ok_of_bind h
    split at h
    · exact absurd (Except.ok.inj h) (Evaluation.ofOption_ne_fault _)
    · cases h
      exact .inr ⟨operand, List.mem_singleton_self operand, hx⟩
  | application a => exact .inr (a.evaluate_fault h)
  | binary cut =>
    obtain ⟨a, ha, h⟩ := ok_of_bind h
    split at h
    · obtain ⟨b, hb, h⟩ := ok_of_bind h
      split at h
      · by_cases quotient : cut.op = .div
        · exact .inl ⟨cut, rfl, quotient⟩
        · exact absurd (Except.ok.inj h)
            (Evaluation.ofArithmetic_ne_fault (Value.binary_ne_divisionByZero quotient rule _ _))
      · cases h
        exact .inr ⟨cut.right, by simp [Form.parts], hb⟩
    · cases h
      exact .inr ⟨cut.left, by simp [Form.parts], ha⟩

end

/-- Where something is divided by zero there is a sign of division. -/
theorem evaluate_fault (h : evaluate env d s = .ok .fault) : '/' ∈ s := by
  induction hl : s.length using Nat.strongRecOn generalizing s with
  | ind l ih =>
    rw [evaluate_eq] at h
    rcases Form.evaluate_fault h with ⟨cut, hc, quotient⟩ | ⟨x, hx, hf⟩
    · have mem := Form.cut_of_ofText hc
      rwa [quotient] at mem
    · have shorter : x.length < l := hl ▸ Form.length_lt_of_mem_parts hx
      exact (Form.infix_of_mem_parts hx).subset (ih x.length shorter hf rfl)

/-- Without a sign of division a text comes to the same in both dialects, and nothing in it is
divided by zero. -/
theorem evaluate_undivided (h : '/' ∉ s) (env : Environment) :
    evaluate env .python s = evaluate env .java s ∧ ∀ d, evaluate env d s ≠ .ok .fault :=
  ⟨evaluate_alike (.refl env s) (.inr h), fun _ fault => h (evaluate_fault fault)⟩

/-- The quotient of two integers differs from dialect to dialect, their sum and product do not. -/
theorem evaluate_undivided_of_sum :
    let s := "sum([x, 2.5]) * 3 + f\"\x7bmax(x, 2)\x7d\"".toList
    let env := Environment.empty.assign ['x'] (.int 0)
    '/' ∉ s ∧ evaluate env .python s = evaluate env .java s ∧
      evaluate env .java s ≠ .ok .fault := by
  intro s env
  have absent : '/' ∉ s := by decide +kernel
  obtain ⟨same, faultless⟩ := evaluate_undivided absent env
  exact ⟨absent, same, faultless .java⟩

end SourcePreview
