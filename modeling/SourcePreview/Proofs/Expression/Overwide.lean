import SourcePreview.Expression.Rendering
import SourcePreview.Proofs.Expression.Numeral
import SourcePreview.Proofs.Expression.Part

/-! Where an overwide placeholder comes from. The text that is read holds its format, with the very
number of decimal places that is refused (`evaluate_overwide`, `render_overwide`,
`interpolate_overwide`). -/

namespace SourcePreview

theorem error_of_bind {ε α β : Type} {x : Except ε α} {f : α → Except ε β} {e : ε}
    (h : (x >>= f) = .error e) :
    x = .error e ∨ ∃ a, x = .ok a ∧ f a = .error e := by
  cases x with
  | error e' => exact Or.inl (congrArg Except.error (Except.error.inj h))
  | ok a => exact Or.inr ⟨a, rfl, h⟩

namespace Text

variable {n : Nat} {s t : Text} {c : Char}

/-- A text holds the format of `n` decimal places: a point, the digits of `n`, which a plus sign may
precede, and an `f`. -/
def AsksPlaces (n : Nat) (s : Text) : Prop :=
  ∃ sign row, (sign = [] ∨ sign = ['+']) ∧ Number.value? row = some n ∧
    '.' :: (sign ++ row ++ ['f']) <:+: s

def isPlacesPart (c : Char) : Bool := c == '.' || c == '+' || c == 'f' || Number.isDigit c

namespace AsksPlaces

theorem mono (h : AsksPlaces n s) (hs : s <:+: t) : AsksPlaces n t := by
  obtain ⟨sign, row, hsign, hrow, hi⟩ := h
  exact ⟨sign, row, hsign, hrow, hi.trans hs⟩

theorem dot_mem (h : AsksPlaces n s) : '.' ∈ s := by
  obtain ⟨sign, row, -, -, hi⟩ := h
  exact hi.subset List.mem_cons_self

theorem of_append (h : AsksPlaces n (s ++ c :: t)) (other : isPlacesPart c = false) :
    AsksPlaces n s ∨ AsksPlaces n t := by
  obtain ⟨sign, row, hsign, hrow, hi⟩ := h
  have absent : c ∉ '.' :: (sign ++ row ++ ['f']) := by
    intro hc
    have part : isPlacesPart c = true := by
      simp only [List.mem_cons, List.mem_append, List.not_mem_nil, or_false] at hc
      rcases hc with rfl | (hc | hc) | rfl
      · rfl
      · rcases hsign with rfl | rfl
        · cases hc
        · rw [List.mem_singleton.1 hc]
          rfl
      · simp [isPlacesPart, Number.isDigit_of_value? hrow c hc]
      · rfl
    rw [other] at part
    cases part
  exact (infix_of_absent absent hi).imp (⟨sign, row, hsign, hrow, ·⟩) (⟨sign, row, hsign, hrow, ·⟩)

end AsksPlaces

end Text

/-- What is refused was asked for in a text: a number of decimal places above the limit that 64 bits
can hold. -/
structure Overwide.From (e : Overwide) (s : Text) : Prop where
  asked : Text.AsksPlaces e.places s
  wide : placesLimit < e.places
  readable : e.places < 2 ^ 64

theorem Overwide.From.mono {e : Overwide} {s t : Text} (h : e.From s) (hs : s <:+: t) : e.From t :=
  ⟨h.asked.mono hs, h.wide, h.readable⟩

theorem Number.exists_of_readNat? {s : Text} {n : Nat} (h : readNat? s = some n) :
    n < 2 ^ 64 ∧ ∃ sign row, (sign = [] ∨ sign = ['+']) ∧ value? row = some n ∧
    s = sign ++ row := by
  obtain ⟨hv, hn⟩ := Option.filter_eq_some_iff.1 h
  refine ⟨of_decide_eq_true hn, ?_⟩
  split at hv
  · next row => exact ⟨['+'], row, Or.inr rfl, hv, rfl⟩
  · exact ⟨[], s, Or.inl rfl, hv, rfl⟩

theorem Value.formatted_overwide {v : Value} {format : Option Text} {e : Overwide}
    (h : v.formatted format = .error e) :
    ∃ f, format = some f ∧ e.From f := by
  unfold Value.formatted at h
  dsimp only at h
  split at h
  · next n x hn _ =>
    split at h
    · next wide =>
      obtain ⟨f, hf, hn⟩ := Option.bind_eq_some_iff.1 hn
      obtain ⟨r, hr, hn⟩ := Option.bind_eq_some_iff.1 hn
      obtain ⟨row, hrow, hn⟩ := Option.bind_eq_some_iff.1 hn
      obtain ⟨hlt, sign, digits, hsign, hdigits, rfl⟩ := Number.exists_of_readNat? hn
      cases h
      refine ⟨f, hf, ⟨sign, digits, hsign, hdigits, ?_⟩, wide, hlt⟩
      have whole : Text.trim f = '.' :: (sign ++ digits ++ ['f']) := by
        rw [Text.after?_eq_some_iff.1 hr, Text.before?_eq_some_iff.1 hrow]
        rfl
      exact whole ▸ Text.trim_isInfix f
    · cases h
  · cases h

section

variable {evaluate : Evaluator} {e : Overwide}

theorem evaluateNumbers_overwide {ss : List Text} (h : evaluateNumbers evaluate ss = .error e) :
    ∃ s ∈ ss, evaluate s = .error e := by
  induction ss with
  | nil => cases h
  | cons s ss ih =>
    rcases error_of_bind h with hs | ⟨v, -, h⟩
    · exact ⟨s, List.mem_cons_self, hs⟩
    · split at h
      · split at h
        · rcases error_of_bind h with hss | ⟨vs, -, h⟩
          · obtain ⟨t, ht, he⟩ := ih hss
            exact ⟨t, List.mem_cons_of_mem s ht, he⟩
          · cases vs <;> cases h
        · cases h
      · cases h
      · cases h

theorem resolveHole_overwide {inner : Text} (h : resolveHole evaluate inner = .error e) :
    e.From inner ∨ ∃ expr, expr <:+: inner ∧ evaluate expr = .error e := by
  obtain ⟨hexpr, hformat⟩ := Segment.splitFormat_isInfix inner
  rcases error_of_bind h with he | ⟨v, -, h⟩
  · exact Or.inr ⟨_, hexpr, he⟩
  · split at h
    · obtain ⟨f, hf, he⟩ := Value.formatted_overwide h
      exact Or.inl (he.mono (hformat f hf))
    · cases h

theorem resolveSegments_overwide {raw : Bool} {segments : List Segment}
    (h : resolveSegments evaluate raw segments = .error e) :
    ∃ inner, .hole inner ∈ segments ∧ resolveHole evaluate inner = .error e := by
  induction segments with
  | nil => cases h
  | cons segment rest ih =>
    have later : resolveSegments evaluate raw rest = .error e →
        ∃ inner, .hole inner ∈ segment :: rest ∧ resolveHole evaluate inner = .error e := by
      intro hrest
      obtain ⟨inner, hi, he⟩ := ih hrest
      exact ⟨inner, List.mem_cons_of_mem segment hi, he⟩
    cases segment with
    | plain s =>
      rcases error_of_bind h with hrest | ⟨_, -, h⟩
      · exact later hrest
      · cases h
    | hole inner =>
      rcases error_of_bind h with hi | ⟨_, -, h⟩
      · exact ⟨inner, List.mem_cons_self, hi⟩
      · rcases error_of_bind h with hrest | ⟨_, -, h⟩
        · exact later hrest
        · cases h

theorem Application.evaluate_overwide {trueDivision : Bool} {a : Application}
    (h : a.evaluate evaluate trueDivision = .error e) :
    ∃ x ∈ a.operands, evaluate x = .error e := by
  cases a with
  | unknown => cases h
  | itemCount count => cases h
  | aggregate kind items =>
    rcases error_of_bind h with hs | ⟨vs, -, h⟩
    · exact evaluateNumbers_overwide hs
    · cases vs <;> cases h
  | textLength operand =>
    rcases error_of_bind h with hx | ⟨v, -, h⟩
    · exact ⟨operand, List.mem_singleton_self operand, hx⟩
    · split at h <;> cases h
  | convert conversion operand =>
    rcases error_of_bind h with hx | ⟨v, -, h⟩
    · exact ⟨operand, List.mem_singleton_self operand, hx⟩
    · cases v <;> cases h
  | method m receiver =>
    rcases error_of_bind h with hx | ⟨v, -, h⟩
    · exact ⟨receiver, List.mem_singleton_self receiver, hx⟩
    · split at h <;> cases h
  | roundPlaces operand places =>
    rcases error_of_bind h with hp | ⟨v, -, h⟩
    · exact ⟨places, by simp [operands], hp⟩
    · split at h
      · rcases error_of_bind h with hx | ⟨v, -, h⟩
        · exact ⟨operand, by simp [operands], hx⟩
        · cases v <;> cases h
      · cases h
  | power base exponent =>
    rcases error_of_bind h with hb | ⟨b, -, h⟩
    · exact ⟨base, by simp [operands], hb⟩
    · rcases error_of_bind h with he | ⟨v, -, h⟩
      · exact ⟨exponent, by simp [operands], he⟩
      · split at h
        · split at h <;> cases h
        · cases h

/-- What breaks off the evaluation of a form is asked for by one of its parts. -/
theorem Form.evaluate_overwide {env : Environment} {trueDivision : Bool} {form : Form}
    (h : form.evaluate evaluate env trueDivision = .error e) :
    (∃ x ∈ form.parts, e.From x) ∨ ∃ x ∈ form.parts, ∃ y, y <:+: x ∧ evaluate y = .error e := by
  have part : ∀ {x}, x ∈ form.parts → evaluate x = .error e →
      (∃ x ∈ form.parts, e.From x) ∨ ∃ x ∈ form.parts, ∃ y, y <:+: x ∧ evaluate y = .error e :=
    fun {x} hx he => Or.inr ⟨x, hx, x, List.infix_refl x, he⟩
  cases form with
  | unknown => cases h
  | number v => cases h
  | name n => cases h
  | group inner => exact part (List.mem_singleton_self inner) h
  | quoted literal =>
    rw [Form.evaluate] at h
    split at h
    · rcases error_of_bind h with hs | ⟨_, -, h⟩
      · obtain ⟨inner, hi, he⟩ := resolveSegments_overwide hs
        have inside := Segment.infix_of_mem_ofTemplate hi
        rcases resolveHole_overwide he with he | ⟨expr, hexpr, he⟩
        · exact Or.inl ⟨literal.body, List.mem_singleton_self _, he.mono inside⟩
        · exact Or.inr ⟨literal.body, List.mem_singleton_self _, expr, hexpr.trans inside, he⟩
      · cases h
    · cases h
  | negation operand =>
    rcases error_of_bind h with hx | ⟨v, -, h⟩
    · exact part (List.mem_singleton_self operand) hx
    · cases v <;> cases h
  | binary cut =>
    rcases error_of_bind h with ha | ⟨a, -, h⟩
    · exact part (by simp [parts]) ha
    · split at h
      · rcases error_of_bind h with hb | ⟨b, -, h⟩
        · exact part (by simp [parts]) hb
        · cases b <;> cases h
      · cases h
  | application a =>
    obtain ⟨x, hx, he⟩ := Application.evaluate_overwide h
    exact part hx he

end

variable {env : Environment} {d : Dialect} {s : Text} {e : Overwide}

/-- An evaluation breaks off only where its text asks for it. -/
theorem evaluate_overwide (h : evaluate env d s = .error e) : e.From s := by
  -- on the length of the text: the parts of its form are shorter, and stand in it
  induction hl : s.length using Nat.strongRecOn generalizing s with
  | ind l ih =>
    rw [evaluate_eq] at h
    rcases Form.evaluate_overwide h with ⟨x, hx, he⟩ | ⟨x, hx, y, hy, he⟩
    · exact he.mono (Form.infix_of_mem_parts hx)
    · have shorter : y.length < l :=
        hl ▸ Nat.lt_of_le_of_lt hy.length_le (Form.length_lt_of_mem_parts hx)
      exact (ih y.length shorter he rfl).mono (hy.trans (Form.infix_of_mem_parts hx))

theorem interpolate_overwide {raw : Bool} (h : interpolate env d raw s = .error e) : e.From s := by
  obtain ⟨inner, hi, he⟩ := resolveSegments_overwide h
  refine Overwide.From.mono ?_ (Segment.infix_of_mem_ofTemplate hi)
  rcases resolveHole_overwide he with he | ⟨expr, hexpr, he⟩
  · exact he
  · exact (evaluate_overwide he).mono hexpr

theorem renderAll_overwide {render : Text → Except Overwide Text} {ss : List Text}
    (h : renderAll render ss = .error e) :
    ∃ s ∈ ss, render s = .error e := by
  induction ss with
  | nil => cases h
  | cons s ss ih =>
    rcases error_of_bind h with hs | ⟨_, -, h⟩
    · exact ⟨s, List.mem_cons_self, hs⟩
    · rcases error_of_bind h with hss | ⟨_, -, h⟩
      · obtain ⟨t, ht, he⟩ := ih hss
        exact ⟨t, List.mem_cons_of_mem s ht, he⟩
      · cases h

theorem render_overwide (h : render env d s = .error e) : e.From s := by
  induction hl : s.length using Nat.strongRecOn generalizing s with
  | ind l ih =>
    rw [render_eq] at h
    rcases error_of_bind h with he | ⟨v, -, h⟩
    · exact evaluate_overwide he
    · split at h
      · split at h
        · next operands ho =>
          obtain ⟨t, ht, he⟩ := renderAll_overwide h
          simp only [looseOperands?] at ho
          split at ho
          · next several =>
            cases ho
            have shorter : t.length < l := hl ▸ Nesting.length_lt_of_mem_splitTop ht several.1
            exact (ih t.length shorter he rfl).mono (Nesting.infix_of_mem_splitTop ht)
          · cases ho
        · cases h
      · cases h

end SourcePreview
