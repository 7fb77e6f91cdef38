import SourcePreview.Expression.Form
import SourcePreview.Expression.Template
import SourcePreview.Proofs.Text.Search

/-! The texts that are read when an expression is read all stand in its text: the parts of a form
(`Form.infix_of_mem_parts`), the placeholders of a template, and the expression and the format of a
placeholder. -/

namespace SourcePreview

namespace Text

variable {s a : Text}

theorem trimEnd_isPrefix (s : Text) : trimEnd s <+: s := ⟨_, trimEnd_append s⟩

theorem trim_isInfix (s : Text) : trim s <:+: s := by
  obtain ⟨a, b, -, -, he⟩ := exists_trim s
  exact ⟨a, b, he.symm⟩

theorem dropLastIf_isPrefix {p : Char → Bool} (h : dropLastIf p s = some a) : a <+: s := by
  unfold dropLastIf at h
  split at h
  · split at h
    · rw [← Option.some.inj h]
      exact List.dropLast_prefix s
    · cases h
  · cases h

theorem dropLastIf_eq_some_iff {c : Char} : dropLastIf (· == c) s = some a ↔ s = a ++ [c] := by
  constructor
  · intro h
    unfold dropLastIf at h
    split at h
    · next last hl =>
      obtain ⟨r, rfl⟩ := List.getLast?_eq_some_iff.1 hl
      split at h
      · next same =>
        rw [List.dropLast_concat] at h
        rw [Option.some.inj h, eq_of_beq same]
      · cases h
    · cases h
  · rintro rfl
    simp [dropLastIf]

end Text

namespace Nesting

variable {sep : Char} {n : Nesting} {s t : Text}

theorem cutTop_join (sep : Char) (n : Nesting) (s : Text) :
    (cutTop sep n s).1 ++ (cutTop sep n s).2.flatMap (sep :: ·) = s := by
  induction s generalizing n with
  | nil => rfl
  | cons c r ih =>
    have rest := ih (n.step c)
    rw [cutTop]
    dsimp only
    split
    · next hc =>
      rw [Bool.and_eq_true, beq_iff_eq] at hc
      rw [List.flatMap_cons, List.nil_append, List.cons_append, rest, hc.2]
    · rw [List.cons_append, rest]

theorem infix_of_mem_splitTop (h : t ∈ splitTop sep s) : t <:+: s := by
  have whole := cutTop_join sep start s
  rcases List.mem_cons.1 h with rfl | h
  · exact ⟨[], _, whole⟩
  · obtain ⟨before, after, others⟩ := List.append_of_mem h
    rw [others] at whole
    exact ⟨(cutTop sep start s).1 ++ before.flatMap (sep :: ·) ++ [sep], after.flatMap (sep :: ·),
      by simpa using whole⟩

theorem infix_of_enclosed? (h : enclosed? s = some t) : t <:+: s := by
  unfold enclosed? at h
  split at h
  · split at h
    · next inner hc =>
      obtain ⟨c, -, rfl⟩ := eq_of_closing? hc
      cases h
      exact ⟨['('], [c], by simp⟩
    · cases h
  · cases h

theorem infix_of_splitTopOnce {a b : Text} (h : splitTopOnce sep n s = some (a, b)) :
    a <:+: s ∧ b <:+: s := by
  obtain rfl := eq_of_splitTopOnce h
  exact ⟨⟨[], sep :: b, by simp⟩, ⟨a ++ [sep], [], by simp⟩⟩

end Nesting

namespace Quoted

variable {s body : Text} {literal : Quoted}

theorem infix_of_between? {mark : Text} (h : between? mark s = some body) : body <:+: s := by
  obtain ⟨r, hr, hb⟩ := Option.bind_eq_some_iff.1 h
  rw [Text.after?_eq_some_iff.1 hr, Text.before?_eq_some_iff.1 hb, ← List.append_assoc]
  exact List.infix_append mark body mark

theorem infix_of_ofText? (h : ofText? s = some literal) : literal.body <:+: s := by
  simp only [ofText?, Option.bind_eq_some_iff] at h
  obtain ⟨⟨letters, q, r⟩, hc, h⟩ := h
  obtain ⟨rfl, -, -⟩ := Text.eq_of_cutAtFirst hc
  dsimp only at h
  split at h
  · obtain ⟨body, hb, rfl⟩ := Option.map_eq_some_iff.1 h
    have inside : body <:+: q :: r := by
      simp only [body?] at hb
      split at hb
      · exact infix_of_between? (Option.filter_eq_some_iff.1 hb).1
      · exact infix_of_between? (Option.filter_eq_some_iff.1 hb).1
    exact inside.trans (List.suffix_append letters (q :: r)).isInfix
  · cases h

end Quoted

theorem Operator.symbol_of_ofChar? {c : Char} {op : Operator} (h : ofChar? c = some op) :
    op.symbol = c := by
  unfold ofChar? at h
  split at h <;> cases h <;> rfl

namespace Cut

variable {s before after : Text} {found found' : Candidates}

def Candidates.Divide (found : Candidates) (s : Text) : Prop :=
  ∀ cut, found.additive = some cut ∨ found.multiplicative = some cut →
    s = cut.left.reverse ++ cut.op.symbol :: cut.right

theorem Candidates.Divide.add {c : Char} (h : found.Divide s)
    (ha : found.add c before after = some found') (hs : s = before.reverse ++ c :: after) :
    found'.Divide s := by
  unfold Candidates.add at ha
  split at ha
  · cases ha
    exact h
  · next op hop =>
    rw [← Operator.symbol_of_ofChar? hop] at hs
    -- whichever of the two candidates the new cut takes the place of, the other one stays
    have additive : Divide { found with additive := some ⟨before, op, after⟩ } s := by
      rintro cut (hc | hc)
      · rw [← Option.some.inj hc]
        exact hs
      · exact h cut (Or.inr hc)
    have multiplicative : Divide { found with multiplicative := some ⟨before, op, after⟩ } s := by
      rintro cut (hc | hc)
      · exact h cut (Or.inl hc)
      · rw [← Option.some.inj hc]
        exact hs
    split at ha
    · cases ha
      split
      · exact h
      · exact additive
    · cases ha
      split
      · exact h
      · exact additive
    · split at ha
      · cases ha
      · cases ha
        exact multiplicative
    · split at ha
      · cases ha
      · cases ha
        exact multiplicative

theorem Candidates.Divide.scan {n : Nesting} {r : Text} (h : found.Divide s)
    (hf : scan n before found r = some found') (hs : s = before.reverse ++ r) :
    found'.Divide s := by
  induction r generalizing n before found with
  | nil =>
    cases hf
    exact h
  | cons c r ih =>
    have later : s = (c :: before).reverse ++ r := by simpa using hs
    rw [Cut.scan] at hf
    split at hf
    · obtain ⟨next, hn, hf⟩ := Option.bind_eq_some_iff.1 hf
      exact ih (h.add hn hs) hf later
    · exact ih h hf later

theorem eq_of_ofText? {cut : Cut} (h : ofText? s = some cut) :
    s = cut.left ++ cut.op.symbol :: cut.right := by
  obtain ⟨found, hf, h⟩ := Option.bind_eq_some_iff.1 h
  obtain ⟨candidate, hc, rfl⟩ := Option.map_eq_some_iff.1 h
  have empty : Candidates.Divide ⟨none, none⟩ s := by
    rintro cut (hc | hc) <;> cases hc
  refine empty.scan hf rfl candidate ?_
  cases ha : found.additive with
  | some cut =>
    rw [ha, Option.some_or] at hc
    exact Or.inl hc
  | none =>
    rw [ha, Option.none_or] at hc
    exact Or.inr hc

end Cut

namespace Call

variable {s x : Text} {call : Call}

theorem infix_of_ofText? (h : ofText? s = some call) :
    call.function <:+: s ∧ call.inner <:+: s := by
  simp only [ofText?, Option.bind_eq_some_iff] at h
  obtain ⟨⟨function, c, r⟩, hc, h⟩ := h
  obtain ⟨rfl, hx, -⟩ := Text.eq_of_cutAtFirst hc
  obtain rfl := eq_of_beq hx
  dsimp only at h
  split at h
  · obtain ⟨inner, hi, rfl⟩ := Option.map_eq_some_iff.1 h
    refine ⟨(Text.trimEnd_isPrefix function).isInfix.trans (List.prefix_append function _).isInfix,
      ?_⟩
    exact ((Nesting.infix_of_enclosed? hi).trans (Text.trim_isInfix _)).trans
      (List.suffix_append function _).isInfix
  · cases h

theorem infix_of_mem_arguments (h : x ∈ call.arguments) : x <:+: call.inner := by
  unfold arguments at h
  split at h
  · cases h
  · exact Nesting.infix_of_mem_splitTop h

theorem infix_of_mem_sequence? {items : List Text} (h : sequence? s = some items) (hx : x ∈ items) :
    x <:+: s := by
  obtain ⟨inside, hs, rfl⟩ := Option.map_eq_some_iff.1 h
  have item : x ∈ Nesting.splitTop ',' inside := by
    split at hx
    · cases hx
    · dsimp only at hx
      split at hx
      · split at hx
        · exact (List.dropLast_sublist _).mem hx
        · exact hx
      · exact hx
  have trimmed : inside <:+: Text.trim s := by
    unfold sequenceInside? at hs
    dsimp only at hs
    split at hs
    · next r hr =>
      rw [hr]
      exact (Text.dropLastIf_isPrefix hs).isInfix.trans (List.suffix_cons '[' r).isInfix
    · exact Nesting.infix_of_enclosed? hs
  exact ((Nesting.infix_of_mem_splitTop item).trans trimmed).trans (Text.trim_isInfix s)

theorem infix_of_mem_operands {function : Text} {arguments : List Text}
    (hx : x ∈ (apply function arguments).operands) :
    x <:+: function ∨ ∃ a ∈ arguments, x <:+: a := by
  have among : x ∈ arguments → x <:+: function ∨ ∃ a ∈ arguments, x <:+: a :=
    fun h => Or.inr ⟨x, h, List.infix_refl x⟩
  unfold apply at hx
  split at hx
  · unfold aggregation at hx
    split at hx
    · cases hx
    · next single =>
      split at hx
      · next hs => exact Or.inr ⟨single, List.mem_singleton_self single,
          infix_of_mem_sequence? hs hx⟩
      · cases hx
    · exact among hx
  · split at hx
    · unfold methodCall at hx
      split at hx
      · next receiver name hs =>
        split at hx
        · obtain rfl := List.mem_singleton.1 hx
          rw [Text.eq_of_splitOnceLast hs]
          exact Or.inl (List.prefix_append _ _).isInfix
        · cases hx
      · cases hx
    · split at hx
      · split at hx
        · cases hx
        · exact among hx
      · split at hx
        · exact among hx
        · cases hx
    · split at hx
      · exact among hx
      · split at hx
        · exact among hx
        · cases hx
    · cases hx

end Call

namespace Form

/-- Every part of a form stands in its text. -/
theorem infix_of_mem_parts {s x : Text} (h : x ∈ (ofText s).parts) : x <:+: s := by
  refine List.IsInfix.trans ?_ (Text.trim_isInfix s)
  rw [ofText] at h
  generalize Text.trim s = s at h ⊢
  unfold ofTrimmed at h
  split at h
  · cases h
  split at h
  · next he =>
    obtain rfl := List.mem_singleton.1 h
    exact Nesting.infix_of_enclosed? he
  split at h
  · next hq =>
    obtain rfl := List.mem_singleton.1 h
    exact Quoted.infix_of_ofText? hq
  split at h
  · cases h
  split at h
  · cases h
  split at h
  · next cut hc =>
    rw [Cut.eq_of_ofText? hc]
    rcases List.mem_cons.1 h with rfl | h
    · exact (List.prefix_append _ _).isInfix
    · obtain rfl := List.mem_singleton.1 h
      exact ((List.suffix_cons _ _).trans (List.suffix_append _ _)).isInfix
  split at h
  · next operand =>
    obtain rfl := List.mem_singleton.1 h
    exact (List.suffix_cons '-' x).isInfix
  split at h
  · next call hc =>
    obtain ⟨hf, hi⟩ := Call.infix_of_ofText? hc
    rcases Call.infix_of_mem_operands h with hx | ⟨a, ha, hx⟩
    · exact hx.trans hf
    · exact (hx.trans (Call.infix_of_mem_arguments ha)).trans hi
  · cases h

end Form

namespace Segment

theorem infix_of_mem_ofTemplate {s inner : Text} (h : .hole inner ∈ ofTemplate s) :
    inner <:+: s := by
  fun_induction ofTemplate s with
  | case1 => simp at h
  | case2 r ih => exact (ih (mem_cons h)).trans ⟨['}', '}'], [], by simp⟩
  | case3 r ih => exact (ih (mem_cons h)).trans ⟨['{', '{'], [], by simp⟩
  | case4 r hr first after hs hlt ih =>
    rw [Text.eq_of_splitOnce hs]
    simp only [List.mem_cons, reduceCtorEq, Segment.hole.injEq, false_or] at h
    rcases h with rfl | h
    · exact ⟨['{'], '}' :: after, by simp⟩
    · exact (ih h).trans ⟨'{' :: first ++ ['}'], [], by simp⟩
  | case5 => simp at h
  | case6 c r _ _ _ ih => exact (ih (mem_cons h)).trans (List.suffix_cons c r).isInfix

theorem splitFormat_isInfix (inner : Text) :
    (splitFormat inner).1 <:+: inner ∧ ∀ format, (splitFormat inner).2 = some format →
    format <:+: inner := by
  unfold splitFormat
  split
  · next expr format hs =>
    obtain ⟨he, hf⟩ := Nesting.infix_of_splitTopOnce hs
    exact ⟨he, fun _ h => Option.some.inj h ▸ hf⟩
  · exact ⟨List.infix_refl inner, fun _ h => by cases h⟩

end Segment

end SourcePreview
