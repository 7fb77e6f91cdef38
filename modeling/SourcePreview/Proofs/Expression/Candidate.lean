import SourcePreview.Proofs.Expression.Cover
import SourcePreview.Proofs.Expression.Meaning
import SourcePreview.Proofs.Expression.Part

/-! What a scan finds to cut at. Every candidate stands at an operator at the top level
(`scan_append_eq_some`). In a longer text a scan finds what it finds in the text alone, if only
blanks stand before the text and no product and no quotient begins right behind it (`scan_within`),
so a cut does not depend on the blanks around a text (`ofText?_blanks`). -/

namespace SourcePreview

namespace Cut

open Nesting (start)

variable {n : Nesting} {found found' : Candidates} {c : Char} {before after ahead behind s t : Text}
  {cut : Cut}

namespace Candidates

def rank (additive : Bool) (found : Candidates) : Option Cut :=
  if additive then found.additive else found.multiplicative

theorem rank_put (additive : Bool) :
    (found.put cut).rank additive = if cut.op.isAdditive = additive then some cut else
    found.rank additive := by
  unfold put rank
  cases cut.op.isAdditive <;> cases additive <;> rfl

theorem add_eq_some (h : found.add c before after = some found') :
    found' = found ∨ ∃ op, op.symbol = c ∧ found' = found.put ⟨before, op, after⟩ := by
  unfold add at h
  split at h
  · cases h
    exact .inl rfl
  · next op known =>
    have symbol := Operator.symbol_of_ofChar? known
    cases op with
    | add | sub =>
      dsimp only at h
      split at h <;> cases h
      · exact .inl rfl
      · exact .inr ⟨_, symbol, rfl⟩
    | mul | div =>
      dsimp only at h
      split at h <;> cases h
      exact .inr ⟨_, symbol, rfl⟩

end Candidates

/-- A scan of two texts one behind the other goes on at the second with what it found in the
first. -/
theorem scan_append_eq_some (h : scan n before found (s ++ t) = some found') :
    ∃ next, scan (n.after s) (s.reverse ++ before) next t = some found' ∧
      ∀ additive, next.rank additive = found.rank additive ∨ ∃ left op right,
        s = left ++ op.symbol :: right ∧
        op.isAdditive = additive ∧ (n.after left).isTop op.symbol = true ∧
        next.rank additive = some ⟨left.reverse ++ before, op, right ++ t⟩ := by
  induction s generalizing n before found with
  | nil => exact ⟨found, h, fun _ => .inl rfl⟩
  | cons c s ih =>
    rw [List.cons_append, scan] at h
    obtain ⟨first, added, h⟩ : ∃ first, (first = found ∨ ∃ op, op.symbol = c ∧ n.isTop c = true ∧
        first = found.put ⟨before, op, s ++ t⟩) ∧
            scan (n.step c) (c :: before) first (s ++ t) = some found' := by
      split at h
      · next top =>
        obtain ⟨first, added, h⟩ := Option.bind_eq_some_iff.1 h
        rcases Candidates.add_eq_some added with same | ⟨op, symbol, put⟩
        · exact ⟨first, .inl same, h⟩
        · exact ⟨first, .inr ⟨op, symbol, top, put⟩, h⟩
      · exact ⟨found, .inl rfl, h⟩
    obtain ⟨next, behind, ranks⟩ := ih h
    refine ⟨next, by rwa [List.reverse_cons, List.append_assoc], fun additive => ?_⟩
    rcases ranks additive with same | ⟨left, op, right, whole, rank, top, last⟩
    · rcases added with rfl | ⟨op, rfl, top, rfl⟩
      · exact .inl same
      · rw [Candidates.rank_put] at same
        split at same
        · next rank => exact .inr ⟨[], op, s, rfl, rank, top, same⟩
        · exact .inl same
    · refine .inr ⟨c :: left, op, right, by rw [whole]; rfl, rank, top, ?_⟩
      rwa [List.reverse_cons, List.append_assoc]

theorem rank_scan (h : scan n before found s = some found') (additive : Bool) :
    found'.rank additive = found.rank additive ∨ ∃ left op right, s = left ++ op.symbol :: right ∧
      op.isAdditive = additive ∧
      (n.after left).isTop op.symbol = true ∧
      found'.rank additive = some ⟨left.reverse ++ before, op, right⟩ := by
  obtain ⟨next, same, ranks⟩ := scan_append_eq_some (t := []) (by rwa [List.append_nil])
  obtain rfl : next = found' := Option.some.inj same
  refine (ranks additive).imp_right fun ⟨left, op, right, whole, rank, top, last⟩ =>
    ⟨left, op, right, whole, rank, top, ?_⟩
  rwa [List.append_nil] at last

theorem exists_rank (h : found.additive.or found.multiplicative = some cut) :
    ∃ additive, found.rank additive = some cut := by
  cases hf : found.additive with
  | some candidate =>
    rw [hf] at h
    exact ⟨true, hf.trans h⟩
  | none =>
    rw [hf] at h
    exact ⟨false, h⟩

theorem isTop_of_ofText? (h : ofText? s = some cut) :
    (start.after cut.left).isTop cut.op.symbol = true := by
  obtain ⟨found, scanned, h⟩ := Option.bind_eq_some_iff.1 h
  obtain ⟨candidate, hc, rfl⟩ := Option.map_eq_some_iff.1 h
  obtain ⟨additive, hc⟩ := exists_rank hc
  rcases rank_scan scanned additive with same | ⟨left, op, right, -, -, top, last⟩
  · rw [hc] at same
    cases additive <;> cases same
  · obtain rfl : candidate = _ := Option.some.inj (hc.symm.trans last)
    rwa [List.append_nil, List.reverse_reverse]

/-- A cut in a text with more around it; its left side is reversed. -/
def widen (ahead behind : Text) (cut : Cut) : Cut :=
  ⟨cut.left ++ ahead, cut.op, cut.right ++ behind⟩

def Candidates.within (ahead behind : Text) (found : Candidates) : Candidates :=
  ⟨found.additive.map (widen ahead behind), found.multiplicative.map (widen ahead behind)⟩

section

variable (blank : ahead.all Text.isBlank = true)
include blank

theorem find?_append_blanks (before : Text) :
    (before ++ ahead).find? (fun c => !Text.isBlank c) =
      before.find? (fun c => !Text.isBlank c) := by
  rw [List.find?_append, Text.find?_blanks blank, Option.or_none]

theorem endsInExponent_append_blanks (before : Text) :
    endsInExponent (before ++ ahead) = endsInExponent before := by
  cases ahead with
  | nil => rw [List.append_nil]
  | cons d ahead =>
    have space : Text.isBlank d = true := List.all_eq_true.1 blank d List.mem_cons_self
    match before with
    | [] =>
      apply endsInExponent_cons <;>
      · rintro rfl
        cases space
    | [marker] => simp [endsInExponent, not_isDigit_of_isBlank space]
    | marker :: digit :: before => rfl

theorem isSign_append_blanks (before : Text) : isSign (before ++ ahead) = isSign before := by
  rw [isSign, isSign, find?_append_blanks blank, endsInExponent_append_blanks blank]

variable (single : behind.head? ≠ some '*' ∧ behind.head? ≠ some '/')
include single

theorem isDoubled_within (factor : c = '*' ∨ c = '/') (before after : Text) :
    isDoubled c (before ++ ahead) (after ++ behind) = isDoubled c before after := by
  have next : ((after ++ behind).head? == some c) = (after.head? == some c) := by
    cases after with
    | nil => rcases factor with rfl | rfl <;> simp [single]
    | cons d after => rfl
  rw [isDoubled, isDoubled, next, find?_append_blanks blank]

theorem Candidates.add_within (c : Char) (before after : Text) :
    (found.within ahead behind).add c (before ++ ahead) (after ++ behind) =
      (found.add c before after).map (within ahead behind) := by
  unfold add
  cases known : Operator.ofChar? c with
  | none => rfl
  | some op =>
    have symbol := Operator.symbol_of_ofChar? known
    cases op with
    | add | sub =>
      dsimp only
      rw [isSign_append_blanks blank]
      split <;> rfl
    | mul | div =>
      dsimp only
      rw [isDoubled_within blank single (by rw [← symbol]; decide)]
      split <;> rfl

/-- In a longer text a scan finds what it finds in the text alone. -/
theorem scan_within (s : Text) :
    scan n (before ++ ahead) (found.within ahead behind) (s ++ behind) =
    (scan n before found s).bind fun found =>
      scan (n.after s) (s.reverse ++ before ++ ahead) (found.within ahead behind) behind := by
  induction s generalizing n before found with
  | nil => rfl
  | cons c s ih =>
    rw [List.cons_append, scan, scan, Candidates.add_within blank single, Nesting.after_cons,
      List.reverse_cons]
    simp only [List.append_assoc, List.singleton_append] at ih ⊢
    split
    · rw [Option.bind_map, Option.bind_assoc]
      exact congrArg _ (funext fun _ => @ih _ _ (c :: before))
    · exact @ih _ _ (c :: before)

end

/-- A cut does not depend on the blanks around a text. -/
theorem ofText?_blanks (first : ahead.all Text.isBlank = true)
    (last : behind.all Text.isBlank = true) (s : Text) :
    ofText? (ahead ++ (s ++ behind)) = (ofText? s).map fun cut =>
    ⟨ahead ++ cut.left, cut.op, cut.right ++ behind⟩ := by
  have single : behind.head? ≠ some '*' ∧ behind.head? ≠ some '/' := by
    constructor <;>
    · intro h
      cases List.all_eq_true.1 last _ (List.mem_of_head? h)
  have passed : ∀ (n : Nesting) before found, scan n before found behind = some found :=
    fun n before found => by
    have blanks : ∀ p ∈ n.path behind, p.1.isTop p.2 = true → Operator.ofChar? p.2 = none :=
      fun p hp _ =>
      ofChar?_of_isBlank (List.all_eq_true.1 last _ (Nesting.snd_mem_of_mem_path hp))
    have whole := @scan_append n behind found blanks before []
    rwa [List.append_nil] at whole
  have within : scan start ahead.reverse ⟨none, none⟩ (s ++ behind) =
      (scan start [] ⟨none, none⟩ s).map (Candidates.within ahead.reverse behind) := by
    have longer :=
      @scan_within start ⟨none, none⟩ [] ahead.reverse behind (by rwa [List.all_reverse]) single s
    simp only [passed] at longer
    rw [Option.map_eq_bind]
    exact longer
  rw [ofText?, ofText?, scan_hidden (.of_blanks first), List.append_nil, within, Option.bind_map,
    Option.map_bind]
  refine congrArg _ (funext fun found => ?_)
  cases ha : found.additive <;> cases hm : found.multiplicative <;>
    simp [Candidates.within, widen, ha, hm]

end Cut

end SourcePreview
