import SourcePreview.Expression.Nesting
import SourcePreview.Value.Arithmetic

/-! Where an expression is cut at a binary operator: at its last sum or difference at the top level,
and without one at its last product or quotient. That makes all operators associate to the left. -/

namespace SourcePreview

structure Cut where
  left : Text
  op : Operator
  right : Text
  deriving DecidableEq, Repr

namespace Cut

/-- The characters before which a sign belongs to the operand behind it. -/
def isBeforeSign (c : Char) : Bool := "+-*/%(,=<>".toList.contains c

def endsInExponent : Text → Bool
  | marker :: digit :: _ => (marker == 'e' || marker == 'E') && Number.isDigit digit
  | _ => false

/-- Whether a sign behind the reversed text `before` belongs to its operand. -/
def isSign (before : Text) : Bool :=
  match before.find? (fun c => !Text.isBlank c) with
  | none => true
  | some c => isBeforeSign c || endsInExponent before

/-- Whether the character `c` between the reversed text `before` and `after` is one half of a
doubled operator. -/
def isDoubled (c : Char) (before after : Text) : Bool :=
  after.head? == some c || before.find? (fun c => !Text.isBlank c) == some c

/-- The last cuts of both ranks found so far. -/
structure Candidates where
  additive : Option Cut
  multiplicative : Option Cut

/-- The candidates with the cut at an operator; a doubled product or quotient sign is outside of the
grammar. -/
def Candidates.add (found : Candidates) (c : Char) (before after : Text) : Option Candidates :=
  match Operator.ofChar? c with
  | none => some found
  | some op =>
    match op with
    | .add =>
      some (if isSign before then found else { found with additive := some ⟨before, op, after⟩ })
    | .sub =>
      some (if isSign before then found else { found with additive := some ⟨before, op, after⟩ })
    | .mul => if isDoubled c before after then none
        else some { found with multiplicative := some ⟨before, op, after⟩ }
    | .div => if isDoubled c before after then none
        else some { found with multiplicative := some ⟨before, op, after⟩ }

/-- Collects the candidates of a text behind the reversed text `before`; their left sides are
reversed. -/
def scan (n : Nesting) (before : Text) (found : Candidates) : Text → Option Candidates
  | [] => some found
  | c :: r =>
    if n.isTop c then (found.add c before r).bind fun found => scan (n.step c) (c :: before) found r
    else scan (n.step c) (c :: before) found r

def ofText? (s : Text) : Option Cut :=
  (scan .start [] ⟨none, none⟩ s).bind fun found =>
    (found.additive.or found.multiplicative).map fun cut => { cut with left := cut.left.reverse }

/-- Both sides of every candidate fit into a length, together with the operator. -/
def Candidates.Within (found : Candidates) (length : Nat) : Prop :=
  (∀ cut, found.additive = some cut → cut.left.length + cut.right.length < length) ∧
    ∀ cut, found.multiplicative = some cut → cut.left.length + cut.right.length < length

theorem Candidates.Within.add {found found' : Candidates} {c : Char} {before after : Text}
    {length : Nat} (h : found.Within length) (ha : found.add c before after = some found')
    (hl : before.length + after.length < length) : found'.Within length := by
  unfold Candidates.add at ha
  obtain ⟨h1, h2⟩ := h
  split at ha
  · cases ha; exact ⟨h1, h2⟩
  · split at ha
    · cases ha; split
      · exact ⟨h1, h2⟩
      · exact ⟨fun cut hc => by cases hc; exact hl, h2⟩
    · cases ha; split
      · exact ⟨h1, h2⟩
      · exact ⟨fun cut hc => by cases hc; exact hl, h2⟩
    · split at ha
      · cases ha
      · cases ha; exact ⟨h1, fun cut hc => by cases hc; exact hl⟩
    · split at ha
      · cases ha
      · cases ha; exact ⟨h1, fun cut hc => by cases hc; exact hl⟩

theorem within_scan {n : Nesting} {before s : Text} {found found' : Candidates} {length : Nat}
    (h : found.Within length) (hs : scan n before found s = some found')
    (hl : before.length + s.length = length) : found'.Within length := by
  induction s generalizing n before found with
  | nil => cases hs; exact h
  | cons c r ih =>
    simp only [List.length_cons] at hl
    simp only [scan] at hs
    split at hs
    · obtain ⟨next, hn, hs⟩ := Option.bind_eq_some_iff.1 hs
      exact ih (h.add hn (by omega)) hs (by simp only [List.length_cons]; omega)
    · exact ih h hs (by simp only [List.length_cons]; omega)

theorem length_lt_of_ofText? {s : Text} {cut : Cut} (h : ofText? s = some cut) :
    cut.left.length < s.length ∧ cut.right.length < s.length := by
  obtain ⟨found, hs, h⟩ := Option.bind_eq_some_iff.1 h
  obtain ⟨cut', hc, rfl⟩ := Option.map_eq_some_iff.1 h
  have w : found.Within s.length :=
    within_scan ⟨by simp, by simp⟩ hs (by simp)
  have : cut'.left.length + cut'.right.length < s.length := by
    cases ha : found.additive with
    | some x => rw [ha, Option.some_or] at hc; cases hc; exact w.1 _ ha
    | none => rw [ha, Option.none_or] at hc; exact w.2 _ hc
  simp only [List.length_reverse]
  omega

example : ofText? "a - b * c".toList = some ⟨"a ".toList, .sub, " b * c".toList⟩ ∧
    ofText? "2 ** 3".toList = none := by
  decide +kernel

end Cut

end SourcePreview
