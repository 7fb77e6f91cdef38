import SourcePreview.Expression.Evaluation

/-! The text shown for an expression where a program would print it. What is outside of the grammar
is shown loosely: the operands of a sum each by itself, and anything else without its outermost
quotes. -/

namespace SourcePreview

/-- A text without blanks around it, without a quote at its start and without a quote at its end. -/
def dequote (s : Text) : Text :=
  let s := Text.trim s
  let s := match s with
    | c :: r => if Nesting.isQuote c then r else s
    | [] => []
  (Text.dropLastIf Nesting.isQuote s).getD s

def renderAll {ε : Type} (render : Text → Except ε Text) : List Text → Except ε Text
  | [] => .ok []
  | s :: ss => do .ok ((← render s) ++ (← renderAll render ss))

/-- The operands of an unresolved text that is a sum at the top level, without blank ones. -/
def looseOperands? (s : Text) : Option (List Text) :=
  let operands := Nesting.splitTop '+' s
  if 1 < operands.length ∧ operands.all (fun p => !Text.isBlankText p) then some operands else none

def render (env : Environment) (dialect : Dialect) (s : Text) : Except Overwide Text := do
  match ← evaluate env dialect s with
  | .unresolved =>
    match looseOperands? s with
    | some operands =>
      renderAll (fun p => if p.length < s.length then render env dialect p else .ok []) operands
    | none => .ok (dequote s)
  | e => .ok (e.shown s)
termination_by s.length

theorem renderAll_congr {r r' : Text → Except Overwide Text} {ss : List Text}
    (h : ∀ s ∈ ss, r s = r' s) :
    renderAll r ss = renderAll r' ss := by
  induction ss with
  | nil => rfl
  | cons s ss ih =>
    simp only [List.mem_cons, forall_eq_or_imp] at h
    simp only [renderAll, h.1, ih h.2]

theorem render_eq (env : Environment) (dialect : Dialect) (s : Text) :
    render env dialect s = (do
      match ← evaluate env dialect s with
      | .unresolved =>
        match looseOperands? s with
        | some operands => renderAll (render env dialect) operands
        | none => .ok (dequote s)
      | e => .ok (e.shown s)) := by
  rw [render]
  cases evaluate env dialect s with
  | error e => rfl
  | ok e =>
    cases e with
    | value v => rfl
    | fault => rfl
    | unresolved =>
      simp only [bind, Except.bind]
      cases h : looseOperands? s with
      | none => rfl
      | some operands =>
        refine renderAll_congr fun p hp => ?_
        simp only [looseOperands?] at h
        split at h
        · next hs => cases h; simp [Nesting.length_lt_of_mem_splitTop hp hs.1]
        · cases h

end SourcePreview
