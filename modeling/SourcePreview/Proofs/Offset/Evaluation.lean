import SourcePreview.Expression.Rendering
import SourcePreview.Proofs.Offset.Form
import SourcePreview.Proofs.Offset.Template

/-! Evaluation by byte offsets. Step by step it is evaluation, and breaks off only where that does
(`evaluate_eq`, `render_eq`, `interpolate_eq`). -/

namespace SourcePreview.Offset

open Text (byteSize)

/-- A computation that an overwide format alone can break off. -/
def lift {α : Type} : Except Overwide α → Except Panic α := Except.mapError .overwide

theorem bind_lift {α β : Type} {x : Except Overwide α} {f : α → Except Overwide β}
    {g : α → Except Panic β} (h : ∀ a, g a = lift (f a)) : (lift x >>= g) = lift (x >>= f) := by
  cases x with
  | error w => rfl
  | ok a => exact h a

abbrev Evaluator := Text → Except Panic Evaluation

def splitFormat (inner : Text) : Except Panic (Text × Option Text) :=
  match topOffset? ':' inner with
  | some colon => do .ok (← upTo inner colon, some (← behind inner (colon + 1)))
  | none => .ok (inner, none)

def resolveHole (evaluate : Evaluator) (inner : Text) : Except Panic Text := do
  let (expr, format) ← splitFormat inner
  match ← evaluate expr with
  | .value v => lift (v.formatted format)
  | e => .ok (e.shown expr)

def resolveSegments (evaluate : Evaluator) (raw : Bool) : List Segment → Except Panic Text
  | [] => .ok []
  | .plain s :: rest =>
    do .ok ((if raw then s else unescape s) ++ (← resolveSegments evaluate raw rest))
  | .hole inner :: rest => do
    let text ← resolveHole evaluate inner
    .ok (text ++ (← resolveSegments evaluate raw rest))

def resolve (evaluate : Evaluator) (raw : Bool) (template : Text) : Except Panic Text := do
  resolveSegments evaluate raw (← segments [] template)

def evaluateForm (evaluate : Evaluator) (env : Environment) (trueDivision : Bool) :
    Form → Except Panic Evaluation
  | .unknown => .ok .unresolved
  | .group inner => evaluate inner
  | .quoted literal =>
    if literal.interpolated then
      do .ok (.value (.str (← resolve evaluate literal.raw literal.body)))
    else .ok (.value (.str (if literal.raw then literal.body else unescape literal.body)))
  | .number v => .ok (.value v)
  | .name n => .ok (.ofOption (env.get? n))
  | .binary cut => do
    match ← evaluate cut.left with
    | .value a =>
      match ← evaluate cut.right with
      | .value b => .ok (.ofArithmetic (Value.binary trueDivision cut.op a b))
      | e => .ok e
    | e => .ok e
  | .negation operand => do
    match ← evaluate operand with
    | .value v => .ok (.ofOption v.negate?)
    | e => .ok e
  | .application a => a.evaluate evaluate trueDivision

def evaluate (env : Environment) (d : Dialect) (s : Text) : Except Panic Evaluation := do
  evaluateForm (fun part => if part.length < s.length then evaluate env d part else .ok .unresolved)
    env d.trueDivision
    (← form s)
termination_by s.length

def interpolate (env : Environment) (d : Dialect) (raw : Bool) (template : Text) :
    Except Panic Text :=
  resolve (evaluate env d) raw template

section

variable (e : SourcePreview.Evaluator)

theorem evaluateNumbers_lift (ss : List Text) :
    evaluateNumbers (fun s => lift (e s)) ss = lift (evaluateNumbers e ss) := by
  induction ss with
  | nil => rfl
  | cons s ss ih =>
    rw [evaluateNumbers, evaluateNumbers, ih]
    refine bind_lift fun v => ?_
    cases v with
    | value v =>
      cases hv : v.isNumeric with
      | false => simp only [hv]; rfl
      | true =>
        simp only [hv, if_true]
        exact bind_lift fun vs => by cases vs <;> rfl
    | fault => rfl
    | unresolved => rfl

theorem splitFormat_eq (inner : Text) : splitFormat inner = .ok (Segment.splitFormat inner) := by
  rw [splitFormat, topOffset?_eq, Segment.splitFormat]
  cases h : Nesting.splitTopOnce ':' .start inner with
  | none => rfl
  | some parts =>
    obtain ⟨expr, format⟩ := parts
    obtain rfl := Nesting.eq_of_splitTopOnce h
    have rest := behind_cons (c := ':') rfl expr format
    simp only [Option.map_some, upTo_append, rest]
    rfl

theorem resolveHole_lift (inner : Text) :
    resolveHole (fun s => lift (e s)) inner = lift (SourcePreview.resolveHole e inner) := by
  rw [resolveHole, splitFormat_eq, SourcePreview.resolveHole]
  exact bind_lift fun v => by cases v <;> rfl

theorem resolveSegments_lift (raw : Bool) (pieces : List Segment) :
    resolveSegments (fun s => lift (e s)) raw pieces =
      lift (SourcePreview.resolveSegments e raw pieces) := by
  induction pieces with
  | nil => rfl
  | cons piece pieces ih =>
    cases piece with
    | plain s =>
      rw [resolveSegments, SourcePreview.resolveSegments, ih]
      exact bind_lift fun rest => rfl
    | hole inner =>
      rw [resolveSegments, SourcePreview.resolveSegments, ih, resolveHole_lift]
      exact bind_lift fun text => bind_lift fun rest => rfl

theorem resolve_lift (raw : Bool) (template : Text) : resolve (fun s => lift (e s)) raw template =
    lift (SourcePreview.resolveSegments e raw (Segment.ofTemplate template)) := by
  rw [resolve, segments_eq]
  exact resolveSegments_lift e raw (Segment.ofTemplate template)

theorem application_lift (trueDivision : Bool) (a : Application) :
    a.evaluate (fun s => lift (e s)) trueDivision = lift (a.evaluate e trueDivision) := by
  cases a with
  | unknown => rfl
  | itemCount count => rfl
  | aggregate kind items =>
    rw [Application.evaluate, Application.evaluate, evaluateNumbers_lift]
    exact bind_lift fun vs => by cases vs <;> rfl
  | textLength operand =>
    refine bind_lift fun v => ?_
    cases v with
    | value v => cases v <;> rfl
    | fault => rfl
    | unresolved => rfl
  | convert conversion operand => exact bind_lift fun v => by cases v <;> rfl
  | roundPlaces operand places =>
    refine bind_lift fun v => ?_
    cases v with
    | value v =>
      cases v with
      | int n => exact bind_lift fun v => by cases v <;> rfl
      | str s => rfl
      | float x => rfl
    | fault => rfl
    | unresolved => rfl
  | power base exponent =>
    refine bind_lift fun b => bind_lift fun x => ?_
    cases b with
    | value b =>
      cases x with
      | value x =>
        dsimp only
        cases b.toFloat? with
        | none => rfl
        | some y => cases x.toFloat? <;> rfl
      | fault => rfl
      | unresolved => rfl
    | fault => rfl
    | unresolved => rfl
  | method m receiver =>
    refine bind_lift fun v => ?_
    cases v with
    | value v => cases v <;> rfl
    | fault => rfl
    | unresolved => rfl

theorem evaluateForm_lift (env : Environment) (trueDivision : Bool) (form : Form) :
    evaluateForm (fun s => lift (e s)) env trueDivision form =
      lift (form.evaluate e env trueDivision) := by
  cases form with
  | unknown => rfl
  | group inner => rfl
  | number v => rfl
  | name n => rfl
  | quoted literal =>
    rw [evaluateForm, Form.evaluate]
    split
    · rw [resolve_lift]
      exact bind_lift fun text => rfl
    · rfl
  | binary cut =>
    refine bind_lift fun a => ?_
    cases a with
    | value a => exact bind_lift fun b => by cases b <;> rfl
    | fault => rfl
    | unresolved => rfl
  | negation operand => exact bind_lift fun v => by cases v <;> rfl
  | application a => exact application_lift e trueDivision a

end

variable (env : Environment) (d : Dialect)

/-- An evaluation by byte offsets is that of the text. -/
theorem evaluate_eq (s : Text) : evaluate env d s = lift (SourcePreview.evaluate env d s) := by
  induction hl : s.length using Nat.strongRecOn generalizing s with
  | ind l ih =>
    have parts :
        (fun part => if part.length < s.length then evaluate env d part else .ok .unresolved) =
        fun part => lift
          (if part.length < s.length then SourcePreview.evaluate env d part else .ok
            .unresolved) := by
      funext part
      split
      · next shorter => exact ih part.length (hl ▸ shorter) part rfl
      · rfl
    rw [evaluate, form_eq, SourcePreview.evaluate, parts]
    exact evaluateForm_lift _ env d.trueDivision (Form.ofText s)

theorem interpolate_eq (raw : Bool) (template : Text) :
    interpolate env d raw template = lift (SourcePreview.interpolate env d raw template) := by
  rw [interpolate, funext (evaluate_eq env d)]
  exact resolve_lift (SourcePreview.evaluate env d) raw template

/-- The operands of an unresolved text that is a sum at the top level, without blank ones. -/
def looseOperands? (s : Text) : Except Panic (Option (List Text)) := do
  let operands ← splitTop '+' s
  .ok (if 1 < operands.length ∧ operands.all (fun p => !Text.isBlankText p) then some operands else
    none)

def render (s : Text) : Except Panic Text := do
  match ← evaluate env d s with
  | .unresolved =>
    match ← looseOperands? s with
    | some operands =>
      renderAll (fun p => if p.length < s.length then render p else .ok []) operands
    | none => .ok (dequote s)
  | e => .ok (e.shown s)
termination_by s.length

theorem looseOperands?_eq (s : Text) : looseOperands? s = .ok (SourcePreview.looseOperands? s) := by
  rw [looseOperands?, splitTop_eq]
  rfl

theorem renderAll_lift (r : Text → Except Overwide Text) (ss : List Text) :
    renderAll (fun s => lift (r s)) ss = lift (renderAll r ss) := by
  induction ss with
  | nil => rfl
  | cons s ss ih =>
    rw [renderAll, renderAll, ih]
    exact bind_lift fun text => bind_lift fun rest => rfl

/-- What is shown by byte offsets is what is shown. -/
theorem render_eq (s : Text) : render env d s = lift (SourcePreview.render env d s) := by
  induction hl : s.length using Nat.strongRecOn generalizing s with
  | ind l ih =>
    have parts : (fun part => if part.length < s.length then render env d part else .ok []) =
        fun part => lift
          (if part.length < s.length then SourcePreview.render env d part else .ok []) := by
      funext part
      split
      · next shorter => exact ih part.length (hl ▸ shorter) part rfl
      · rfl
    rw [render, evaluate_eq, SourcePreview.render, parts]
    refine bind_lift fun v => ?_
    cases v with
    | value v => rfl
    | fault => rfl
    | unresolved =>
      dsimp only
      rw [looseOperands?_eq]
      cases SourcePreview.looseOperands? s with
      | none => rfl
      | some operands => exact renderAll_lift _ operands

end SourcePreview.Offset
