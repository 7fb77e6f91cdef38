import SourcePreview.Dialect
import SourcePreview.Environment
import SourcePreview.Expression.Form
import SourcePreview.Expression.Template
import SourcePreview.Text.Case

/-! The value of an expression. Evaluation follows the form of a text into its parts, left to right;
a text outside of the grammar is unresolved and its user shows it as written. The only failure is a
placeholder that asks for more decimal places than can be written. -/

namespace SourcePreview

/-- What an expression comes to. -/
inductive Evaluation where
  | value (value : Value)
  /-- A division by zero. -/
  | fault
  /-- Outside of the grammar. -/
  | unresolved

/-- A placeholder that asks for more decimal places than can be written. -/
structure Overwide where
  places : Nat
  deriving DecidableEq, Repr

def placesLimit : Nat := 65535

def divisionByZeroMarker : Text := "ZeroDivisionError: division by zero".toList

namespace Evaluation

def shown (e : Evaluation) (s : Text) : Text :=
  match e with
  | .value v => v.text
  | .fault => divisionByZeroMarker
  | .unresolved => Text.trim s

def ofOption : Option Value → Evaluation
  | some v => .value v
  | none => .unresolved

/-- What the result of an operation comes to. -/
def ofArithmetic : Except ArithmeticFault Value → Evaluation
  | .ok v => .value v
  | .error .divisionByZero => .fault
  | .error .unsupported => .unresolved

end Evaluation

/-- A value as a placeholder with a format shows it: `.Nf` asks for `N` decimal places of a number,
all other formats mean nothing. -/
def Value.formatted (v : Value) (format : Option Text) : Except Overwide Text :=
  let places : Option Nat := do
    let row ← Text.before? ['f'] (← Text.after? ['.'] (Text.trim (← format)))
    Number.readNat? row
  match places, v.toFloat? with
  | some n, some x => if placesLimit < n then .error ⟨n⟩ else .ok (Number.fixed n x)
  | _, _ => .ok v.text

def Conversion.convert? : Conversion → Value → Option Value
  | .toText, v => some (.str v.text)
  | .toInt, .str s => (Number.readInt? (Text.trim s)).map .int
  | .toInt, .int n => some (.int n)
  | .toInt, .float x => some (.int (Number.roundToInt64 .towardZero x))
  | .toFloat, .str s => (Number.readFloat? (Text.trim s)).map .float
  | .toFloat, v => v.toFloat?.map .float
  | .magnitude, v => v.magnitude?
  | .nearestEven, v => v.toFloat?.map fun x => .int (Number.roundToInt64 (.nearest .toEven) x)
  | .nearestUp, v => v.toFloat?.map fun x => .int (Number.roundToInt64 .down (x + 0.5))
  | .squareRoot, v => v.toFloat?.map fun x => .float x.sqrt

def Method.apply : Method → Text → Value
  | .upper, s => .str (Text.upper s)
  | .lower, s => .str (Text.lower s)
  | .trim, s => .str (Text.trim s)
  | .length, s => .int (Int64.ofNat s.length)

def pick? (better : Float → Float → Bool) : List Value → Option Value
  | [] => none
  | v :: vs => some (vs.foldl (fun best v =>
      match v.toFloat?, best.toFloat? with
      | some x, some y => if better x y then v else best
      | _, _ => best) v)

/-- The value a reduction makes of numbers. -/
def Aggregate.reduce? (trueDivision : Bool) : Aggregate → List Value → Option Value
  | .sum, vs => vs.foldlM (fun sum v => (Value.binary trueDivision .add sum v).toOption) (.int 0)
  | .min, vs => pick? (fun x y => x < y) vs
  | .max, vs => pick? (fun x y => y < x) vs

/-- Ten to the power of the low 32 bits of a number, by repeated squaring. -/
def powerOfTen (n : Int64) : Float :=
  let exponent := n.toInt.bmod (2 ^ 32)
  let rec raise (fuel : Nat) (k : Nat) (base result : Float) : Float :=
    match fuel with
    | 0 => result
    | fuel + 1 =>
      if k = 0 then result
      else raise fuel (k / 2) (base * base) (if k % 2 = 1 then result * base else result)
  let magnitude := raise 33 exponent.natAbs 10 1
  if exponent < 0 then 1 / magnitude else magnitude

/-- A number rounded to decimal places, a half going to the even neighbour. -/
def Value.roundPlaces? (v : Value) (places : Int64) : Option Value :=
  v.toFloat?.map fun x =>
    let scale := powerOfTen places
    .float (Number.roundToEven (x * scale) / scale)

abbrev Evaluator := Text → Except Overwide Evaluation

/-- The numbers that texts come to, or what the first text came to that is no number. -/
def evaluateNumbers {ε : Type} (evaluate : Text → Except ε Evaluation) :
    List Text → Except ε (Except Evaluation (List Value))
  | [] => .ok (.ok [])
  | s :: ss => do
    match ← evaluate s with
    | .value v =>
      if v.isNumeric then
        match ← evaluateNumbers evaluate ss with
        | .ok vs => .ok (.ok (v :: vs))
        | .error e => .ok (.error e)
      else .ok (.error .unresolved)
    | .fault => .ok (.error .fault)
    | .unresolved => .ok (.error .unresolved)

def resolveHole (evaluate : Evaluator) (inner : Text) : Except Overwide Text := do
  let (expr, format) := Segment.splitFormat inner
  match ← evaluate expr with
  | .value v => v.formatted format
  | e => .ok (e.shown expr)

/-- The text of a template's pieces; `raw` leaves backslashes in the plain text alone. -/
def resolveSegments (evaluate : Evaluator) (raw : Bool) : List Segment → Except Overwide Text
  | [] => .ok []
  | .plain s :: rest =>
    do .ok ((if raw then s else unescape s) ++ (← resolveSegments evaluate raw rest))
  | .hole inner :: rest => do
    let text ← resolveHole evaluate inner
    .ok (text ++ (← resolveSegments evaluate raw rest))

def Application.evaluate {ε : Type} (evaluate : Text → Except ε Evaluation) (trueDivision : Bool) :
    Application → Except ε Evaluation
  | .unknown => .ok .unresolved
  | .aggregate kind items => do
    match ← evaluateNumbers evaluate items with
    | .ok vs => .ok (.ofOption (kind.reduce? trueDivision vs))
    | .error e => .ok e
  | .itemCount count => .ok (.value (.int (Int64.ofNat count)))
  | .textLength operand => do
    match ← evaluate operand with
    | .value (.str s) => .ok (.value (.int (Int64.ofNat s.length)))
    | .fault => .ok .fault
    | _ => .ok .unresolved
  | .convert conversion operand => do
    match ← evaluate operand with
    | .value v => .ok (.ofOption (conversion.convert? v))
    | e => .ok e
  | .roundPlaces operand places => do
    match ← evaluate places with
    | .value (.int n) =>
      match ← evaluate operand with
      | .value v => .ok (.ofOption (v.roundPlaces? n))
      | e => .ok e
    | _ => .ok .unresolved
  | .power base exponent => do
    let b ← evaluate base
    let e ← evaluate exponent
    match b, e with
    | .value b, .value e =>
      match b.toFloat?, e.toFloat? with
      | some b, some e => .ok (.value (.float (b.pow e)))
      | _, _ => .ok .unresolved
    | _, _ => .ok .unresolved
  | .method m receiver => do
    match ← evaluate receiver with
    | .value (.str s) => .ok (.value (m.apply s))
    | _ => .ok .unresolved

/-- What a form comes to, its parts read by `evaluate`. -/
def Form.evaluate (evaluate : Evaluator) (env : Environment) (trueDivision : Bool) :
    Form → Except Overwide Evaluation
  | .unknown => .ok .unresolved
  | .group inner => evaluate inner
  | .quoted literal =>
    if literal.interpolated then do
      .ok (.value (.str (← resolveSegments evaluate literal.raw (Segment.ofTemplate literal.body))))
    else .ok (.value (.str (if literal.raw then literal.body else unescape literal.body)))
  | .number v => .ok (.value v)
  | .name n => .ok (.ofOption (env.get? n))
  | .binary cut => do
    match ← evaluate cut.left with
    | .value a =>
      match ← evaluate cut.right with
      | .value b => .ok (.ofArithmetic (Value.binary trueDivision cut.op a b))
      | e => .ok e
    | e => .ok e
  | .negation operand => do
    match ← evaluate operand with
    | .value v => .ok (.ofOption v.negate?)
    | e => .ok e
  | .application a => a.evaluate evaluate trueDivision

def evaluate (env : Environment) (dialect : Dialect) (s : Text) : Except Overwide Evaluation :=
  (Form.ofText s).evaluate (fun part =>
    if part.length < s.length then evaluate env dialect part else .ok .unresolved)
    env dialect.trueDivision
termination_by s.length

def interpolate (env : Environment) (dialect : Dialect) (raw : Bool) (template : Text) :
    Except Overwide Text :=
  resolveSegments (evaluate env dialect) raw (Segment.ofTemplate template)

theorem evaluateNumbers_congr {e e' : Evaluator} {ss : List Text} (h : ∀ s ∈ ss, e s = e' s) :
    evaluateNumbers e ss = evaluateNumbers e' ss := by
  induction ss with
  | nil => rfl
  | cons s ss ih =>
    simp only [List.mem_cons, forall_eq_or_imp] at h
    simp only [evaluateNumbers, h.1, ih h.2]

theorem resolveSegments_congr {e e' : Evaluator} {raw : Bool} {segments : List Segment}
    {bound : Nat} (h : ∀ s : Text, s.length < bound → e s = e' s)
    (hs : ∀ inner, .hole inner ∈ segments → inner.length < bound) :
    resolveSegments e raw segments = resolveSegments e' raw segments := by
  induction segments with
  | nil => rfl
  | cons segment rest ih =>
    have ih' := ih fun inner hi => hs inner (List.mem_cons_of_mem _ hi)
    cases segment with
    | plain s => simp only [resolveSegments, ih']
    | hole inner =>
      have hl : (Segment.splitFormat inner).1.length < bound :=
        Nat.lt_of_le_of_lt (Segment.length_splitFormat_le inner) (hs inner (List.mem_cons_self ..))
      simp only [resolveSegments, resolveHole, ih', h _ hl]

theorem Application.evaluate_congr {e e' : Evaluator} {trueDivision : Bool} {a : Application}
    (h : ∀ s ∈ a.operands, e s = e' s) :
    a.evaluate e trueDivision = a.evaluate e' trueDivision := by
  cases a with
  | unknown => rfl
  | aggregate kind items =>
    have hi : ∀ s ∈ items, e s = e' s := h
    simp only [Application.evaluate, evaluateNumbers_congr hi]
  | itemCount count => rfl
  | textLength x => simp only [Application.evaluate, h x (by simp [operands])]
  | convert c x => simp only [Application.evaluate, h x (by simp [operands])]
  | roundPlaces x y =>
    simp only [Application.evaluate, h x (by simp [operands]), h y (by simp [operands])]
  | power x y =>
    simp only [Application.evaluate, h x (by simp [operands]), h y (by simp [operands])]
  | method m x => simp only [Application.evaluate, h x (by simp [operands])]

theorem Form.evaluate_congr {e e' : Evaluator} {env : Environment} {trueDivision : Bool} {s : Text}
    (h : ∀ t : Text, t.length < s.length → e t = e' t) :
    (Form.ofText s).evaluate e env trueDivision = (Form.ofText s).evaluate e' env trueDivision := by
  have hp : ∀ t ∈ (Form.ofText s).parts, e t = e' t :=
    fun t ht => h t (Form.length_lt_of_mem_parts ht)
  have hl : ∀ t ∈ (Form.ofText s).parts, t.length < s.length :=
    fun t ht => Form.length_lt_of_mem_parts ht
  generalize Form.ofText s = form at hp hl
  cases form with
  | unknown => rfl
  | group inner => exact hp inner (by simp [parts])
  | quoted literal =>
    have hb := hl literal.body (by simp [parts])
    have hs : ∀ inner, .hole inner ∈ Segment.ofTemplate literal.body → inner.length < s.length :=
      fun inner hi => Nat.lt_trans (Segment.length_lt_of_mem_ofTemplate hi) hb
    simp only [Form.evaluate, resolveSegments_congr h hs]
  | number v => rfl
  | name n => rfl
  | binary cut =>
    simp only [Form.evaluate, hp cut.left (by simp [parts]), hp cut.right (by simp [parts])]
  | negation x => simp only [Form.evaluate, hp x (by simp [parts])]
  | application a => exact Application.evaluate_congr hp

theorem evaluate_eq (env : Environment) (dialect : Dialect) (s : Text) :
    evaluate env dialect s =
      (Form.ofText s).evaluate (evaluate env dialect) env dialect.trueDivision := by
  rw [evaluate]
  exact Form.evaluate_congr fun t ht => by simp [ht]

end SourcePreview
