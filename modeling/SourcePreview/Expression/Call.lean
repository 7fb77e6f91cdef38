import SourcePreview.Expression.Nesting
import SourcePreview.Text.Letter

/-! Calls that cover a whole text, and what they mean: a dotted name, then arguments in parentheses
that close at the end. Calls of unknown functions, and known ones with the wrong number of
arguments, have no meaning. -/

namespace SourcePreview

/-- A call: the dotted name of a function and the text between its parentheses. -/
structure Call where
  function : Text
  inner : Text
  deriving DecidableEq, Repr

/-- Reductions of several numbers to one. -/
inductive Aggregate where
  | sum
  | min
  | max
  deriving DecidableEq, Repr

inductive Conversion where
  | toText
  | toInt
  | toFloat
  | magnitude
  | nearestEven
  | nearestUp
  | squareRoot
  deriving DecidableEq, Repr

/-- Methods of texts without arguments. -/
inductive Method where
  | upper
  | lower
  | trim
  | length
  deriving DecidableEq, Repr

/-- What a call computes from the texts of its operands. -/
inductive Application where
  | unknown
  | aggregate (kind : Aggregate) (items : List Text)
  | itemCount (count : Nat)
  | textLength (operand : Text)
  | convert (conversion : Conversion) (operand : Text)
  | roundPlaces (operand places : Text)
  | power (base exponent : Text)
  | method (method : Method) (receiver : Text)
  deriving DecidableEq, Repr

namespace Call

def isPath (s : Text) : Bool := (Text.splitAll '.' s).all Text.isIdentifier

/-- A whole text as one call; blanks may stand around the parentheses. -/
def ofText? (s : Text) : Option Call :=
  (Text.cutAtFirst (· == '(') s).bind fun (function, _, r) =>
    let function := Text.trimEnd function
    if isPath function then
      (Nesting.enclosed? (Text.trim ('(' :: r))).map fun inner => ⟨function, inner⟩
    else none

def arguments (call : Call) : List Text :=
  if Text.isBlankText call.inner then [] else Nesting.splitTop ',' call.inner

/-- The inside of a literal sequence, in square brackets or in parentheses. -/
def sequenceInside? (s : Text) : Option Text :=
  let s := Text.trim s
  match s with
  | '[' :: r => Text.dropLastIf (· == ']') r
  | _ => Nesting.enclosed? s

/-- The items of a literal sequence; a comma may follow the last one. -/
def sequence? (s : Text) : Option (List Text) :=
  (sequenceInside? s).map fun inside =>
    if Text.isBlankText inside then []
    else
      let items := Nesting.splitTop ',' inside
      match items.getLast? with
      | some last => if Text.isBlankText last then items.dropLast else items
      | none => items

/-- A reduction of one literal sequence, or of several arguments. -/
def aggregation (kind : Aggregate) : List Text → Application
  | [] => .unknown
  | [single] =>
    match sequence? single with
    | some items => .aggregate kind items
    | none => .unknown
  | items => .aggregate kind items

def method? (name : Text) : Option Method :=
  match String.ofList name with
  | "upper" => some .upper
  | "toUpperCase" => some .upper
  | "lower" => some .lower
  | "toLowerCase" => some .lower
  | "strip" => some .trim
  | "trim" => some .trim
  | "length" => some .length
  | _ => none

/-- A method call without arguments: the name behind the last point, on what stands before it. -/
def methodCall (function : Text) : Application :=
  match Text.splitOnceLast '.' function with
  | some (receiver, name) =>
    match method? name with
    | some method => .method method receiver
    | none => .unknown
  | none => .unknown

def aggregate? (function : Text) : Option Aggregate :=
  match String.ofList function with
  | "sum" => some .sum
  | "min" => some .min
  | "Math.min" => some .min
  | "max" => some .max
  | "Math.max" => some .max
  | _ => none

def conversion? (function : Text) : Option Conversion :=
  match String.ofList function with
  | "str" => some .toText
  | "String.valueOf" => some .toText
  | "int" => some .toInt
  | "Integer.parseInt" => some .toInt
  | "float" => some .toFloat
  | "Double.parseDouble" => some .toFloat
  | "abs" => some .magnitude
  | "Math.abs" => some .magnitude
  | "round" => some .nearestEven
  | "Math.round" => some .nearestUp
  | "Math.sqrt" => some .squareRoot
  | _ => none

def apply (function : Text) (arguments : List Text) : Application :=
  match aggregate? function with
  | some kind => aggregation kind arguments
  | none =>
    match arguments with
    | [] => methodCall function
    | [x] =>
      if function = "len".toList then
        match sequence? x with
        | some items => .itemCount items.length
        | none => .textLength x
      else
        match conversion? function with
        | some conversion => .convert conversion x
        | none => .unknown
    | [x, y] =>
      if function = "round".toList then .roundPlaces x y
      else if function = "Math.pow".toList then .power x y
      else .unknown
    | _ => .unknown

def application (call : Call) : Application := apply call.function call.arguments

end Call

namespace Application

def operands : Application → List Text
  | .unknown => []
  | .aggregate _ items => items
  | .itemCount _ => []
  | .textLength x => [x]
  | .convert _ x => [x]
  | .roundPlaces x y => [x, y]
  | .power x y => [x, y]
  | .method _ x => [x]

end Application

namespace Call

theorem length_lt_of_sequenceInside? {s inside : Text} (h : sequenceInside? s = some inside) :
    inside.length < s.length := by
  have ht := Text.length_trim_le s
  simp only [sequenceInside?] at h
  split at h
  · next r hr =>
    rw [hr] at ht
    simp only [Text.dropLastIf] at h
    split at h
    · split at h
      · cases h
        simp only [List.length_cons, List.length_dropLast] at ht ⊢
        omega
      · cases h
    · cases h
  · have := Nesting.length_lt_of_enclosed? h
    omega

theorem length_lt_of_mem_sequence? {s item : Text} {items : List Text}
    (h : sequence? s = some items) (hi : item ∈ items) : item.length < s.length := by
  obtain ⟨inside, hs, rfl⟩ := Option.map_eq_some_iff.1 h
  have hl := length_lt_of_sequenceInside? hs
  have key : item ∈ Nesting.splitTop ',' inside := by
    split at hi
    · cases hi
    · dsimp only at hi
      split at hi
      · split at hi
        · exact (List.dropLast_sublist _).mem hi
        · exact hi
      · exact hi
  have := Nesting.length_le_of_mem_splitTop key
  omega

theorem length_ofText?_lt {s : Text} {call : Call} (h : ofText? s = some call) :
    call.function.length < s.length ∧ call.inner.length < s.length := by
  simp only [ofText?, Option.bind_eq_some_iff] at h
  obtain ⟨⟨function, x, r⟩, hc, h⟩ := h
  obtain ⟨rfl, -, -⟩ := Text.eq_of_cutAtFirst hc
  simp only at h
  split at h
  · obtain ⟨inner, hi, rfl⟩ := Option.map_eq_some_iff.1 h
    have h1 := Text.length_trimEnd_le function
    have h2 := Nesting.length_lt_of_enclosed? hi
    have h3 := Text.length_trim_le ('(' :: r)
    simp only [List.length_append, List.length_cons] at h3 ⊢
    omega
  · cases h

theorem length_splitOnceLast_lt {sep : Char} {s a b : Text}
    (h : Text.splitOnceLast sep s = some (a, b)) :
    a.length < s.length := by
  simp only [Text.splitOnceLast, Text.splitOnce, Option.map_eq_some_iff] at h
  obtain ⟨⟨p, q⟩, ⟨⟨u, v, w⟩, hc, heq⟩, heq'⟩ := h
  have hr := (Text.eq_of_cutAtFirst hc).1
  have := congrArg List.length hr
  simp only [Prod.mk.injEq] at heq heq'
  obtain ⟨rfl, rfl⟩ := heq
  obtain ⟨rfl, rfl⟩ := heq'
  simp only [List.length_reverse, List.length_append, List.length_cons] at this ⊢
  omega

theorem mem_arguments_length_le {call : Call} {x : Text} (h : x ∈ call.arguments) :
    x.length ≤ call.inner.length := by
  unfold arguments at h
  split at h
  · cases h
  · exact Nesting.length_le_of_mem_splitTop h

theorem length_operand_le {function x : Text} {arguments : List Text} {bound : Nat}
    (hf : function.length ≤ bound) (ha : ∀ a ∈ arguments, a.length ≤ bound)
    (hx : x ∈ (apply function arguments).operands) : x.length ≤ bound := by
  unfold apply at hx
  split at hx
  · unfold aggregation at hx
    split at hx
    · cases hx
    · split at hx
      · next hs => have :=
          length_lt_of_mem_sequence? hs hx; have := ha _ (List.mem_singleton_self _); omega
      · cases hx
    · exact ha x hx
  · split at hx
    · unfold methodCall at hx
      split at hx
      · next hs =>
        split at hx
        · have := length_splitOnceLast_lt hs
          simp only [Application.operands, List.mem_singleton] at hx
          subst hx; omega
        · cases hx
      · cases hx
    · split at hx
      · split at hx
        · cases hx
        · simp only [Application.operands, List.mem_singleton] at hx; subst hx; exact ha _ (by simp)
      · split at hx
        · simp only [Application.operands, List.mem_singleton] at hx; subst hx; exact ha _ (by simp)
        · cases hx
    · split at hx
      · simp only [Application.operands, List.mem_cons, List.not_mem_nil, or_false] at hx
        rcases hx with rfl | rfl <;> exact ha _ (by simp)
      · split at hx
        · simp only [Application.operands, List.mem_cons, List.not_mem_nil, or_false] at hx
          rcases hx with rfl | rfl <;> exact ha _ (by simp)
        · cases hx
    · cases hx

theorem length_operand_lt {s x : Text} {call : Call} (h : ofText? s = some call)
    (hx : x ∈ call.application.operands) : x.length < s.length := by
  have ⟨hf, hi⟩ := length_ofText?_lt h
  have : x.length ≤ s.length - 1 :=
    length_operand_le (by omega) (fun a ha => by have := mem_arguments_length_le ha; omega) hx
  omega

example : (ofText? "Math.max(1, (2))".toList).map arguments = some ["1".toList, " (2)".toList] ∧
    ofText? "f(1) + g(2)".toList = none := by decide +kernel

end Call

end SourcePreview
