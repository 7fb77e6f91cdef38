import SourcePreview.Proofs.Expression.Integer
import SourcePreview.Proofs.Value.Extremum

/-! The greatest and the least of integers in expressions, of a list and of several arguments
(`evaluate_extremum`). Integers are compared by their floats, which above `2 ^ 53` can be the same
for different ones; the first of these is taken then (`evaluate_max_neighbours`). -/

namespace SourcePreview

/-- A text that comes to an integer as an item of a list: a literal of it, or a variable that holds
it. -/
inductive IntegerItem (env : Environment) : Text → Int64 → Prop
  | literal (literal : IntegerLiteral) : IntegerItem env literal.text literal.value
  | name {before x behind : Text} {n : Int64}
      (blank : before.all Text.isBlank = true ∧ behind.all Text.isBlank = true)
      (identifier : Text.isIdentifier x = true) (bound : env.get? x = some (.int n)) :
    IntegerItem env (before ++ x ++ behind) n

namespace IntegerItem

variable {env : Environment} {x : Text} {n : Int64} (item : IntegerItem env x n)
include item

theorem argument : Call.Argument x := by
  cases item with
  | literal literal => exact literal.argument
  | name blank identifier bound => exact Call.argument_name identifier blank.1 blank.2

theorem evaluate_text (d : Dialect) : evaluate env d x = .ok (.value (.int n)) := by
  cases item with
  | literal literal => exact literal.evaluate_text env d
  | @name _ x _ _ blank identifier bound =>
    have tight : Text.Tight x := (Term.name x identifier).operand_print ⟨true, true⟩ |>.tight
    rw [← evaluate_variable env d identifier bound]
    exact evaluate_congr_trim env d (by rw [Text.trim_blanks tight blank.1 blank.2, tight.trim_eq])

end IntegerItem

variable (env : Environment) (d : Dialect)

theorem Call.evaluate_aggregate_arguments {function : Text} {kind : Aggregate}
    (known : aggregate? function = some kind) {x y : Text} {others : List Text}
    (each : ∀ item ∈ x :: y :: others, Argument item) {values : List Value}
    (numbers : evaluateNumbers (evaluate env d) (x :: y :: others) = .ok (.ok values)) :
    evaluate env d (⟨function, Text.join [','] (x :: y :: others)⟩ : Call).written =
      .ok (.ofOption (kind.reduce? d.trueDivision values)) := by
  obtain ⟨path, reduced⟩ := path_of_aggregate known
  have closed : Nesting.Closed (Text.join [','] (x :: y :: others)) :=
    .join (.singleton rfl) fun item h => (each item h).closed
  have arguments :
      (⟨function, Text.join [','] (x :: y :: others)⟩ : Call).arguments = x :: y :: others := by
    rw [Call.arguments, isBlankText_join _ (each x List.mem_cons_self).filled,
      if_neg Bool.false_ne_true]
    exact Nesting.splitTop_intercalate rfl (fun item h => (each item h).closed) fun item h =>
      (each item h).undivided
  have several : aggregation kind (x :: y :: others) = .aggregate kind (x :: y :: others) := rfl
  rw [evaluate_eq, form_written path closed, application, arguments, reduced, several,
    Form.evaluate, Application.evaluate, numbers]
  rfl

/-- The greatest or least of integers, in a list or as several arguments, is the first of those
whose float no other one exceeds, and so the greatest or least of all if no two different ones share
a float. -/
theorem evaluate_extremum {function : Text} {kind : Aggregate}
    (known : Call.aggregate? function = some kind) (extremal : kind ≠ .sum)
    {items : List (Text × Int64)} (several : items ≠ [])
    (each : ∀ item ∈ items, IntegerItem env item.1 item.2) :
    ∃ m, kind.First (items.map Prod.snd) m ∧
      (Number.Apart (items.map Prod.snd) → kind.Extremum (items.map Prod.snd) m) ∧
      (∀ trailing, Call.Trailing (items.map Prod.fst) trailing →
        evaluate env d (⟨function, Call.listing (items.map Prod.fst ++ trailing)⟩ : Call).written =
          .ok (.value (.int m))) ∧
      (2 ≤ items.length →
        evaluate env d (⟨function, Text.join [','] (items.map Prod.fst)⟩ : Call).written =
          .ok (.value (.int m))) := by
  have arguments : ∀ x ∈ items.map Prod.fst, Call.Argument x :=
    List.forall_mem_map.2 fun item h => (each item h).argument
  have numbers :
      evaluateNumbers (evaluate env d) (items.map Prod.fst) =
        .ok (.ok ((items.map Prod.snd).map .int)) := by
    rw [List.map_map]
    exact evaluateNumbers_map fun item h => ⟨(each item h).evaluate_text d, rfl⟩
  obtain ⟨m, reduced, first⟩ :=
    Aggregate.reduce?_first extremal d.trueDivision (mt List.map_eq_nil_iff.1 several)
  refine ⟨m, first, first.extremum, fun trailing ends => ?_, fun more => ?_⟩
  · rw [Call.evaluate_aggregate env d known arguments ends numbers, reduced]
    rfl
  · obtain ⟨x, y, others, rfl⟩ : ∃ x y others, items = x :: y :: others := by
      match items, more with
      | x :: y :: others, _ => exact ⟨x, y, others, rfl⟩
    simp only [List.map_cons] at arguments numbers reduced ⊢
    rw [Call.evaluate_aggregate_arguments env d known arguments numbers, reduced]
    rfl

/-- The least integer, from a variable, before two literals in a list and between them as
arguments. -/
theorem evaluate_extremum_of_three :
    let env := Environment.empty.assign "low".toList (.int Int64.minValue)
    let seven : IntegerLiteral :=
      ⟨[], [], ['7'], ['L'], [], 7, 7, by decide, by decide, rfl, .inr ⟨'L', rfl, rfl⟩, rfl, rfl⟩
    let ten : IntegerLiteral :=
      ⟨[' '], ['-'], "1_0".toList, [], [], 10, -10, by decide, by decide, rfl, .inl rfl, rfl, rfl⟩
    let items := [(seven.text, seven.value), ("low".toList, Int64.minValue), (ten.text, ten.value)]
    (∀ item ∈ items, IntegerItem env item.1 item.2) ∧ Number.Apart (items.map Prod.snd) ∧
      evaluate env .java "Math.min([7L,low, -1_0, ])".toList = .ok (.value (.int Int64.minValue)) ∧
      evaluate env .java "Math.min(7L,low, -1_0)".toList = .ok (.value (.int Int64.minValue)) := by
  intro env seven ten items
  have low : IntegerItem env ([] ++ "low".toList ++ []) Int64.minValue := .name ⟨rfl, rfl⟩ rfl rfl
  have each : ∀ item ∈ items, IntegerItem env item.1 item.2 := by
    rw [List.forall_mem_cons, List.forall_mem_cons, List.forall_mem_singleton]
    exact ⟨.literal seven, low, .literal ten⟩
  have apart : Number.Apart (items.map Prod.snd) := by
    simp only [Number.Apart, items, List.map_cons, List.map_nil, List.forall_mem_cons,
      List.not_mem_nil, false_implies, implies_true, and_true]
    decide +kernel
  have known : Call.aggregate? "Math.min".toList = some .min := rfl
  obtain ⟨m, -, extremum, listed, passed⟩ :=
    evaluate_extremum env .java known (by decide) (List.cons_ne_nil _ _) each
  have least : m = Int64.minValue := by
    have key : Aggregate.worth .min seven.value < Aggregate.worth .min Int64.minValue ∧
        Aggregate.worth .min ten.value < Aggregate.worth .min Int64.minValue := by decide +kernel
    have greatest := (extremum apart).2 Int64.minValue (.tail _ (.head _))
    have found : m = seven.value ∨ m = Int64.minValue ∨ m = ten.value := by
      simpa [items] using (extremum apart).1
    rcases found with rfl | same | rfl
    · exact absurd greatest (Int.not_le.2 key.1)
    · exact same
    · exact absurd greatest (Int.not_le.2 key.2)
  subst least
  exact ⟨each, apart, listed [" ".toList] (.inr ⟨List.cons_ne_nil _ _, _, by decide, rfl⟩),
    passed (by decide)⟩

/-- Of two neighbours that share a float the first one is taken, though the other one is greater. -/
theorem evaluate_max_neighbours :
    let n : Int64 := 9007199254740992
    ¬ Aggregate.Extremum .max [n, n + 1] n ∧
      ∀ env d, evaluate env d "max([9007199254740992,9007199254740993])".toList =
        .ok (.value (.int n)) := by
  intro n
  refine ⟨fun extremum => ?_, fun env d => ?_⟩
  · exact absurd (extremum.2 (n + 1) (by simp)) (by decide)
  · let items :=
      [("9007199254740992".toList, Value.int n), ("9007199254740993".toList, .int (n + 1))]
    have numbers :
        evaluateNumbers (evaluate env d) (items.map Prod.fst) = .ok (.ok (items.map Prod.snd)) := by
      apply evaluateNumbers_map
      rw [List.forall_mem_cons, List.forall_mem_singleton]
      exact ⟨⟨evaluate_of_numberLiteral? env d rfl, rfl⟩,
        ⟨evaluate_of_numberLiteral? env d rfl, rfl⟩⟩
    have each : ∀ x ∈ items.map Prod.fst, Call.Argument x := by
      rw [List.forall_mem_map, List.forall_mem_cons, List.forall_mem_singleton]
      exact ⟨.of_plain (by decide) (by decide) (by decide),
        .of_plain (by decide) (by decide) (by decide)⟩
    have reduced : Aggregate.max.reduce? d.trueDivision (items.map Prod.snd) = some (.int n) := by
      have kept := Aggregate.choose_int Aggregate.rankedBy_max (n + 1) n
      rw [if_neg (by decide)] at kept
      exact congrArg some kept
    have known : Call.aggregate? "max".toList = some .max := rfl
    have found := Call.evaluate_aggregate env d known each (.inl rfl) numbers
    rwa [reduced] at found

end SourcePreview
