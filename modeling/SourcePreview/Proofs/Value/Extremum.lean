import SourcePreview.Expression.Evaluation
import SourcePreview.Proofs.Number.FloatOfInt

/-! The greatest and the least of several integers. They are compared by their floats, so the first
of those is taken whose float no other one exceeds (`Aggregate.reduce?_first`). It is the greatest
or least of them as long as no two of them share a float (`Aggregate.First.extremum`), as integers
to `2 ^ 53` never do (`Number.apart_of_short`). -/

namespace SourcePreview

namespace Number

theorem natAbs_toInt_lt (n : Int64) : n.toInt.natAbs < 2 ^ 64 := by
  have range := fits_toInt n
  unfold Fits at range
  omega

/-- Different integers have different floats. -/
def Apart (ns : List Int64) : Prop := ∀ a ∈ ns, ∀ b ∈ ns, nearest a.toInt = nearest b.toInt → a = b

theorem apart_of_short {ns : List Int64} (short : ∀ n ∈ ns, n.toInt.natAbs ≤ 2 ^ 53) :
    Apart ns := by
  intro a ha b hb same
  rw [nearest_eq_self (short a ha), nearest_eq_self (short b hb)] at same
  exact Int64.toInt_inj.1 same

end Number

namespace Aggregate

/-- What a reduction to one of its numbers looks for the most of. -/
def worth : Aggregate → Int64 → Int
  | .min, n => -n.toInt
  | _, n => n.toInt

def rank (kind : Aggregate) (n : Int64) : Int := Number.nearest (kind.worth n)

def Extremum (kind : Aggregate) (ns : List Int64) (m : Int64) : Prop :=
  m ∈ ns ∧ ∀ n ∈ ns, kind.worth n ≤ kind.worth m

def First (kind : Aggregate) (ns : List Int64) (m : Int64) : Prop :=
  ∃ front behind, ns = front ++ m :: behind ∧ (∀ n ∈ front, kind.rank n < kind.rank m) ∧
    ∀ n ∈ behind, kind.rank n ≤ kind.rank m

variable {kind : Aggregate}

theorem rank_min (n : Int64) : rank .min n = -Number.nearest n.toInt := Number.nearest_neg _

theorem nearest_eq_of_rank_eq {n m : Int64} (h : kind.rank n = kind.rank m) :
    Number.nearest n.toInt = Number.nearest m.toInt := by
  cases kind with
  | min => rwa [rank_min, rank_min, Int.neg_inj] at h
  | sum => exact h
  | max => exact h

namespace First

variable {ns : List Int64} {m : Int64}

theorem mem (h : kind.First ns m) : m ∈ ns := by
  obtain ⟨front, behind, rfl, -⟩ := h
  exact List.mem_append_cons_self

theorem rank_le (h : kind.First ns m) : ∀ n ∈ ns, kind.rank n ≤ kind.rank m := by
  obtain ⟨front, behind, rfl, before, after⟩ := h
  intro n hn
  rcases List.mem_append.1 hn with hn | hn
  · exact Int.le_of_lt (before n hn)
  · rcases List.mem_cons.1 hn with rfl | hn
    · exact Int.le_refl _
    · exact after n hn

theorem step (h : kind.First ns m) (n : Int64) :
    kind.First (ns ++ [n]) (if kind.rank m < kind.rank n then n else m) := by
  split
  · next higher => exact ⟨ns, [], rfl, fun k hk => Int.lt_of_le_of_lt (h.rank_le k hk) higher,
      nofun⟩
  · next lower =>
    obtain ⟨front, behind, rfl, before, after⟩ := h
    refine ⟨front, behind ++ [n], List.append_assoc _ _ _, before, fun k hk => ?_⟩
    rcases List.mem_append.1 hk with hk | hk
    · exact after k hk
    · rw [List.mem_singleton.1 hk]
      exact Int.not_lt.1 lower

/-- If no two of the integers share a float, the first one of the highest rank is the greatest or
least of them. -/
theorem extremum (h : kind.First ns m) (apart : Number.Apart ns) : kind.Extremum ns m := by
  refine ⟨h.mem, fun n hn => Int.not_lt.1 fun more => ?_⟩
  have same : kind.rank n = kind.rank m :=
    Int.le_antisymm (h.rank_le n hn) (Number.nearest_mono (Int.le_of_lt more))
  rw [apart n hn m h.mem (nearest_eq_of_rank_eq same)] at more
  exact Int.lt_irrefl _ more

end First

/-- Whether a comparison of floats takes an integer for better than another exactly if its rank is
higher. -/
def RankedBy (kind : Aggregate) (better : Float → Float → Bool) : Prop :=
  ∀ n m : Int64,
    better (Number.floatOfInt n.toInt) (Number.floatOfInt m.toInt) =
    decide (kind.rank m < kind.rank n)

theorem rankedBy_min : RankedBy .min fun x y => x < y := fun n m => by
  rw [decide_eq_decide, Number.floatOfInt_lt (Number.natAbs_toInt_lt n) (Number.natAbs_toInt_lt m),
    rank_min, rank_min, Int.neg_lt_neg_iff]

theorem rankedBy_max : RankedBy .max fun x y => y < x := fun n m => by
  rw [decide_eq_decide, Number.floatOfInt_lt (Number.natAbs_toInt_lt m) (Number.natAbs_toInt_lt n)]
  rfl

/-- Which of two numbers a selection goes on with. -/
def choose (better : Float → Float → Bool) (best v : Value) : Value :=
  match v.toFloat?, best.toFloat? with
  | some x, some y => if better x y then v else best
  | _, _ => best

theorem pick?_cons (better : Float → Float → Bool) (v : Value) (vs : List Value) :
    pick? better (v :: vs) = some (vs.foldl (choose better) v) := rfl

section

variable {better : Float → Float → Bool} (ranked : kind.RankedBy better)
include ranked

theorem choose_int (n m : Int64) :
    choose better (.int m) (.int n) = .int (if kind.rank m < kind.rank n then n else m) := by
  show (if better _ _ then Value.int n else .int m) = _
  rw [ranked n m]
  by_cases higher : kind.rank m < kind.rank n
  · rw [decide_eq_true higher, if_pos rfl, if_pos higher]
  · rw [decide_eq_false higher, if_neg Bool.false_ne_true, if_neg higher]

theorem foldl_choose {ms : List Int64} {m : Int64} (h : kind.First ms m) (ns : List Int64) :
    ∃ k, (ns.map Value.int).foldl (choose better) (.int m) = .int k ∧ kind.First (ms ++ ns) k := by
  -- over the integers still to come, for those already seen
  induction ns generalizing ms m with
  | nil => exact ⟨m, rfl, by rwa [List.append_nil]⟩
  | cons n ns ih =>
    obtain ⟨k, folded, first⟩ := ih (h.step n)
    refine ⟨k, ?_, by rwa [List.append_assoc] at first⟩
    rw [List.map_cons, List.foldl_cons, choose_int ranked, folded]

theorem pick?_first {ns : List Int64} (several : ns ≠ []) :
    ∃ m, pick? better (ns.map .int) = some (.int m) ∧ kind.First ns m := by
  obtain ⟨n, ns, rfl⟩ := List.exists_cons_of_ne_nil several
  have single : kind.First [n] n := ⟨[], [], rfl, nofun, nofun⟩
  obtain ⟨m, folded, first⟩ := foldl_choose ranked single ns
  exact ⟨m, by rw [List.map_cons, pick?_cons, folded], first⟩

end

/-- A reduction to the greatest or the least makes the first integer of the highest rank. -/
theorem reduce?_first (extremal : kind ≠ .sum) (rule : Bool) {ns : List Int64} (several : ns ≠ []) :
    ∃ m, kind.reduce? rule (ns.map .int) = some (.int m) ∧ kind.First ns m := by
  cases kind with
  | sum => exact absurd rfl extremal
  | min => exact pick?_first rankedBy_min several
  | max => exact pick?_first rankedBy_max several

end Aggregate

end SourcePreview
