import SourcePreview.Expression.Cut

/-! The way of a scan through a text: each character with the place where it stands. What a scan
does on a way without any closing bracket or operator that it heeds is to pass on
(`closing?_append`, `scan_append`). -/

namespace SourcePreview

namespace Nesting

/-- Outside of quotes behind `k` open brackets. -/
def level (k : Nat) : Nesting := ⟨k, none, false⟩

def path (n : Nesting) : Text → List (Nesting × Char)
  | [] => []
  | c :: r => (n, c) :: path (n.step c) r

variable {n : Nesting} {s : Text}

@[simp] theorem after_nil (n : Nesting) : n.after [] = n := rfl

@[simp] theorem after_cons (n : Nesting) (c : Char) (s : Text) :
    n.after (c :: s) = (n.step c).after s := rfl

theorem after_append (n : Nesting) (s t : Text) : n.after (s ++ t) = (n.after s).after t :=
  List.foldl_append

theorem path_append (n : Nesting) (s t : Text) :
    n.path (s ++ t) = n.path s ++ (n.after s).path t := by
  induction s generalizing n with
  | nil => rfl
  | cons c s ih => exact congrArg ((n, c) :: ·) (ih (n.step c))

theorem snd_mem_of_mem_path {p : Nesting × Char} (h : p ∈ n.path s) : p.2 ∈ s := by
  induction s generalizing n with
  | nil => cases h
  | cons c s ih =>
    rcases List.mem_cons.1 h with rfl | h
    · exact List.mem_cons_self
    · exact List.mem_cons_of_mem c (ih h)

/-- Whether the next character closes the outermost pair, or one that was never opened. -/
def closes (n : Nesting) (c : Char) : Bool := n.quote.isNone && isClosing c && n.depth ≤ 1

theorem closing?_append (h : ∀ p ∈ n.path s, p.1.closes p.2 = false) (r : Text) :
    closing? n (s ++ r) = (closing? (n.after s) r).map fun (a, b) => (s ++ a, b) := by
  induction s generalizing n with
  | nil => simp
  | cons c s ih =>
    have hc : ¬ ((n.quote.isNone && isClosing c && decide (n.depth ≤ 1)) = true) := by
      rw [Bool.not_eq_true]
      exact h (n, c) (List.mem_cons_self ..)
    rw [List.cons_append, closing?, if_neg hc, ih fun p hp => h p (List.mem_cons_of_mem _ hp)]
    rw [Option.map_map]
    rfl

end Nesting

namespace Cut

variable {n : Nesting} {s : Text} {found : Candidates}

theorem add_of_ofChar?_eq_none {c : Char} (h : Operator.ofChar? c = none) (before after : Text) :
    found.add c before after = some found := by
  simp [Candidates.add, h]

theorem scan_append (h : ∀ p ∈ n.path s, p.1.isTop p.2 = true → Operator.ofChar? p.2 = none)
    (before r : Text) :
    scan n before found (s ++ r) = scan (n.after s) (s.reverse ++ before) found r := by
  induction s generalizing n before with
  | nil => rfl
  | cons c s ih =>
    have hc := h (n, c) (List.mem_cons_self ..)
    have ih := ih (fun p hp => h p (List.mem_cons_of_mem _ hp)) (c :: before)
    rw [List.cons_append, scan, List.reverse_cons, List.append_assoc]
    by_cases ht : n.isTop c = true
    · rw [if_pos ht, add_of_ofChar?_eq_none (hc ht)]
      exact ih
    · rw [if_neg ht]
      exact ih

end Cut

end SourcePreview
