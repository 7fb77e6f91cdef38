import SourcePreview.Expression.Nesting

/-! Templates: texts with placeholders in braces. A doubled brace is a plain brace, a closing brace
alone stands for itself, and an opening brace that nothing closes is kept with all that follows
it. -/

namespace SourcePreview

/-- A piece of a template: plain text, or what stands between the braces of a placeholder. -/
inductive Segment where
  | plain (text : Text)
  | hole (inner : Text)
  deriving DecidableEq, Repr

namespace Segment

/-- Puts a character in front of the plain text that the pieces start with. -/
def cons (c : Char) : List Segment → List Segment
  | .plain s :: rest => .plain (c :: s) :: rest
  | rest => .plain [c] :: rest

/-- The pieces of a template; each starts with plain text, which may be empty. -/
def ofTemplate : Text → List Segment
  | [] => [.plain []]
  | '}' :: '}' :: r => cons '}' (ofTemplate r)
  | '{' :: '{' :: r => cons '{' (ofTemplate r)
  | '{' :: r =>
    match h : Text.splitOnce '}' r with
    | some (inner, after) =>
      have : after.length < r.length + 1 := Text.length_lt_of_splitOnce h
      .plain [] :: .hole inner :: ofTemplate after
    | none => [.plain ('{' :: r)]
  | c :: r => cons c (ofTemplate r)
termination_by s => s.length

/-- The expression of a placeholder, and the format behind its first colon at the top level. -/
def splitFormat (inner : Text) : Text × Option Text :=
  match Nesting.splitTopOnce ':' .start inner with
  | some (expr, format) => (expr, some format)
  | none => (inner, none)

theorem length_splitFormat_le (inner : Text) : (splitFormat inner).1.length ≤ inner.length := by
  unfold splitFormat
  split
  · next h => have := Nesting.eq_of_splitTopOnce h; subst this; simp
  · exact Nat.le_refl _

theorem mem_cons {c : Char} {segments : List Segment} {inner : Text}
    (h : .hole inner ∈ cons c segments) :
    .hole inner ∈ segments := by
  unfold cons at h
  split at h <;> simp_all

theorem length_lt_of_mem_ofTemplate {s inner : Text} (h : .hole inner ∈ ofTemplate s) :
    inner.length < s.length := by
  fun_induction ofTemplate s with
  | case1 => simp at h
  | case2 r ih => have := ih (mem_cons h); simp only [List.length_cons]; omega
  | case3 r ih => have := ih (mem_cons h); simp only [List.length_cons]; omega
  | case4 r hr inner' after hs hlt ih =>
    simp only [Text.splitOnce, Option.map_eq_some_iff] at hs
    obtain ⟨⟨a, x, b⟩, hc, heq⟩ := hs
    obtain ⟨rfl, -, -⟩ := Text.eq_of_cutAtFirst hc
    simp only [Prod.mk.injEq] at heq
    obtain ⟨rfl, rfl⟩ := heq
    simp only [List.mem_cons, reduceCtorEq, Segment.hole.injEq, false_or] at h
    simp only [List.length_cons, List.length_append]
    rcases h with rfl | h
    · omega
    · have := ih h; omega
  | case5 => simp at h
  | case6 c r _ _ _ ih => have := ih (mem_cons h); simp only [List.length_cons]; omega

end Segment

end SourcePreview
