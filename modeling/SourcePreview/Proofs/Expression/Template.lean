import SourcePreview.Expression.Evaluation

/-! Templates that are written piece by piece. In plain text each brace is written twice, and each
backslash too unless the template is raw; a placeholder is written between braces. What is written
is resolved piece by piece (`interpolate_write`): no piece takes a character from its neighbour, and
what replaces a placeholder is not read again. -/

namespace SourcePreview

/-- A piece of a template as it is meant: plain text, or a placeholder that ends at the first
closing brace and does not begin with another opening one. -/
inductive Piece where
  | plain (text : Text)
  | hole (inner : Text) (unclosed : '}' ∉ inner) (unopened : inner.head? ≠ some '{')

namespace Piece

/-- A character of plain text in a template. -/
def spell (raw : Bool) (c : Char) : Text :=
  if c == '{' || c == '}' || (!raw && c == '\\') then [c, c] else [c]

def write (raw : Bool) : Piece → Text
  | .plain text => text.flatMap (spell raw)
  | .hole inner _ _ => '{' :: (inner ++ ['}'])

/-- What a piece stands for: plain text for itself, a placeholder for the value of its expression in
its format, for the marker of a division by zero, or for the text of an expression outside of the
grammar. -/
def resolved (env : Environment) (d : Dialect) : Piece → Except Overwide Text
  | .plain text => .ok text
  | .hole inner _ _ => do
    match ← evaluate env d (Segment.splitFormat inner).1 with
    | .value v => v.formatted (Segment.splitFormat inner).2
    | .fault => .ok divisionByZeroMarker
    | .unresolved => .ok (Text.trim (Segment.splitFormat inner).1)

theorem resolveHole_eq (env : Environment) (d : Dialect) (inner : Text) (unclosed : '}' ∉ inner)
    (unopened : inner.head? ≠ some '{') :
    resolveHole (evaluate env d) inner = (hole inner unclosed unopened).resolved env d := by
  simp only [resolveHole, resolved]
  cases evaluate env d (Segment.splitFormat inner).1 with
  | error e => rfl
  | ok e => cases e <;> rfl

end Piece

namespace Segment

variable {c : Char} {r : Text}

theorem exists_ofTemplate_eq (s : Text) : ∃ text rest, ofTemplate s = .plain text :: rest := by
  have front : ∀ c segments, ∃ text rest, cons c segments = .plain text :: rest := by
    intro c segments
    unfold cons
    split
    · exact ⟨_, _, rfl⟩
    · exact ⟨_, _, rfl⟩
  fun_induction ofTemplate s with
  | case1 => exact ⟨_, _, rfl⟩
  | case2 r ih => exact front _ _
  | case3 r ih => exact front _ _
  | case4 r hr inner after hs hlt ih => exact ⟨_, _, rfl⟩
  | case5 r hr hs => exact ⟨_, _, rfl⟩
  | case6 c r h1 h2 h3 ih => exact front _ _

theorem ofTemplate_cons (opening : c ≠ '{') (closing : c ≠ '}') (r : Text) :
    ofTemplate (c :: r) = cons c (ofTemplate r) := by
  rw [ofTemplate]
  · rintro r rfl -
    exact absurd rfl closing
  · rintro r rfl -
    exact absurd rfl opening
  · rintro rfl
    exact absurd rfl opening

/-- A character that no escape is needed for is in front of the plain text that a template starts
with. -/
theorem ofTemplate_spell {raw : Bool} (kept : raw = true ∨ c ≠ '\\') (r : Text) :
    ofTemplate (Piece.spell raw c ++ r) = cons c (ofTemplate r) := by
  by_cases opening : c = '{'
  · simp [opening, Piece.spell, ofTemplate]
  by_cases closing : c = '}'
  · simp [closing, Piece.spell, ofTemplate]
  have single : Piece.spell raw c = [c] := by
    have unescaped : (!raw && c == '\\') = false := by
      rcases kept with rfl | other
      · rfl
      · simp [other]
    simp [Piece.spell, opening, closing, unescaped]
  rw [single, List.singleton_append, ofTemplate_cons opening closing]

theorem ofTemplate_hole {inner : Text} (unclosed : '}' ∉ inner) (unopened : inner.head? ≠ some '{')
    (r : Text) :
    ofTemplate ('{' :: (inner ++ '}' :: r)) = .plain [] :: .hole inner :: ofTemplate r := by
  have cut := Text.splitOnce_append unclosed r
  have single : ∀ s, inner ++ '}' :: r ≠ '{' :: s := by
    cases inner with
    | nil => simp
    | cons c inner => simpa using unopened
  rw [ofTemplate]
  · split
    · next inner' after h =>
      rw [cut] at h
      cases h
      rfl
    · next h =>
      rw [cut] at h
      cases h
  · exact fun s h => single s h

end Segment

section

variable (e : Evaluator) {raw : Bool}

/-- A plain character in front of a template is in front of what the template is replaced by. -/
theorem resolveSegments_cons {c : Char} (kept : raw = true ∨ c ≠ '\\') (s : Text) :
    resolveSegments e raw (Segment.cons c (Segment.ofTemplate s)) =
      (resolveSegments e raw (Segment.ofTemplate s)).map (c :: ·) := by
  obtain ⟨text, rest, h⟩ := Segment.exists_ofTemplate_eq s
  have spelled :
      (if raw then c :: text else unescape (c :: text)) =
        c :: (if raw then text else unescape text) := by
    cases raw with
    | true => rfl
    | false =>
      have hc : c ≠ '\\' := kept.resolve_left Bool.false_ne_true
      simp [unescape, hc]
  rw [h, Segment.cons, resolveSegments, resolveSegments, spelled]
  cases resolveSegments e raw rest <;> rfl

theorem resolveSegments_backslash (s : Text) :
    resolveSegments e false (Segment.cons '\\' (Segment.cons '\\' (Segment.ofTemplate s))) =
      (resolveSegments e false (Segment.ofTemplate s)).map ('\\' :: ·) := by
  obtain ⟨text, rest, h⟩ := Segment.exists_ofTemplate_eq s
  rw [h, Segment.cons, Segment.cons, resolveSegments, resolveSegments]
  simp only [Bool.false_eq_true, if_false, unescape]
  cases resolveSegments e false rest <;> rfl

theorem resolveSegments_spell (c : Char) (r : Text) :
    resolveSegments e raw (Segment.ofTemplate (Piece.spell raw c ++ r)) =
      (resolveSegments e raw (Segment.ofTemplate r)).map (c :: ·) := by
  by_cases escaped : raw = false ∧ c = '\\'
  · obtain ⟨rfl, rfl⟩ := escaped
    have doubled : Piece.spell false '\\' ++ r = '\\' :: '\\' :: r := by simp [Piece.spell]
    rw [doubled, Segment.ofTemplate_cons (by decide) (by decide),
      Segment.ofTemplate_cons (by decide) (by decide)]
    exact resolveSegments_backslash e r
  · have kept : raw = true ∨ c ≠ '\\' := by
      cases raw with
      | true => exact .inl rfl
      | false => exact .inr fun hc => escaped ⟨rfl, hc⟩
    rw [Segment.ofTemplate_spell kept]
    exact resolveSegments_cons e kept r

theorem resolveSegments_plain (text r : Text) :
    resolveSegments e raw (Segment.ofTemplate (text.flatMap (Piece.spell raw) ++ r)) =
      (resolveSegments e raw (Segment.ofTemplate r)).map (text ++ ·) := by
  induction text with
  | nil =>
    rw [List.flatMap_nil, List.nil_append]
    cases resolveSegments e raw (Segment.ofTemplate r) <;> rfl
  | cons c text ih =>
    rw [List.flatMap_cons, List.append_assoc, resolveSegments_spell, ih]
    cases resolveSegments e raw (Segment.ofTemplate r) <;> rfl

/-- A placeholder is replaced by itself, whatever stands behind it. -/
theorem resolveSegments_hole {inner : Text} (unclosed : '}' ∉ inner)
    (unopened : inner.head? ≠ some '{') (r : Text) :
    resolveSegments e raw (Segment.ofTemplate ('{' :: (inner ++ '}' :: r))) = (do
      let text ← resolveHole e inner
      (resolveSegments e raw (Segment.ofTemplate r)).map (text ++ ·)) := by
  rw [Segment.ofTemplate_hole unclosed unopened, resolveSegments, resolveSegments]
  cases resolveHole e inner with
  | error e => cases raw <;> rfl
  | ok text => cases resolveSegments e raw (Segment.ofTemplate r) <;> cases raw <;> rfl

end

/-- A template that is written piece by piece is replaced piece by piece. -/
theorem interpolate_write (env : Environment) (d : Dialect) (raw : Bool) (pieces : List Piece) :
    interpolate env d raw (pieces.flatMap (Piece.write raw)) =
      (pieces.mapM (Piece.resolved env d)).map List.flatten := by
  unfold interpolate
  induction pieces with
  | nil =>
    have nothing : (if raw then [] else unescape []) ++ ([] : Text) = [] := by
      cases raw <;> rfl
    rw [List.flatMap_nil, Segment.ofTemplate, resolveSegments, resolveSegments, List.mapM_nil]
    exact congrArg Except.ok nothing
  | cons piece pieces ih =>
    rw [List.flatMap_cons, List.mapM_cons]
    cases piece with
    | plain text =>
      rw [Piece.write, resolveSegments_plain, ih, Piece.resolved]
      cases pieces.mapM (Piece.resolved env d) <;> rfl
    | hole inner unclosed unopened =>
      have whole :
          (Piece.hole inner unclosed unopened).write raw ++ pieces.flatMap (Piece.write raw) =
          '{' :: (inner ++ '}' :: pieces.flatMap (Piece.write raw)) := by simp [Piece.write]
      rw [whole, resolveSegments_hole _ unclosed unopened, ih,
        Piece.resolveHole_eq env d inner unclosed unopened]
      cases (Piece.hole inner unclosed unopened).resolved env d with
      | error e => rfl
      | ok text => cases pieces.mapM (Piece.resolved env d) <;> rfl

end SourcePreview
