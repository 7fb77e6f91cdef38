import SourcePreview.Expression.Literal
import SourcePreview.Proofs.Expression.Walk

/-! Texts in double quotes. A backslash is written before each backslash and each double quote, and
may be written before other characters if they are read back from it (`Spells`). -/

namespace SourcePreview

/-- Whether a backslash is written before a character; single quotes need none. -/
def isEscaped (singles : Bool) (c : Char) : Bool := c == '\\' || c == '"' || (singles && c == '\'')

def escape (singles : Bool) (s : Text) : Text :=
  s.flatMap fun c => if isEscaped singles c then ['\\', c] else [c]

def quotation (singles : Bool) (s : Text) : Text := '"' :: (escape singles s ++ ['"'])

def inQuotes (body : Text) : Text := '"' :: (body ++ ['"'])

/-- A way to write characters between double quotes: each as itself, or as a backslash and a
character that together are read back as it. -/
def Spells (spell : Char → Text) : Prop :=
  ∀ c, (spell c = [c] ∧ c ≠ '\\' ∧ c ≠ '"') ∨
    ∃ mark, spell c = ['\\', mark] ∧ ∀ r, unescape ('\\' :: mark :: r) = c :: unescape r

section

variable {spell : Char → Text} (spells : Spells spell)
include spells

theorem unescape_flatMap (s : Text) : unescape (s.flatMap spell) = s := by
  induction s with
  | nil => rfl
  | cons c s ih =>
    rw [List.flatMap_cons]
    rcases spells c with ⟨he, hb, -⟩ | ⟨mark, he, hu⟩
    · rw [he, List.singleton_append]
      simp [unescape, hb, ih]
    · rw [he]
      exact (hu _).trans (congrArg (c :: ·) ih)

theorem closes_flatMap_append (s r : Text) :
    Quoted.closes '"' (s.flatMap spell ++ r) = Quoted.closes '"' r := by
  induction s with
  | nil => rfl
  | cons c s ih =>
    rw [List.flatMap_cons, List.append_assoc]
    rcases spells c with ⟨he, hb, hq⟩ | ⟨mark, he, -⟩
    · rw [he, List.singleton_append, ← ih]
      simp [Quoted.closes, hb, hq]
    · rw [he]
      exact ih

theorem path_flatMap (k : Nat) (s : Text) :
    Nesting.after ⟨k, some '"', false⟩ (s.flatMap spell) = ⟨k, some '"', false⟩ ∧
      ∀ p ∈ Nesting.path ⟨k, some '"', false⟩ (s.flatMap spell), p.1.quote = some '"' := by
  induction s with
  | nil => exact ⟨rfl, by simp [Nesting.path]⟩
  | cons c s ih =>
    rw [List.flatMap_cons]
    rcases spells c with ⟨he, hb, hq⟩ | ⟨mark, he, -⟩
    · have hs : Nesting.after ⟨k, some '"', false⟩ [c] = ⟨k, some '"', false⟩ := by
        simp [Nesting.step, hb, hq]
      rw [he, Nesting.after_append, Nesting.path_append, hs]
      refine ⟨ih.1, fun p hp => ?_⟩
      rcases List.mem_append.1 hp with hp | hp
      · simp only [Nesting.path, List.mem_singleton] at hp
        rw [hp]
      · exact ih.2 p hp
    · have hs : Nesting.after ⟨k, some '"', false⟩ ['\\', mark] = ⟨k, some '"', false⟩ := rfl
      rw [he, Nesting.after_append, Nesting.path_append, hs]
      refine ⟨ih.1, fun p hp => ?_⟩
      rcases List.mem_append.1 hp with hp | hp
      · simp only [Nesting.path, List.mem_cons, List.not_mem_nil, or_false] at hp
        rcases hp with rfl | rfl <;> rfl
      · exact ih.2 p hp

theorem path_inQuotes (k : Nat) (s : Text) :
    (Nesting.level k).after (inQuotes (s.flatMap spell)) = Nesting.level k ∧
      ∀ p ∈ (Nesting.level k).path (inQuotes (s.flatMap spell)), p = (Nesting.level k, '"') ∨
        p.1.quote = some '"' := by
  have hs : (Nesting.level k).step '"' = ⟨k, some '"', false⟩ := rfl
  obtain ⟨h1, h2⟩ := path_flatMap spells k s
  unfold inQuotes
  rw [Nesting.after_cons, Nesting.path, hs, Nesting.after_append, Nesting.path_append, h1]
  refine ⟨rfl, fun p hp => ?_⟩
  rcases List.mem_cons.1 hp with rfl | hp
  · exact Or.inl rfl
  rcases List.mem_append.1 hp with hp | hp
  · exact Or.inr (h2 p hp)
  · simp only [Nesting.path, List.mem_singleton] at hp
    rw [hp]
    exact Or.inr rfl

/-- Three quotes at the start are not one delimiter here: behind the first comes the body, or the
quote that ends it. -/
theorem body?_inQuotes_append (s : Text) {r : Text} (hr : r.head? ≠ some '"') :
    Quoted.body? '"' (inQuotes (s.flatMap spell) ++ r) =
      (Quoted.between? ['"'] (inQuotes (s.flatMap spell) ++ r)).filter (Quoted.closes '"') := by
  have hs : Text.startsWith ['"', '"', '"'] (inQuotes (s.flatMap spell) ++ r) = false := by
    unfold inQuotes
    cases s with
    | nil =>
      cases r with
      | nil => rfl
      | cons c r =>
        have hc : '"' ≠ c := fun h => hr (by rw [h]; rfl)
        simp [Text.startsWith, Text.after?, hc]
    | cons c s =>
      rw [List.flatMap_cons]
      rcases spells c with ⟨he, -, hq⟩ | ⟨mark, he, -⟩
      · simp [he, Text.startsWith, Text.after?, hq.symm]
      · simp [he, Text.startsWith, Text.after?]
  unfold Quoted.body?
  dsimp only
  rw [if_neg (by simp [hs])]

omit spells in
theorem cutAtFirst_inQuotes_append (body r : Text) :
    Text.cutAtFirst Nesting.isQuote (inQuotes body ++ r) = some ([], '"', body ++ ['"'] ++ r) := by
  simp [inQuotes, Text.cutAtFirst, Nesting.isQuote]

theorem ofText?_inQuotes (s : Text) :
    Quoted.ofText? (inQuotes (s.flatMap spell)) = some ⟨s.flatMap spell, false, false⟩ := by
  have hc : Text.cutAtFirst _ (inQuotes (s.flatMap spell) ++ []) = _ :=
    cutAtFirst_inQuotes_append (s.flatMap spell) []
  have hb : Quoted.body? '"' (inQuotes (s.flatMap spell) ++ []) = _ :=
    body?_inQuotes_append spells s (by simp)
  have hw : Quoted.between? ['"'] (inQuotes (s.flatMap spell)) = some (s.flatMap spell) := by
    rw [Quoted.between?,
      Text.after?_eq_some_iff.2 (rfl : inQuotes (s.flatMap spell) =
        ['"'] ++ (s.flatMap spell ++ ['"']))]
    exact Text.before?_eq_some_iff.2 rfl
  have hs : Quoted.closes '"' (s.flatMap spell ++ []) = true := closes_flatMap_append spells s []
  rw [List.append_nil] at hc hb hs
  rw [hw] at hb
  have hb : Quoted.body? '"' (inQuotes (s.flatMap spell)) = some (s.flatMap spell) := by
    rw [hb, Option.filter_some, hs]
    rfl
  rw [Quoted.ofText?, hc, List.append_nil]
  exact congrArg (Option.map _) hb

theorem ofText?_inQuotes_append (s : Text) {r : Text} (hr : r ≠ []) (hh : r.head? ≠ some '"') :
    Quoted.ofText? (inQuotes (s.flatMap spell) ++ r) = none := by
  have hb : Quoted.body? '"' (inQuotes (s.flatMap spell) ++ r) = none := by
    rw [body?_inQuotes_append spells s hh, Option.filter_eq_none_iff]
    intro body hw hcl
    obtain ⟨rest, hrest, hw⟩ := Option.bind_eq_some_iff.1 hw
    have h1 := Text.after?_eq_some_iff.1 hrest
    have h2 := Text.before?_eq_some_iff.1 hw
    obtain ⟨r', c, rfl⟩ := (List.eq_nil_or_concat r).resolve_left hr
    rw [List.concat_eq_append] at h1
    -- the quote that ends the quotation stands inside of the body
    have hbody : body = s.flatMap spell ++ '"' :: r' := by
      have : inQuotes (s.flatMap spell) ++ (r' ++ [c]) =
          '"' :: (s.flatMap spell ++ '"' :: r' ++ [c]) := by
        simp [inQuotes]
      rw [this, h2, List.singleton_append] at h1
      exact (List.append_inj' (List.cons.inj h1).2 rfl).1.symm
    rw [hbody, closes_flatMap_append spells] at hcl
    simp [Quoted.closes] at hcl
  rw [Quoted.ofText?, cutAtFirst_inQuotes_append]
  exact congrArg (Option.map _) hb

end

section

variable {singles : Bool}

theorem spells_isEscaped (singles : Bool) :
    Spells fun c => if isEscaped singles c then ['\\', c] else [c] := by
  intro c
  dsimp only
  cases hc : isEscaped singles c with
  | true =>
    refine Or.inr ⟨c, rfl, fun r => ?_⟩
    simp only [isEscaped, Bool.or_eq_true, Bool.and_eq_true, beq_iff_eq] at hc
    rcases hc with (rfl | rfl) | ⟨-, rfl⟩ <;> rw [unescape]
  | false =>
    simp only [isEscaped, Bool.or_eq_false_iff, beq_eq_false_iff_ne] at hc
    exact Or.inl ⟨rfl, hc.1⟩

theorem unescape_escape (s : Text) : unescape (escape singles s) = s :=
  unescape_flatMap (spells_isEscaped singles) s

theorem path_quotation (singles : Bool) (k : Nat) (s : Text) :
    (Nesting.level k).after (quotation singles s) = Nesting.level k ∧
      ∀ p ∈ (Nesting.level k).path (quotation singles s), p = (Nesting.level k, '"') ∨
        p.1.quote = some '"' :=
  path_inQuotes (spells_isEscaped singles) k s

theorem ofText?_quotation (s : Text) :
    Quoted.ofText? (quotation singles s) = some ⟨escape singles s, false, false⟩ :=
  ofText?_inQuotes (spells_isEscaped singles) s

theorem ofText?_quotation_append (s : Text) {r : Text} (hr : r ≠ []) (hh : r.head? ≠ some '"') :
    Quoted.ofText? (quotation singles s ++ r) = none :=
  ofText?_inQuotes_append (spells_isEscaped singles) s hr hh

end

end SourcePreview
