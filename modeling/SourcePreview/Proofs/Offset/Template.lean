import SourcePreview.Proofs.Expression.Template
import SourcePreview.Proofs.Offset.Nesting

/-! Templates by byte offsets. One turn of the scan finds the next brace and takes the text up to
it, and up to what closes it (`segments_eq`). -/

namespace SourcePreview.Offset

open Text (byteSize)

/-- Whether a character opens or closes a placeholder. -/
def isBrace (c : Char) : Bool := c == '{' || c == '}'

/-- What one turn of the scan reads: the plain text at the end of a template, plain text with more
behind it, or plain text and a placeholder with more behind them. -/
inductive Turn where
  | last (text : Text)
  | plain (text rest : Text)
  | hole (text inner rest : Text)

def turn (s : Text) : Except Panic Turn :=
  match find? isBrace s with
  | none => .ok (.last s)
  | some first => do
    let text ← upTo s first
    let brace ← between s first (first + 1)
    let rest ← behind s (first + 1)
    if brace = ['}'] then .ok (.plain (text ++ ['}']) ((Text.after? ['}'] rest).getD rest))
    else
      match Text.after? ['{'] rest with
      | some rest => .ok (.plain (text ++ ['{']) rest)
      | none =>
        match find? (· == '}') rest with
        | some close => do .ok (.hole text (← upTo rest close) (← behind rest (close + 1)))
        | none => do .ok (.last (text ++ (← behind s first)))

def segments (text s : Text) : Except Panic (List Segment) := do
  match ← turn s with
  | .last t => .ok [.plain (text ++ t)]
  | .plain t rest => if rest.length < s.length then segments (text ++ t) rest else .ok []
  | .hole t inner rest =>
    if rest.length < s.length then
      do .ok (.plain (text ++ t) :: .hole inner :: (← segments [] rest))
    else .ok []
termination_by s.length

/-- Puts plain text in front of pieces. -/
def prepend (text : Text) (pieces : List Segment) : List Segment := text.foldr Segment.cons pieces

theorem prepend_append (a b : Text) (pieces : List Segment) :
    prepend (a ++ b) pieces = prepend a (prepend b pieces) :=
  List.foldr_append

theorem prepend_plain (text s : Text) (pieces : List Segment) :
    prepend text (.plain s :: pieces) = .plain (text ++ s) :: pieces := by
  induction text with
  | nil => rfl
  | cons c text ih =>
    change Segment.cons c (prepend text (.plain s :: pieces)) = _
    rw [ih]
    rfl

theorem ofTemplate_append {a : Text} (ha : ∀ c ∈ a, isBrace c = false) (r : Text) :
    Segment.ofTemplate (a ++ r) = prepend a (Segment.ofTemplate r) := by
  induction a with
  | nil => rfl
  | cons c a ih =>
    rw [List.forall_mem_cons] at ha
    have other : c ≠ '{' ∧ c ≠ '}' := by simpa [isBrace] using ha.1
    rw [List.cons_append, Segment.ofTemplate_cons other.1 other.2, ih ha.2]
    rfl

def Turn.Reads (t : Turn) (s : Text) : Prop :=
  match t with
  | .last text => Segment.ofTemplate s = [.plain text]
  | .plain text rest =>
    rest.length < s.length ∧ Segment.ofTemplate s = prepend text (Segment.ofTemplate rest)
  | .hole text inner rest =>
    rest.length < s.length ∧
    Segment.ofTemplate s = .plain text :: .hole inner :: Segment.ofTemplate rest

theorem ofTemplate_closing (r : Text) :
    Segment.ofTemplate ('}' :: r) =
      Segment.cons '}' (Segment.ofTemplate ((Text.after? ['}'] r).getD r)) := by
  cases h : Text.after? ['}'] r with
  | some rest =>
    rw [Text.after?_eq_some_iff.1 h, List.singleton_append, Segment.ofTemplate]
    rfl
  | none =>
    have single : ∀ rest, r ≠ '}' :: rest := by
      rintro rest rfl
      rw [Text.after?_singleton_cons] at h
      cases h
    rw [Segment.ofTemplate]
    · rfl
    · exact fun rest _ => single rest
    · rintro rest ⟨⟩
    · rintro ⟨⟩

theorem ofTemplate_unclosed {r : Text} (single : ∀ rest, r ≠ '{' :: rest)
    (h : Text.cutAtFirst (· == '}') r = none) :
    Segment.ofTemplate ('{' :: r) = [.plain ('{' :: r)] := by
  rw [Segment.ofTemplate]
  · split
    · next hcut =>
      rw [Text.splitOnce, h] at hcut
      cases hcut
    · rfl
  · exact fun rest h => single rest h

section

variable {s a r : Text}

theorem turn_closing (h : Text.cutAtFirst isBrace s = some (a, '}', r)) :
    ∃ t, turn s = .ok t ∧ t.Reads s := by
  have brace := between_cons (c := '}') rfl a r
  have past := behind_cons (c := '}') rfl a r
  rw [turn, find?_eq, h]
  obtain ⟨rfl, -, ha⟩ := Text.eq_of_cutAtFirst h
  simp only [Option.map_some, bind, Except.bind, upTo_append, brace, past, if_pos]
  refine ⟨_, rfl, ?_, ?_⟩
  · have shorter : ((Text.after? ['}'] r).getD r).length ≤ r.length := by
      cases hr : Text.after? ['}'] r with
      | none => exact Nat.le_refl _
      | some rest =>
        rw [Text.after?_eq_some_iff.1 hr]
        exact Nat.le_succ _
    rw [List.length_append, List.length_cons]
    omega
  · rw [ofTemplate_append ha, ofTemplate_closing, prepend_append]
    rfl

theorem turn_opening (h : Text.cutAtFirst isBrace s = some (a, '{', r)) :
    ∃ t, turn s = .ok t ∧ t.Reads s := by
  have brace := between_cons (c := '{') rfl a r
  have past := behind_cons (c := '{') rfl a r
  have other : ['{'] ≠ ['}'] := by decide
  rw [turn, find?_eq, h]
  obtain ⟨rfl, -, ha⟩ := Text.eq_of_cutAtFirst h
  simp only [Option.map_some, bind, Except.bind, upTo_append, brace, past, if_neg other]
  cases hr : Text.after? ['{'] r with
  | some rest =>
    obtain rfl := Text.after?_eq_some_iff.1 hr
    refine ⟨_, rfl, ?_, ?_⟩
    · simp only [List.length_append, List.length_cons]
      omega
    · rw [ofTemplate_append ha, List.singleton_append, Segment.ofTemplate, prepend_append]
      rfl
  | none =>
    have single : ∀ rest, r ≠ '{' :: rest := by
      rintro rest rfl
      rw [Text.after?_singleton_cons] at hr
      cases hr
    dsimp only
    rw [find?_eq]
    cases hs : Text.cutAtFirst (· == '}') r with
    | some parts =>
      obtain ⟨inner, d, rest⟩ := parts
      obtain ⟨rfl, hd, hi⟩ := Text.eq_of_cutAtFirst hs
      obtain rfl := eq_of_beq hd
      have unclosed : '}' ∉ inner := fun hm => absurd (hi _ hm) (by decide)
      have unopened : inner.head? ≠ some '{' := by
        intro hh
        obtain ⟨inner, rfl⟩ := List.head?_eq_some_iff.1 hh
        exact single (inner ++ '}' :: rest) rfl
      have close := behind_cons (c := '}') rfl inner rest
      simp only [Option.map_some, upTo_append, close]
      refine ⟨_, rfl, ?_, ?_⟩
      · simp only [List.length_append, List.length_cons]
        omega
      · rw [ofTemplate_append ha, Segment.ofTemplate_hole unclosed unopened, prepend_plain,
          List.append_nil]
    | none =>
      simp only [Option.map_none, behind_append]
      refine ⟨_, rfl, ?_⟩
      change Segment.ofTemplate _ = _
      rw [ofTemplate_append ha, ofTemplate_unclosed single hs, prepend_plain]

end

theorem turn_reads (s : Text) : ∃ t, turn s = .ok t ∧ t.Reads s := by
  cases h : Text.cutAtFirst isBrace s with
  | none =>
    rw [turn, find?_eq, h]
    refine ⟨.last s, rfl, ?_⟩
    have whole := ofTemplate_append (Text.cutAtFirst_eq_none_iff.1 h) []
    rw [List.append_nil, Segment.ofTemplate, prepend_plain, List.append_nil] at whole
    exact whole
  | some parts =>
    obtain ⟨a, c, r⟩ := parts
    obtain ⟨-, hc, -⟩ := Text.eq_of_cutAtFirst h
    rw [isBrace, Bool.or_eq_true, beq_iff_eq, beq_iff_eq] at hc
    rcases hc with rfl | rfl
    · exact turn_opening h
    · exact turn_closing h

/-- Reading a template never breaks off. -/
theorem segments_eq (text s : Text) :
    segments text s = .ok (prepend text (Segment.ofTemplate s)) := by
  induction hl : s.length using Nat.strongRecOn generalizing text s with
  | ind l ih =>
    obtain ⟨t, ht, reads⟩ := turn_reads s
    rw [segments, ht]
    cases t with
    | last t =>
      change Segment.ofTemplate s = [.plain t] at reads
      rw [reads, prepend_plain]
      rfl
    | plain t rest =>
      obtain ⟨shorter, whole⟩ := reads
      simp only [bind, Except.bind, if_pos shorter]
      rw [ih rest.length (hl ▸ shorter) _ rest rfl, whole, prepend_append]
    | hole t inner rest =>
      obtain ⟨shorter, whole⟩ := reads
      simp only [bind, Except.bind, if_pos shorter]
      rw [ih rest.length (hl ▸ shorter) _ rest rfl, whole, prepend_plain]
      rfl

end SourcePreview.Offset
