import SourcePreview.Bridge
import SourcePreview.Proofs.Text.Breaks

/-! The lines of a stream of bytes. Where the bytes are a text in UTF-8, the line feeds among them
are those of the text, so the lines of the stream are the lines of the text (`linesOf_utf8`). -/

namespace SourcePreview

def Text.utf8 (s : Text) : List UInt8 := s.flatMap String.utf8EncodeChar

theorem Text.utf8_cons (c : Char) (s : Text) :
    Text.utf8 (c :: s) = String.utf8EncodeChar c ++ Text.utf8 s := rfl

namespace Bridge

open linesOf (cut decode)

theorem decode_utf8 (s : Text) : decode s.utf8 = some s := by
  have bytes : (⟨s.utf8.toArray⟩ : ByteArray) = (String.ofList s).toByteArray := by
    rw [String.toByteArray_ofList, List.utf8Encode]
    exact ByteArray.ext List.data_toByteArray.symm
  rw [decode, bytes, String.fromUTF8?, dif_pos (String.ofList s).isValidUTF8, Option.map_some]
  exact congrArg some String.toList_ofList

theorem newline_not_mem_utf8EncodeChar {c : Char} (h : c ≠ '\n') :
    10 ∉ String.utf8EncodeChar c := by
  have hc : c.val.toNat ≠ 10 := by
    intro hn
    exact h (Char.ext (UInt32.toNat_inj.1 hn))
  have apart : ∀ n : Nat, n < 256 → n ≠ 10 → (10 : UInt8) ≠ UInt8.ofNat n := by
    intro n hl hn he
    have := congrArg UInt8.toNat he
    rw [UInt8.toNat_ofNat_of_lt' hl] at this
    exact hn this.symm
  unfold String.utf8EncodeChar
  dsimp only
  split
  · simp only [List.mem_singleton]
    exact apart _ (by omega) hc
  -- the bytes of a longer character have their high bit set
  · split
    · simp only [List.mem_cons, List.not_mem_nil, or_false, not_or]
      exact ⟨apart _ (by omega) (by omega), apart _ (by omega) (by omega)⟩
    · split
      · simp only [List.mem_cons, List.not_mem_nil, or_false, not_or]
        exact ⟨apart _ (by omega) (by omega), apart _ (by omega) (by omega),
          apart _ (by omega) (by omega)⟩
      · simp only [List.mem_cons, List.not_mem_nil, or_false, not_or]
        exact ⟨apart _ (by omega) (by omega), apart _ (by omega) (by omega),
          apart _ (by omega) (by omega), apart _ (by omega) (by omega)⟩

theorem cut_append {bytes : List UInt8} (h : 10 ∉ bytes) (stream : List UInt8) :
    cut (bytes ++ stream) =
      match cut stream with
      | ([], rest) => ([], bytes ++ rest)
      | (piece :: pieces, rest) => ((bytes ++ piece) :: pieces, rest) := by
  induction bytes with
  | nil =>
    rw [List.nil_append]
    split <;> next he => simp [he]
  | cons b bytes ih =>
    rw [List.mem_cons, not_or] at h
    have hb : (b == 10) = false := by simpa using Ne.symm h.1
    rw [List.cons_append, cut, ih h.2]
    rcases cut stream with ⟨_ | ⟨piece, pieces⟩, rest⟩ <;> simp [hb]

theorem cut_utf8 (s : Text) :
    cut s.utf8 = ((Text.cutLines s).1.map Text.utf8, Text.utf8 (Text.cutLines s).2) := by
  induction s with
  | nil => rfl
  | cons c s ih =>
    by_cases hc : c = '\n'
    · subst hc
      have newline : String.utf8EncodeChar '\n' = [10] := by decide
      rw [Text.utf8_cons, newline, List.singleton_append, cut, ih]
      rfl
    · have hb : (c == '\n') = false := by simpa using hc
      rw [Text.utf8_cons, cut_append (newline_not_mem_utf8EncodeChar hc), ih, Text.cutLines]
      rcases Text.cutLines s with ⟨_ | ⟨line, lines⟩, rest⟩
      · simp only [hb, Bool.false_eq_true, if_false]
        rfl
      · simp only [hb, Bool.false_eq_true, if_false]
        rfl

theorem utf8_eq_nil_iff (s : Text) : s.utf8 = [] ↔ s = [] := by
  cases s with
  | nil => exact iff_of_true rfl rfl
  | cons c s =>
    refine iff_of_false ?_ (List.cons_ne_nil c s)
    intro h
    rw [Text.utf8_cons, List.append_eq_nil_iff] at h
    exact String.utf8EncodeChar_ne_nil h.1

/-- The lines of a text in UTF-8 are those of the text. -/
theorem linesOf_utf8 (s : Text) : linesOf s.utf8 = (Text.lines s).map some := by
  have full : ∀ lines : List Text,
      (lines.map Text.utf8).map (fun line => (decode line).map Text.dropReturn) =
        (lines.map Text.dropReturn).map some := by
    intro lines
    rw [List.map_map, List.map_map]
    apply List.map_congr_left
    intro line _
    rw [Function.comp_apply, decode_utf8, Option.map_some, Function.comp_apply]
  rw [linesOf, Text.lines, cut_utf8]
  dsimp only
  rw [full, List.map_append]
  congr 1
  by_cases hr : (Text.cutLines s).2 = []
  · rw [hr]
    rfl
  · have hu : (Text.utf8 (Text.cutLines s).2).isEmpty = false := by
      rw [List.isEmpty_eq_false_iff, ne_eq, utf8_eq_nil_iff]
      exact hr
    rw [hu, List.isEmpty_eq_false_iff.2 hr, decode_utf8]
    rfl

end Bridge
end SourcePreview
