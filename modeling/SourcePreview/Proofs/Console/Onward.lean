import SourcePreview.Proofs.Console.Replay

/-! What a dialogue does on a console where nothing is pending: it writes lines, which all listeners
are sent, and comes to its result or to a question of its own (`advance_onward`). -/

namespace SourcePreview

variable {α : Type}

structure Transcript.Wrote (t : Transcript) (lines : List Entry) (t' : Transcript) : Prop where
  entries : t'.entries = t.entries ++ lines
  sent : t'.sent = t.sent ++ lines

namespace Transcript.Wrote

variable {t t' t'' : Transcript} {lines lines' : List Entry}

theorem refl (t : Transcript) : t.Wrote [] t := ⟨(List.append_nil _).symm, (List.append_nil _).symm⟩

theorem trans (h : t.Wrote lines t') (h' : t'.Wrote lines' t'') :
    t.Wrote (lines ++ lines') t'' := by
  refine ⟨?_, ?_⟩
  · rw [h'.entries, h.entries, List.append_assoc]
  · rw [h'.sent, h.sent, List.append_assoc]

theorem push (writable : t.stopped = false) (e : Entry) : t.Wrote [e] (t.push e) := by
  rw [Transcript.push, if_neg (Bool.eq_false_iff.1 writable)]
  exact ⟨rfl, rfl⟩

theorem markStopped (writable : t.stopped = false) : t.Wrote [.stopMarker] t.markStopped := by
  rw [Transcript.markStopped, if_neg (Bool.eq_false_iff.1 writable)]
  exact ⟨rfl, rfl⟩

end Transcript.Wrote

theorem Transcript.heardSince_of_le {t : Transcript} {n : Nat} (h : t.sent.length - n ≤ window) :
    t.heardSince n = (0, t.sent.drop n) := by
  have none : t.sent.length - n - window = 0 := Nat.sub_eq_zero_of_le h
  simp only [heardSince, List.length_drop, none, List.drop_zero]

/-- Where a dialogue may stand behind a poll that began with nothing pending. -/
inductive Stand.Onward (c : Console) : Stand α → Prop where
  | result {t : Transcript} {lines : List Entry} {sent : Text} (a : α)
      (wrote : c.transcript.Wrote lines t) (writable : t.stopped = false) :
    Onward c ⟨⟨t, c.input⟩, sent, .settled (.result a)⟩
  | question {t : Transcript} {lines : List Entry} {sent : Text} (prompt : Text)
      (next : Text → Dialogue α) (wrote : c.transcript.Wrote lines t)
      (writable : t.stopped = false) :
    Onward c ⟨⟨t, c.input.awaiting prompt⟩, sent, .moved (.asked c.input.fresh next)⟩

theorem Stand.Onward.behind {c : Console} {t : Transcript} {lines : List Entry} {stand : Stand α}
    (h : Stand.Onward ⟨t, c.input⟩ stand) (wrote : c.transcript.Wrote lines t) :
    Stand.Onward c stand := by
  cases h with
  | result a more writable => exact .result a (wrote.trans more) writable
  | question prompt next more writable => exact .question prompt next (wrote.trans more) writable

theorem Dialogue.advance_onward (d : Dialogue α) {c : Console} (hc : c.Free) (sent : Text) :
    (d.advance false c sent).Onward c := by
  induction d generalizing c sent with
  | done a => exact .result a (.refl _) hc.writable
  | say e next ih =>
    have rest := ih (hc.push e) sent
    exact rest.behind (.push hc.writable e)
  | send text next ih => exact ih hc _
  | check next ih => exact ih hc sent
  | ask prompt next ih =>
    have hr := Coordinator.request_of_idle hc.idle prompt
    simp only [advance, Bool.false_eq_true, if_false, hr]
    exact .question prompt next (.refl _) hc.writable

end SourcePreview
