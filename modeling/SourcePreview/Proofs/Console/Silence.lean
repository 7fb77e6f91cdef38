import SourcePreview.Proofs.Console.Replay

/-! Dialogues that leave the stop marker to others, and how far a poll brings one. From a console
where nothing is pending it comes to a question of its own, which is then all that is pending, or to
its result; it is never refused (`advance_orderly`, `advance_asked`). -/

namespace SourcePreview

variable {α : Type}

namespace Transcript

/-- A transcript that can be written and does not hold the stop marker. -/
structure Unmarked (t : Transcript) : Prop where
  writable : t.stopped = false
  absent : Entry.stopMarker ∉ t.entries

/-- A transcript that holds the stop marker exactly if it is stopped, and then as its last line. -/
structure Marked (t : Transcript) : Prop where
  stopped_iff : t.stopped = true ↔ Entry.stopMarker ∈ t.entries
  last : Entry.stopMarker ∉ t.entries.dropLast

variable {t : Transcript}

theorem unmarked_empty : empty.Unmarked := ⟨rfl, by simp [empty]⟩

theorem unmarked_clear (t : Transcript) : t.clear.Unmarked := ⟨rfl, by simp [clear]⟩

theorem Unmarked.push (h : t.Unmarked) {e : Entry} (he : e ≠ .stopMarker) :
    (t.push e).Unmarked := by
  constructor
  · rw [stopped_push, h.writable]
  · rw [entries_push_of_not_stopped h.writable, List.mem_append, List.mem_singleton]
    rintro (hm | hm)
    · exact h.absent hm
    · exact he hm.symm

theorem Unmarked.marked (h : t.Unmarked) : t.Marked := by
  refine ⟨⟨fun hs => ?_, fun hm => absurd hm h.absent⟩,
    fun hm => h.absent ((List.dropLast_sublist _).subset hm)⟩
  rw [h.writable] at hs
  cases hs

theorem Unmarked.entries_markStopped (h : t.Unmarked) :
    t.markStopped.entries = t.entries ++ [.stopMarker] := by
  simp [markStopped, h.writable, append]

theorem Unmarked.markStopped (h : t.Unmarked) : t.markStopped.Marked := by
  refine ⟨?_, ?_⟩
  · rw [stopped_markStopped, h.entries_markStopped]
    simp
  · rw [h.entries_markStopped, List.dropLast_concat]
    exact h.absent

theorem Marked.unmarked (h : t.Marked) (hs : t.stopped = false) : t.Unmarked := by
  refine ⟨hs, fun hm => ?_⟩
  rw [h.stopped_iff.2 hm] at hs
  cases hs

theorem markStopped_of_stopped (h : t.stopped = true) : t.markStopped = t := by
  simp [Transcript.markStopped, h]

theorem Marked.markStopped (h : t.Marked) : t.markStopped.Marked := by
  cases hs : t.stopped with
  | true => rwa [markStopped_of_stopped hs]
  | false => exact (h.unmarked hs).markStopped

theorem Marked.eq_nil_of_append (h : t.Marked) {xs ys : List Entry}
    (he : t.entries = xs ++ .stopMarker :: ys) :
    ys = [] ∧ Entry.stopMarker ∉ xs := by
  have hl := h.last
  rw [he] at hl
  rcases List.eq_nil_or_concat ys with rfl | ⟨ys, e, rfl⟩
  · rw [List.dropLast_concat] at hl
    exact ⟨rfl, hl⟩
  · refine absurd ?_ hl
    rw [List.concat_eq_append, ← List.cons_append, ← List.append_assoc, List.dropLast_concat]
    simp

end Transcript

def Dialogue.Silent : Dialogue α → Prop
  | .done _ => True
  | .say e next => e ≠ .stopMarker ∧ next.Silent
  | .send _ next => next.Silent
  | .check next => next.Silent
  | .ask _ next => ∀ answer, (next answer).Silent

theorem Dialogue.silent_sayAll {entries : List Entry} {next : Dialogue α}
    (he : ∀ e ∈ entries, e ≠ .stopMarker) (hn : next.Silent) : (sayAll entries next).Silent := by
  induction entries with
  | nil => exact hn
  | cons e es ih =>
    rw [List.forall_mem_cons] at he
    exact ⟨he.1, ih he.2⟩

namespace Console

/-- A console where nothing is pending and no marker was written. -/
structure Quiet (c : Console) : Prop where
  idle : c.input.pending = none
  sound : c.input.Sound
  unmarked : c.transcript.Unmarked

/-- A console where nothing but the request of a ticket is pending, and no marker was written. -/
structure Attends (c : Console) (ticket : Ticket) : Prop where
  sound : c.input.Sound
  unmarked : c.transcript.Unmarked
  only : ∀ r, c.input.pending = some r → r.ticket = ticket

variable {c : Console} {ticket : Ticket}

theorem Quiet.push (h : c.Quiet) {e : Entry} (he : e ≠ .stopMarker) : (c.push e).Quiet :=
  ⟨h.idle, h.sound, h.unmarked.push he⟩

theorem Quiet.cancelInput (h : c.Quiet) : c.cancelInput.Quiet :=
  ⟨Coordinator.pending_cancel _, h.sound.cancel, h.unmarked⟩

theorem Attends.cancelInput (h : c.Attends ticket) : c.cancelInput.Attends ticket := by
  refine ⟨h.sound.cancel, h.unmarked, fun r hr => ?_⟩
  rw [Console.cancelInput, Coordinator.pending_cancel] at hr
  cases hr

theorem Quiet.submit (h : c.Quiet) (text : Text) :
    Quiet { c with input := (c.input.submit text).2 } := by
  rcases c.input.submit_cases text with he | ⟨r, hr, -⟩
  · rw [he]
    exact h
  · rw [h.idle] at hr
    cases hr

theorem Attends.submit (h : c.Attends ticket) (text : Text) :
    Attends { c with input := (c.input.submit text).2 } ticket := by
  refine ⟨h.sound.submit text, h.unmarked, fun r hr => ?_⟩
  rcases c.input.submit_cases text with he | ⟨r', -, he⟩
  · rw [he] at hr
    exact h.only r hr
  · rw [he] at hr
    cases hr

theorem Attends.abandon (h : c.Attends ticket) (hp : c.input.pending = none) :
    (c.abandon ticket).Quiet :=
  ⟨by rw [Console.abandon, Coordinator.abandon, hp]; rfl, h.sound.abandon ticket, h.unmarked⟩

theorem Attends.idle_of_answer? (h : c.Attends ticket) {answer : Text}
    (ha : c.input.answer? ticket = some answer) :
    c.input.pending = none := by
  cases hp : c.input.pending with
  | none => rfl
  | some r => exact absurd (h.only r hp) (h.sound.ticket_ne ha hp)

end Console

/-- Where a poll may leave a dialogue: at its result with nothing pending, or at a question of its
own. -/
inductive Stand.Orderly : Stand α → Prop where
  | result {c : Console} {sent : Text} {a : α} (quiet : c.Quiet) :
    Orderly ⟨c, sent, .settled (.result a)⟩
  | question {c : Console} {sent : Text} {ticket : Ticket} {next : Text → Dialogue α}
      (attends : c.Attends ticket) (silent : ∀ answer, (next answer).Silent) :
    Orderly ⟨c, sent, .moved (.asked ticket next)⟩

theorem Dialogue.advance_orderly {d : Dialogue α} (hd : d.Silent) {c : Console} (hc : c.Quiet)
    (sent : Text) :
    (d.advance false c sent).Orderly := by
  induction d generalizing c sent with
  | done a => exact .result hc
  | say e next ih => exact ih hd.2 (hc.push hd.1) sent
  | send text next ih => exact ih hd hc _
  | check next ih => exact ih hd hc sent
  | ask prompt next ih =>
    have hr := Coordinator.request_of_idle hc.idle prompt
    simp only [advance, Bool.false_eq_true, if_false, hr]
    refine .question ⟨hc.sound.awaiting prompt, hc.unmarked, ?_⟩ hd
    rintro r ⟨⟩
    rfl

/-- A dialogue that waits for its answer waits on, or goes on when the answer is there. -/
theorem Talk.advance_asked {c : Console} {ticket : Ticket} {next : Text → Dialogue α}
    (hc : c.Attends ticket) (hn : ∀ answer, (next answer).Silent) (sent : Text) :
    (asked ticket next).advance false c sent = ⟨c, sent, .waiting⟩ ∨
    ((asked ticket next).advance false c sent).Orderly := by
  cases ha : c.input.answer? ticket with
  | none => exact Or.inl (by simp [advance, ha])
  | some answer =>
    right
    simp only [advance, Bool.false_eq_true, if_false, ha]
    exact Dialogue.advance_orderly (hn answer) (hc.abandon (hc.idle_of_answer? ha)) sent

end SourcePreview
