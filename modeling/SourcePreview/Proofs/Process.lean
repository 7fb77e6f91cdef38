import SourcePreview.Process
import SourcePreview.Proofs.Run.Silence

/-! A process never writes the stop marker: what it prints are output and error lines, and what it
asks is echoed. -/

namespace SourcePreview

namespace Dialogue

variable {α β : Type} {d : Dialogue α}

theorem silent_bind {f : α → Dialogue β} (h : d.Silent) (hf : ∀ a, (f a).Silent) :
    (d.bind f).Silent := by
  induction d with
  | done a => exact hf a
  | say e next ih => exact ⟨h.1, ih h.2⟩
  | send text next ih => exact ih h
  | check next ih => exact ih h
  | ask prompt next ih => exact fun answer => ih answer (h answer)

theorem silent_cap (h : d.Silent) (a : α) (room : Nat) : (d.cap a room).Silent := by
  induction d generalizing room with
  | done a => trivial
  | say e next ih => exact ⟨h.1, ih h.2 room⟩
  | send text next ih =>
    cases room with
    | zero => trivial
    | succ room => exact ih h room
  | check next ih => exact ih h room
  | ask prompt next ih => exact fun answer => ih answer (h answer) room

end Dialogue

namespace Bridge

theorem silent_forwardErrors (errors : List (Option Text)) : (forwardErrors errors).Silent := by
  induction errors with
  | nil => trivial
  | cons line errors ih =>
    cases line with
    | none => trivial
    | some line => exact ⟨Entry.error_ne_stopMarker line, ih⟩

theorem silent_forward (errors output : List (Option Text)) : (forward errors output).Silent := by
  induction output with
  | nil => exact silent_forwardErrors errors
  | cons line output ih =>
    cases line with
    | none => trivial
    | some line =>
      have echo : ∀ prompt answer, Entry.echo prompt answer ≠ .stopMarker :=
        fun prompt answer => Entry.ne_stopMarker_of_kind fun hk => nomatch hk
      rw [forward, Dialogue.Silent]
      split
      · next text _ => exact ⟨Entry.ne_stopMarker_of_kind (fun hk => nomatch hk), ih⟩
      · trivial
      · exact fun answer => ⟨echo _ answer, ih⟩

end Bridge

namespace Process

variable (p : Process) (source : Text)

theorem silent_exchange : (p.exchange source).Silent := by
  refine Dialogue.silent_bind (Bridge.silent_forward _ _) fun result => ?_
  cases result with
  | error e => trivial
  | ok u => trivial

theorem silent_dialogue : (p.dialogue source).Silent := by
  rw [dialogue]
  cases p.takes with
  | none => exact p.silent_exchange source
  | some room => exact Dialogue.silent_cap (p.silent_exchange source) _ room

end Process

end SourcePreview
