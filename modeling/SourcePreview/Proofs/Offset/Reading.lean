import SourcePreview.Proofs.Offset.Run

/-! The readings of a text. None breaks off, whatever the text holds, unless a placeholder in it
asks for more decimal places than can be written (`completes_or_overwide`). -/

namespace SourcePreview

def failure? {ε α : Type} : Except ε α → Option ε
  | .error e => some e
  | .ok _ => none

theorem failure?_eq_some_iff {ε α : Type} {x : Except ε α} {e : ε} :
    failure? x = some e ↔ x = .error e := by
  cases x <;> simp [failure?]

theorem failure?_lift {α : Type} (x : Except Overwide α) :
    failure? (Offset.lift x) = (failure? x).map .overwide := by
  cases x <;> rfl

/-- A way to read a text: as an expression, whose value or whose text is asked for, as a template,
or as a source, which is only scanned or also run. -/
inductive Reading where
  | evaluation (env : Environment) (d : Dialect)
  | rendering (env : Environment) (d : Dialect)
  | interpolation (env : Environment) (d : Dialect) (raw : Bool)
  | scan (d : Dialect)
  | run (d : Dialect) (mode : InputMode) (answers : List Text)

namespace Reading

def refusal? (s : Text) : Reading → Option Overwide
  | evaluation env d => failure? (evaluate env d s)
  | rendering env d => failure? (render env d s)
  | interpolation env d raw => failure? (interpolate env d raw s)
  | scan _ => none
  | run d mode answers => ((preview d mode s).replay answers).result.bind failure?

def panic? (s : Text) : Reading → Option Panic
  | evaluation env d => failure? (Offset.evaluate env d s)
  | rendering env d => failure? (Offset.render env d s)
  | interpolation env d raw => failure? (Offset.interpolate env d raw s)
  | scan d => failure? (Offset.scan d s)
  | run d mode answers => ((Offset.preview d mode s).replay answers).result.bind failure?

theorem panic?_eq (r : Reading) (s : Text) : r.panic? s = (r.refusal? s).map .overwide := by
  cases r with
  | evaluation env d =>
    exact (congrArg failure? (Offset.evaluate_eq env d s)).trans (failure?_lift _)
  | rendering env d => exact (congrArg failure? (Offset.render_eq env d s)).trans (failure?_lift _)
  | interpolation env d raw =>
    exact (congrArg failure? (Offset.interpolate_eq env d raw s)).trans (failure?_lift _)
  | scan d => exact congrArg failure? (Offset.scan_eq d s)
  | run d mode answers =>
    rw [panic?, Offset.preview_eq, Dialogue.result_mapResult, refusal?]
    cases ((preview d mode s).replay answers).result with
    | none => rfl
    | some x => exact failure?_lift x

theorem from_of_refusal? {r : Reading} {s : Text} {e : Overwide} (h : r.refusal? s = some e) :
    e.From s := by
  cases r with
  | evaluation env d => exact evaluate_overwide (failure?_eq_some_iff.1 h)
  | rendering env d => exact render_overwide (failure?_eq_some_iff.1 h)
  | interpolation env d raw => exact interpolate_overwide (failure?_eq_some_iff.1 h)
  | scan d => cases h
  | run d mode answers =>
    obtain ⟨x, hx, he⟩ := Option.bind_eq_some_iff.1 h
    exact replay_preview_overwide (hx.trans (congrArg some (failure?_eq_some_iff.1 he)))

/-- A reading goes through, or its text holds the format of `n` decimal places with a number `n` of
64 bits above the limit. -/
theorem completes_or_overwide (r : Reading) (s : Text) :
    (r.refusal? s = none ∧ r.panic? s = none) ∨
      ∃ n, r.refusal? s = some ⟨n⟩ ∧ r.panic? s = some (.overwide ⟨n⟩) ∧ 65536 ≤ n ∧ n < 2 ^ 64 ∧
        Text.AsksPlaces n s := by
  rw [panic?_eq]
  cases h : r.refusal? s with
  | none => exact Or.inl ⟨rfl, rfl⟩
  | some e =>
    have source := from_of_refusal? h
    exact Or.inr ⟨e.places, rfl, rfl, source.wide, source.readable, source.asked⟩

/-- A format may be wide enough. -/
theorem overwide_of_places :
    let s := "n = 2\nprint(f\"(\x7b1 - n:.+65536f\x7d \")".toList
    (run .python .perCall []).panic? s = some (.overwide ⟨65536⟩) ∧ Text.AsksPlaces 65536 s := by
  intro s
  have refused : (run .python .perCall []).refusal? s = some ⟨65536⟩ := by decide +kernel
  rcases completes_or_overwide (run .python .perCall []) s
    with ⟨free, -⟩ | ⟨n, hn, panic, -, -, asked⟩
  · rw [refused] at free
    cases free
  · obtain rfl : 65536 = n := congrArg Overwide.places (Option.some.inj (refused.symm.trans hn))
    exact ⟨panic, asked⟩

end Reading

end SourcePreview
