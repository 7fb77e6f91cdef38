import SourcePreview.Proofs.Console.Replay
import SourcePreview.Run

/-! What one action of a run does to its state and which lines it writes, and the reading of a run
in these terms. An action without an input site has an effect of its own; an input site takes the
answer that was gathered for it, or asks. -/

namespace SourcePreview

def Action.site? : Action → Option InputSite
  | .input site => some site
  | _ => none

/-- The input sites of a source text that a run comes to, in order. -/
def inputSites (d : Dialect) (source : Text) : List InputSite :=
  (actions d source).filterMap Action.site?

def Statement.site? (s : Statement) : Option InputSite := s.action?.bind Action.site?

/-- Whether a line pairs a prompt with its answer. -/
def Entry.isEcho (e : Entry) : Bool := e.kind == .inputEcho

namespace RunState

def withAnswers (s : RunState) (answers : List Text) : RunState := { s with answers }

def printed (s : RunState) (stream : Stream) (text : Text) : List Entry × RunState :=
  match stream with
  | .stdout =>
    let (full, rest) := Text.cutLines (s.openLine ++ text)
    (full.map Entry.output, { s with openLine := rest })
  | .stderr =>
    ((Text.splitAll '\n' ((Text.dropLastIf (· == '\n') text).getD text)).map Entry.error, s)

def received (s : RunState) (site : InputSite) (prompt answer : Text) : List Entry × RunState :=
  let s := { s with openLine := [] }
  match Value.coerce answer site.kind with
  | .ok value => ([.echo prompt answer], s.bind site.target value)
  | .error _ =>
    ([.echo prompt answer, .warning (site.invalidText answer)], s.bind site.target site.kind.zero)

def effect (d : Dialect) (s : RunState) : Action → Except Overwide (List Entry × RunState)
  | .print p => (p.text s.env d).map (s.printed p.stream)
  | .assign target expr =>
    (assignedValue s.env d expr).map fun value => ([], s.bind (some target) value)
  | .input _ => .ok ([], s)

variable (d : Dialect) (s : RunState) (answers : List Text)

@[simp] theorem openLine_withAnswers : (s.withAnswers answers).openLine = s.openLine := rfl

@[simp] theorem env_withAnswers : (s.withAnswers answers).env = s.env := rfl

theorem received_withAnswers (site : InputSite) (prompt answer : Text) :
    (s.withAnswers answers).received site prompt answer =
      ((s.received site prompt answer).1,
        (s.received site prompt answer).2.withAnswers answers) := by
  unfold received
  cases Value.coerce answer site.kind <;> cases site.target <;> rfl

theorem effect_withAnswers (a : Action) :
    (s.withAnswers answers).effect d a = (s.effect d a).map fun r =>
    (r.1, r.2.withAnswers answers) := by
  cases a with
  | print p =>
    simp only [effect, withAnswers]
    cases p.text s.env d with
    | error e => rfl
    | ok text => cases h : p.stream <;> rfl
  | assign target expr =>
    simp only [effect, withAnswers]
    cases assignedValue s.env d expr <;> rfl
  | input site => rfl

theorem echoes_effect {a : Action} {r : List Entry × RunState} (h : s.effect d a = .ok r) :
    r.1.filter Entry.isEcho = [] := by
  rw [List.filter_eq_nil_iff]
  cases a with
  | print p =>
    simp only [effect] at h
    cases hp : p.text s.env d with
    | error e => rw [hp] at h; cases h
    | ok text =>
      rw [hp] at h
      cases h
      unfold printed
      cases p.stream <;> simp [Entry.isEcho, Entry.output, Entry.error]
  | assign target expr =>
    simp only [effect] at h
    cases hv : assignedValue s.env d expr with
    | error e => rw [hv] at h; cases h
    | ok value => rw [hv] at h; cases h; simp
  | input site => cases h; simp

theorem echoes_received (site : InputSite) (prompt answer : Text) :
    (s.received site prompt answer).1.filter Entry.isEcho = [.echo prompt answer] := by
  unfold received
  cases Value.coerce answer site.kind <;> rfl

end RunState

namespace RunDialogue

/-- Goes on behind an effect, unless a text of it is overwide. -/
def withEffect (effect : Except Overwide (List Entry × RunState)) (next : RunState → RunDialogue) :
    RunDialogue :=
  match effect with
  | .error e => .done (.error e)
  | .ok (entries, s) => .sayAll entries (next s)

variable (d : Dialect) (s : RunState) (next : RunState → RunDialogue)

theorem receive_eq (site : InputSite) (prompt answer : Text) :
    receive site prompt answer { s with openLine := [] } next =
      .sayAll (s.received site prompt answer).1 (next (s.received site prompt answer).2) := by
  unfold receive RunState.received
  cases Value.coerce answer site.kind <;> rfl

theorem perform_of_siteless {a : Action} (h : a.site? = none) :
    perform d s next a = withEffect (s.effect d a) next := by
  cases a with
  | print p =>
    simp only [perform, RunState.effect]
    cases p.text s.env d with
    | error e => rfl
    | ok text => cases p.stream <;> rfl
  | assign target expr =>
    simp only [perform, RunState.effect]
    cases assignedValue s.env d expr <;> rfl
  | input site => cases h

theorem perform_gathered (site : InputSite) (answer : Text) (answers : List Text) :
    perform d (s.withAnswers (answer :: answers)) next (.input site) =
      withText (site.promptText s.openLine s.env d) fun prompt =>
        let r := s.received site prompt answer
        .sayAll r.1 (next (r.2.withAnswers answers)) := by
  cases hp : site.promptText s.openLine s.env d with
  | error e => simp [perform, RunState.withAnswers, hp, withText]
  | ok prompt =>
    have hr := receive_eq (s.withAnswers answers) next site prompt answer
    rw [RunState.received_withAnswers] at hr
    simpa [perform, RunState.withAnswers, hp, withText] using hr

theorem perform_asked (site : InputSite) (h : s.answers = []) :
    perform d s next (.input site) =
      withText (site.promptText s.openLine s.env d) fun prompt => .ask prompt fun answer =>
        .sayAll (s.received site prompt answer).1 (next (s.received site prompt answer).2) := by
  simp only [perform, h, ← receive_eq]

theorem replay_withEffect (effect : Except Overwide (List Entry × RunState)) (answers : List Text) :
    (withEffect effect next).replay answers =
      match effect with
      | .error e => ⟨[], [], some (.error e)⟩
      | .ok (entries, s) => ((next s).replay answers).write entries := by
  cases effect with
  | error e => rfl
  | ok r => exact Dialogue.replay_sayAll _ _ _

theorem replay_perform_gathered (site : InputSite) (answer : Text) (gathered answers : List Text) :
    (perform d (s.withAnswers (answer :: gathered)) next (.input site)).replay answers =
      match site.promptText s.openLine s.env d with
      | .error e => ⟨[], [], some (.error e)⟩
      | .ok prompt =>
        let r := s.received site prompt answer
        ((next (r.2.withAnswers gathered)).replay answers).write r.1 := by
  rw [perform_gathered]
  cases site.promptText s.openLine s.env d with
  | error e => rfl
  | ok prompt => exact Dialogue.replay_sayAll _ _ _

theorem replay_perform_asked (site : InputSite) (h : s.answers = []) (answer : Text)
    (answers : List Text) :
    (perform d s next (.input site)).replay (answer :: answers) =
      match site.promptText s.openLine s.env d with
      | .error e => ⟨[], [], some (.error e)⟩
      | .ok prompt =>
        let r := s.received site prompt answer
        (((next r.2).replay answers).write r.1).ask [prompt] := by
  rw [perform_asked d s next site h]
  cases site.promptText s.openLine s.env d with
  | error e => rfl
  | ok prompt => exact congrArg (Replay.ask [prompt]) (Dialogue.replay_sayAll _ _ _)

theorem replay_finish (answers : List Text) :
    (finish d s).replay answers =
      ⟨(if s.openLine.isEmpty then [] else [.output s.openLine]) ++ [.info d.completion], [],
        some (.ok ())⟩ := by
  unfold finish
  rw [Dialogue.replay_sayAll]
  simp [Dialogue.replay, Replay.write]

theorem replay_play_cons (statement : Statement) (rest : List Statement) (answers : List Text) :
    (play d s (statement :: rest)).replay answers =
      match statement.action? with
      | none => (play d s rest).replay answers
      | some a => (perform d s (fun s => play d s rest) a).replay answers := by
  simp only [play, Dialogue.replay]
  cases statement.action? <;> rfl

end RunDialogue

end SourcePreview
