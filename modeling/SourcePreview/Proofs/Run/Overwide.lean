import SourcePreview.Proofs.Run.Effect
import SourcePreview.Proofs.Statement.Expressions

/-! Where a run breaks off. Each text that it evaluates is an expression of one of its statements
(`replay_play_overwide`, `replay_gather_overwide`), so the format that is refused stands in the
source (`replay_preview_overwide`); no answer can bring one about. -/

namespace SourcePreview

variable {d : Dialect} {env : Environment} {e : Overwide}

theorem exists_mem_of_mapM_overwide {α : Type} {f : Text → Except Overwide α} {xs : List Text}
    (h : xs.mapM f = .error e) :
    ∃ x ∈ xs, f x = .error e := by
  induction xs with
  | nil => cases h
  | cons x xs ih =>
    rw [List.mapM_cons] at h
    rcases error_of_bind h with hx | ⟨_, -, h⟩
    · exact ⟨x, List.mem_cons_self, hx⟩
    · rcases error_of_bind h with hxs | ⟨_, -, h⟩
      · obtain ⟨y, hy, he⟩ := ih hxs
        exact ⟨y, List.mem_cons_of_mem x hy, he⟩
      · cases h

def Print.separatorText (p : Print) (env : Environment) (d : Dialect) : Except Overwide Text :=
  match p.separator with
  | none => .ok [' ']
  | some e => render env d e

def Print.endingText (p : Print) (env : Environment) (d : Dialect) : Except Overwide Text :=
  match p.ending with
  | .newline => .ok ['\n']
  | .nothing => .ok []
  | .expression e => render env d e

theorem Print.text_eq (p : Print) (env : Environment) (d : Dialect) : p.text env d = (do
    let separator ← p.separatorText env d
    let arguments ← p.arguments.mapM (render env d)
    let ending ← p.endingText env d
    .ok (Text.join separator arguments ++ ending)) := by
  unfold Print.text Print.separatorText Print.endingText
  cases p.separator <;> cases p.ending <;> rfl

theorem Print.text_overwide {p : Print} (h : p.text env d = .error e) :
    ∃ x ∈ (Action.print p).expressions, e.From x := by
  rw [Print.text_eq] at h
  unfold Action.expressions
  dsimp only
  rcases error_of_bind h with hs | ⟨_, -, h⟩
  · unfold Print.separatorText at hs
    cases hp : p.separator with
    | none => rw [hp] at hs; cases hs
    | some separator =>
      rw [hp] at hs
      exact ⟨separator, by simp, render_overwide hs⟩
  · rcases error_of_bind h with ha | ⟨_, -, h⟩
    · obtain ⟨x, hx, he⟩ := exists_mem_of_mapM_overwide ha
      exact ⟨x, by simp [hx], render_overwide he⟩
    · rcases error_of_bind h with hn | ⟨_, -, h⟩
      · unfold Print.endingText at hn
        cases hp : p.ending with
        | newline => rw [hp] at hn; cases hn
        | nothing => rw [hp] at hn; cases hn
        | expression ending =>
          rw [hp] at hn
          exact ⟨ending, by simp, render_overwide hn⟩
      · cases h

theorem InputSite.promptText_overwide {site : InputSite} {openLine : Text}
    (h : site.promptText openLine env d = .error e) :
    ∃ x ∈ (Action.input site).expressions, e.From x := by
  unfold promptText at h
  cases hp : site.prompt with
  | none => rw [hp] at h; cases h
  | some prompt =>
    rw [hp] at h
    dsimp only at h
    cases hr : render env d prompt with
    | error e' =>
      rw [hr] at h
      cases h
      exact ⟨prompt, by simp [Action.expressions, hp], render_overwide hr⟩
    | ok text => rw [hr] at h; cases h

theorem assignedValue_overwide {target expr : Text} (h : assignedValue env d expr = .error e) :
    ∃ x ∈ (Action.assign target expr).expressions, e.From x := by
  rcases error_of_bind h with he | ⟨v, -, h⟩
  · exact ⟨expr, List.mem_singleton_self expr, evaluate_overwide he⟩
  · cases v <;> cases h

theorem RunState.effect_overwide {a : Action} {s : RunState} (h : s.effect d a = .error e) :
    ∃ x ∈ a.expressions, e.From x := by
  cases a with
  | print p =>
    rcases error_of_bind h with ht | ⟨text, -, h⟩
    · exact Print.text_overwide ht
    · cases p.stream <;> cases h
  | assign target expr =>
    rcases error_of_bind h with hv | ⟨value, -, h⟩
    · exact assignedValue_overwide hv
    · cases h
  | input site => cases h

def Overwide.FromActions (e : Overwide) (actions : List Action) : Prop :=
  ∃ a ∈ actions, ∃ x ∈ a.expressions, e.From x

theorem Overwide.FromActions.cons {actions : List Action} (h : e.FromActions actions) (a : Action) :
    e.FromActions (a :: actions) := by
  obtain ⟨b, hb, he⟩ := h
  exact ⟨b, List.mem_cons_of_mem a hb, he⟩

namespace RunDialogue

variable {answers : List Text}

theorem replay_perform_overwide {a : Action} {s : RunState} {next : RunState → RunDialogue}
    (h : ((perform d s next a).replay answers).result = some (.error e)) :
    (∃ x ∈ a.expressions, e.From x) ∨
    ∃ s' answers', ((next s').replay answers').result = some (.error e) := by
  cases hs : a.site? with
  | none =>
    rw [perform_of_siteless d s next hs, replay_withEffect] at h
    cases he : s.effect d a with
    | error e' =>
      rw [he] at h
      cases h
      exact Or.inl (RunState.effect_overwide he)
    | ok r =>
      rw [he] at h
      exact Or.inr ⟨r.2, answers, h⟩
  | some site =>
    obtain rfl : a = .input site := by cases a <;> cases hs; rfl
    rw [perform] at h
    cases hp : site.promptText s.openLine s.env d with
    | error e' =>
      rw [hp] at h
      cases h
      exact Or.inl (InputSite.promptText_overwide hp)
    | ok prompt =>
      rw [hp] at h
      right
      have received : ∀ {s : RunState} {answer : Text} {answers : List Text},
          ((receive site prompt answer { s with openLine := [] } next).replay answers).result =
          some (.error e) →
          ∃ s' answers', ((next s').replay answers').result = some (.error e) := by
        intro s answer answers h
        rw [receive_eq, Dialogue.replay_sayAll] at h
        exact ⟨_, answers, h⟩
      rw [withText] at h
      dsimp only at h
      split at h
      · next answer gathered _ => exact received (s := s.withAnswers gathered) h
      · cases answers with
        | nil => cases h
        | cons answer answers => exact received h

theorem replay_play_overwide {statements : List Statement} {s : RunState}
    (h : ((play d s statements).replay answers).result = some (.error e)) :
    e.FromActions (statements.filterMap Statement.action?) := by
  induction statements generalizing s answers with
  | nil =>
    rw [play, replay_finish] at h
    cases h
  | cons statement rest ih =>
    rw [replay_play_cons] at h
    cases ha : statement.action? with
    | none =>
      rw [ha] at h
      rw [List.filterMap_cons_none ha]
      exact ih h
    | some a =>
      rw [ha] at h
      rw [List.filterMap_cons_some ha]
      rcases replay_perform_overwide h with he | ⟨s', answers', h⟩
      · exact ⟨a, List.mem_cons_self, he⟩
      · exact (ih h).cons a

/-- Asking ahead breaks off at the actions it passes, or leaves that to the run. -/
theorem replay_gather_overwide {actions : List Action} {openLine : Text} {gathered : List Text}
    {next : List Text → RunDialogue}
    (h : ((gather d openLine gathered next actions).replay answers).result = some (.error e)) :
    e.FromActions actions ∨ ∃ gathered' answers',
    ((next gathered').replay answers').result = some (.error e) := by
  induction actions generalizing openLine gathered answers with
  | nil => exact Or.inr ⟨gathered, answers, h⟩
  | cons a rest ih =>
    cases a with
    | assign target expr => exact (ih h).imp_left (·.cons _)
    | print p =>
      rw [gather] at h
      split at h
      · exact (ih h).imp_left (·.cons _)
      · cases ht : p.text .empty d with
        | error e' =>
          rw [ht] at h
          cases h
          exact Or.inl ⟨.print p, List.mem_cons_self, Print.text_overwide ht⟩
        | ok text =>
          rw [ht] at h
          exact (ih h).imp_left (·.cons _)
    | input site =>
      rw [gather] at h
      cases hp : site.promptText openLine .empty d with
      | error e' =>
        rw [hp] at h
        cases h
        exact Or.inl ⟨.input site, List.mem_cons_self, InputSite.promptText_overwide hp⟩
      | ok prompt =>
        rw [hp] at h
        cases answers with
        | nil => cases h
        | cons answer answers => exact (ih h).imp_left (·.cons _)

end RunDialogue

theorem Overwide.FromActions.source {source : Text} (h : e.FromActions (actions d source)) :
    e.From source := by
  obtain ⟨a, ha, x, hx, he⟩ := h
  obtain ⟨statement, hs, action⟩ := List.mem_filterMap.1 ha
  exact ⟨d.within_of_mem_statements hs a action x hx e.places he.asked, he.wide, he.readable⟩

/-- A run breaks off only where its source asks for it, whatever it is answered. -/
theorem replay_preview_overwide {mode : InputMode} {source : Text} {answers : List Text}
    (h : ((preview d mode source).replay answers).result = some (.error e)) : e.From source := by
  unfold preview at h
  rw [Dialogue.replay_sayAll] at h
  cases mode with
  | perCall => exact (RunDialogue.replay_play_overwide h).source
  | batch =>
    rcases RunDialogue.replay_gather_overwide h with he | ⟨_, _, h⟩
    · exact he.source
    · exact (RunDialogue.replay_play_overwide h).source

end SourcePreview
