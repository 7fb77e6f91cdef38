import Mathlib.Data.List.Forall2
import SourcePreview.Proofs.Run.Effect

/-! Asking for all answers ahead makes no difference to a transcript. A run that finds an answer
gathered ahead does what it does with the answer to a question (`replay_play_withAnswers`), and
gathering asks once for each input site (`replay_gather`); so with one response for each site both
modes complete with the same lines. -/

namespace SourcePreview

def InputSite.Prompts (d : Dialect) (site : InputSite) (prompt : Text) : Prop :=
  ∃ openLine env, site.promptText openLine env d = .ok prompt

/-- A reading that an overwide format breaks off. -/
def Replay.Broken (r : Replay (Except Overwide Unit)) : Prop := ∃ e, r.result = some (.error e)

namespace RunDialogue

variable (d : Dialect)

/-- Answers that were gathered ahead are used like answers to questions, which are then not
asked. -/
theorem replay_play_withAnswers (statements : List Statement) (s : RunState)
    (gathered answers : List Text) :
    let ahead := (play d (s.withAnswers gathered) statements).replay answers
    let asked := (play d (s.withAnswers []) statements).replay (gathered ++ answers)
    ahead.entries = asked.entries ∧ ahead.result = asked.result ∧
      ahead.prompts = asked.prompts.drop gathered.length := by
  -- the gathered answers are used up from the front, so they vary with the state
  induction statements generalizing s gathered answers with
  | nil => simp [play, replay_finish]
  | cons statement rest ih =>
    dsimp only at ih ⊢
    rw [replay_play_cons, replay_play_cons]
    cases ha : statement.action? with
    | none => exact ih s gathered answers
    | some a =>
      dsimp only
      cases hs : a.site? with
      | none =>
        rw [perform_of_siteless d _ _ hs, perform_of_siteless d _ _ hs, replay_withEffect,
          replay_withEffect, s.effect_withAnswers, s.effect_withAnswers]
        cases s.effect d a with
        | error e => exact ⟨rfl, rfl, List.drop_nil.symm⟩
        | ok r =>
          obtain ⟨h1, h2, h3⟩ := ih r.2 gathered answers
          exact ⟨congrArg (r.1 ++ ·) h1, h2, h3⟩
      | some site =>
        obtain rfl : a = .input site := by cases a <;> cases hs; rfl
        cases gathered with
        | nil => exact ⟨rfl, rfl, rfl⟩
        | cons answer gathered =>
          rw [replay_perform_gathered, List.cons_append, replay_perform_asked d _ _ site rfl]
          simp only [RunState.openLine_withAnswers, RunState.env_withAnswers,
            RunState.received_withAnswers]
          cases site.promptText s.openLine s.env d with
          | error e => exact ⟨rfl, rfl, rfl⟩
          | ok prompt =>
            obtain ⟨h1, h2, h3⟩ := ih (s.received site prompt answer).2 gathered answers
            exact ⟨congrArg ((s.received site prompt answer).1 ++ ·) h1, h2, h3⟩

theorem replay_play_asking (statements : List Statement) (s : RunState) (answers : List Text)
    (h : answers.length = (statements.filterMap Statement.site?).length) :
    let r := (play d (s.withAnswers []) statements).replay answers
    r.Broken ∨ r.result = some (.ok ()) ∧
      List.Forall₂ (InputSite.Prompts d) (statements.filterMap Statement.site?) r.prompts ∧
      r.entries.filter Entry.isEcho = List.zipWith Entry.echo r.prompts answers := by
  induction statements generalizing s answers with
  | nil =>
    right
    rw [play, replay_finish]
    refine ⟨rfl, .nil, ?_⟩
    rw [RunState.openLine_withAnswers]
    cases s.openLine <;> rfl
  | cons statement rest ih =>
    dsimp only at ih ⊢
    rw [replay_play_cons]
    cases ha : statement.action? with
    | none =>
      have hs : statement.site? = none := by simp [Statement.site?, ha]
      simp only [List.filterMap_cons, hs] at h ⊢
      exact ih s answers h
    | some a =>
      cases hs : a.site? with
      | none =>
        have hs' : statement.site? = none := by simp [Statement.site?, ha, hs]
        simp only [List.filterMap_cons, hs'] at h ⊢
        rw [perform_of_siteless d _ _ hs, replay_withEffect, s.effect_withAnswers]
        cases hr : s.effect d a with
        | error e => exact Or.inl ⟨e, rfl⟩
        | ok r =>
          rcases ih r.2 answers h with hb | ⟨h1, h2, h3⟩
          · exact Or.inl hb
          · refine Or.inr ⟨h1, h2, ?_⟩
            simpa [Except.map, Replay.write, RunState.echoes_effect d s hr] using h3
      | some site =>
        obtain rfl : a = .input site := by cases a <;> cases hs; rfl
        have hs' : statement.site? = some site := by simp [Statement.site?, ha, hs]
        simp only [List.filterMap_cons, hs'] at h ⊢
        obtain ⟨answer, answers, rfl⟩ := List.exists_cons_of_length_eq_add_one h
        rw [replay_perform_asked d _ _ site rfl]
        simp only [RunState.openLine_withAnswers, RunState.env_withAnswers,
          RunState.received_withAnswers]
        cases hp : site.promptText s.openLine s.env d with
        | error e => exact Or.inl ⟨e, rfl⟩
        | ok prompt =>
          rcases ih (s.received site prompt answer).2 answers (by simpa using h)
            with hb | ⟨h1, h2, h3⟩
          · exact Or.inl hb
          · refine Or.inr ⟨h1, .cons ⟨_, _, hp⟩ h2, ?_⟩
            simpa [Replay.ask, Replay.write, RunState.echoes_received] using h3

/-- Gathering asks once for each input site, in order, and goes on with the answers. -/
theorem replay_gather (actions : List Action) (openLine : Text) (gathered answers : List Text)
    (next : List Text → RunDialogue)
    (h : answers.length = (actions.filterMap Action.site?).length) :
    let r := (gather d openLine gathered next actions).replay answers
    r.Broken ∨ ∃ prompts,
      List.Forall₂ (InputSite.Prompts d) (actions.filterMap Action.site?) prompts ∧
      r = ((next (gathered ++ answers)).replay []).ask prompts := by
  induction actions generalizing openLine gathered answers with
  | nil =>
    obtain rfl : answers = [] := List.eq_nil_of_length_eq_zero h
    exact Or.inr ⟨[], .nil, by simp [gather, Replay.ask]⟩
  | cons a rest ih =>
    dsimp only at ih ⊢
    cases a with
    | assign target expr => exact ih openLine gathered answers h
    | print p =>
      rw [gather]
      cases p.stream with
      | stderr => exact ih openLine gathered answers h
      | stdout =>
        cases p.text .empty d with
        | error e => exact Or.inl ⟨e, rfl⟩
        | ok text => exact ih _ gathered answers h
    | input site =>
      obtain ⟨answer, answers, rfl⟩ := List.exists_cons_of_length_eq_add_one h
      rw [gather]
      cases hp : site.promptText openLine .empty d with
      | error e => exact Or.inl ⟨e, rfl⟩
      | ok prompt =>
        rcases ih [] (gathered ++ [answer]) answers (by simpa [Action.site?] using h)
          with hb | ⟨prompts, hf, hr⟩
        · exact Or.inl hb
        · refine Or.inr ⟨prompt :: prompts, .cons ⟨_, _, hp⟩ hf, ?_⟩
          rw [List.append_assoc] at hr
          exact congrArg (Replay.ask [prompt]) hr

end RunDialogue

section

variable (d : Dialect) (source : Text) (answers : List Text)

theorem replay_perCall :
    (preview d .perCall source).replay answers =
      ((RunDialogue.play d (.start []) (d.statements none (Text.lines source))).replay
          answers).write
        (d.preamble.map Entry.info) :=
  Dialogue.replay_sayAll _ _ _

theorem replay_batch :
    (preview d .batch source).replay answers =
      ((RunDialogue.gather d [] []
        (fun answers => RunDialogue.play d (.start answers) (d.statements none (Text.lines source)))
        (actions d source)).replay answers).write (d.preamble.map Entry.info) :=
  Dialogue.replay_sayAll _ _ _

theorem inputSites_eq :
    inputSites d source = (d.statements none (Text.lines source)).filterMap Statement.site? := by
  unfold inputSites actions
  rw [List.filterMap_filterMap]
  rfl

theorem echoes_preamble : (d.preamble.map Entry.info).filter Entry.isEcho = [] := by
  cases d <;> rfl

theorem replay_perCall_asking (h : answers.length = (inputSites d source).length) :
    let r := (preview d .perCall source).replay answers
    r.Broken ∨ r.result = some (.ok ()) ∧
      List.Forall₂ (InputSite.Prompts d) (inputSites d source) r.prompts ∧
      r.entries.filter Entry.isEcho = List.zipWith Entry.echo r.prompts answers := by
  rw [replay_perCall]
  rw [inputSites_eq] at h ⊢
  rcases RunDialogue.replay_play_asking d _ (.start []) answers h with hb | ⟨h1, h2, h3⟩
  · exact Or.inl hb
  · refine Or.inr ⟨h1, h2, ?_⟩
    rw [Replay.write, List.filter_append, echoes_preamble]
    exact h3

theorem replay_batch_gathering (h : answers.length = (inputSites d source).length) :
    let perCall := (preview d .perCall source).replay answers
    let batch := (preview d .batch source).replay answers
    batch.Broken ∨ perCall.Broken ∨ batch.result = perCall.result ∧
      batch.entries = perCall.entries ∧
      List.Forall₂ (InputSite.Prompts d) (inputSites d source) batch.prompts := by
  have asked := replay_perCall_asking d source answers h
  dsimp only at asked ⊢
  rw [replay_batch]
  rcases RunDialogue.replay_gather d (actions d source) [] [] answers
    (fun answers => RunDialogue.play d (.start answers) (d.statements none (Text.lines source))) h
    with hb | ⟨prompts, hf, hr⟩
  · exact Or.inl hb
  rcases asked with hb | ⟨-, h2, -⟩
  · exact Or.inr (Or.inl hb)
  right; right
  rw [hr]
  rw [replay_perCall] at h2 ⊢
  obtain ⟨h3, h4, h5⟩ :=
    RunDialogue.replay_play_withAnswers d (d.statements none (Text.lines source)) (.start [])
      answers []
  rw [List.append_nil] at h3 h4 h5
  refine ⟨h4, congrArg (d.preamble.map Entry.info ++ ·) h3, ?_⟩
  -- every prompt was requested ahead, none is left for the statements
  have none : ((RunDialogue.play d (.start answers) (d.statements none (Text.lines source))).replay
      []).prompts = [] := by
    refine h5.trans (List.drop_eq_nil_of_le ?_)
    rw [h, h2.length_eq]
    exact Nat.le_refl _
  change List.Forall₂ _ _ (prompts ++ ((RunDialogue.play d (.start answers) _).replay []).prompts)
  rw [none, List.append_nil]
  exact hf

end

/-- The course of a run over a console of its own, its requests resolved one by one. -/
def course (d : Dialect) (mode : InputMode) (source : Text) (responses : List Response) :
    Course (Except Overwide Unit) :=
  (Talk.ready (preview d mode source)).converse .empty responses

theorem course_follows (d : Dialect) (mode : InputMode) (source : Text)
    (responses : List Response) :
    (course d mode source responses).Follows .empty
    ((preview d mode source).replay (responses.map Response.answer)) :=
  Talk.converse_ready _ _ Console.free_empty

/-- No overwide format broke the run off. -/
def Course.Unbroken (c : Course (Except Overwide Unit)) : Prop :=
  ∀ e, c.ending ≠ some (.result (.error e))

instance : DecidablePred Course.Unbroken := fun c =>
  match h : c.ending with
  | some (.result (.error e)) => isFalse fun hu => hu e h
  | some (.result (.ok ())) => isTrue fun e he => by rw [h] at he; cases he
  | some .cancelled => isTrue fun e he => by rw [h] at he; cases he
  | some (.refused _) => isTrue fun e he => by rw [h] at he; cases he
  | none => isTrue fun e he => by rw [h] at he; cases he

theorem Course.Follows.not_broken {c : Course (Except Overwide Unit)} {start : Console}
    {r : Replay (Except Overwide Unit)} (h : c.Follows start r) (hu : c.Unbroken) : ¬ r.Broken := by
  rintro ⟨e, he⟩
  exact hu e (by rw [h.ending, he]; rfl)

/-- With one response for each input site, a run that asks as it comes to each site and a run that
asks ahead both complete, ask once for each site in order, and leave the same lines; the echoes
among them are those of the questions. -/
theorem batch_agrees_with_perCall (d : Dialect) (source : Text) (responses : List Response)
    (oneEach : responses.length = (inputSites d source).length)
    (perCallUnbroken : (course d .perCall source responses).Unbroken)
    (batchUnbroken : (course d .batch source responses).Unbroken) :
    let perCall := course d .perCall source responses
    let batch := course d .batch source responses
    (perCall.ending = some (.result (.ok ())) ∧ batch.ending = some (.result (.ok ()))) ∧
      List.Forall₂ (InputSite.Prompts d) (inputSites d source) perCall.prompts ∧
      List.Forall₂ (InputSite.Prompts d) (inputSites d source) batch.prompts ∧
      perCall.console.transcript.entries = batch.console.transcript.entries ∧
      perCall.console.transcript.entries.filter Entry.isEcho =
        List.zipWith Entry.echo perCall.prompts (responses.map Response.answer) := by
  have hp := course_follows d .perCall source responses
  have hb := course_follows d .batch source responses
  have hl : (responses.map Response.answer).length = (inputSites d source).length := by
    rw [List.length_map, oneEach]
  have notPerCall := hp.not_broken perCallUnbroken
  have notBatch := hb.not_broken batchUnbroken
  obtain ⟨h1, h2, h3⟩ := (replay_perCall_asking d source _ hl).resolve_left notPerCall
  obtain ⟨h4, h5, h6⟩ :=
    ((replay_batch_gathering d source _ hl).resolve_left notBatch).resolve_left notPerCall
  refine ⟨⟨?_, ?_⟩, ?_, ?_, ?_, ?_⟩
  · rw [hp.ending, h1]; rfl
  · rw [hb.ending, h4, h1]; rfl
  · rw [hp.prompts]; exact h2
  · rw [hb.prompts]; exact h6
  · rw [hp.entries, hb.entries, h5]
  · rw [hp.entries, hp.prompts]; exact h3

/-- The second prompt is a variable that only the run knows when it comes to it, and its answer is
no number. -/
theorem batch_agrees_with_perCall_of_two :
    let source := "name = input(\"Name? \")\nage = int(input(name))\nprint(age)".toList
    let responses := [.submission " Ada ".toList (by decide), .submission "x".toList (by decide)]
    (course .python .perCall source responses).Unbroken ∧
      (course .python .batch source responses).Unbroken ∧
      (course .python .perCall source responses).console.transcript.entries =
        (course .python .batch source responses).console.transcript.entries := by
  intro source responses
  have perCallUnbroken : (course .python .perCall source responses).Unbroken := by decide +kernel
  have batchUnbroken : (course .python .batch source responses).Unbroken := by decide +kernel
  have oneEach : responses.length = (inputSites .python source).length := by decide +kernel
  exact ⟨perCallUnbroken, batchUnbroken,
    (batch_agrees_with_perCall .python source responses oneEach perCallUnbroken
      batchUnbroken).2.2.2.1⟩

end SourcePreview
