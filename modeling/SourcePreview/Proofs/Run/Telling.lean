import SourcePreview.Proofs.Run.Account
import SourcePreview.Proofs.Run.Batch

/-! A completed run tells of its account. The open line is what the text printed since the last
visit leaves open (`replay_play_told`, by induction on the statements), and a run that asks ahead
writes what one that asks at each site writes (`replay_gather_completed`). -/

namespace SourcePreview

namespace RunState

variable (d : Dialect) (s : RunState)

theorem env_received (site : InputSite) (prompt answer : Text) :
    (s.received site prompt answer).2.env = site.store s.env answer := by
  unfold received InputSite.store InputSite.reading bind
  cases Value.coerce answer site.kind <;> cases site.target <;> rfl

theorem openLine_received (site : InputSite) (prompt answer : Text) :
    (s.received site prompt answer).2.openLine = [] := by
  unfold received bind
  cases Value.coerce answer site.kind <;> cases site.target <;> rfl

theorem answers_received (site : InputSite) (prompt answer : Text) :
    (s.received site prompt answer).2.answers = s.answers := by
  unfold received bind
  cases Value.coerce answer site.kind <;> cases site.target <;> rfl

theorem entries_received (site : InputSite) (question answer : Text) :
    (s.received site (s.openLine ++ question) answer).1 = Visit.echo s.openLine ⟨site, question,
      answer⟩ := by
  unfold received Visit.echo Entry.echo
  rw [Visit.echoText_eq]
  cases Value.coerce answer site.kind <;> rfl

end RunState

def Replay.Told (d : Dialect) (env : Environment) (openLine : Text) (actions : List Action)
    (answers : List Text) (r : Replay (Except Overwide Unit)) : Prop :=
  ∃ account body, Account.ofActions? d env actions answers = some account ∧
    r.entries = body ++ [.info d.completion] ∧
    account.Tells openLine body r.prompts

namespace Replay.Told

variable {d : Dialect} {env : Environment} {openLine text : Text} {actions : List Action}
  {answers : List Text} {r : Replay (Except Overwide Unit)}

theorem finish (s : RunState) (closed : '\n' ∉ s.openLine) :
    Told d env s.openLine [] answers ((RunDialogue.finish d s).replay answers) := by
  rw [RunDialogue.replay_finish]
  refine ⟨.last [], _, rfl, rfl, ?_⟩
  have h := Account.Tells.last (Writing.shows_nil closed)
  rw [List.nil_append] at h
  simpa using h

theorem stdout {p : Print} (hp : p.stream = .stdout) (ht : p.text env d = .ok text)
    (h : r.Told d env (Text.cutLines (openLine ++ text)).2 actions answers) :
    (r.write ((Text.cutLines (openLine ++ text)).1.map Entry.output)).Told d env openLine
    (.print p :: actions) answers := by
  obtain ⟨account, body, h1, h2, h3⟩ := h
  refine ⟨account.print ⟨.stdout, text⟩, _, ?_, ?_, h3.stdout⟩
  · rw [Account.ofActions?, ht, h1, hp]
    rfl
  · rw [List.append_assoc, ← h2]
    rfl

theorem stderr {p : Print} (hp : p.stream = .stderr) (ht : p.text env d = .ok text)
    (h : r.Told d env openLine actions answers) :
    (r.write (Writing.errorLines text)).Told d env openLine (.print p :: actions) answers := by
  obtain ⟨account, body, h1, h2, h3⟩ := h
  refine ⟨account.print ⟨.stderr, text⟩, _, ?_, ?_, h3.stderr⟩
  · rw [Account.ofActions?, ht, h1, hp]
    rfl
  · rw [List.append_assoc, ← h2]
    rfl

theorem assign {target expr : Text} {value : Value} (hv : assignedValue env d expr = .ok value)
    (h : r.Told d (env.assign target value) openLine actions answers) :
    r.Told d env openLine (.assign target expr :: actions) answers := by
  obtain ⟨account, body, h1, h2, h3⟩ := h
  refine ⟨account, body, ?_, h2, h3⟩
  rw [Account.ofActions?, hv]
  exact h1

theorem visit {site : InputSite} {question answer : Text} (hq : site.question env d = .ok question)
    (closed : '\n' ∉ openLine) (h : r.Told d (site.store env answer) [] actions answers) :
    ((r.write (Visit.echo openLine ⟨site, question, answer⟩)).ask [openLine ++ question]).Told d env
      openLine
      (.input site :: actions) (answer :: answers) := by
  obtain ⟨account, body, h1, h2, h3⟩ := h
  refine ⟨.visit [] ⟨site, question, answer⟩ account, _, ?_, ?_,
    .visit (Writing.shows_nil closed) h3⟩
  · rw [Account.ofActions?, hq, h1]
    rfl
  · rw [List.nil_append, List.append_assoc, ← h2]
    rfl

end Replay.Told

namespace RunDialogue

variable (d : Dialect)

/-- A run that comes to its end tells of its account. -/
theorem replay_play_told (statements : List Statement) (s : RunState) (answers : List Text)
    (nothing : s.answers = []) (closed : '\n' ∉ s.openLine)
    (completed : ((play d s statements).replay answers).result = some (.ok ())) :
    ((play d s statements).replay answers).Told d s.env s.openLine
    (statements.filterMap Statement.action?) answers := by
  -- the open line at each statement is the rest of what the passage has printed so far
  induction statements generalizing s answers with
  | nil => exact .finish s closed
  | cons statement rest ih =>
    rw [replay_play_cons] at completed ⊢
    cases ha : statement.action? with
    | none =>
      rw [ha] at completed
      rw [List.filterMap_cons_none ha]
      exact ih s answers nothing closed completed
    | some a =>
      rw [ha] at completed
      rw [List.filterMap_cons_some ha]
      dsimp only at completed ⊢
      cases a with
      | print p =>
        rw [perform_of_siteless d s _ rfl, replay_withEffect, RunState.effect] at completed ⊢
        cases ht : p.text s.env d with
        | error e =>
          rw [ht] at completed
          cases completed
        | ok text =>
          rw [ht] at completed
          dsimp only [Except.map, RunState.printed] at completed ⊢
          cases hp : p.stream with
          | stdout =>
            rw [hp] at completed
            have opened := (Text.breaks_cutLines (s.openLine ++ text)).rest_open
            exact .stdout hp ht
              (ih { s with openLine := (Text.cutLines (s.openLine ++ text)).2 } answers nothing
                opened completed)
          | stderr =>
            rw [hp] at completed
            exact .stderr hp ht (ih s answers nothing closed completed)
      | assign target expr =>
        rw [perform_of_siteless d s _ rfl, replay_withEffect, RunState.effect] at completed ⊢
        cases hv : assignedValue s.env d expr with
        | error e =>
          rw [hv] at completed
          cases completed
        | ok value =>
          rw [hv] at completed
          exact .assign hv (ih (s.bind (some target) value) answers nothing closed completed)
      | input site =>
        cases answers with
        | nil =>
          rw [perform_asked d s _ site nothing] at completed
          cases hp : site.promptText s.openLine s.env d with
          | error e => rw [hp] at completed; cases completed
          | ok prompt => rw [hp] at completed; cases completed
        | cons answer answers =>
          rw [replay_perform_asked d s _ site nothing, site.promptText_eq] at completed ⊢
          cases hq : site.question s.env d with
          | error e =>
            rw [hq] at completed
            cases completed
          | ok question =>
            rw [hq] at completed
            dsimp only [Except.map] at completed ⊢
            have opened := s.openLine_received site (s.openLine ++ question) answer
            have told := ih _ answers ((s.answers_received site _ answer).trans nothing)
              (opened ▸ List.not_mem_nil) completed
            rw [RunState.env_received, opened] at told
            rw [RunState.entries_received]
            exact .visit hq closed told

/-- Gathering takes one answer for each input site, and goes on with these. -/
theorem replay_gather_completed (actions : List Action) (openLine : Text)
    (gathered answers : List Text) (next : List Text → RunDialogue)
    (completed : ((gather d openLine gathered next actions).replay answers).result =
      some (.ok ())) :
    ∃ taken left prompts, answers = taken ++ left ∧
      (gather d openLine gathered next actions).replay answers =
        ((next (gathered ++ taken)).replay left).ask prompts := by
  induction actions generalizing openLine gathered answers with
  | nil => exact ⟨[], answers, [], rfl, by rw [List.append_nil]; rfl⟩
  | cons a rest ih =>
    cases a with
    | assign target expr => exact ih openLine gathered answers completed
    | print p =>
      rw [gather] at completed ⊢
      cases hp : p.stream with
      | stderr =>
        rw [hp] at completed
        exact ih openLine gathered answers completed
      | stdout =>
        rw [hp] at completed
        cases ht : p.text .empty d with
        | error e => rw [ht] at completed; cases completed
        | ok text =>
          rw [ht] at completed
          exact ih _ gathered answers completed
    | input site =>
      rw [gather] at completed ⊢
      cases hp : site.promptText openLine .empty d with
      | error e => rw [hp] at completed; cases completed
      | ok prompt =>
        rw [hp] at completed
        cases answers with
        | nil => cases completed
        | cons answer answers =>
          obtain ⟨taken, left, prompts, rfl, h⟩ := ih [] (gathered ++ [answer]) answers completed
          refine ⟨answer :: taken, left, prompt :: prompts, rfl, ?_⟩
          rw [List.append_assoc] at h
          exact congrArg (Replay.ask [prompt]) h

end RunDialogue

section

variable (d : Dialect) (mode : InputMode) (source : Text) (answers : List Text)

theorem replay_preview_completed
    (completed : ((preview d mode source).replay answers).result = some (.ok ())) :
    let played :=
      (RunDialogue.play d (.start []) (d.statements none (Text.lines source))).replay answers
    played.result = some (.ok ()) ∧
      ((preview d mode source).replay answers).entries = d.preamble.map Entry.info ++
      played.entries ∧
      (mode = .perCall → ((preview d mode source).replay answers).prompts = played.prompts) := by
  cases mode with
  | perCall =>
    rw [replay_perCall] at completed ⊢
    exact ⟨completed, rfl, fun _ => rfl⟩
  | batch =>
    rw [replay_batch] at completed ⊢
    obtain ⟨taken, left, prompts, rfl, h⟩ :=
      RunDialogue.replay_gather_completed d _ _ _ _ _ completed
    rw [h] at completed ⊢
    obtain ⟨he, hr, -⟩ :=
      RunDialogue.replay_play_withAnswers d (d.statements none (Text.lines source)) (.start [])
        taken left
    exact ⟨hr.symm.trans completed, congrArg (d.preamble.map Entry.info ++ ·) he, nofun⟩

end

def Course.Completed (c : Course (Except Overwide Unit)) : Prop :=
  c.ending = some (.result (.ok ()))

instance : DecidablePred Course.Completed := fun c =>
  match h : c.ending with
  | some (.result (.ok ())) => isTrue h
  | some (.result (.error _)) => isFalse fun he => by rw [Course.Completed, h] at he; cases he
  | some .cancelled => isFalse fun he => by rw [Course.Completed, h] at he; cases he
  | some (.refused _) => isFalse fun he => by rw [Course.Completed, h] at he; cases he
  | none => isFalse fun he => by rw [Course.Completed, h] at he; cases he

/-- A completed run has an account, from its actions and answers alone. Between the preamble and the
line of completion its lines tell of that account, and its prompts do where it asks at each site;
whatever account prints the same text between the same visits has the same lines but for errors, and
the same prompts. -/
theorem completed_tells (d : Dialect) (mode : InputMode) (source : Text) (responses : List Response)
    (completed : (course d mode source responses).Completed) :
    ∃ account body prompts,
      Account.ofActions? d .empty (actions d source) (responses.map Response.answer) =
        some account ∧
      (course d mode source responses).console.transcript.entries =
        d.preamble.map Entry.info ++ body ++ [.info d.completion] ∧
      account.Tells [] body prompts ∧
      (mode = .perCall → (course d mode source responses).prompts = prompts) ∧
      (∀ e ∈ (course d mode source responses).console.transcript.entries,
        e.kind = .output ∨ e.kind = .error → '\n' ∉ e.text) ∧
      ∀ account' body' prompts', account.Alike account' → account'.Tells [] body' prompts' →
        body.filter (·.kind ≠ .error) = body'.filter (·.kind ≠ .error) ∧ prompts = prompts' := by
  have follows := course_follows d mode source responses
  have ended :
      ((preview d mode source).replay (responses.map Response.answer)).result = some (.ok ()) := by
    rw [Course.Completed, follows.ending] at completed
    obtain ⟨r, hr, he⟩ := Option.map_eq_some_iff.1 completed
    rw [hr, Ending.result.inj he]
  obtain ⟨hr, he, hp⟩ := replay_preview_completed d mode source _ ended
  obtain ⟨account, body, ha, hb, tells⟩ :=
    RunDialogue.replay_play_told d _ (.start []) _ rfl List.not_mem_nil hr
  have entries : (course d mode source responses).console.transcript.entries =
      d.preamble.map Entry.info ++ body ++ [.info d.completion] := by
    rw [follows.entries, he, hb, List.append_assoc]
    rfl
  refine ⟨account, body, _, ha, entries, tells, ?_, ?_, ?_⟩
  · intro hm
    rw [follows.prompts, hp hm]
  · intro e he hk
    rw [entries] at he
    rcases List.mem_append.1 he with he | he
    · rcases List.mem_append.1 he with he | he
      · obtain ⟨text, -, rfl⟩ := List.mem_map.1 he
        simp [Entry.info] at hk
      · exact tells.closed e he hk
    · rw [List.mem_singleton.1 he] at hk
      simp [Entry.info] at hk
  · intro account' body' prompts' alike tells'
    exact tells.eq_of_alike alike tells'

/-- A line in two pieces with an error line between them, an open line in front of a prompt, and one
at the end. -/
theorem completed_tells_of_pieces :
    let source :=
      ("print(\"a\\nb\", end=\"\")\nprint(\"e\", file=sys.stderr)\nprint(\"c\", end=\"\")\n" ++
        "x = int(input(\"? \"))\nprint(x, \"\\n\", x, end=\"\")").toList
    let responses := [.submission "x".toList (by decide)]
    (course .python .batch source responses).Completed ∧
      ∃ account body prompts,
        Account.ofActions? .python .empty (actions .python source) (responses.map Response.answer) =
          some account ∧
        (course .python .batch source responses).console.transcript.entries =
          Dialect.python.preamble.map Entry.info ++ body ++ [.info Dialect.python.completion] ∧
        account.Tells [] body prompts := by
  intro source responses
  have completed : (course .python .batch source responses).Completed := by decide +kernel
  obtain ⟨account, body, prompts, ha, he, ht, -⟩ :=
    completed_tells .python .batch source responses completed
  exact ⟨completed, account, body, prompts, ha, he, ht⟩

end SourcePreview
