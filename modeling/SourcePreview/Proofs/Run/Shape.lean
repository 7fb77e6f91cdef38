import SourcePreview.Proofs.Run.Telling

/-! The shape of a transcript. A run whose questions are all answered comes to its end, and between
the preamble and the line of completion it leaves printed lines and one echo for each input site, in
the order of the source, with a warning behind just those whose answer cannot be read
(`answered_shape`). -/

namespace SourcePreview

inductive Visit.Among : List Visit → List Entry → Prop
  | nil : Among [] []
  | printed {visits : List Visit} {entries : List Entry} {e : Entry}
      (kind : e.kind = .output ∨ e.kind = .error) :
    Among visits entries → Among visits (e :: entries)
  | visited {visits : List Visit} {entries : List Entry} (openLine : Text) (v : Visit) :
    Among visits entries → Among (v :: visits) (v.echo openLine ++ entries)

namespace Visit.Among

variable {visits : List Visit} {entries lines : List Entry}

theorem prints (kinds : ∀ e ∈ lines, e.kind = .output ∨ e.kind = .error)
    (h : Among visits entries) :
    Among visits (lines ++ entries) := by
  induction lines with
  | nil => exact h
  | cons e lines ih =>
    rw [List.forall_mem_cons] at kinds
    exact .printed kinds.1 (ih kinds.2)

theorem kind_ne_info (h : Among visits entries) : ∀ e ∈ entries, e.kind ≠ .info := by
  induction h with
  | nil => exact fun e he => nomatch he
  | printed kind _ ih =>
    refine List.forall_mem_cons.2 ⟨?_, ih⟩
    intro hi
    rw [hi] at kind
    rcases kind with hk | hk <;> cases hk
  | visited openLine v _ ih =>
    intro e he
    rcases List.mem_append.1 he with he | he
    · unfold Visit.echo at he
      rcases List.mem_cons.1 he with rfl | he
      · exact LineKind.noConfusion
      · split at he
        · cases he
        · rw [List.mem_singleton.1 he]
          exact LineKind.noConfusion
    · exact ih e he

end Visit.Among

namespace Account

def visits : Account → List Visit
  | .last _ => []
  | .visit _ v rest => v :: rest.visits

theorem visits_print (w : Writing) (account : Account) :
    (account.print w).visits = account.visits := by
  cases account <;> rfl

variable {d : Dialect} {account : Account} {openLine : Text} {entries : List Entry}
  {prompts : List Text}

theorem visits_ofActions? {env : Environment} {actions : List Action} {answers : List Text}
    (h : ofActions? d env actions answers = some account) :
    account.visits.map Visit.site = actions.filterMap Action.site? ∧
      account.visits.map Visit.answer = answers.take (actions.filterMap Action.site?).length := by
  induction actions generalizing env answers account with
  | nil =>
    obtain rfl := Option.some.inj h
    exact ⟨rfl, rfl⟩
  | cons a rest ih =>
    cases a with
    | print p =>
      rw [ofActions?] at h
      cases ht : p.text env d with
      | error e => rw [ht] at h; cases h
      | ok text =>
        rw [ht] at h
        obtain ⟨account, behind, rfl⟩ := Option.map_eq_some_iff.1 h
        rw [visits_print]
        exact ih behind
    | assign target expr =>
      rw [ofActions?] at h
      cases hv : assignedValue env d expr with
      | error e => rw [hv] at h; cases h
      | ok value =>
        rw [hv] at h
        exact ih h
    | input site =>
      cases answers with
      | nil => cases h
      | cons answer answers =>
        rw [ofActions?] at h
        cases hq : site.question env d with
        | error e => rw [hq] at h; cases h
        | ok question =>
          rw [hq] at h
          obtain ⟨account, behind, rfl⟩ := Option.map_eq_some_iff.1 h
          obtain ⟨sites, taken⟩ := ih behind
          exact ⟨congrArg (site :: ·) sites, congrArg (answer :: ·) taken⟩

theorem Tells.among (h : account.Tells openLine entries prompts) :
    Visit.Among account.visits entries := by
  induction h with
  | @last _ rest _ _ shows =>
    refine .prints shows.kinds ?_
    split
    · exact .nil
    · exact .printed (Or.inl rfl) .nil
  | @visit _ rest _ v _ _ _ _ shows _ ih => exact .prints shows.kinds (.visited rest v ih)

end Account

theorem Dialogue.replay_append {α : Type} (d : Dialogue α) (answers more : List Text)
    (h : (d.replay answers).result ≠ none) : d.replay (answers ++ more) = d.replay answers := by
  induction d generalizing answers with
  | done a => rfl
  | say e next ih => exact congrArg (Replay.write [e]) (ih answers h)
  | send text next ih => exact ih answers h
  | check next ih => exact ih answers h
  | ask prompt next ih =>
    cases answers with
    | nil => exact absurd rfl h
    | cons answer answers => exact congrArg (Replay.ask [prompt]) (ih answer answers h)

section

variable (d : Dialect) (mode : InputMode) (source : Text)

theorem replay_preview_answered (answers : List Text)
    (h : answers.length = (inputSites d source).length) :
    let r := (preview d mode source).replay answers
    r.Broken ∨ r.result = some (.ok ()) := by
  cases mode with
  | perCall => exact (replay_perCall_asking d source answers h).imp_right And.left
  | batch =>
    rw [replay_batch]
    rcases RunDialogue.replay_gather d (actions d source) [] [] answers
      (fun answers => RunDialogue.play d (.start answers) (d.statements none (Text.lines source))) h
      with hb | ⟨prompts, -, hr⟩
    · exact Or.inl hb
    · rw [inputSites_eq] at h
      have asked :=
        RunDialogue.replay_play_asking d (d.statements none (Text.lines source)) (.start []) answers
          h
      -- a run that has its answers ahead comes to the same result as one that asks for them
      have same :=
        (RunDialogue.replay_play_withAnswers d (d.statements none (Text.lines source)) (.start [])
          answers []).2.1
      rw [List.append_nil] at same
      rw [hr]
      rcases asked with ⟨e, he⟩ | ⟨he, -⟩
      · exact Or.inl ⟨e, same.trans he⟩
      · exact Or.inr (same.trans he)

variable (responses : List Response)

theorem completed_of_answered (answered : (inputSites d source).length ≤ responses.length)
    (unbroken : (course d mode source responses).Unbroken) :
    (course d mode source responses).Completed := by
  have follows := course_follows d mode source responses
  have taken : ((responses.map Response.answer).take (inputSites d source).length).length =
      (inputSites d source).length := by
    rw [List.length_take, List.length_map, Nat.min_eq_left answered]
  have ended := replay_preview_answered d mode source _ taken
  have settled : ((preview d mode source).replay
      ((responses.map Response.answer).take (inputSites d source).length)).result ≠ none := by
    rcases ended with ⟨e, he⟩ | he <;> simp [he]
  have same :=
    (preview d mode source).replay_append _
      ((responses.map Response.answer).drop (inputSites d source).length) settled
  rw [List.take_append_drop] at same
  rw [← same] at ended
  rw [Course.Completed, follows.ending, ended.resolve_left (follows.not_broken unbroken)]
  rfl

theorem exists_account_of_completed (completed : (course d mode source responses).Completed) :
    ∃ account body prompts,
      Account.ofActions? d .empty (actions d source) (responses.map Response.answer) =
      some account ∧
      (course d mode source responses).console.transcript.entries =
        d.preamble.map Entry.info ++ body ++ [.info d.completion] ∧
        account.Tells [] body prompts := by
  have follows := course_follows d mode source responses
  have ended :
      ((preview d mode source).replay (responses.map Response.answer)).result = some (.ok ()) := by
    rw [Course.Completed, follows.ending] at completed
    obtain ⟨r, hr, he⟩ := Option.map_eq_some_iff.1 completed
    rw [hr, Ending.result.inj he]
  obtain ⟨hr, he, -⟩ := replay_preview_completed d mode source _ ended
  obtain ⟨account, body, ha, hb, tells⟩ :=
    RunDialogue.replay_play_told d _ (.start []) _ rfl List.not_mem_nil hr
  refine ⟨account, body, _, ha, ?_, tells⟩
  rw [follows.entries, he, hb, List.append_assoc]
  rfl

end

/-- A run whose questions are all answered completes. Its transcript is the preamble, then printed
lines with one echo for each input site among them, in the order of the source and with the answers
in theirs, then the line of completion; an echo is followed by a warning just if its answer cannot
be read. -/
theorem answered_shape (d : Dialect) (mode : InputMode) (source : Text) (responses : List Response)
    (answered : (inputSites d source).length ≤ responses.length)
    (unbroken : (course d mode source responses).Unbroken) :
    (course d mode source responses).Completed ∧ ∃ visits body,
      visits.map Visit.site = inputSites d source ∧
      visits.map Visit.answer = (responses.map Response.answer).take (inputSites d source).length ∧
      (course d mode source responses).console.transcript.entries =
        d.preamble.map Entry.info ++ body ++ [.info d.completion] ∧
      Visit.Among visits body ∧ ∀ e ∈ body, e.kind ≠ .info := by
  have completed := completed_of_answered d mode source responses answered unbroken
  obtain ⟨account, body, prompts, ha, entries, tells⟩ :=
    exists_account_of_completed d mode source responses completed
  obtain ⟨sites, answers⟩ := Account.visits_ofActions? ha
  have among := tells.among
  exact ⟨completed, account.visits, body, sites, answers, entries, among, among.kind_ne_info⟩

/-- An answer that is no number, a cancelled question and a fault, on lines that nothing
recognises. -/
theorem answered_shape_of_garbage :
    let source :=
      "))\nn = int(input(\"n\"))\nif n: m = float(input())\nprint(1/0, ]\nprint(n/m)\n".toList
    let responses := [.submission " x ".toList (by decide), .cancel, .cancel]
    (inputSites .python source).length ≤ responses.length ∧
      (course .python .batch source responses).Unbroken ∧
      (course .python .batch source responses).Completed ∧ ∃ visits body,
        visits.map Visit.answer = ["x".toList, []] ∧
        (course .python .batch source responses).console.transcript.entries =
          body ++ [.info ">>> Execution Completed Successfully".toList] ∧
        Visit.Among visits body := by
  intro source responses
  have answered : (inputSites .python source).length ≤ responses.length := by decide +kernel
  have unbroken : (course .python .batch source responses).Unbroken := by decide +kernel
  obtain ⟨completed, visits, body, -, answers, entries, among, -⟩ :=
    answered_shape .python .batch source responses answered unbroken
  refine ⟨answered, unbroken, completed, visits, body, ?_, entries, among⟩
  rw [answers]
  decide +kernel

end SourcePreview
