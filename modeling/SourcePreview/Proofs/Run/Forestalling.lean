import SourcePreview.Proofs.Run.Prompts
import SourcePreview.Workbench

/-! A run that is cancelled before its first poll. Between the first poll and the end there is one
look for the cancellation in front of each statement and one at each question; so the run writes its
preamble and nothing more, unless its source has no line at all or a text that it needs for a prompt
asked ahead is overwide (`forestalled`). -/

namespace SourcePreview

theorem Text.lines_eq_nil_iff {s : Text} : lines s = [] ↔ s = [] := by
  constructor
  · intro none
    have whole := join_cutLines s
    simp only [lines, List.append_eq_nil_iff, List.map_eq_nil_iff] at none
    split at none
    · next empty => simpa [none.1, List.isEmpty_iff.1 empty] using whole.symm
    · simp at none
  · rintro rfl
    rfl

/-- Where a cancelled dialogue stands that came to one of its looks for the cancellation, or broke
off at a text that goes into a prompt of the actions. At a question the request of another one is
cancelled. -/
inductive Stand.Forestalled (c : Console) (sent : Text) (actions : List Action) :
    Stand (Except Overwide Unit) → Prop
  | stops {input : Coordinator} (unasked : input = c.input ∨ input = c.input.cancel) :
    Forestalled c sent actions ⟨{ c with input }, sent, .settled .cancelled⟩
  | breaks {e : Overwide} (here : e.FromActions (actions.filter Action.isPrompting)) :
    Forestalled c sent actions ⟨c, sent, .settled (.result (.error e))⟩

theorem Stand.Forestalled.cons {c : Console} {sent : Text} {actions : List Action}
    {stand : Stand (Except Overwide Unit)} (h : stand.Forestalled c sent actions) (a : Action) :
    stand.Forestalled c sent (a :: actions) := by
  rcases h with unasked | ⟨b, hb, he⟩
  · exact .stops unasked
  · rw [List.mem_filter] at hb
    exact .breaks ⟨b, List.mem_filter.2 ⟨List.mem_cons_of_mem a hb.1, hb.2⟩, he⟩

namespace RunDialogue

def body (d : Dialect) (mode : InputMode) (source : Text) : RunDialogue :=
  let statements := d.statements none (Text.lines source)
  match mode with
  | .perCall => play d (.start []) statements
  | .batch => gather d [] [] (fun answers => play d (.start answers) statements) (actions d source)

variable (d : Dialect) (c : Console) (sent : Text)

theorem forestalled_gather {next : List Text → RunDialogue} (actions : List Action)
    (openLine : Text) (gathered : List Text)
    (behind : ∀ gathered, ((next gathered).advance true c sent).Forestalled c sent []) :
    ((gather d openLine gathered next actions).advance true c sent).Forestalled c sent actions := by
  -- on the actions: only what goes into a prompt is evaluated, and the first question is a look for
  -- the cancellation
  induction actions generalizing openLine gathered with
  | nil => exact behind gathered
  | cons a rest ih =>
    have breaks : ∀ {e : Overwide}, a.isPrompting = true → (∃ x ∈ a.expressions, e.From x) →
        Stand.Forestalled c sent (a :: rest) ⟨c, sent, .settled (.result (.error e))⟩ :=
      fun heard here => .breaks ⟨a, List.mem_filter.2 ⟨List.mem_cons_self, heard⟩, here⟩
    cases a with
    | assign target expr => exact (ih openLine gathered).cons _
    | print p =>
      rw [gather]
      cases hp : p.stream with
      | stderr => exact (ih openLine gathered).cons _
      | stdout =>
        cases ht : p.text .empty d with
        | error e => exact breaks (by simp [Action.isPrompting, hp]) (Print.text_overwide ht)
        | ok text => exact (ih _ gathered).cons _
    | input site =>
      rw [gather]
      cases hp : site.promptText openLine .empty d with
      | error e => exact breaks rfl (InputSite.promptText_overwide hp)
      | ok prompt => exact .stops (Or.inr rfl)

theorem advance_body_cancelled {source : Text} (filled : source ≠ []) (mode : InputMode) :
    (∃ input, (input = c.input ∨ input = c.input.cancel) ∧
      (body d mode source).advance true c sent = ⟨{ c with input }, sent, .settled .cancelled⟩) ∨
    mode = .batch ∧ ∃ e : Overwide, e.FromActions ((actions d source).filter Action.isPrompting) ∧
      (body d mode source).advance true c sent = ⟨c, sent, .settled (.result (.error e))⟩ := by
  obtain ⟨line, lines, hl⟩ := List.exists_cons_of_ne_nil (mt Text.lines_eq_nil_iff.1 filled)
  obtain ⟨statement, rest, hs⟩ : ∃ statement rest,
    d.statements none (Text.lines source) = statement :: rest :=
    ⟨_, _, by rw [hl]; rfl⟩
  have stops : ∀ s, (play d s (d.statements none (Text.lines source))).advance true c sent =
      ⟨c, sent, .settled .cancelled⟩ := by
    intro s
    rw [hs]
    rfl
  cases mode with
  | perCall => exact Or.inl ⟨c.input, Or.inl rfl, stops _⟩
  | batch =>
    have ahead :
        ((body d .batch source).advance true c sent).Forestalled c sent (actions d source) := by
      apply forestalled_gather
      intro gathered
      rw [stops]
      exact .stops (Or.inl rfl)
    generalize (body d .batch source).advance true c sent = stand at ahead ⊢
    rcases ahead with unasked | here
    · exact Or.inl ⟨_, unasked, rfl⟩
    · exact Or.inr ⟨rfl, _, here, rfl⟩

end RunDialogue

/-- A run that finds itself cancelled at its first poll settles so. It writes its preamble and
nothing more, and makes no request. If its source has no line it completes instead, and if it asks
ahead it may break off at a text that goes into a prompt. -/
theorem Task.forestalled (d : Dialect) (mode : InputMode) (source : Text) (console : Console) :
    let start := (d.preamble.map Entry.info).foldl Console.push console
    let r := (Task.ofSource d mode source).poll true console
    if source = [] then r = (start.push (.info d.completion), .settled (.run (.result (.ok ()))))
    else
      (∃ input, (input = start.input ∨ input = start.input.cancel) ∧
        r = ({ start with input }, .settled (.run .cancelled))) ∨
        mode = .batch ∧ ∃ e : Overwide,
          e.FromActions ((actions d source).filter Action.isPrompting) ∧
          r = (start, .settled (.run (.result (.error e)))) := by
  intro start r
  have polled : (Talk.ready (preview d mode source)).advance true console [] =
      (RunDialogue.body d mode source).advance true start [] :=
    Dialogue.advance_sayAll true console [] (d.preamble.map Entry.info)
      (RunDialogue.body d mode source)
  have run : r = Task.poll true console (.run (.ready (preview d mode source))) := rfl
  rw [run, poll, polled]
  split
  · next empty =>
    rw [empty]
    cases mode <;> rfl
  · next filled =>
    rcases RunDialogue.advance_body_cancelled d start [] filled mode
      with ⟨input, unasked, stops⟩ | ⟨ahead, e, here, breaks⟩
    · rw [stops]
      exact Or.inl ⟨input, unasked, rfl⟩
    · rw [breaks]
      exact Or.inr ⟨ahead, e, here, rfl⟩

/-- A source without a line has no look for the cancellation: its run completes and says so. -/
theorem Task.completes_of_no_lines :
    (Task.ofSource .python .perCall []).poll true .empty =
      (Console.empty.push (.info Dialect.python.completion), .settled (.run (.result (.ok ())))) :=
      rfl

end SourcePreview
