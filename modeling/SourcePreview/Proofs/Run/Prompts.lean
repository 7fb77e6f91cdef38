import SourcePreview.Proofs.Expression.Dependence
import SourcePreview.Proofs.Run.Overwide
import SourcePreview.Proofs.Run.Telling

/-! Prompts that mention no variable. They are made of the texts printed to the standard output and
of the prompts of the input sites; where none of these mentions a name that the run binds, asking
ahead requests what the run itself requests (`RunDialogue.foreseen_gather`). Only a run that breaks
off at a text which no prompt is made of requests less than that. -/

namespace SourcePreview

def Action.target? : Action → Option Text
  | .print _ => none
  | .input site => site.target
  | .assign target _ => some target

def Action.isPrompting : Action → Bool
  | .print p => p.stream == .stdout
  | .input _ => true
  | .assign _ _ => false

def Unmentioned (names : List Text) (actions : List Action) : Prop :=
  ∀ a ∈ actions, a.isPrompting = true → ∀ x ∈ a.expressions, ∀ name ∈ names, ¬ name <:+: x

instance (names : List Text) (actions : List Action) : Decidable (Unmentioned names actions) :=
  inferInstanceAs (Decidable (∀ a ∈ actions, a.isPrompting = true →
    ∀ x ∈ a.expressions, ∀ name ∈ names, ¬ name <:+: x))

namespace Environment

def BindsOnly (env : Environment) (names : List Text) : Prop :=
  ∀ name, env.get? name ≠ none → name ∈ names

/-- The actions bind the names that are bound already or others among `names`, none of which goes
into a prompt. -/
structure Apart (env : Environment) (names : List Text) (actions : List Action) : Prop where
  bound : env.BindsOnly names
  known : ∀ a ∈ actions, ∀ name, a.target? = some name → name ∈ names
  constant : Unmentioned names actions

variable {env : Environment} {names : List Text} {actions : List Action} {a : Action}

theorem BindsOnly.assign (h : env.BindsOnly names) {name : Text} (known : name ∈ names)
    (value : Value) :
    (env.assign name value).BindsOnly names := by
  intro other bound
  by_cases same : other = name
  · exact same ▸ known
  · apply h
    rwa [get?_assign, if_neg same] at bound

namespace Apart

theorem behind (h : env.Apart names (a :: actions)) {env' : Environment}
    (bound : env'.BindsOnly names) :
    env'.Apart names actions :=
  ⟨bound, (List.forall_mem_cons.1 h.known).2, (List.forall_mem_cons.1 h.constant).2⟩

theorem tail (h : env.Apart names (a :: actions)) : env.Apart names actions := h.behind h.bound

theorem assign {target expr : Text} (h : env.Apart names (.assign target expr :: actions))
    (value : Value) :
    (env.assign target value).Apart names actions :=
  h.behind (h.bound.assign (h.known _ List.mem_cons_self target rfl) value)

theorem store {site : InputSite} (h : env.Apart names (.input site :: actions)) (answer : Text) :
    (site.store env answer).Apart names actions := by
  apply h.behind
  rw [InputSite.store]
  split
  · exact h.bound
  · next name target => exact h.bound.assign (h.known _ List.mem_cons_self name target) _

theorem render_eq (h : env.Apart names (a :: actions)) (heard : a.isPrompting = true)
    (d : Dialect) :
    ∀ x ∈ a.expressions, render env d x = render .empty d x := by
  intro x hx
  apply render_alike _ (.inl rfl)
  intro name _ inside
  by_contra bound
  exact h.constant a List.mem_cons_self heard x hx name (h.bound name bound) inside

end Apart

end Environment

section

variable {env env' : Environment} {d : Dialect}

theorem mapM_render_congr {xs : List Text} (h : ∀ x ∈ xs, render env d x = render env' d x) :
    xs.mapM (render env d) = xs.mapM (render env' d) := by
  induction xs with
  | nil => rfl
  | cons x xs ih =>
    rw [List.forall_mem_cons] at h
    rw [List.mapM_cons, List.mapM_cons, h.1, ih h.2]

theorem Print.text_congr {p : Print}
    (h : ∀ x ∈ (Action.print p).expressions, render env d x = render env' d x) :
    p.text env d = p.text env' d := by
  have separator : p.separatorText env d = p.separatorText env' d := by
    unfold separatorText
    split
    · rfl
    · next x hx => exact h x (by simp [Action.expressions, hx])
  have ending : p.endingText env d = p.endingText env' d := by
    unfold endingText
    split
    · rfl
    · rfl
    · next x hx => exact h x (by simp [Action.expressions, hx])
  have arguments : p.arguments.mapM (render env d) = p.arguments.mapM (render env' d) :=
    mapM_render_congr fun x hx => h x (by simp [Action.expressions, hx])
  rw [text_eq, text_eq, separator, arguments, ending]

theorem InputSite.promptText_congr {site : InputSite}
    (h : ∀ x ∈ (Action.input site).expressions, render env d x = render env' d x)
    (openLine : Text) : site.promptText openLine env d = site.promptText openLine env' d := by
  unfold promptText
  split
  · rfl
  · next x hx => rw [h x (by simp [Action.expressions, hx])]

end

/-- What a run requests, as far as it gets, against what is requested ahead: the same, unless the
run breaks off at a text that goes into no prompt. -/
def Replay.Foreseen (actions : List Action) (run ahead : Replay (Except Overwide Unit)) : Prop :=
  ahead.prompts = run.prompts ∨
    run.prompts <+: ahead.prompts ∧ ∃ e : Overwide, run.result = some (.error e) ∧
    e.FromActions (actions.filter (!·.isPrompting))

namespace Replay.Foreseen

variable {actions : List Action} {run ahead : Replay (Except Overwide Unit)}

theorem cons (h : Foreseen actions run ahead) (a : Action) : Foreseen (a :: actions) run ahead := by
  refine h.imp_right (And.imp_right fun ⟨e, broken, here⟩ => ⟨e, broken, ?_⟩)
  obtain ⟨b, hb, he⟩ := here
  rw [List.mem_filter] at hb
  exact ⟨b, List.mem_filter.2 ⟨List.mem_cons_of_mem a hb.1, hb.2⟩, he⟩

theorem write (h : Foreseen actions run ahead) (entries : List Entry) :
    Foreseen actions (run.write entries) ahead := h

theorem ask (h : Foreseen actions run ahead) (prompts : List Text) :
    Foreseen actions (run.ask prompts) (ahead.ask prompts) := by
  rcases h with same | ⟨front, broken⟩
  · exact Or.inl (congrArg (prompts ++ ·) same)
  · exact Or.inr ⟨(List.prefix_append_right_inj prompts).2 front, broken⟩

/-- A run that breaks off at an action whose texts go into no prompt has requested nothing that was
not foreseen. -/
theorem of_broken {a : Action} {e : Overwide} (unheard : a.isPrompting = false)
    (here : ∃ x ∈ a.expressions, e.From x) :
    Foreseen (a :: actions) ⟨[], [], some (.error e)⟩ ahead := by
  refine Or.inr ⟨List.nil_prefix, e, rfl, a, ?_, here⟩
  exact List.mem_filter.2 ⟨List.mem_cons_self, by simp [unheard]⟩

end Replay.Foreseen

namespace RunDialogue

variable (d : Dialect) {names : List Text}

theorem prompts_play_gathered {statements : List Statement} (s : RunState) {gathered : List Text}
    (enough : (statements.filterMap Statement.site?).length ≤ gathered.length)
    (answers : List Text) :
    ((play d (s.withAnswers gathered) statements).replay answers).prompts = [] := by
  induction statements generalizing s gathered with
  | nil => rw [play, replay_finish]
  | cons statement rest ih =>
    rw [replay_play_cons]
    cases ha : statement.action? with
    | none =>
      have hs : statement.site? = none := by simp [Statement.site?, ha]
      rw [List.filterMap_cons_none hs] at enough
      exact ih s enough
    | some a =>
      have hs : statement.site? = a.site? := by simp [Statement.site?, ha]
      dsimp only
      cases h : a.site? with
      | none =>
        rw [List.filterMap_cons_none (hs.trans h)] at enough
        rw [perform_of_siteless d _ _ h, replay_withEffect, s.effect_withAnswers]
        cases s.effect d a with
        | error e => rfl
        | ok r => exact ih r.2 enough
      | some site =>
        obtain rfl : a = .input site := by cases a <;> cases h; rfl
        rw [List.filterMap_cons_some hs, List.length_cons] at enough
        obtain ⟨answer, gathered, rfl⟩ :=
          List.exists_cons_of_length_pos (Nat.lt_of_lt_of_le (Nat.succ_pos _) enough)
        rw [replay_perform_gathered]
        cases site.promptText s.openLine s.env d with
        | error e => rfl
        | ok prompt => exact ih _ (Nat.le_of_succ_le_succ enough)

variable {s : RunState} {ahead : List Text → RunDialogue} {next : RunState → RunDialogue}
  {gathered : List Text} {rest : List Action}

theorem foreseen_print {p : Print} (apart : s.env.Apart names (.print p :: rest))
    (answers : List Text)
    (later : ∀ openLine,
      Replay.Foreseen rest ((next ({ s with openLine }.withAnswers [])).replay answers)
      ((gather d openLine gathered ahead rest).replay answers)) :
    Replay.Foreseen (.print p :: rest)
      ((perform d (s.withAnswers []) next (.print p)).replay answers)
      ((gather d s.openLine gathered ahead (.print p :: rest)).replay answers) := by
  rw [perform_of_siteless d _ _ rfl, replay_withEffect, s.effect_withAnswers, RunState.effect,
    gather]
  cases hp : p.stream with
  | stderr =>
    cases ht : p.text s.env d with
    | error e => exact .of_broken (by simp [Action.isPrompting, hp]) (Print.text_overwide ht)
    | ok text => exact ((later s.openLine).write _).cons _
  | stdout =>
    have shown := apart.render_eq (by simp [Action.isPrompting, hp]) d
    rw [← Print.text_congr shown]
    cases p.text s.env d with
    | error e => exact Or.inl rfl
    | ok text => exact ((later _).write _).cons _

theorem foreseen_input {site : InputSite} (apart : s.env.Apart names (.input site :: rest))
    (answers : List Text) (later : ∀ prompt answer answers, Replay.Foreseen rest
      ((next ((s.received site prompt answer).2.withAnswers [])).replay answers)
      ((gather d [] (gathered ++ [answer]) ahead rest).replay answers)) :
    Replay.Foreseen (.input site :: rest)
      ((perform d (s.withAnswers []) next (.input site)).replay answers)
      ((gather d s.openLine gathered ahead (.input site :: rest)).replay answers) := by
  rw [gather, ← InputSite.promptText_congr (apart.render_eq rfl d)]
  cases answers with
  | nil =>
    rw [perform_asked d _ _ site rfl, RunState.openLine_withAnswers, RunState.env_withAnswers]
    cases site.promptText s.openLine s.env d <;> exact Or.inl rfl
  | cons answer answers =>
    rw [replay_perform_asked d _ _ site rfl]
    simp only [RunState.openLine_withAnswers, RunState.env_withAnswers,
      RunState.received_withAnswers]
    cases site.promptText s.openLine s.env d with
    | error e => exact Or.inl rfl
    | ok prompt => exact (((later prompt answer answers).write _).ask [prompt]).cons _

/-- Asking ahead requests what the run would, if nothing that goes into a prompt mentions a name
that the run binds, and the run asks nothing itself once it has the answers. -/
theorem foreseen_gather (ahead : List Text → RunDialogue) (statements : List Statement)
    (s : RunState) (gathered answers : List Text)
    (apart : s.env.Apart names (statements.filterMap Statement.action?))
    (asksNothing : ∀ gathered' answers,
      gathered.length + (statements.filterMap Statement.site?).length ≤ gathered'.length →
      ((ahead gathered').replay answers).prompts = []) :
    Replay.Foreseen (statements.filterMap Statement.action?)
      ((play d (s.withAnswers []) statements).replay answers)
      ((gather d s.openLine gathered ahead (statements.filterMap Statement.action?)).replay
        answers) := by
  -- on the statements: both keep the same open line, and only the run knows the variables
  induction statements generalizing s gathered answers with
  | nil =>
    left
    rw [play, replay_finish]
    exact asksNothing gathered answers (Nat.le_refl _)
  | cons statement rest ih =>
    rw [replay_play_cons]
    cases ha : statement.action? with
    | none =>
      have hs : statement.site? = none := by simp [Statement.site?, ha]
      rw [List.filterMap_cons_none ha] at apart ⊢
      rw [List.filterMap_cons_none hs] at asksNothing
      exact ih s gathered answers apart asksNothing
    | some a =>
      have hs : statement.site? = a.site? := by simp [Statement.site?, ha]
      rw [List.filterMap_cons_some ha] at apart ⊢
      dsimp only
      cases a with
      | assign target expr =>
        rw [List.filterMap_cons_none hs] at asksNothing
        rw [perform_of_siteless d _ _ rfl, replay_withEffect, s.effect_withAnswers, RunState.effect]
        cases hv : assignedValue s.env d expr with
        | error e => exact .of_broken rfl (assignedValue_overwide hv)
        | ok value =>
          exact (ih (s.bind (some target) value) gathered answers (apart.assign value)
            asksNothing).cons _
      | print p =>
        rw [List.filterMap_cons_none hs] at asksNothing
        exact foreseen_print d apart answers fun openLine =>
          ih { s with openLine } gathered answers apart.tail asksNothing
      | input site =>
        rw [List.filterMap_cons_some hs, List.length_cons] at asksNothing
        refine foreseen_input d apart answers fun prompt answer answers => ?_
        have apart' :
            (s.received site prompt answer).2.env.Apart names
            (rest.filterMap Statement.action?) := by
          rw [s.env_received]
          exact apart.store answer
        have later :=
          ih (s.received site prompt answer).2 (gathered ++ [answer]) answers apart' fun gathered'
            answers enough =>
          asksNothing gathered' answers (by simp at enough; omega)
        rwa [s.openLine_received] at later

end RunDialogue

/-- Where no text that goes into a prompt mentions a name that the run binds, a run that asks ahead
requests what one that asks as it comes to each site requests, whatever is answered; unless that one
breaks off at an assignment or at a text for the error output, and then it has requested the
beginning of the same prompts. -/
theorem prompts_alike (d : Dialect) (source : Text) (responses : List Response)
    (constant : Unmentioned ((actions d source).filterMap Action.target?) (actions d source)) :
    let perCall := course d .perCall source responses
    let batch := course d .batch source responses
    batch.prompts = perCall.prompts ∨
      perCall.prompts <+: batch.prompts ∧ ∃ e : Overwide,
        perCall.ending = some (.result (.error e)) ∧
        e.FromActions ((actions d source).filter (!·.isPrompting)) := by
  intro perCall batch
  have perCallFollows := course_follows d .perCall source responses
  have batchFollows := course_follows d .batch source responses
  have apart :
    Environment.empty.Apart ((actions d source).filterMap Action.target?) (actions d source) :=
    ⟨fun _ bound => absurd rfl bound, fun a ha name target => List.mem_filterMap.2 ⟨a, ha, target⟩,
      constant⟩
  have foreseen := RunDialogue.foreseen_gather d
    (fun answers => RunDialogue.play d (.start answers) (d.statements none (Text.lines source))) _
    (.start []) []
    (responses.map Response.answer) apart
    fun gathered' answers enough =>
    RunDialogue.prompts_play_gathered d (.start []) (by simpa using enough) answers
  rw [replay_perCall] at perCallFollows
  rw [replay_batch] at batchFollows
  rcases foreseen with same | ⟨front, e, broken, here⟩
  · left
    rw [perCallFollows.prompts, batchFollows.prompts]
    exact same
  · right
    rw [perCallFollows.prompts, batchFollows.prompts, perCallFollows.ending]
    exact ⟨front, e, congrArg (Option.map Ending.result) broken, here⟩

/-- A prompt behind an open line, and one that is computed; the first answer is no number. -/
theorem prompts_alike_of_open_line :
    let source := "total = 3\nprint(\"A\", end=\": \")\nq7 = int(input(\"n? \"))\nw8 = input(f\"\x7b1+1\x7d? \")".toList
    let responses := [.submission " x ".toList (by decide), .cancel]
    let perCall := course .python .perCall source responses
    let batch := course .python .batch source responses
    Unmentioned ((actions .python source).filterMap Action.target?) (actions .python source) ∧
      batch.prompts = perCall.prompts ∧ perCall.prompts = ["A: n? ".toList, "2? ".toList] := by
  intro source responses perCall batch
  have constant :
      Unmentioned ((actions .python source).filterMap Action.target?) (actions .python source) := by
    decide +kernel
  have unbroken : perCall.Unbroken := by decide +kernel
  refine ⟨constant, (prompts_alike .python source responses constant).resolve_right ?_,
    by decide +kernel⟩
  rintro ⟨-, e, broken, -⟩
  exact unbroken e broken

/-- An assignment that asks for too many decimal places breaks off the run before it comes to its
question, which is requested all the same when it is asked ahead. -/
theorem prompts_differ_of_overwide :
    let source := "x = f\"\x7b1:.65536f\x7d\"\nn = input(\"a\")".toList
    Unmentioned ((actions .python source).filterMap Action.target?) (actions .python source) ∧
      (course .python .perCall source []).prompts = [] ∧
      (course .python .batch source []).prompts = ["a".toList] := by
  decide +kernel

end SourcePreview
