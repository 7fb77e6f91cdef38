import SourcePreview.Proofs.Bridge.Lines
import SourcePreview.Proofs.Bridge.Pump

/-! What a bridge passes on, whatever the order of polls, submissions and cancels. For streams in
UTF-8 whose frames are all well formed, nothing is lost, repeated or moved: each line of output has
one entry in its place, each frame one request and one line sent back (`conserves`). -/

namespace SourcePreview.Bridge

def framesOf (lines : List Text) : List Text := lines.filter (Frame.marker ∈ ·)

theorem Relayed.length_framesOf {lines : List Text} {exchanges : List (Text × Text)}
    {entries : List Entry} (h : Relayed lines exchanges entries) :
    (framesOf lines).length = exchanges.length := by
  induction h with
  | nil => rfl
  | plain unmarked _ ih =>
    rw [framesOf, List.filter_cons_of_neg (by simpa using unmarked)]
    exact ih
  | frame asks _ _ ih =>
    rw [framesOf, List.filter_cons_of_pos (by simpa using asks.marked)]
    exact congrArg (· + 1) ih

namespace Observed

variable {output errors : List (Option Text)} {o : Observed} {e : RunEvent} {events : List RunEvent}
  {sent : Text}

theorem written_of_settled {ending : Ending (Except StreamError Unit)}
    (h : o.settled = some (.bridge ending sent)) :
    o.written = sent := by
  rw [written, h]

theorem written_of_task {talk : Talk (Except StreamError Unit)} (hs : o.settled = none)
    (ht : o.bench.tasks.task? 0 = some (.bridge talk sent)) : o.written = sent := by
  rw [written, hs, ht]

theorem written_congr {o' : Observed} (settled : o'.settled = o.settled)
    (tasks : o'.bench.tasks = o.bench.tasks) :
    o'.written = o.written := by
  rw [written, settled, tasks]
  rfl

theorem settled_behind {settlement : Settlement} (hs : o.settled = some settlement)
    (events : List RunEvent) :
    (o.behind events).settled = some settlement := by
  induction events generalizing o with
  | nil => exact hs
  | cons e events ih =>
    apply ih (o := o.follow e)
    rw [follow, hs]
    rfl

theorem Pumping.idle_of_settled (h : Pumping output errors o) (hs : o.settled ≠ none) :
    o.bench.console.input.pending = none := by
  cases h with
  | created _ _ _ _ _ _ settled => exact absurd settled hs
  | resting rests =>
    cases rests with
    | waits waits _ _ => exact absurd waits.settled hs
    | ended _ idle _ _ _ _ => exact idle
  | answered waits _ _ _ => exact absurd waits.settled hs

theorem Pumping.halts (h : Pumping output errors o) (hc : o.bench.cancelled = true)
    (hs : o.settled = none) :
    (o.follow .poll).entries = o.entries ∧
    (o.follow .poll).settled = some (.bridge .cancelled o.written) := by
  have last : ∀ {talk sent}, Heedful errors o.bench.console talk →
      o.bench.tasks.task? 0 = some (.bridge talk sent) →
      (o.follow .poll).entries = o.entries ∧
      (o.follow .poll).settled = some (.bridge .cancelled o.written) := by
    intro talk sent heedful ht
    obtain ⟨-, entries', -, -, -, -, settled'⟩ := follow_poll_cancelled heedful hc ht hs
    rw [written_of_task hs ht]
    exact ⟨entries', settled'⟩
  cases h with
  | created task free _ _ _ _ _ => exact last (.ready output free.idle) task
  | resting rests =>
    cases rests with
    | waits waits _ _ => exact last (.asked _ _) waits.task
    | ended _ _ settled _ _ _ =>
      rw [settled] at hs
      cases hs
  | answered waits _ _ _ => exact last (.asked _ _) waits.task

theorem Pumping.frozen_follow (h : Pumping output errors o) (hc : o.bench.cancelled = true)
    (e : RunEvent) :
    (o.follow e).entries = o.entries ∧ (o.follow e).written = o.written := by
  by_cases he : e = .poll
  · subst he
    cases hs : o.settled with
    | none =>
      obtain ⟨entries', settled'⟩ := h.halts hc hs
      exact ⟨entries', written_of_settled settled'⟩
    | some settlement =>
      cases h with
      | created _ _ _ _ _ _ settled => rw [settled] at hs; cases hs
      | resting rests =>
        cases rests with
        | waits waits _ _ => rw [waits.settled] at hs; cases hs
        | ended task idle settled _ _ _ =>
          obtain ⟨console', tasks', -, -, settled'⟩ := follow_of_ended task idle settled .poll
          exact ⟨by rw [entries, console']; rfl, written_congr settled' tasks'⟩
      | answered waits _ _ _ => rw [waits.settled] at hs; cases hs
  · obtain ⟨tasks, transcript⟩ := Workbench.follow_of_ne_poll (w := o.bench) he
    exact ⟨congrArg Transcript.entries transcript,
      written_congr (settled_follow_of_ne_poll he) tasks⟩

theorem Pumping.frozen (h : Pumping output errors o) (hc : o.bench.cancelled = true)
    (events : List RunEvent) :
    (o.behind events).entries = o.entries ∧ (o.behind events).written = o.written := by
  induction events generalizing o with
  | nil => exact ⟨rfl, rfl⟩
  | cons e events ih =>
    obtain ⟨entries', written'⟩ := h.frozen_follow hc e
    obtain ⟨entries'', written''⟩ := ih (h.follow e) (Workbench.cancelled_follow hc e)
    exact ⟨entries''.trans entries', written''.trans written'⟩

theorem Pumping.halts_behind (h : Pumping output errors o) (hc : o.bench.cancelled = true)
    (hs : o.settled = none) (polled : .poll ∈ events) :
    (o.behind events).settled = some (.bridge .cancelled o.written) ∧
      (o.behind events).bench.console.input.isIdle = true := by
  have settles : (o.behind events).settled = some (.bridge .cancelled o.written) := by
    induction events generalizing o with
    | nil => cases polled
    | cons e events ih =>
      obtain ⟨-, written'⟩ := h.frozen_follow hc e
      by_cases he : e = .poll
      · subst he
        exact settled_behind (h.halts hc hs).2 events
      · have hs' : (o.follow e).settled = none := (settled_follow_of_ne_poll he).trans hs
        have polled' : .poll ∈ events := (List.mem_cons.1 polled).resolve_left (Ne.symm he)
        rw [← written']
        exact ih (h.follow e) (Workbench.cancelled_follow hc e) hs' polled'
  refine ⟨settles, ?_⟩
  rw [Coordinator.isIdle, Option.isNone_iff_eq_none]
  exact (h.behind events).idle_of_settled (by simp [settles])

/-- The answers that were written: those that were accepted, but for the last one if the bridge does
not take it any more, or did not yet. -/
structure Given (o : Observed) (given : List Text) : Prop where
  accepted : ∃ answers, o.answered = given ++ answers ∧ answers.length ≤ 1
  all : ∀ {result sent}, o.settled = some (.bridge (.result result) sent) → given = o.answered
  written : o.written = wire given
  echoes : o.entries.countP (·.kind = .inputEcho) = given.length

theorem given_of_relayed {handled : List Text} {exchanges : List (Text × Text)}
    {relayed : List Entry} {answers : List Text} (told : List Text)
    (relay : Relayed handled exchanges relayed) (entries : o.entries = relayed ++ told.map .error)
    (written : o.written = wire (exchanges.map Prod.snd))
    (answered : o.answered = exchanges.map Prod.snd ++ answers) (last : answers.length ≤ 1)
    (all : (∃ result sent, o.settled = some (.bridge (.result result) sent)) → answers = []) :
    Given o (exchanges.map Prod.snd) := by
  refine ⟨⟨answers, answered, last⟩, ?_, written, ?_⟩
  · intro result sent hs
    rw [answered, all ⟨result, sent, hs⟩, List.append_nil]
  have silent : (told.map Entry.error).countP (·.kind = .inputEcho) = 0 := by
    rw [List.countP_eq_zero]
    intro entry he
    obtain ⟨line, -, rfl⟩ := List.mem_map.1 he
    simp [Entry.error]
  rw [entries, List.countP_append, relay.count_echoes, silent, List.length_map, Nat.add_zero]

theorem given_of_ended {ending : Ending (Except StreamError Unit)}
    (books : Ended output errors o.entries o.asked o.answered sent ending)
    (settled : o.settled = some (.bridge ending sent)) :
    ∃ given, Given o given := by
  have written := written_of_settled settled
  generalize he : o.entries = entries, hb : o.answered = answered, o.asked = asked at books
  cases books with
  | drained split splitErrors relay =>
    exact ⟨_, given_of_relayed _ relay he written (hb.trans (List.append_nil _).symm)
      (Nat.zero_le 1) fun _ => rfl⟩
  | failed split faulty relay =>
    exact ⟨_, given_of_relayed [] relay (he.trans (List.append_nil _).symm) written
      (hb.trans (List.append_nil _).symm) (Nat.zero_le 1) fun _ => rfl⟩
  | garbled split splitErrors relay =>
    exact ⟨_, given_of_relayed _ relay he written (hb.trans (List.append_nil _).symm)
      (Nat.zero_le 1) fun _ => rfl⟩
  | cancelled split relay asks few last =>
    refine ⟨_, given_of_relayed [] relay (he.trans (List.append_nil _).symm) written hb
      (Nat.le_trans few last) ?_⟩
    rintro ⟨result, sent, hs⟩
    rw [settled] at hs
    cases hs

theorem given_of_unsettled {handled : List Text} {exchanges : List (Text × Text)}
    {answers : List Text} (relay : Relayed handled exchanges o.entries)
    (written : o.written = wire (exchanges.map Prod.snd))
    (answered : o.answered = exchanges.map Prod.snd ++ answers) (last : answers.length ≤ 1)
    (settled : o.settled = none) :
    ∃ given, Given o given := by
  refine ⟨_, given_of_relayed [] relay (List.append_nil _).symm written answered last ?_⟩
  rintro ⟨result, sent, hs⟩
  rw [settled] at hs
  cases hs

theorem Pumping.given (h : Pumping output errors o) : ∃ given, Given o given := by
  have waiting :
      ∀ {k prompt rest exchanges answers}, Waits output errors o k prompt rest exchanges →
      o.answered = exchanges.map Prod.snd ++ answers → answers.length ≤ 1 →
      ∃ given, Given o given := by
    intro k prompt rest exchanges answers waits answered last
    obtain ⟨handled, line, -, -, relay⟩ := waits.books
    exact given_of_unsettled relay (written_of_task waits.settled waits.task) answered last
      waits.settled
  cases h with
  | created task free fresh blank asked answered settled =>
    have relay : Relayed [] [] o.entries := by
      rw [blank]
      exact .nil
    exact given_of_unsettled relay (written_of_task settled task) answered (Nat.zero_le 1) settled
  | resting rests =>
    cases rests with
    | waits waits pending answered =>
      exact waiting waits (answered.trans (List.append_nil _).symm) (Nat.zero_le 1)
    | ended task idle settled fresh books heeds => exact given_of_ended books settled
  | answered waits idle ready answered => exact waiting waits answered (Nat.le_refl 1)

theorem answered_follow_poll (o : Observed) : (o.follow .poll).answered = o.answered :=
  List.append_nil _

theorem not_cancelled_behind (hc : o.bench.cancelled = false) (events : List RunEvent)
    (uncancelled : .cancel ∉ events) :
    (o.behind events).bench.cancelled = false := by
  induction events generalizing o with
  | nil => exact hc
  | cons e events ih =>
    rw [List.mem_cons, not_or] at uncancelled
    apply ih (o := o.follow e) _ uncancelled.2
    rw [← hc]
    exact Workbench.cancelled_follow_of_ne (Ne.symm uncancelled.1)

end Observed

def WellFormed (lines : List Text) : Prop :=
  ∀ line ∈ lines, Frame.marker ∈ line → ∃ prompt, Frame.Asks line prompt

theorem WellFormed.not_faulty {lines : List Text} (h : WellFormed lines) {handled : List Text}
    {line : Option Text} {rest : List (Option Text)} {e : StreamError}
    (split : lines.map some = handled.map some ++ line :: rest) :
    ¬ Faulty line e := by
  intro faulty
  have member : line ∈ lines.map some := by
    rw [split]
    exact List.mem_append_right _ List.mem_cons_self
  obtain ⟨text, ht, rfl⟩ := List.mem_map.1 member
  cases faulty with
  | malformed request =>
    by_cases hm : Frame.marker ∈ text
    · obtain ⟨prompt, asks⟩ := h text ht hm
      rw [Frame.ofText_of_asks asks] at request
      cases request
    · rw [Frame.ofText_of_not_mem hm] at request
      cases request

theorem eq_of_map_some {lines lines' : List Text} (h : lines.map some = lines'.map some) :
    lines = lines' :=
  (List.map_inj_right fun _ _ => Option.some.inj).1 h

theorem eq_append_of_map_some {lines handled : List Text} {rest : List (Option Text)}
    (h : lines.map some = handled.map some ++ rest) :
    ∃ later, rest = later.map some ∧ lines = handled ++ later := by
  obtain ⟨front, later, rfl, hf, rfl⟩ := List.map_eq_append_iff.1 h
  exact ⟨later, rfl, by rw [eq_of_map_some hf]⟩

namespace Observed

/-- The account of a bridge at any time: the lines it handled, the exchanges at the frames among
them, and what it wrote for them; the lines of the error stream it wrote, which come when no output
is left; and for the next line, if that is a frame it has asked for, the prompt and the answer, if
that is there. -/
structure Account (output errors : List Text) (o : Observed) (handled later : List Text)
    (exchanges : List (Text × Text)) (relayed : List Entry) (told prompts answers : List Text) :
    Prop where
  split : output = handled ++ later
  relay : Relayed handled exchanges relayed
  entries : o.entries = relayed ++ told.map .error
  order : told = [] ∨ later = [] ∧ told = errors
  written : o.written = wire (exchanges.map Prod.snd)
  asked : o.asked = exchanges.map Prod.fst ++ prompts
  answered : o.answered = exchanges.map Prod.snd ++ answers
  next : ∀ prompt ∈ prompts, ∃ line rest, later = line :: rest ∧ Frame.Asks line prompt
  last : answers.length ≤ prompts.length ∧ prompts.length ≤ 1
  requests : o.bench.console.input.fresh = o.asked.length

variable {output errors : List Text} {o : Observed} {sent : Text}

theorem Waits.account {k : Ticket} {prompt : Text} {rest : List (Option Text)}
    {exchanges : List (Text × Text)}
    (h : Waits (output.map some) (errors.map some) o k prompt rest exchanges) (answers : List Text)
    (answered : o.answered = exchanges.map Prod.snd ++ answers) (last : answers.length ≤ 1) :
    ∃ handled later,
      Account output errors o handled later exchanges o.entries [] [prompt] answers := by
  obtain ⟨handled, line, split, asks, relay⟩ := h.books
  obtain ⟨later, hl, rfl⟩ := eq_append_of_map_some split
  cases later with
  | nil => cases hl
  | cons head later =>
    obtain ⟨rfl, -⟩ : line = head ∧ rest = later.map some := by simpa using hl
    refine ⟨handled, line :: later, rfl, relay, (List.append_nil _).symm, Or.inl rfl,
      written_of_task h.settled h.task, h.asked, answered, ?_, ⟨last, Nat.le_refl 1⟩, h.fresh⟩
    intro p hp
    rw [List.mem_singleton] at hp
    subst hp
    exact ⟨line, later, rfl, asks⟩

theorem account_of_ended {ending : Ending (Except StreamError Unit)}
    (books : Ended (output.map some) (errors.map some) o.entries o.asked o.answered sent ending)
    (settled : o.settled = some (.bridge ending sent))
    (fresh : o.bench.console.input.fresh = o.asked.length) :
    ∃ handled later exchanges relayed told prompts answers,
      Account output errors o handled later exchanges relayed told prompts answers := by
  have written := written_of_settled settled
  generalize he : o.entries = entries, ha : o.asked = asked, hb : o.answered = answered at books
  cases books with
  | @drained handled errorLines exchanges relayed split splitErrors relay =>
    obtain rfl := eq_of_map_some split
    obtain rfl := eq_of_map_some splitErrors
    exact ⟨output, [], exchanges, relayed, errors, [], [], (List.append_nil _).symm, relay, he,
      Or.inr ⟨rfl, rfl⟩, written, by rw [ha, List.append_nil], by rw [hb, List.append_nil],
      List.forall_mem_nil _, ⟨Nat.le_refl 0, Nat.zero_le 1⟩, fresh⟩
  | @failed handled line rest exchanges relayed e split faulty relay =>
    obtain ⟨later, -, rfl⟩ := eq_append_of_map_some split
    exact ⟨handled, later, exchanges, entries, [], [], [], rfl, relay,
      by rw [he]; exact (List.append_nil _).symm, Or.inl rfl, written, by rw [ha, List.append_nil],
      by rw [hb, List.append_nil], List.forall_mem_nil _, ⟨Nat.le_refl 0, Nat.zero_le 1⟩, fresh⟩
  | @garbled handled errorLines rest exchanges relayed split splitErrors relay =>
    obtain ⟨later, hl, -⟩ := eq_append_of_map_some splitErrors
    cases later <;> cases hl
  | @cancelled handled rest exchanges relayed prompts answers split relay asks few last =>
    obtain ⟨later, rfl, rfl⟩ := eq_append_of_map_some split
    refine ⟨handled, later, exchanges, entries, [], prompts, answers, rfl, relay,
      by rw [he]; exact (List.append_nil _).symm, Or.inl rfl, written, ha, hb, ?_, ⟨few, last⟩,
      fresh⟩
    intro prompt hp
    obtain ⟨line, rest, hr, asks⟩ := asks prompt hp
    cases later with
    | nil => cases hr
    | cons head later =>
      obtain ⟨rfl, -⟩ : head = line ∧ later.map Option.some = rest := by simpa using hr
      exact ⟨head, later, rfl, asks⟩

theorem Pumping.account (h : Pumping (output.map some) (errors.map some) o) :
    ∃ handled later exchanges relayed told prompts answers,
      Account output errors o handled later exchanges relayed told prompts answers := by
  cases h with
  | created task free fresh blank asked answered settled =>
    exact ⟨[], output, [], [], [], [], [], rfl, .nil, blank, Or.inl rfl,
      written_of_task settled task, asked, answered, List.forall_mem_nil _,
      ⟨Nat.le_refl 0, Nat.zero_le 1⟩, by rw [fresh, asked]; rfl⟩
  | resting rests =>
    cases rests with
    | waits waits _ answered =>
      obtain ⟨handled, later, account⟩ :=
        waits.account [] (by rw [answered, List.append_nil]) (Nat.zero_le 1)
      exact ⟨_, _, _, _, _, _, _, account⟩
    | ended _ _ settled fresh books _ => exact account_of_ended books settled fresh
  | answered waits _ _ answered =>
    obtain ⟨handled, later, account⟩ := waits.account [_] answered (Nat.le_refl 1)
    exact ⟨_, _, _, _, _, _, _, account⟩

/-- What is seen of a bridge that settled with everything passed on. -/
structure Drained (output errors : List Text) (o : Observed) (exchanges : List (Text × Text))
    (relayed : List Entry) : Prop where
  relay : Relayed output exchanges relayed
  entries : o.entries = relayed ++ errors.map .error
  asked : o.asked = exchanges.map Prod.fst
  answered : o.answered = exchanges.map Prod.snd
  settled : o.settled = some (.bridge (.result (.ok ())) (wire o.answered))

theorem drained_of_ended {ending : Ending (Except StreamError Unit)}
    (wellFormed : WellFormed output)
    (books : Ended (output.map some) (errors.map some) o.entries o.asked o.answered sent ending)
    (settled : o.settled = some (.bridge ending sent)) (running : ending ≠ .cancelled) :
    ∃ exchanges relayed, Drained output errors o exchanges relayed := by
  generalize he : o.entries = entries, ha : o.asked = asked, hb : o.answered = answered at books
  cases books with
  | @drained handled errorLines exchanges relayed split splitErrors relay =>
    obtain rfl := eq_of_map_some split
    obtain rfl := eq_of_map_some splitErrors
    exact ⟨exchanges, relayed, relay, he, ha, hb, by rw [settled, hb]⟩
  | failed split faulty relay => exact absurd faulty (wellFormed.not_faulty split)
  | garbled split splitErrors relay =>
    obtain ⟨later, hl, -⟩ := eq_append_of_map_some splitErrors
    cases later <;> cases hl
  | cancelled split relay asks few last => exact absurd rfl running

theorem Pumping.drained (h : Pumping (output.map some) (errors.map some) o)
    (wellFormed : WellFormed output) (hc : o.bench.cancelled = false) (hs : o.settled ≠ none) :
    ∃ exchanges relayed, Drained output errors o exchanges relayed := by
  cases h with
  | created _ _ _ _ _ _ settled => exact absurd settled hs
  | resting rests =>
    cases rests with
    | waits waits _ _ => exact absurd waits.settled hs
    | ended _ _ settled _ books heeds =>
      refine drained_of_ended wellFormed books settled ?_
      intro hk
      rw [heeds hk] at hc
      cases hc
  | answered waits _ _ _ => exact absurd waits.settled hs

theorem Resting.drained_or_asks (h : Resting (output.map some) (errors.map some) o)
    (wellFormed : WellFormed output) (hc : o.bench.cancelled = false) :
    (o.settled ≠ none ∧ o.answered.length = (framesOf output).length) ∨
      (o.settled = none ∧ ∃ line prompt, (framesOf output)[o.answered.length]? = some line ∧
          Frame.Asks line prompt ∧
        o.bench.console.input.prompt? = some prompt) := by
  cases h with
  | @waits k prompt rest exchanges waits pending answered =>
    right
    obtain ⟨handled, line, split, asks, relay⟩ := waits.books
    obtain ⟨later, hl, rfl⟩ := eq_append_of_map_some split
    refine ⟨waits.settled, line, prompt, ?_, asks,
      by rw [Coordinator.prompt?, pending, Option.map_some]⟩
    cases later with
    | nil => cases hl
    | cons head later =>
      obtain ⟨rfl, -⟩ : line = head ∧ rest = later.map some := by simpa using hl
      have before : o.answered.length = (framesOf handled).length := by
        rw [answered, List.length_map, relay.length_framesOf]
      have frame : framesOf (line :: later) = line :: framesOf later :=
        List.filter_cons_of_pos (by simpa using asks.marked)
      have frames :
          framesOf (handled ++ line :: later) = framesOf handled ++ line :: framesOf later := by
        rw [← frame]
        exact List.filter_append handled (line :: later)
      rw [frames, before, List.getElem?_append_right (Nat.le_refl _), Nat.sub_self]
      rfl
  | ended _ _ settled _ books heeds =>
    left
    have hs : o.settled ≠ none := by simp [settled]
    refine ⟨hs, ?_⟩
    obtain ⟨exchanges, relayed, drained⟩ := drained_of_ended wellFormed books settled fun hk => by
      rw [heeds hk] at hc
      cases hc
    rw [drained.answered, List.length_map, drained.relay.length_framesOf]

/-- What holds of a bridge behind a history of events. -/
structure Conserves (output errors : List Text) (start : Observed) (events : List RunEvent) :
    Prop where
  /-- At any time each line is accounted for. -/
  account : ∃ handled later exchanges relayed told prompts answers,
    Account output errors (start.behind events) handled later exchanges relayed told prompts answers
  /-- At any time there is one echo for each answer that was written. -/
  echoes : ∃ given, Given (start.behind events) given
  /-- Without a cancel it settles with everything passed on. -/
  drained : .cancel ∉ events → (start.behind events).settled ≠ none →
    ∃ exchanges relayed, Drained output errors (start.behind events) exchanges relayed
  /-- Without a cancel it settles at a poll once every frame is answered. -/
  settles : .cancel ∉ events → (framesOf output).length ≤ (start.behind events).answered.length →
    ((start.behind events).follow .poll).settled ≠ none
  /-- Without a cancel it asks for the answer to the next frame at a poll before. -/
  asks : .cancel ∉ events → (start.behind events).answered.length < (framesOf output).length →
    ∃ line prompt, (framesOf output)[(start.behind events).answered.length]? = some line ∧
      Frame.Asks line prompt ∧
      ((start.behind events).follow .poll).bench.console.input.prompt? = some prompt
  /-- Once it is cancelled it writes and sends nothing, and unless it is over it settles so when it
  is polled. -/
  halts : ∀ before after, events = before ++ .cancel :: after →
    (start.behind events).entries = (start.behind before).entries ∧
      (start.behind events).written = (start.behind before).written ∧
        ((start.behind before).settled = none → .poll ∈ after →
          (start.behind events).settled = some (.bridge .cancelled (start.behind before).written) ∧
            (start.behind events).bench.console.input.isIdle = true)

/-- A bridge over two texts whose frames are well formed, alone at its workbench: no line is lost,
repeated or moved, and none written behind a cancel. -/
theorem conserves (output errors : Text) (wellFormed : WellFormed (Text.lines output))
    (events : List RunEvent) :
    Conserves (Text.lines output) (Text.lines errors)
      (ofStreams output.utf8 errors.utf8) events := by
  have start := pumping_ofStreams output.utf8 errors.utf8
  rw [linesOf_utf8, linesOf_utf8] at start
  have now := start.behind events
  have next : .cancel ∉ events → _ := fun uncancelled => by
    have hc := not_cancelled_behind (o := ofStreams output.utf8 errors.utf8) rfl events uncancelled
    exact now.follow_poll.drained_or_asks wellFormed
      ((Workbench.cancelled_follow_of_ne (by simp)).trans hc)
  refine ⟨now.account, now.given, ?_, ?_, ?_, ?_⟩
  · intro uncancelled hs
    exact now.drained wellFormed (not_cancelled_behind rfl events uncancelled) hs
  · intro uncancelled every
    have answered := answered_follow_poll ((ofStreams output.utf8 errors.utf8).behind events)
    rcases next uncancelled with ⟨hs, -⟩ | ⟨-, line, prompt, hl, -⟩
    · exact hs
    · rw [answered] at hl
      exact absurd (List.getElem?_eq_some_iff.1 hl).1 (Nat.not_lt.2 every)
  · intro uncancelled fewer
    have answered := answered_follow_poll ((ofStreams output.utf8 errors.utf8).behind events)
    rcases next uncancelled with ⟨-, hl⟩ | ⟨-, line, prompt, hl, asks, shown⟩
    · rw [answered] at hl
      exact absurd hl (Nat.ne_of_lt fewer)
    · rw [answered] at hl
      exact ⟨line, prompt, hl, asks, shown⟩
  · rintro before after rfl
    have suspended := start.behind before
    rw [behind_append]
    generalize (ofStreams output.utf8 errors.utf8).behind before = b at suspended
    have cancelled : Pumping _ _ (b.follow .cancel) := suspended.follow .cancel
    have hc : (b.follow .cancel).bench.cancelled = true := rfl
    have written : (b.follow .cancel).written = b.written :=
      written_congr (settled_follow_of_ne_poll (by simp)) rfl
    obtain ⟨entries', written'⟩ := cancelled.frozen hc after
    refine ⟨entries', written'.trans written, ?_⟩
    intro hs polled
    rw [← written]
    exact cancelled.halts_behind hc ((settled_follow_of_ne_poll (by simp)).trans hs) polled

/-- Two frames, one answered by a submission and one by a cancel of the request. -/
theorem conserves_of_two_frames :
    let output : Text := "a\r\nb> \x1e\"n\"\nc\n\x1e\"m\"\nd".toList
    let errors : Text := "e\n".toList
    let events := [.poll, .submit " 1 ".toList, .poll, .cancelInput]
    let o := (ofStreams output.utf8 errors.utf8).behind events
    WellFormed (Text.lines output) ∧
      Conserves (Text.lines output) (Text.lines errors) (ofStreams output.utf8 errors.utf8) events ∧
        o.answered = ["1".toList, []] ∧ (o.follow .poll).settled ≠ none := by
  intro output errors events o
  have lines : Text.lines output = ["a".toList, "b> \x1e\"n\"".toList, "c".toList,
      "\x1e\"m\"".toList, "d".toList] := by
    decide
  have wellFormed : WellFormed (Text.lines output) := by
    rw [lines]
    intro line hl marked
    simp only [List.mem_cons, List.not_mem_nil, or_false] at hl
    rcases hl with rfl | rfl | rfl | rfl | rfl
    · exact absurd marked (by decide)
    · exact ⟨"b> n".toList, "b> ".toList, "\"n\"".toList, "n".toList, by decide, by decide,
        by decide, by decide⟩
    · exact absurd marked (by decide)
    · exact ⟨"m".toList, [], "\"m\"".toList, "m".toList, by decide, by decide, by decide, by decide⟩
    · exact absurd marked (by decide)
  have all := conserves output errors wellFormed events
  have told : Text.lines errors = ["e".toList] := by decide
  have answered : o.answered = ["1".toList, []] := by
    have start : ofStreams output.utf8 errors.utf8 =
        ⟨(Workbench.empty.start
          (.bridge (.ready (forward [some "e".toList] ((Text.lines output).map some))) [])).2, [],
          [], none⟩ := by
      rw [ofStreams, Workbench.ofStreams, Task.ofStreams, linesOf_utf8, linesOf_utf8, told]
      rfl
    change ((ofStreams output.utf8 errors.utf8).behind events).answered = _
    rw [start, lines]
    decide +kernel
  refine ⟨wellFormed, all, answered, all.settles (by decide) ?_⟩
  have frames : framesOf (Text.lines output) = ["b> \x1e\"n\"".toList, "\x1e\"m\"".toList] := by
    rw [lines]
    decide
  rw [frames]
  exact Nat.le_of_eq (congrArg List.length answered).symm

theorem fails_at_faulty (output errors : List UInt8) (events : List RunEvent) {e : StreamError}
    {sent : Text}
    (failed : ((ofStreams output errors).behind events).settled =
      some (.bridge (.result (.error e)) sent)) :
    let o := (ofStreams output errors).behind events
    ∃ handled exchanges relayed told, Relayed handled exchanges relayed ∧
      o.entries = relayed ++ told.map .error ∧
      o.answered = exchanges.map Prod.snd ∧ sent = wire o.answered ∧
        ((told = [] ∧ ∃ line rest, linesOf output = handled.map some ++ line :: rest ∧
          Faulty line e) ∨
          (linesOf output = handled.map some ∧ e = .undecodable ∧
            ∃ rest, linesOf errors = told.map some ++ none :: rest)) := by
  intro o
  have now := (pumping_ofStreams output errors).behind events
  have final : ∀ {ending sent'}, o.settled = some (.bridge ending sent') →
      ending = .result (.error e) ∧ sent' = sent := by
    intro ending sent' hs
    have same := hs.symm.trans failed
    simpa using same
  cases now with
  | created _ _ _ _ _ _ settled => rw [settled] at failed; cases failed
  | answered waits _ _ _ => rw [waits.settled] at failed; cases failed
  | resting rests =>
    cases rests with
    | waits waits _ _ => rw [waits.settled] at failed; cases failed
    | ended _ _ settled _ books _ =>
      obtain ⟨rfl, rfl⟩ := final settled
      generalize ((ofStreams output errors).behind events).entries = entries,
        ((ofStreams output errors).behind events).asked = asked,
        ((ofStreams output errors).behind events).answered = answered at books
      cases books with
      | @failed handled line rest exchanges relayed _ split faulty relay =>
        exact ⟨handled, exchanges, entries, [], relay, (List.append_nil _).symm, rfl, rfl,
          Or.inl ⟨rfl, line, rest, split, faulty⟩⟩
      | @garbled handled errorLines rest exchanges relayed split splitErrors relay =>
        exact ⟨handled, exchanges, relayed, errorLines, relay, rfl, rfl, rfl,
          Or.inr ⟨split, rfl, rest, splitErrors⟩⟩

end Observed

end SourcePreview.Bridge
