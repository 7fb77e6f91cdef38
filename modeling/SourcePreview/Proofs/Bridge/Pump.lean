import SourcePreview.Proofs.Bridge.Relay
import SourcePreview.Proofs.Run.Cancellation

/-! A bridge that has a workbench to itself, over all histories of polls, submissions and cancels.
`Bridge.Observed` logs what is seen of it: the prompts it asks for, the answers that the coordinator
accepts, and what it settles with. In each state it was not polled yet, waits at a frame, or is over
(`Pumping`), and each state says what became of every line so far. -/

namespace SourcePreview

def Coordinator.accepted? (c : Coordinator) : RunEvent → Option Text
  | .submit text =>
    match (c.submit text).1 with
    | .ok () => some (Text.trim text)
    | .error _ => none
  | .cancelInput => if c.isIdle then none else some []
  | .poll => none
  | .cancel => none

namespace Coordinator

variable {c : Coordinator} {r : Request}

theorem accepted?_of_idle (h : c.pending = none) (e : RunEvent) : c.accepted? e = none := by
  cases e with
  | poll => rfl
  | submit text => rw [accepted?, submit_of_idle h]
  | cancelInput => rw [accepted?, isIdle, h, Option.isNone_none, if_pos rfl]
  | cancel => rfl

theorem accepted?_eq_none {text : Text} (hr : c.pending = some r) (blank : Text.trim text = []) :
    c.accepted? (.submit text) = none := by
  rw [accepted?, submit_of_blank (by simp [hr]) blank]

theorem accepted?_submit {text : Text} (hr : c.pending = some r) (attended : r.attended = true)
    (filled : Text.trim text ≠ []) : c.accepted? (.submit text) = some (Text.trim text) := by
  rw [accepted?, submit_of_filled hr filled, attended, if_pos rfl]

theorem accepted?_cancelInput (hr : c.pending = some r) : c.accepted? .cancelInput = some [] := by
  rw [accepted?, isIdle, hr, Option.isNone_some, if_neg Bool.false_ne_true]

end Coordinator

namespace Workbench

variable {w : Workbench} {e : RunEvent} {r : Request}

theorem input_follow_of_idle (he : e ≠ .poll) (h : w.console.input.pending = none) :
    (w.follow e).console.input = w.console.input := by
  cases e with
  | poll => exact absurd rfl he
  | submit text => exact congrArg Prod.snd (Coordinator.submit_of_idle h text)
  | cancelInput => simp [follow, step, withInput, Coordinator.cancel, h]
  | cancel => rfl

theorem input_follow_of_pending (he : e ≠ .poll) (hr : w.console.input.pending = some r)
    (attended : r.attended = true) :
    (w.follow e).console.input =
      match w.console.input.accepted? e with
      | none => w.console.input
      | some answer => w.console.input.resolve r answer := by
  cases e with
  | poll => exact absurd rfl he
  | submit text =>
    by_cases ht : Text.trim text = []
    · rw [Coordinator.accepted?_eq_none hr ht]
      exact congrArg Prod.snd (Coordinator.submit_of_blank (by simp [hr]) ht)
    · rw [Coordinator.accepted?_submit hr attended ht]
      exact congrArg Prod.snd (Coordinator.submit_of_filled hr ht)
  | cancelInput =>
    rw [Coordinator.accepted?_cancelInput hr]
    simp [follow, step, withInput, Coordinator.cancel, hr]
  | cancel => rfl

theorem cancelled_follow_of_ne (he : e ≠ .cancel) : (w.follow e).cancelled = w.cancelled := by
  cases e with
  | poll =>
    rw [follow, poll]
    cases w.tasks.task? 0 <;> rfl
  | submit text => rfl
  | cancelInput => rfl
  | cancel => exact absurd rfl he

def ofStreams (output errors : List UInt8) : Workbench := (empty.start (.ofStreams output errors)).2

variable {talk : Talk (Except Bridge.StreamError Unit)} {sent : Text}

theorem poll_bridge (ht : w.tasks.task? 0 = some (.bridge talk sent)) :
    w.poll 0 = w.put (talk.advance w.cancelled w.console sent).console 0
      (match (talk.advance w.cancelled w.console sent).progress with
        | .waiting => some (.bridge talk sent)
        | .moved talk' => some (.bridge talk' (talk.advance w.cancelled w.console sent).sent)
        | .settled _ => none) := by
  rw [poll_of_task? ht, Task.poll]
  dsimp only
  cases (talk.advance w.cancelled w.console sent).progress <;> rfl

theorem settlement?_bridge (ht : w.tasks.task? 0 = some (.bridge talk sent)) :
    w.settlement? 0 =
      match (talk.advance w.cancelled w.console sent).progress with
      | .settled ending => some (.bridge ending (talk.advance w.cancelled w.console sent).sent)
      | _ => none := by
  rw [settlement?_of_task? ht, Task.poll]
  dsimp only
  cases (talk.advance w.cancelled w.console sent).progress <;> rfl

end Workbench

namespace Bridge

/-- A bridge at a workbench, and what was seen of it. -/
structure Observed where
  bench : Workbench
  asked : List Text
  answered : List Text
  settled : Option Settlement

namespace Observed

def ofStreams (output errors : List UInt8) : Observed := ⟨.ofStreams output errors, [], [], none⟩

/-- A request is seen by its ticket, an answer when it is accepted, and a settlement at the poll
that brings it. -/
def follow (o : Observed) (e : RunEvent) : Observed where
  bench := o.bench.follow e
  asked := o.asked ++
    if (o.bench.follow e).console.input.fresh = o.bench.console.input.fresh then []
    else (o.bench.follow e).console.input.prompt?.toList
  answered := o.answered ++ (o.bench.console.input.accepted? e).toList
  settled := o.settled <|> if e = .poll then o.bench.settlement? 0 else none

def behind (o : Observed) (events : List RunEvent) : Observed := events.foldl follow o

def entries (o : Observed) : List Entry := o.bench.console.transcript.entries

def written (o : Observed) : Text :=
  match o.settled with
  | some (.bridge _ sent) => sent
  | _ =>
    match o.bench.tasks.task? 0 with
    | some (.bridge _ sent) => sent
    | _ => []

theorem behind_append (o : Observed) (xs ys : List RunEvent) :
    o.behind (xs ++ ys) = (o.behind xs).behind ys :=
  List.foldl_append

end Observed

/-- How a bridge ended that wrote, asked for, got and sent what the arguments say. A bridge that was
cancelled may have asked for one answer more than it handled, and may not have looked at the last
answer it got. -/
inductive Ended (output errors : List (Option Text)) :
    List Entry → List Text → List Text → Text → Ending (Except StreamError Unit) → Prop where
  | drained {handled errorLines : List Text} {exchanges : List (Text × Text)} {relayed : List Entry}
      (split : output = handled.map some) (splitErrors : errors = errorLines.map some)
      (relay : Relayed handled exchanges relayed) :
    Ended output errors (relayed ++ errorLines.map .error) (exchanges.map Prod.fst)
      (exchanges.map Prod.snd) (wire (exchanges.map Prod.snd)) (.result (.ok ()))
  | failed {handled : List Text} {line : Option Text} {rest : List (Option Text)}
      {exchanges : List (Text × Text)} {relayed : List Entry} {e : StreamError}
      (split : output = handled.map some ++ line :: rest) (faulty : Faulty line e)
      (relay : Relayed handled exchanges relayed) :
    Ended output errors relayed (exchanges.map Prod.fst) (exchanges.map Prod.snd)
      (wire (exchanges.map Prod.snd)) (.result (.error e))
  | garbled {handled errorLines : List Text} {rest : List (Option Text)}
      {exchanges : List (Text × Text)} {relayed : List Entry} (split : output = handled.map some)
      (splitErrors : errors = errorLines.map some ++ none :: rest)
      (relay : Relayed handled exchanges relayed) :
    Ended output errors (relayed ++ errorLines.map .error) (exchanges.map Prod.fst)
      (exchanges.map Prod.snd) (wire (exchanges.map Prod.snd)) (.result (.error .undecodable))
  | cancelled {handled : List Text} {rest : List (Option Text)} {exchanges : List (Text × Text)}
      {relayed : List Entry} {prompts answers : List Text}
      (split : output = handled.map some ++ rest) (relay : Relayed handled exchanges relayed)
      (asked : ∀ prompt ∈ prompts, ∃ line later, rest = some line :: later ∧ Frame.Asks line prompt)
      (answered : answers.length ≤ prompts.length) (last : prompts.length ≤ 1) :
    Ended output errors relayed (exchanges.map Prod.fst ++ prompts)
      (exchanges.map Prod.snd ++ answers) (wire (exchanges.map Prod.snd)) .cancelled

namespace Observed

/-- A bridge that asked for the answer to a frame: what it handled before, and what follows the
answer. -/
structure Waits (output errors : List (Option Text)) (o : Observed) (k : Ticket) (prompt : Text)
    (rest : List (Option Text)) (exchanges : List (Text × Text)) : Prop where
  books : ∃ handled line, output = handled.map some ++ some line :: rest ∧ Frame.Asks line prompt ∧
    Relayed handled exchanges o.entries
  task : o.bench.tasks.task? 0 =
    some (.bridge (.asked k (followUp errors rest prompt)) (wire (exchanges.map Prod.snd)))
  sound : o.bench.console.input.Sound
  writable : o.bench.console.transcript.stopped = false
  asked : o.asked = exchanges.map Prod.fst ++ [prompt]
  fresh : o.bench.console.input.fresh = o.asked.length
  settled : o.settled = none

/-- Where a poll leaves a bridge: at a frame, or at its end. -/
inductive Resting (output errors : List (Option Text)) (o : Observed) : Prop where
  | waits {k : Ticket} {prompt : Text} {rest : List (Option Text)} {exchanges : List (Text × Text)}
    (waits : Waits output errors o k prompt rest exchanges)
    (pending : o.bench.console.input.pending = some ⟨k, prompt, true⟩) (answered : o.answered =
      exchanges.map Prod.snd)
  | ended {ending : Ending (Except StreamError Unit)} {sent : Text}
      (task : o.bench.tasks.task? 0 = none)
    (idle : o.bench.console.input.pending = none) (settled : o.settled = some (.bridge ending sent))
    (fresh : o.bench.console.input.fresh = o.asked.length)
    (books : Ended output errors o.entries o.asked o.answered sent ending)
    (heeds : ending = .cancelled → o.bench.cancelled = true)

/-- The states of a bridge: not polled yet, where a poll left it, or with the answer to its
frame. -/
inductive Pumping (output errors : List (Option Text)) (o : Observed) : Prop where
  | created (task : o.bench.tasks.task? 0 = some (.bridge (.ready (forward errors output)) []))
      (free : o.bench.console.Free)
    (fresh : o.bench.console.input.fresh = 0) (blank : o.entries = []) (asked : o.asked = [])
    (answered : o.answered = [])
    (settled : o.settled = none)
  | resting (rests : Resting output errors o)
  | answered {k : Ticket} {prompt answer : Text} {rest : List (Option Text)}
      {exchanges : List (Text × Text)}
    (waits : Waits output errors o k prompt rest exchanges) (idle : o.bench.console.input.pending =
      none)
    (ready : o.bench.console.input.answer? k = some answer) (answered : o.answered =
      exchanges.map Prod.snd ++ [answer])

variable {output errors : List (Option Text)} {o : Observed} {e : RunEvent}

theorem pumping_ofStreams (output errors : List UInt8) :
    Pumping (linesOf output) (linesOf errors) (ofStreams output errors) :=
  .created rfl Console.free_empty rfl rfl rfl rfl rfl

/-- A state behind the lines that the bridge handled, from where it goes on with the rest of the
output. -/
structure Handled (output : List (Option Text)) (c : Console) (handled : List Text)
    (rest : List (Option Text)) (exchanges : List (Text × Text)) : Prop where
  free : c.Free
  split : output = handled.map some ++ rest
  relay : Relayed handled exchanges c.transcript.entries
  fresh : c.input.fresh = exchanges.length

variable {c : Console} {handled : List Text} {rest : List (Option Text)}
  {exchanges : List (Text × Text)} {stand : Stand (Except StreamError Unit)}

theorem Handled.pass (h : Handled output c handled rest exchanges) {passed : List Text}
    (later : List (Option Text)) (split : rest = passed.map some ++ later)
    (plain : ∀ line ∈ passed, Frame.marker ∉ line) :
    Handled output ((passed.map Entry.output).foldl Console.push c) (handled ++ passed) later
    exchanges := by
  refine ⟨h.free.foldl_push _, ?_, ?_, ?_⟩
  · rw [h.split, split, List.map_append, List.append_assoc]
  · rw [h.free.entries_foldl_push]
    have both := h.relay.append (Relayed.of_plain plain)
    rwa [List.append_nil] at both
  · rw [Console.input_foldl_push, h.fresh]

theorem Handled.ended (h : Handled output c handled rest exchanges) (last : List Entry)
    {ending : Ending (Except StreamError Unit)}
    (console : o.bench.console = last.foldl Console.push c) (task : o.bench.tasks.task? 0 = none)
    (asked : o.asked = exchanges.map Prod.fst) (answered : o.answered = exchanges.map Prod.snd)
    (settled : o.settled = some (.bridge ending (wire (exchanges.map Prod.snd))))
    (running : ending ≠ .cancelled)
    (books : Ended output errors (c.transcript.entries ++ last) (exchanges.map Prod.fst)
      (exchanges.map Prod.snd) (wire (exchanges.map Prod.snd)) ending) :
    Resting output errors o := by
  refine .ended task ?_ settled ?_ ?_ fun he => absurd he running
  · rw [console, Console.input_foldl_push, h.free.idle]
  · rw [console, Console.input_foldl_push, h.fresh, asked, List.length_map]
  · rw [entries, console, h.free.entries_foldl_push, asked, answered]
    exact books

theorem Handled.resting (h : Handled output c handled rest exchanges) {waiting : Option Task}
    (forwarded : Forwarded errors c (wire (exchanges.map Prod.snd)) rest stand)
    (console : o.bench.console = stand.console) (task : o.bench.tasks.task? 0 =
      match stand.progress with
      | .waiting => waiting
      | .moved talk => some (.bridge talk stand.sent)
      | .settled _ => none)
    (asked : o.asked = exchanges.map Prod.fst ++
      if stand.console.input.fresh = c.input.fresh then [] else stand.console.input.prompt?.toList)
    (answered : o.answered = exchanges.map Prod.snd)
    (settled : o.settled =
      match stand.progress with
      | .settled ending => some (.bridge ending stand.sent)
      | _ => none) :
    Resting output errors o := by
  cases forwarded with
  | @asks passed line prompt later split plain asks =>
    have before := h.pass (some line :: later) split plain
    have asked' : o.asked = exchanges.map Prod.fst ++ [prompt] := by
      rw [asked, if_neg]
      · rfl
      · exact Nat.succ_ne_self _
    have waits : Waits output errors o c.input.fresh prompt later exchanges := by
      refine ⟨⟨handled ++ passed, line, before.split, asks, ?_⟩, task, ?_, ?_, asked', ?_, settled⟩
      · rw [entries, console]
        exact before.relay
      · rw [console]
        exact h.free.sound.awaiting prompt
      · rw [console]
        exact before.free.writable
      · rw [console, asked', List.length_append, List.length_map, ← h.fresh]
        rfl
    refine .waits waits ?_ answered
    rw [console]
    rfl
  | @drains passed errorLines split plain splitErrors =>
    have before := h.pass [] (by rw [split, List.append_nil]) plain
    rw [if_pos (by rw [Console.input_foldl_push]), List.append_nil] at asked
    refine before.ended (errorLines.map .error) ?_ task asked answered settled (by simp)
      (.drained ?_ splitErrors before.relay)
    · rw [console, List.foldl_append]
    · rw [before.split, List.append_nil]
  | @fails passed line later e split plain faulty =>
    have before := h.pass (line :: later) split plain
    rw [if_pos (by rw [Console.input_foldl_push]), List.append_nil] at asked
    refine before.ended [] console task asked answered settled (by simp) ?_
    rw [List.append_nil]
    exact .failed before.split faulty before.relay
  | @garbled passed errorLines later split plain splitErrors =>
    have before := h.pass [] (by rw [split, List.append_nil]) plain
    rw [if_pos (by rw [Console.input_foldl_push]), List.append_nil] at asked
    refine before.ended (errorLines.map .error) ?_ task asked answered settled (by simp)
      (.garbled ?_ splitErrors before.relay)
    · rw [console, List.foldl_append]
    · rw [before.split, List.append_nil]

theorem settled_follow_of_ne_poll (he : e ≠ .poll) : (o.follow e).settled = o.settled := by
  rw [Observed.follow, if_neg he]
  cases o.settled <;> rfl

theorem follow_of_idle (he : e ≠ .poll) (idle : o.bench.console.input.pending = none) :
    (o.follow e).bench.console = o.bench.console ∧ (o.follow e).bench.tasks = o.bench.tasks ∧
      (o.follow e).asked = o.asked ∧ (o.follow e).answered = o.answered ∧
      (o.follow e).settled = o.settled := by
  obtain ⟨tasks, transcript⟩ := Workbench.follow_of_ne_poll (w := o.bench) he
  have input := Workbench.input_follow_of_idle he idle
  refine ⟨?_, tasks, ?_, ?_, settled_follow_of_ne_poll he⟩
  · change (⟨(o.bench.follow e).console.transcript, (o.bench.follow e).console.input⟩ : Console) = _
    rw [transcript, input]
  · rw [follow, input, if_pos rfl, List.append_nil]
  · rw [follow, Coordinator.accepted?_of_idle idle, Option.toList_none, List.append_nil]

theorem follow_of_pending (he : e ≠ .poll) {r : Request}
    (hr : o.bench.console.input.pending = some r) (attended : r.attended = true) :
    (o.follow e).bench.console =
        { o.bench.console with input :=
          match o.bench.console.input.accepted? e with
          | none => o.bench.console.input
          | some answer => o.bench.console.input.resolve r answer } ∧
      (o.follow e).bench.tasks = o.bench.tasks ∧ (o.follow e).asked = o.asked ∧
        (o.follow e).answered = o.answered ++ (o.bench.console.input.accepted? e).toList ∧
          (o.follow e).settled = o.settled := by
  obtain ⟨tasks, transcript⟩ := Workbench.follow_of_ne_poll (w := o.bench) he
  have input := Workbench.input_follow_of_pending he hr attended
  refine ⟨?_, tasks, ?_, rfl, settled_follow_of_ne_poll he⟩
  · change (⟨(o.bench.follow e).console.transcript, (o.bench.follow e).console.input⟩ : Console) = _
    rw [transcript, input]
  · have fresh : (o.bench.follow e).console.input.fresh = o.bench.console.input.fresh := by
      rw [input]
      cases o.bench.console.input.accepted? e <;> rfl
    rw [follow, fresh, if_pos rfl, List.append_nil]

variable {talk : Talk (Except StreamError Unit)} {sent : Text}

theorem follow_poll (ht : o.bench.tasks.task? 0 = some (.bridge talk sent))
    (hs : o.settled = none) :
    let stand := talk.advance o.bench.cancelled o.bench.console sent
    (o.follow .poll).bench.console = stand.console ∧
      (o.follow .poll).bench.tasks.task? 0 =
        (match stand.progress with
        | .waiting => some (.bridge talk sent)
        | .moved talk' => some (.bridge talk' stand.sent)
        | .settled _ => none) ∧
      (o.follow .poll).asked = o.asked ++
        (if stand.console.input.fresh = o.bench.console.input.fresh then [] else
          stand.console.input.prompt?.toList) ∧
      (o.follow .poll).answered = o.answered ∧
      (o.follow .poll).settled =
        match stand.progress with
        | .settled ending => some (.bridge ending stand.sent)
        | _ => none := by
  intro stand
  have hn : o.bench.tasks.task? 0 ≠ none := by simp [ht]
  have bench : (o.follow .poll).bench = o.bench.put stand.console 0
      (match stand.progress with
        | .waiting => some (.bridge talk sent)
        | .moved talk' => some (.bridge talk' stand.sent)
        | .settled _ => none) := Workbench.poll_bridge ht
  have seen : (o.follow .poll).asked = o.asked ++
      if (o.follow .poll).bench.console.input.fresh = o.bench.console.input.fresh then []
      else (o.follow .poll).bench.console.input.prompt?.toList := rfl
  refine ⟨?_, ?_, ?_, List.append_nil _, ?_⟩
  · rw [bench, Workbench.put]
  · rw [bench, Workbench.put, Pool.task?_set_self hn]
  · rw [seen, bench, Workbench.put]
  · rw [follow, if_pos rfl, hs, Workbench.settlement?_bridge ht]
    rfl

theorem follow_of_ended (ht : o.bench.tasks.task? 0 = none)
    (idle : o.bench.console.input.pending = none) {settlement : Settlement}
    (hs : o.settled = some settlement) (e : RunEvent) :
    (o.follow e).bench.console = o.bench.console ∧ (o.follow e).bench.tasks = o.bench.tasks ∧
      (o.follow e).asked = o.asked ∧ (o.follow e).answered = o.answered ∧
      (o.follow e).settled = o.settled := by
  by_cases he : e = .poll
  · subst he
    have bench : o.bench.follow .poll = o.bench := by
      rw [Workbench.follow, Workbench.poll, ht]
    refine ⟨?_, ?_, ?_, List.append_nil _, ?_⟩
    · rw [follow, bench]
    · rw [follow, bench]
    · rw [follow, bench, if_pos rfl, List.append_nil]
    · rw [follow, hs]
      rfl
  · exact follow_of_idle he idle

theorem ended_follow {ending : Ending (Except StreamError Unit)}
    (task : o.bench.tasks.task? 0 = none) (idle : o.bench.console.input.pending = none)
    (settled : o.settled = some (.bridge ending sent))
    (fresh : o.bench.console.input.fresh = o.asked.length)
    (books : Ended output errors o.entries o.asked o.answered sent ending)
    (heeds : ending = .cancelled → o.bench.cancelled = true) (e : RunEvent) :
    Resting output errors (o.follow e) := by
  obtain ⟨console', tasks', asked', answered', settled'⟩ := follow_of_ended task idle settled e
  refine .ended ?_ ?_ (settled'.trans settled) ?_ ?_ ?_
  · rw [tasks', task]
  · rw [console', idle]
  · rw [console', asked', fresh]
  · rw [entries, console', asked', answered']
    exact books
  · intro hc
    exact Workbench.cancelled_follow (heeds hc) e

theorem Waits.congr {o' : Observed} {k : Ticket} {prompt : Text}
    (h : Waits output errors o k prompt rest exchanges)
    (transcript : o'.bench.console.transcript = o.bench.console.transcript)
    (sound : o'.bench.console.input.Sound)
    (fresh : o'.bench.console.input.fresh = o.bench.console.input.fresh)
    (task : o'.bench.tasks.task? 0 = o.bench.tasks.task? 0) (asked : o'.asked = o.asked)
    (settled : o'.settled = o.settled) : Waits output errors o' k prompt rest exchanges where
  books := by
    rw [entries, transcript]
    exact h.books
  task := by rw [task, h.task]
  sound := sound
  writable := by rw [transcript, h.writable]
  asked := by rw [asked, h.asked]
  fresh := by rw [fresh, asked, h.fresh]
  settled := by rw [settled, h.settled]

theorem Waits.follow {k : Ticket} {prompt : Text}
    (h : Waits output errors o k prompt rest exchanges) (he : e ≠ .poll)
    (pending : o.bench.console.input.pending = some ⟨k, prompt, true⟩)
    (answered : o.answered = exchanges.map Prod.snd) :
    Pumping output errors (o.follow e) := by
  obtain ⟨console', tasks', asked', answered', settled'⟩ := follow_of_pending he pending rfl
  cases ha : o.bench.console.input.accepted? e with
  | none =>
    rw [ha] at console' answered'
    refine .resting (.waits (h.congr ?_ ?_ ?_ (by rw [tasks']) asked' settled') ?_ ?_)
    · rw [console']
    · rw [console']
      exact h.sound
    · rw [console']
    · rw [console']
      exact pending
    · rw [answered', answered]
      exact List.append_nil _
  | some answer =>
    rw [ha] at console' answered'
    have ready : (o.follow e).bench.console.input.answer? k = some answer := by
      rw [console']
      exact Coordinator.answer?_resolve_self rfl
    refine .answered (h.congr ?_ ?_ ?_ (by rw [tasks']) asked' settled') ?_ ready ?_
    · rw [console']
    · rw [console']
      exact h.sound.resolve pending answer
    · rw [console']
      rfl
    · rw [console']
      rfl
    · rw [answered', answered]
      rfl

theorem Pumping.follow_of_ne_poll (h : Pumping output errors o) (he : e ≠ .poll) :
    Pumping output errors (o.follow e) := by
  cases h with
  | created task free fresh blank asked answered settled =>
    obtain ⟨console', tasks', asked', answered', settled'⟩ := follow_of_idle he free.idle
    refine .created ?_ ?_ ?_ ?_ ?_ ?_ ?_
    · rw [tasks', task]
    · rwa [console']
    · rw [console', fresh]
    · rw [entries, console']
      exact blank
    · rw [asked', asked]
    · rw [answered', answered]
    · rw [settled', settled]
  | resting rests =>
    cases rests with
    | waits waits pending answered => exact waits.follow he pending answered
    | ended task idle settled fresh books heeds =>
      exact .resting (ended_follow task idle settled fresh books heeds e)
  | answered waits idle ready answered =>
    obtain ⟨console', tasks', asked', answered', settled'⟩ := follow_of_idle he idle
    refine .answered (waits.congr ?_ ?_ ?_ (by rw [tasks']) asked' settled') ?_ ?_
      (answered'.trans answered)
    · rw [console']
    · rw [console']
      exact waits.sound
    · rw [console']
    · rw [console', idle]
    · rw [console', ready]

theorem fresh_cancel (c : Coordinator) : c.cancel.fresh = c.fresh := by
  rcases Coordinator.cancel_cases c with he | ⟨r, -, he⟩ <;> rw [he]
  rfl

/-- A talk that heeds a cancel at once, and leaves nothing pending: a bridge that was not polled
yet, and each question. -/
inductive Heedful (errors : List (Option Text)) (c : Console) :
    Talk (Except StreamError Unit) → Prop where
  | ready (lines : List (Option Text)) (idle : c.input.pending = none) :
    Heedful errors c (.ready (forward errors lines))
  | asked (k : Ticket) (next : Text → BridgeDialogue) : Heedful errors c (.asked k next)

theorem Heedful.advance {c : Console} (h : Heedful errors c talk) (sent : Text) :
    ∃ c', talk.advance true c sent = ⟨c', sent, .settled .cancelled⟩ ∧
      c'.transcript = c.transcript ∧
      c'.input.pending = none ∧ c'.input.fresh = c.input.fresh := by
  cases h with
  | ready lines idle =>
    refine ⟨c, ?_, rfl, idle, rfl⟩
    cases lines with
    | nil => rfl
    | cons line lines => cases line <;> rfl
  | asked k next =>
    refine ⟨c.cancelInput.abandon k, Talk.advance_cancelled c sent k next, rfl, ?_,
      fresh_cancel c.input⟩
    simp [Console.abandon, Console.cancelInput, Coordinator.abandon]

theorem follow_poll_cancelled (heedful : Heedful errors o.bench.console talk)
    (hc : o.bench.cancelled = true) (ht : o.bench.tasks.task? 0 = some (.bridge talk sent))
    (hs : o.settled = none) :
    (o.follow .poll).bench.tasks.task? 0 = none ∧ (o.follow .poll).entries = o.entries ∧
      (o.follow .poll).bench.console.input.pending = none ∧
        (o.follow .poll).bench.console.input.fresh = o.bench.console.input.fresh ∧
          (o.follow .poll).asked = o.asked ∧
          (o.follow .poll).answered = o.answered ∧
          (o.follow .poll).settled = some (.bridge .cancelled sent) := by
  obtain ⟨console', task', asked', answered', settled'⟩ := follow_poll ht hs
  obtain ⟨c', stand, transcript, idle, fresh⟩ := heedful.advance sent
  rw [hc, stand] at console' task' asked' settled'
  rw [if_pos fresh, List.append_nil] at asked'
  refine ⟨task', ?_, ?_, ?_, asked', answered', settled'⟩
  · rw [entries, console', transcript]
    rfl
  · rw [console', idle]
  · rw [console', fresh]

theorem Waits.cancelled {k : Ticket} {prompt : Text}
    (h : Waits output errors o k prompt rest exchanges) (answers : List Text)
    (hc : o.bench.cancelled = true)
    (answered : o.answered = exchanges.map Prod.snd ++ answers) (last : answers.length ≤ 1) :
    Resting output errors (o.follow .poll) := by
  obtain ⟨handled, line, split, asks, relay⟩ := h.books
  have heedful : Heedful errors o.bench.console (.asked k (followUp errors rest prompt)) :=
    .asked k _
  obtain ⟨task', entries', idle', fresh', asked', answered', settled'⟩ :=
    follow_poll_cancelled heedful hc h.task h.settled
  refine .ended task' idle' settled' (by rw [fresh', asked', h.fresh]) ?_ fun _ =>
    Workbench.cancelled_follow hc .poll
  rw [entries', asked', answered', h.asked, answered]
  refine .cancelled split relay ?_ last (Nat.le_refl _)
  intro p hp
  rw [List.mem_singleton] at hp
  subst hp
  exact ⟨line, rest, rfl, asks⟩

theorem Waits.proceed {k : Ticket} {prompt answer : Text}
    (h : Waits output errors o k prompt rest exchanges) (hc : o.bench.cancelled = false)
    (idle : o.bench.console.input.pending = none)
    (ready : o.bench.console.input.answer? k = some answer)
    (answered : o.answered = exchanges.map Prod.snd ++ [answer]) :
    Resting output errors (o.follow .poll) := by
  obtain ⟨handled, line, split, asks, relay⟩ := h.books
  obtain ⟨console', task', asked', answered', settled'⟩ := follow_poll h.task h.settled
  let c := (o.bench.console.abandon k).push (.echo prompt answer)
  have free : (o.bench.console.abandon k).Free := by
    refine ⟨?_, h.sound.abandon k, h.writable⟩
    simp [Console.abandon, Coordinator.abandon, idle]
  have handled' : Handled output c (handled ++ [line]) rest (exchanges ++ [(prompt, answer)]) := by
    refine ⟨free.push _, ?_, ?_, ?_⟩
    · rw [split, List.map_append, List.append_assoc]
      rfl
    · have entries : c.transcript.entries = o.entries ++ [.echo prompt answer] :=
        Transcript.entries_push_of_not_stopped h.writable _
      rw [entries]
      exact relay.append (.frame asks answer .nil)
    · have fresh : c.input.fresh = o.bench.console.input.fresh := rfl
      rw [fresh, h.fresh, h.asked]
      simp
  have sent : wire (exchanges.map Prod.snd) ++ (answer ++ ['\n']) =
      wire ((exchanges ++ [(prompt, answer)]).map Prod.snd) := by
    rw [List.map_append, ← wire_concat]
    rfl
  have stand :
    (Talk.asked k (followUp errors rest prompt)).advance o.bench.cancelled o.bench.console
      (wire (exchanges.map Prod.snd)) =
      (forward errors rest).advance false c
      (wire ((exchanges ++ [(prompt, answer)]).map Prod.snd)) := by
    rw [← sent, hc]
    simp [Talk.advance, ready, followUp, Dialogue.advance, c]
  rw [stand] at console' task' asked' settled'
  refine handled'.resting (forward_advance errors rest c handled'.free.idle _) console' task' ?_ ?_
    settled'
  · rw [asked', h.asked]
    simp [c, Console.push, Console.abandon, Coordinator.abandon]
  · rw [answered', answered]
    simp

theorem Waits.stay {k : Ticket} {prompt : Text} (h : Waits output errors o k prompt rest exchanges)
    (hc : o.bench.cancelled = false)
    (pending : o.bench.console.input.pending = some ⟨k, prompt, true⟩)
    (answered : o.answered = exchanges.map Prod.snd) : Resting output errors (o.follow .poll) := by
  have unanswered : o.bench.console.input.answer? k = none := by
    cases ha : o.bench.console.input.answer? k with
    | none => rfl
    | some answer => exact absurd rfl (h.sound.ticket_ne ha pending)
  obtain ⟨console', task', asked', answered', settled'⟩ := follow_poll h.task h.settled
  have stand :
    (Talk.asked k (followUp errors rest prompt)).advance o.bench.cancelled o.bench.console
      (wire (exchanges.map Prod.snd)) = ⟨o.bench.console, wire (exchanges.map Prod.snd),
        .waiting⟩ := by
    simp [Talk.advance, hc, unanswered]
  rw [stand] at console' task' asked' settled'
  rw [if_pos rfl, List.append_nil] at asked'
  refine .waits (h.congr ?_ ?_ ?_ (task'.trans h.task.symm) asked' (settled'.trans h.settled.symm))
    ?_ ?_
  · rw [console']
  · rw [console']
    exact h.sound
  · rw [console']
  · rw [console']
    exact pending
  · rw [answered', answered]

theorem Pumping.follow_poll (h : Pumping output errors o) :
    Resting output errors (o.follow .poll) := by
  cases h with
  | created task free fresh blank asked answered settled =>
    cases hc : o.bench.cancelled with
    | true =>
      obtain ⟨task', entries', idle', fresh', asked', answered', settled'⟩ :=
        follow_poll_cancelled (.ready output free.idle) hc task settled
      refine .ended task' idle' settled' (by rw [fresh', fresh, asked', asked, List.length_nil]) ?_
        fun _ =>
        Workbench.cancelled_follow hc .poll
      rw [entries', blank, asked', asked, answered', answered]
      exact @Ended.cancelled output errors [] output [] [] [] [] rfl .nil (List.forall_mem_nil _)
        (Nat.le_refl _) (Nat.zero_le _)
    | false =>
      obtain ⟨console', task', asked', answered', settled'⟩ := Observed.follow_poll task settled
      rw [Talk.advance, hc] at console' task' asked' settled'
      have handled : Handled output o.bench.console [] output [] := by
        refine ⟨free, rfl, ?_, fresh⟩
        have untouched : o.bench.console.transcript.entries = [] := blank
        rw [untouched]
        exact .nil
      refine handled.resting (forward_advance errors output _ free.idle _) console' task' ?_ ?_
        settled'
      · rw [asked', asked]
        rfl
      · rw [answered', answered]
        rfl
  | resting rests =>
    cases rests with
    | waits waits pending answered =>
      cases hc : o.bench.cancelled with
      | true => exact waits.cancelled [] hc (by rw [answered, List.append_nil]) (Nat.zero_le _)
      | false => exact waits.stay hc pending answered
    | ended task idle settled fresh books heeds =>
      exact ended_follow task idle settled fresh books heeds .poll
  | answered waits idle ready answered =>
    cases hc : o.bench.cancelled with
    | true => exact waits.cancelled [_] hc answered (Nat.le_refl _)
    | false => exact waits.proceed hc idle ready answered

theorem Pumping.follow (h : Pumping output errors o) (e : RunEvent) :
    Pumping output errors (o.follow e) := by
  by_cases he : e = .poll
  · subst he
    exact .resting h.follow_poll
  · exact h.follow_of_ne_poll he

theorem Pumping.behind (h : Pumping output errors o) (events : List RunEvent) :
    Pumping output errors (o.behind events) := by
  induction events generalizing o with
  | nil => exact h
  | cons e events ih => exact ih (h.follow e)

end Observed

end Bridge
end SourcePreview
