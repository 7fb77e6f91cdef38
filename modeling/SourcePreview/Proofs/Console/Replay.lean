import SourcePreview.Console.Dialogue
import SourcePreview.Proofs.Console.Ticket

/-! A dialogue read as a function of the answers it is given, and the course of a talk over a
console whose requests are each resolved before the next poll. On a console that waits for nothing
the course is the reading: the same lines, the same prompts and the same result
(`converse_ready`). -/

namespace SourcePreview

variable {α : Type}

/-- What a dialogue writes and asks, and its result if there are answers for all it asks. -/
structure Replay (α : Type) where
  entries : List Entry
  prompts : List Text
  result : Option α

/-- The reading that stops at a question. -/
def Replay.asking (prompt : Text) : Replay α := ⟨[], [prompt], none⟩

def Replay.write (entries : List Entry) (r : Replay α) : Replay α :=
  { r with entries := entries ++ r.entries }

def Replay.ask (prompts : List Text) (r : Replay α) : Replay α :=
  { r with prompts := prompts ++ r.prompts }

namespace Dialogue

/-- Reads a dialogue that is never cancelled. -/
def replay : Dialogue α → List Text → Replay α
  | .done a, _ => ⟨[], [], some a⟩
  | .say e next, answers => (next.replay answers).write [e]
  | .send _ next, answers => next.replay answers
  | .check next, answers => next.replay answers
  | .ask prompt _, [] => .asking prompt
  | .ask prompt next, answer :: answers => ((next answer).replay answers).ask [prompt]

theorem replay_sayAll (entries : List Entry) (next : Dialogue α) (answers : List Text) :
    (sayAll entries next).replay answers = (next.replay answers).write entries := by
  induction entries with
  | nil => rfl
  | cons e es ih =>
    change ((sayAll es next).replay answers).write [e] = _
    rw [ih]
    rfl

end Dialogue

/-- How a pending request is resolved: by a submission that is not blank, or by a cancel. -/
inductive Response where
  | submission (text : Text) (filled : Text.trim text ≠ [])
  | cancel

namespace Response

def answer : Response → Text
  | submission text _ => Text.trim text
  | cancel => []

def apply (c : Console) : Response → Console
  | submission text _ => { c with input := (c.input.submit text).2 }
  | cancel => c.cancelInput

theorem apply_of_pending (response : Response) {c : Console} {r : Request}
    (h : c.input.pending = some r) :
    response.apply c = { c with input := c.input.resolve r response.answer } := by
  cases response with
  | submission text filled =>
    have hf : (Text.trim text).isEmpty = false := by simpa using filled
    simp [apply, answer, Coordinator.submit, h, hf]
  | cancel => simp [apply, answer, Console.cancelInput, Coordinator.cancel, h]

end Response

/-- The request that a poll made, if it made one. -/
def Stand.asked (s : Stand α) : List Text :=
  match s.progress with
  | .moved _ => s.console.input.prompt?.toList
  | _ => []

def Stand.ending? (s : Stand α) : Option (Ending α) :=
  match s.progress with
  | .settled e => some e
  | _ => none

/-- The course of a talk: the console it leaves, the prompts it requested, and how it ended if it
did. -/
structure Course (α : Type) where
  console : Console
  prompts : List Text
  ending : Option (Ending α)

/-- Polls a talk that is not cancelled, and again behind each response to its request. -/
def Talk.converse (c : Console) (t : Talk α) : List Response → Course α
  | [] =>
    let stand := t.advance false c []
    ⟨stand.console, stand.asked, stand.ending?⟩
  | response :: responses =>
    let stand := t.advance false c []
    match stand.progress with
    | .moved t =>
      let course := t.converse (response.apply stand.console) responses
      { course with prompts := stand.asked ++ course.prompts }
    | _ => ⟨stand.console, stand.asked, stand.ending?⟩

/-- A course from the console `c` that wrote, asked and ended as a reading says. -/
structure Course.Follows (course : Course α) (c : Console) (r : Replay α) : Prop where
  entries : course.console.transcript.entries = c.transcript.entries ++ r.entries
  prompts : course.prompts = r.prompts
  ending : course.ending = r.result.map .result

structure Console.Free (c : Console) : Prop where
  idle : c.input.pending = none
  sound : c.input.Sound
  writable : c.transcript.stopped = false

theorem Console.free_empty : Console.empty.Free := ⟨rfl, Coordinator.sound_idle, rfl⟩

theorem Console.Free.push {c : Console} (h : c.Free) (e : Entry) : (c.push e).Free :=
  ⟨h.idle, h.sound, by simpa [Console.push] using h.writable⟩

theorem Dialogue.advance_sent (d : Dialogue α) (cancelled : Bool) (c : Console)
    (sent sent' : Text) :
    (d.advance cancelled c sent).console = (d.advance cancelled c sent').console ∧
      (d.advance cancelled c sent).progress = (d.advance cancelled c sent').progress := by
  induction d generalizing c sent sent' with
  | done a => exact ⟨rfl, rfl⟩
  | say e next ih => exact ih _ _ _
  | send text next ih => exact ih _ _ _
  | check next ih =>
    unfold advance
    split
    · exact ⟨rfl, rfl⟩
    · exact ih _ _ _
  | ask prompt next ih =>
    unfold advance
    split
    · exact ⟨rfl, rfl⟩
    · split <;> exact ⟨rfl, rfl⟩

namespace Talk

variable {c : Console} (responses : List Response)

theorem converse_congr (t t' : Talk α) (c c' : Console)
    (hc : (t.advance false c []).console = (t'.advance false c' []).console)
    (hp : (t.advance false c []).progress = (t'.advance false c' []).progress) :
    t.converse c responses = t'.converse c' responses := by
  cases responses <;> simp only [converse, Stand.asked, Stand.ending?, hc, hp]

theorem converse_asked {ticket : Ticket} (next : Text → Dialogue α) {answer : Text}
    (h : c.input.answer? ticket = some answer) :
    (asked ticket next).converse c responses =
      (ready (next answer)).converse (c.abandon ticket) responses := by
  have he : (asked ticket next).advance false c [] =
      (ready (next answer)).advance false (c.abandon ticket) [] := by
    simp [advance, h]
  exact converse_congr _ _ _ _ _ (by rw [he]) (by rw [he])

theorem converse_ask (h : c.Free) (prompt : Text) (next : Text → Dialogue α) (response : Response) :
    ∃ c' : Console, c'.Free ∧ c'.transcript = c.transcript ∧
      (ready (.ask prompt next)).converse c (response :: responses) =
        let course := (ready (next response.answer)).converse c' responses
        { course with prompts := prompt :: course.prompts } := by
  have hr := Coordinator.request_of_idle h.idle prompt
  have hp : (c.input.awaiting prompt).pending = some ⟨c.input.fresh, prompt, true⟩ := rfl
  have hs := ((h.sound.awaiting prompt).resolve hp response.answer).abandon c.input.fresh
  refine ⟨⟨c.transcript,
    ((c.input.awaiting prompt).resolve _ response.answer).abandon c.input.fresh⟩,
    ⟨rfl, hs, h.writable⟩, rfl, ?_⟩
  have ha : ((c.input.awaiting prompt).resolve ⟨c.input.fresh, prompt,
      true⟩ response.answer).answer? c.input.fresh =
      some response.answer := by
    simp [Coordinator.resolve, Coordinator.answer?]
  simp only [converse, advance, Dialogue.advance, hr, Bool.false_eq_true, if_false, Stand.asked]
  rw [response.apply_of_pending hp, converse_asked _ _ ha]
  simp [Coordinator.prompt?, hp, Console.abandon]

/-- On a free console the course of a dialogue is its reading with the answers that the responses
give. -/
theorem converse_ready (d : Dialogue α) (h : c.Free) :
    ((ready d).converse c responses).Follows c (d.replay (responses.map Response.answer)) := by
  -- by structure of the dialogue; lines change the console, and a question takes one response and a
  -- fresh ticket
  induction d generalizing c responses with
  | done a =>
    cases responses <;> exact ⟨by simp [converse, advance, Dialogue.replay], rfl, rfl⟩
  | say e next ih =>
    have hw : (c.push e).transcript.entries = _ :=
      Transcript.entries_push_of_not_stopped h.writable e
    rw [converse_congr responses (ready (.say e next)) (ready next) c (c.push e) rfl rfl]
    obtain ⟨h1, h2, h3⟩ := ih responses (h.push e)
    exact ⟨by rw [h1, hw, List.append_assoc]; rfl, h2, h3⟩
  | send text next ih =>
    have hs := next.advance_sent false c ([] ++ text) []
    rw [converse_congr responses (ready (.send text next)) (ready next) c c hs.1 hs.2]
    exact ih responses h
  | check next ih =>
    rw [converse_congr responses (ready (.check next)) (ready next) c c rfl rfl]
    exact ih responses h
  | ask prompt next ih =>
    cases responses with
    | nil =>
      have hr := Coordinator.request_of_idle h.idle prompt
      have hp : (c.input.awaiting prompt).pending = some ⟨c.input.fresh, prompt, true⟩ := rfl
      constructor <;>
        simp [converse, advance, Dialogue.advance, hr, Dialogue.replay, Replay.asking, Stand.asked,
          Stand.ending?, Coordinator.prompt?, hp]
    | cons response responses =>
      obtain ⟨c', hf, ht, he⟩ := converse_ask responses h prompt next response
      rw [he]
      obtain ⟨h1, h2, h3⟩ := ih response.answer responses hf
      exact ⟨by rw [← ht]; exact h1, congrArg (prompt :: ·) h2, h3⟩

end Talk

end SourcePreview
