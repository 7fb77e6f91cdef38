import SourcePreview.Proofs.Offset.Evaluation
import SourcePreview.Proofs.Offset.Statement
import SourcePreview.Proofs.Run.Overwide

/-! A run by byte offsets, from the lines of its source to the lines it completes. Step by step it
is the run of the source, and breaks off only where that does (`preview_eq`). -/

namespace SourcePreview

def Dialogue.mapResult {α β : Type} (f : α → β) : Dialogue α → Dialogue β
  | .done a => .done (f a)
  | .say e next => .say e (next.mapResult f)
  | .send text next => .send text (next.mapResult f)
  | .check next => .check (next.mapResult f)
  | .ask prompt next => .ask prompt fun answer => (next answer).mapResult f

namespace Dialogue

variable {α β : Type} (f : α → β)

theorem mapResult_sayAll (entries : List Entry) (next : Dialogue α) :
    (sayAll entries next).mapResult f = sayAll entries (next.mapResult f) := by
  induction entries with
  | nil => rfl
  | cons e entries ih => exact congrArg (say e) ih

theorem result_mapResult (d : Dialogue α) (answers : List Text) :
    ((d.mapResult f).replay answers).result = (d.replay answers).result.map f := by
  induction d generalizing answers with
  | done a => rfl
  | say e next ih => exact ih answers
  | send text next ih => exact ih answers
  | check next ih => exact ih answers
  | ask prompt next ih =>
    cases answers with
    | nil => rfl
    | cons answer answers => exact ih answer answers

end Dialogue

namespace Offset

open Text (byteSize)

/-- The lines that line feeds complete, and the open line behind them. -/
def drain (s : Text) : Except Panic (List Text × Text) :=
  match find? (· == '\n') s with
  | none => .ok ([], s)
  | some final => do
    let line ← upTo s (final + 1)
    let rest ← behind s (final + 1)
    if rest.length < s.length then do
      let (full, last) ← drain rest
      .ok (Text.trimEndOf (· == '\n') line :: full, last)
    else .ok ([], s)
termination_by s.length

theorem drain_eq (s : Text) : drain s = .ok (Text.cutLines s) := by
  induction hl : s.length using Nat.strongRecOn generalizing s with
  | ind l ih =>
    rw [drain, find?_eq]
    cases h : Text.cutAtFirst (· == '\n') s with
    | none =>
      have single : '\n' ∉ s := fun hm => by simpa using Text.cutAtFirst_eq_none_iff.1 h _ hm
      rw [Text.cutLines_of_not_mem single]
      rfl
    | some parts =>
      obtain ⟨line, c, rest⟩ := parts
      obtain ⟨rfl, hc, hline⟩ := Text.eq_of_cutAtFirst h
      obtain rfl := eq_of_beq hc
      have single : '\n' ∉ line := fun hm => absurd (hline _ hm) (by decide)
      have front : upTo (line ++ '\n' :: rest) (byteSize line + 1) = .ok (line ++ ['\n']) := by
        have cut := upTo_append (line ++ ['\n']) rest
        rwa [byteSize_concat, List.append_assoc] at cut
      have past := behind_cons (c := '\n') rfl line rest
      have shorter : rest.length < (line ++ '\n' :: rest).length := by
        rw [List.length_append, List.length_cons]
        omega
      have trimmed : Text.trimEndOf (· == '\n') (line ++ ['\n']) = line := by
        have kept : line.reverse.dropWhile (· == '\n') = line.reverse := by
          cases hr : line.reverse with
          | nil => rfl
          | cons c r =>
            have other : c ≠ '\n' := by
              rintro rfl
              exact single (List.mem_reverse.1 (hr ▸ List.mem_cons_self))
            exact List.dropWhile_cons_of_neg (by simpa using other)
        rw [Text.trimEndOf, List.reverse_append, List.reverse_singleton, List.singleton_append,
          List.dropWhile_cons_of_pos (by simp), kept, List.reverse_reverse]
      simp only [Option.map_some, bind, Except.bind, front, past, if_pos shorter]
      rw [ih rest.length (hl ▸ shorter) rest rfl, Text.cutLines_line single, trimmed]

/-- The open line of a text: what stands behind its last line feed. -/
def lastLine (s : Text) : Except Panic Text :=
  match (Text.splitOnceLast '\n' s).map fun (a, _) => byteSize a with
  | none => .ok s
  | some final => behind s (final + 1)

theorem lastLine_eq (s : Text) : lastLine s = .ok (Text.cutLines s).2 := by
  rw [lastLine, Text.splitOnceLast, Text.splitOnce]
  cases h : Text.cutAtFirst (· == '\n') s.reverse with
  | none =>
    have single : '\n' ∉ s := by
      intro hm
      simpa using Text.cutAtFirst_eq_none_iff.1 h _ (List.mem_reverse.2 hm)
    rw [Text.cutLines_of_not_mem single]
    rfl
  | some parts =>
    obtain ⟨last, c, before⟩ := parts
    obtain ⟨whole, hc, hlast⟩ := Text.eq_of_cutAtFirst h
    obtain rfl := eq_of_beq hc
    obtain rfl : s = before.reverse ++ '\n' :: last.reverse := by
      simpa using congrArg List.reverse whole
    have single : '\n' ∉ last.reverse :=
      fun hm => absurd (hlast _ (List.mem_reverse.1 hm)) (by decide)
    obtain ⟨full, front⟩ := Text.exists_breaks_newline before.reverse
    have breaks := front.append (Text.Breaks.of_not_mem single)
    rw [List.append_assoc] at breaks
    have cut : Text.cutLines (before.reverse ++ '\n' :: last.reverse) =
      (full ++ [], last.reverse) := breaks.cutLines_eq
    have past := behind_cons (c := '\n') rfl before.reverse last.reverse
    rw [cut]
    simp only [Option.map_some, past]

section

variable (env : Environment) (d : Dialect)

def separatorText (p : Print) : Except Panic Text :=
  match p.separator with
  | none => .ok [' ']
  | some e => render env d e

def endingText (p : Print) : Except Panic Text :=
  match p.ending with
  | .newline => .ok ['\n']
  | .nothing => .ok []
  | .expression e => render env d e

def printText (p : Print) : Except Panic Text := do
  let separator ← separatorText env d p
  let arguments ← p.arguments.mapM (render env d)
  let ending ← endingText env d p
  .ok (Text.join separator arguments ++ ending)

def promptText (site : InputSite) (openLine : Text) : Except Panic Text :=
  match site.prompt with
  | none => .ok openLine
  | some e => (render env d e).map (openLine ++ ·)

def assignedValue (expr : Text) : Except Panic Value := do
  match ← evaluate env d expr with
  | .value v => .ok v
  | .fault => .ok (.str divisionByZeroMarker)
  | .unresolved => .ok (.str (dequote expr))

theorem mapM_lift {α : Type} (f : Text → Except Overwide α) (xs : List Text) :
    xs.mapM (fun x => lift (f x)) = lift (xs.mapM f) := by
  induction xs with
  | nil => rfl
  | cons x xs ih =>
    rw [List.mapM_cons, List.mapM_cons, ih]
    exact bind_lift fun a => bind_lift fun as => rfl

theorem printText_eq (p : Print) : printText env d p = lift (p.text env d) := by
  have separator : separatorText env d p = lift (p.separatorText env d) := by
    unfold separatorText Print.separatorText
    cases p.separator with
    | none => rfl
    | some e => exact render_eq env d e
  have ending : endingText env d p = lift (p.endingText env d) := by
    unfold endingText Print.endingText
    cases p.ending with
    | newline => rfl
    | nothing => rfl
    | expression e => exact render_eq env d e
  rw [printText, Print.text_eq, separator, ending, funext (render_eq env d), mapM_lift]
  exact bind_lift fun s => bind_lift fun arguments => bind_lift fun ending => rfl

theorem promptText_eq (site : InputSite) (openLine : Text) :
    promptText env d site openLine = lift (site.promptText openLine env d) := by
  unfold promptText InputSite.promptText
  cases site.prompt with
  | none => rfl
  | some e =>
    dsimp only
    rw [render_eq]
    cases SourcePreview.render env d e <;> rfl

theorem assignedValue_eq (expr : Text) :
    assignedValue env d expr = lift (SourcePreview.assignedValue env d expr) := by
  rw [assignedValue, evaluate_eq, SourcePreview.assignedValue]
  exact bind_lift fun v => by cases v <;> rfl

end

abbrev Run := Dialogue (Except Panic Unit)

def effect (d : Dialect) (s : RunState) : Action → Except Panic (List Entry × RunState)
  | .print p => do
    let text ← printText s.env d p
    match p.stream with
    | .stdout => do
      let (full, last) ← drain (s.openLine ++ text)
      .ok (full.map Entry.output, { s with openLine := last })
    | .stderr => .ok (s.printed .stderr text)
  | .assign target expr => do .ok ([], s.bind (some target) (← assignedValue s.env d expr))
  | .input _ => .ok ([], s)

/-- Goes on behind a text or an effect, unless that breaks off. -/
def proceed {α : Type} (x : Except Panic α) (next : α → Run) : Run :=
  match x with
  | .error p => .done (.error p)
  | .ok a => next a

def perform (d : Dialect) (s : RunState) (next : RunState → Run) (a : Action) : Run :=
  match a with
  | .input site =>
    proceed (promptText s.env d site s.openLine) fun prompt =>
      match s.answers with
      | answer :: answers =>
        let r := (s.withAnswers answers).received site prompt answer
        .sayAll r.1 (next r.2)
      | [] => .ask prompt fun answer =>
        let r := s.received site prompt answer
        .sayAll r.1 (next r.2)
  | a => proceed (effect d s a) fun r => .sayAll r.1 (next r.2)

def play (d : Dialect) (s : RunState) : List Statement → Run
  | [] =>
    .sayAll ((if s.openLine.isEmpty then [] else [.output s.openLine]) ++ [.info d.completion])
      (.done (.ok ()))
  | statement :: rest =>
    .check (match statement.action? with
      | none => play d s rest
      | some a => perform d s (fun s => play d s rest) a)

/-- Asks all questions of a list of actions; `answers` are those to earlier ones. -/
def gather (d : Dialect) (openLine : Text) (answers : List Text) (next : List Text → Run) :
    List Action → Run
  | [] => next answers
  | .assign _ _ :: rest => gather d openLine answers next rest
  | .print p :: rest =>
    match p.stream with
    | .stderr => gather d openLine answers next rest
    | .stdout =>
      proceed (do lastLine (openLine ++ (← printText .empty d p))) fun openLine =>
      gather d openLine answers next rest
  | .input site :: rest =>
    proceed (promptText .empty d site openLine) fun prompt =>
      .ask prompt fun answer => gather d [] (answers ++ [answer]) next rest

def preview (d : Dialect) (mode : InputMode) (source : Text) : Run :=
  proceed (statements d none (Text.lines source)) fun statements =>
    .sayAll (d.preamble.map Entry.info)
      (match mode with
      | .perCall => play d (.start []) statements
      | .batch =>
        gather d [] [] (fun answers => play d (.start answers) statements)
          (statements.filterMap Statement.action?))

variable (d : Dialect)

theorem effect_eq (s : RunState) (a : Action) : effect d s a = lift (s.effect d a) := by
  cases a with
  | print p =>
    rw [effect, printText_eq, RunState.effect]
    refine bind_lift fun text => ?_
    cases p.stream with
    | stdout =>
      dsimp only
      rw [drain_eq]
      rfl
    | stderr => rfl
  | assign target expr =>
    rw [effect, assignedValue_eq, RunState.effect]
    cases SourcePreview.assignedValue s.env d expr <;> rfl
  | input site => rfl

theorem perform_eq (s : RunState) (next : RunState → RunDialogue) (a : Action) :
    perform d s (fun s => (next s).mapResult lift) a =
      (RunDialogue.perform d s next a).mapResult lift := by
  cases hs : a.site? with
  | none =>
    have eq : perform d s (fun s => (next s).mapResult lift) a =
        proceed (effect d s a) fun r => .sayAll r.1 ((next r.2).mapResult lift) := by
      cases a with
      | input site => cases hs
      | print p => rfl
      | assign target expr => rfl
    rw [eq, effect_eq, RunDialogue.perform_of_siteless d s next hs]
    cases s.effect d a with
    | error w => rfl
    | ok r => exact (Dialogue.mapResult_sayAll lift r.1 (next r.2)).symm
  | some site =>
    obtain rfl : a = .input site := by cases a <;> cases hs; rfl
    rw [perform, promptText_eq]
    cases ha : s.answers with
    | nil =>
      rw [RunDialogue.perform_asked d s next site ha]
      cases site.promptText s.openLine s.env d with
      | error w => rfl
      | ok prompt =>
        refine congrArg (Dialogue.ask prompt) (funext fun answer => ?_)
        exact (Dialogue.mapResult_sayAll lift _ _).symm
    | cons answer answers =>
      have received := RunDialogue.receive_eq (s.withAnswers answers) next site
      rw [RunDialogue.perform]
      cases site.promptText s.openLine s.env d with
      | error w => rfl
      | ok prompt =>
        simp only [RunDialogue.withText, ha]
        exact ((congrArg (Dialogue.mapResult lift) (received prompt answer)).trans
          (Dialogue.mapResult_sayAll lift _ _)).symm

theorem play_eq (s : RunState) (ss : List Statement) :
    play d s ss = (RunDialogue.play d s ss).mapResult lift := by
  induction ss generalizing s with
  | nil =>
    rw [play, RunDialogue.play, RunDialogue.finish, Dialogue.mapResult_sayAll]
    rfl
  | cons statement rest ih =>
    rw [play, RunDialogue.play, Dialogue.mapResult]
    refine congrArg Dialogue.check ?_
    cases statement.action? with
    | none => exact ih s
    | some a =>
      dsimp only
      rw [funext ih]
      exact perform_eq d s (fun s => RunDialogue.play d s rest) a

theorem gather_eq (openLine : Text) (answers : List Text) (next : List Text → RunDialogue)
    (actions : List Action) :
    gather d openLine answers (fun answers => (next answers).mapResult lift) actions =
      (RunDialogue.gather d openLine answers next actions).mapResult lift := by
  induction actions generalizing openLine answers with
  | nil => rfl
  | cons a rest ih =>
    cases a with
    | assign target expr => exact ih openLine answers
    | print p =>
      rw [gather, RunDialogue.gather]
      cases p.stream with
      | stderr => exact ih openLine answers
      | stdout =>
        dsimp only
        rw [printText_eq]
        cases p.text .empty d with
        | error w => rfl
        | ok text =>
          simp only [lift, Except.mapError, bind, Except.bind, lastLine_eq]
          exact ih _ answers
    | input site =>
      rw [gather, RunDialogue.gather, promptText_eq]
      cases site.promptText openLine .empty d with
      | error w => rfl
      | ok prompt =>
        exact congrArg (Dialogue.ask prompt) (funext fun answer => ih [] (answers ++ [answer]))

/-- A run by byte offsets is the run of its source. -/
theorem preview_eq (mode : InputMode) (source : Text) :
    preview d mode source = (SourcePreview.preview d mode source).mapResult lift := by
  unfold preview SourcePreview.preview
  rw [statements_eq, Dialogue.mapResult_sayAll]
  refine congrArg (Dialogue.sayAll (d.preamble.map Entry.info)) ?_
  cases mode with
  | perCall => exact play_eq d (.start []) _
  | batch =>
    dsimp only
    rw [← gather_eq]
    simp only [play_eq]

end Offset

end SourcePreview
