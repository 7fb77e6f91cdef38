import SourcePreview.Proofs.Run.Batch
import SourcePreview.Proofs.Statement.Print

/-! A program of one print call prints the texts of its literals, whatever they hold, and nothing is
lost between the source and the transcript: the lines are those that the printed text breaks into
(`course_printCall`). -/

namespace SourcePreview

variable (env : Environment) (d : Dialect)

theorem mapM_render_literal (texts : List Text) :
    (texts.map Text.literal).mapM (render env d) = .ok texts := by
  induction texts with
  | nil => rfl
  | cons text texts ih =>
    rw [List.map_cons, List.mapM_cons, render_literal, ih]
    rfl

theorem text_printCall (texts : List Text) (separator ending : Text) :
    Print.text ⟨texts.map Text.literal, some (Text.literal separator),
        .expression (Text.literal ending), .stdout⟩ env d =
      .ok (Text.join separator texts ++ ending) := by
  unfold Print.text
  dsimp only
  rw [render_literal, mapM_render_literal, render_literal]
  rfl

theorem text_println (text : Text) :
    Print.text ⟨[Text.literal text], none, .newline, .stdout⟩ env d = .ok (text ++ ['\n']) := by
  have shown := mapM_render_literal env d [text]
  unfold Print.text
  dsimp only
  rw [List.map_singleton] at shown
  rw [shown]
  exact congrArg (fun s => Except.ok (s ++ ['\n'])) (List.intercalate_singleton ..)

section

variable {d} {source text rest : Text} {p : Print} {full : List Text}

theorem replay_play_print {s : RunState} (closed : s.openLine = []) (stream : p.stream = .stdout)
    (printed : p.text s.env d = .ok text) (breaks : Text.Breaks text full rest)
    (answers : List Text) :
    (RunDialogue.play d s [.action (.print p)]).replay answers =
      ⟨full.map Entry.output ++
          ((if rest.isEmpty then [] else [.output rest]) ++ [.info d.completion]), [],
        some (.ok ())⟩ := by
  have effect :
      s.effect d (.print p) = .ok (full.map Entry.output, { s with openLine := rest }) := by
    have cut : Text.cutLines (s.openLine ++ text) = (full, rest) := by
      rw [closed]; exact breaks.cutLines_eq
    rw [RunState.effect, printed, stream]
    simp [Except.map, RunState.printed, cut]
  rw [RunDialogue.replay_play_cons]
  change ((RunDialogue.perform d _ _ (.print p)).replay answers) = _
  rw [RunDialogue.perform_of_siteless d _ _ rfl, RunDialogue.replay_withEffect, effect]
  dsimp only
  rw [RunDialogue.play, RunDialogue.replay_finish]
  rfl

variable (single : d.statements none (Text.lines source) = [.action (.print p)])
  (stream : p.stream = .stdout) (printed : p.text .empty d = .ok text)
  (breaks : Text.Breaks text full rest)
include stream printed breaks

include single

theorem replay_preview_print (mode : InputMode) (answers : List Text) :
    (preview d mode source).replay answers =
      ⟨d.preamble.map Entry.info ++
        (full.map Entry.output ++
          ((if rest.isEmpty then [] else [.output rest]) ++ [.info d.completion])), [],
        some (.ok ())⟩ := by
  have played :
    ∀ gathered answers, (RunDialogue.play d (.start gathered) [.action (.print p)]).replay answers =
      _ :=
    fun gathered => replay_play_print (s := .start gathered) rfl stream printed breaks
  cases mode with
  | perCall =>
    rw [replay_perCall, single, played]
    rfl
  | batch =>
    have action : actions d source = [.print p] := by rw [actions, single]; rfl
    rw [replay_batch, single, action]
    simp only [RunDialogue.gather, stream, printed, RunDialogue.withText]
    rw [played]
    rfl

/-- A program of one print statement completes without a question and shows the lines of the printed
text. -/
theorem course_of_print (mode : InputMode) (responses : List Response) :
    (course d mode source responses).ending = some (.result (.ok ())) ∧
      (course d mode source responses).prompts = [] ∧
      (course d mode source responses).console.transcript.entries =
        d.preamble.map Entry.info ++ full.map Entry.output ++
          (if rest = [] then [] else [.output rest]) ++
          [.info d.completion] := by
  have follows := course_follows d mode source responses
  rw [replay_preview_print single stream printed breaks] at follows
  refine ⟨follows.ending, follows.prompts, ?_⟩
  rw [follows.entries]
  simp [Console.empty, Transcript.empty]

end

/-- The text that a print call of literals prints reaches the transcript unchanged, line by line: in
Python any number of texts with any separator and ending, in Java any text with the line feed behind
it. -/
theorem course_printCall (mode : InputMode) (responses : List Response) :
    (∀ texts separator ending, ∃ full rest,
      Text.Breaks (Text.join separator texts ++ ending) full rest ∧
      let run := course .python mode (Python.printCall texts separator ending) responses
      run.ending = some (.result (.ok ())) ∧
        run.console.transcript.entries = full.map Entry.output ++
          (if rest = [] then [] else [.output rest]) ++ [.info Dialect.python.completion]) ∧
    ∀ text, ∃ full, Text.Breaks (text ++ ['\n']) full [] ∧
      let run := course .java mode (Java.printCall text) responses
      run.ending = some (.result (.ok ())) ∧
        run.console.transcript.entries =
          Dialect.java.preamble.map Entry.info ++ full.map Entry.output ++
            [.info Dialect.java.completion] := by
  constructor
  · intro texts separator ending
    have breaks := Text.breaks_cutLines (Text.join separator texts ++ ending)
    have single :=
      Dialect.statements_of_line .python (Python.newline_not_mem_printCall texts separator ending)
      (Python.tight_printCall texts separator ending) rfl
    rw [Dialect.statement, Python.statement_printCall] at single
    obtain ⟨ended, -, entries⟩ :=
      course_of_print single rfl (text_printCall .empty .python texts separator ending)
      breaks mode responses
    exact ⟨_, _, breaks, ended, entries⟩
  · intro text
    obtain ⟨full, breaks⟩ := Text.exists_breaks_newline text
    have single :=
      Dialect.statements_of_line .java (Java.newline_not_mem_printCall text)
        (Java.tight_printCall text)
      (Java.opensBlock?_printCall text)
    rw [Dialect.statement, Java.statement_printCall] at single
    obtain ⟨ended, -, entries⟩ :=
      course_of_print single rfl (text_println .empty .java text) breaks mode responses
    refine ⟨full, breaks, ended, ?_⟩
    rw [entries, if_pos rfl, List.append_nil]

end SourcePreview
