import SourcePreview.Proofs.Run.Effect
import SourcePreview.Proofs.Text.Breaks

/-! An account of a run: the texts it prints and the answers it is given, cut at its visits to input
sites. It knows nothing of an open line. The lines that a run has to show for its account are those
that the printed text of each passage breaks into; they are the same for accounts that print the
same text, in whatever pieces (`Tells.eq_of_alike`). -/

namespace SourcePreview

/-- A text that a run prints. -/
structure Writing where
  stream : Stream
  text : Text
  deriving DecidableEq, Repr

/-- A visit to an input site: what the site itself asks, and the answer it is given. -/
structure Visit where
  site : InputSite
  question : Text
  answer : Text
  deriving DecidableEq, Repr

/-- What a run prints up to each of its visits to input sites, and behind the last one. -/
inductive Account where
  | last (prints : List Writing)
  | visit (prints : List Writing) (visit : Visit) (rest : Account)
  deriving DecidableEq, Repr

namespace InputSite

def question (site : InputSite) (env : Environment) (d : Dialect) : Except Overwide Text :=
  match site.prompt with
  | none => .ok []
  | some e => render env d e

def reading (site : InputSite) (answer : Text) : Value :=
  match Value.coerce answer site.kind with
  | .ok value => value
  | .error _ => site.kind.zero

def store (site : InputSite) (env : Environment) (answer : Text) : Environment :=
  match site.target with
  | none => env
  | some name => env.assign name (site.reading answer)

theorem promptText_eq (site : InputSite) (openLine : Text) (env : Environment) (d : Dialect) :
    site.promptText openLine env d = (site.question env d).map (openLine ++ ·) := by
  unfold promptText question
  cases site.prompt with
  | none => exact congrArg Except.ok (List.append_nil openLine).symm
  | some e => rfl

end InputSite

namespace Writing

def output (prints : List Writing) : Text := (prints.filter (·.stream = .stdout)).flatMap text

def errorLines (text : Text) : List Entry :=
  (Text.splitAll '\n' ((Text.dropLastIf (· == '\n') text).getD text)).map Entry.error

def errors (prints : List Writing) : List Entry :=
  (prints.filter (·.stream = .stderr)).flatMap fun w => errorLines w.text

/-- The lines of prints behind an open line, and the rest that stays open: the output lines are
those that the whole text breaks into, and the error lines are among them. -/
structure Shows (openLine : Text) (prints : List Writing) (entries : List Entry) (rest : Text) :
    Prop where
  outputs : ∃ full, Text.Breaks (openLine ++ output prints) full rest ∧
    entries.filter (·.kind = .output) = full.map Entry.output
  errors : entries.filter (·.kind = .error) = errors prints
  kinds : ∀ e ∈ entries, e.kind = .output ∨ e.kind = .error
  closed : ∀ e ∈ entries, '\n' ∉ e.text

variable {openLine rest text : Text} {prints : List Writing} {entries : List Entry}

theorem shows_nil (h : '\n' ∉ openLine) : Shows openLine [] [] openLine where
  outputs := ⟨[], by rw [output]; simpa using Text.Breaks.of_not_mem h, rfl⟩
  errors := rfl
  kinds := by simp
  closed := by simp

theorem Shows.stdout (h : Shows (Text.cutLines (openLine ++ text)).2 prints entries rest) :
    Shows openLine (⟨.stdout, text⟩ :: prints)
    ((Text.cutLines (openLine ++ text)).1.map Entry.output ++ entries) rest := by
  have first := Text.breaks_cutLines (openLine ++ text)
  obtain ⟨full, second, hf⟩ := h.outputs
  refine ⟨⟨(Text.cutLines (openLine ++ text)).1 ++ full, ?_, ?_⟩, ?_, ?_, ?_⟩
  · have both := first.append second
    rwa [List.append_assoc] at both
  · rw [List.filter_append, hf, List.map_append, List.filter_eq_self.2 (by simp [Entry.output])]
  · rw [List.filter_append, h.errors, List.filter_eq_nil_iff.2 (by simp [Entry.output])]
    rfl
  · intro e he
    rcases List.mem_append.1 he with he | he
    · obtain ⟨line, -, rfl⟩ := List.mem_map.1 he
      exact Or.inl rfl
    · exact h.kinds e he
  · intro e he
    rcases List.mem_append.1 he with he | he
    · obtain ⟨line, hl, rfl⟩ := List.mem_map.1 he
      exact first.full_closed line hl
    · exact h.closed e he

theorem Shows.stderr (h : Shows openLine prints entries rest) :
    Shows openLine (⟨.stderr, text⟩ :: prints) (errorLines text ++ entries) rest := by
  obtain ⟨full, second, hf⟩ := h.outputs
  refine ⟨⟨full, second, ?_⟩, ?_, ?_, ?_⟩
  · rw [List.filter_append, hf, List.filter_eq_nil_iff.2 (by simp [errorLines, Entry.error])]
    rfl
  · rw [List.filter_append, h.errors, List.filter_eq_self.2 (by simp [errorLines, Entry.error])]
    rfl
  · intro e he
    rcases List.mem_append.1 he with he | he
    · obtain ⟨line, -, rfl⟩ := List.mem_map.1 he
      exact Or.inr rfl
    · exact h.kinds e he
  · intro e he
    rcases List.mem_append.1 he with he | he
    · obtain ⟨line, hl, rfl⟩ := List.mem_map.1 he
      exact Text.not_mem_of_mem_splitAll hl
    · exact h.closed e he

theorem Shows.eq_of_output {prints' : List Writing} {entries' : List Entry} {rest' : Text}
    (h : Shows openLine prints entries rest) (h' : Shows openLine prints' entries' rest')
    (same : output prints = output prints') :
    entries.filter (·.kind ≠ .error) = entries'.filter (·.kind ≠ .error) ∧ rest = rest' := by
  obtain ⟨full, hb, hf⟩ := h.outputs
  obtain ⟨full', hb', hf'⟩ := h'.outputs
  rw [← same] at hb'
  obtain ⟨rfl, rfl⟩ := hb.unique hb'
  have outputs {es : List Entry} (hk : ∀ e ∈ es, e.kind = .output ∨ e.kind = .error) :
      es.filter (·.kind ≠ .error) = es.filter (·.kind = .output) := by
    refine List.filter_congr fun e he => ?_
    rcases hk e he with h | h <;> simp [h]
  rw [outputs h.kinds, outputs h'.kinds, hf, hf']
  exact ⟨rfl, rfl⟩

end Writing

namespace Visit

def gap (prompt : Text) : Text :=
  match prompt.getLast? with
  | none => []
  | some c => if Text.isBlank c then [] else [' ']

/-- The line of a visit behind an open line, which is its beginning, and a warning if the answer
cannot be read. -/
def echo (openLine : Text) (v : Visit) : List Entry :=
  ⟨openLine ++ v.question ++ gap (openLine ++ v.question) ++ v.answer, .inputEcho⟩ ::
    match Value.coerce v.answer v.site.kind with
    | .ok _ => []
    | .error _ => [.warning (v.site.invalidText v.answer)]

theorem echoText_eq (prompt answer : Text) :
    Entry.echoText prompt answer = prompt ++ gap prompt ++ answer := by
  unfold Entry.echoText gap
  cases h : prompt.getLast? with
  | none => rw [List.getLast?_eq_none_iff.1 h]; rfl
  | some c =>
    dsimp only
    split <;> simp

end Visit

namespace Account

/-- Prints a text in front of what the first passage prints. -/
def print (w : Writing) : Account → Account
  | .last prints => .last (w :: prints)
  | .visit prints v rest => .visit (w :: prints) v rest

/-- The account of actions that are given answers; none if an answer is missing or a text is
overwide. -/
def ofActions? (d : Dialect) (env : Environment) : List Action → List Text → Option Account
  | [], _ => some (.last [])
  | .print p :: rest, answers =>
    match p.text env d with
    | .error _ => none
    | .ok text => (ofActions? d env rest answers).map (print ⟨p.stream, text⟩)
  | .assign target expr :: rest, answers =>
    match assignedValue env d expr with
    | .error _ => none
    | .ok value => ofActions? d (env.assign target value) rest answers
  | .input _ :: _, [] => none
  | .input site :: rest, answer :: answers =>
    match site.question env d with
    | .error _ => none
    | .ok question =>
      (ofActions? d (site.store env answer) rest answers).map (.visit [] ⟨site, question, answer⟩)

/-- The lines that tell of an account behind an open line, and the prompts of its visits: the rest
of each passage is the beginning of the prompt and the line of the visit behind it, and the rest of
the last passage is a line of its own. -/
inductive Tells : Text → Account → List Entry → List Text → Prop
  | last {openLine rest : Text} {prints : List Writing} {entries : List Entry} :
    Writing.Shows openLine prints entries rest →
      Tells openLine (.last prints) (entries ++ if rest = [] then [] else [.output rest]) []
  | visit {openLine rest : Text} {prints : List Writing} {v : Visit} {entries entries' : List Entry}
      {account : Account} {prompts : List Text} :
    Writing.Shows openLine prints entries rest → Tells [] account entries' prompts →
      Tells openLine (.visit prints v account) (entries ++ (v.echo rest ++ entries'))
      ((rest ++ v.question) :: prompts)

/-- Accounts of the same visits that print the same text to the standard output between them. -/
inductive Alike : Account → Account → Prop
  | last {prints prints' : List Writing} :
    Writing.output prints = Writing.output prints' → Alike (.last prints) (.last prints')
  | visit {prints prints' : List Writing} {v : Visit} {account account' : Account} :
    Writing.output prints = Writing.output prints' → Alike account account' →
      Alike (.visit prints v account) (.visit prints' v account')

variable {openLine text : Text} {account account' : Account} {entries entries' : List Entry}
  {prompts prompts' : List Text}

theorem Tells.stdout (h : account.Tells (Text.cutLines (openLine ++ text)).2 entries prompts) :
    (account.print ⟨.stdout, text⟩).Tells openLine
      ((Text.cutLines (openLine ++ text)).1.map Entry.output ++ entries) prompts := by
  cases h with
  | last h =>
    rw [← List.append_assoc]
    exact .last h.stdout
  | visit h rest =>
    rw [← List.append_assoc]
    exact .visit h.stdout rest

theorem Tells.stderr (h : account.Tells openLine entries prompts) :
    (account.print ⟨.stderr, text⟩).Tells openLine (Writing.errorLines text ++ entries)
    prompts := by
  cases h with
  | last h =>
    rw [← List.append_assoc]
    exact .last h.stderr
  | visit h rest =>
    rw [← List.append_assoc]
    exact .visit h.stderr rest

/-- Accounts that print the same text differ in their error lines only. -/
theorem Tells.eq_of_alike (alike : account.Alike account')
    (h : account.Tells openLine entries prompts) (h' : account'.Tells openLine entries' prompts') :
    entries.filter (·.kind ≠ .error) = entries'.filter (·.kind ≠ .error) ∧ prompts = prompts' := by
  induction alike generalizing openLine entries entries' prompts prompts' with
  | last same =>
    cases h with
    | last h =>
      cases h' with
      | last h' =>
        obtain ⟨he, rfl⟩ := h.eq_of_output h' same
        rw [List.filter_append, he, List.filter_append]
        exact ⟨rfl, rfl⟩
  | visit same _ ih =>
    cases h with
    | visit h rest =>
      cases h' with
      | visit h' rest' =>
        obtain ⟨he, rfl⟩ := h.eq_of_output h' same
        obtain ⟨hr, rfl⟩ := ih rest rest'
        rw [List.filter_append, he, List.filter_append, hr, List.filter_append, List.filter_append]
        exact ⟨rfl, rfl⟩

theorem Tells.closed (h : account.Tells openLine entries prompts) :
    ∀ e ∈ entries, e.kind = .output ∨ e.kind = .error → '\n' ∉ e.text := by
  induction h with
  | last h =>
    intro e he hk
    rcases List.mem_append.1 he with he | he
    · exact h.closed e he
    · obtain ⟨full, hb, -⟩ := h.outputs
      split at he
      · cases he
      · rw [List.mem_singleton.1 he]
        exact hb.rest_open
  | @visit _ _ _ v _ _ _ _ h _ ih =>
    intro e he hk
    rcases List.mem_append.1 he with he | he
    · exact h.closed e he
    rcases List.mem_append.1 he with he | he
    · -- neither the echo nor a warning is one of these lines
      exfalso
      unfold Visit.echo at he
      rcases List.mem_cons.1 he with rfl | he
      · simp at hk
      · split at he
        · cases he
        · rw [List.mem_singleton.1 he] at hk
          simp [Entry.warning] at hk
    · exact ih e he hk

end Account

end SourcePreview
