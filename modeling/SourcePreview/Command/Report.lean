import SourcePreview.Command.Arguments
import SourcePreview.Command.Output
import SourcePreview.Settings.Variables
import SourcePreview.Settings.Writing

/-! What a command does, given its arguments, the files it can read and the variables of its
environment: it either reports at once, or has a conversation and reports its outcome. Settings are
loaded first, then the source is read, and then its language is found; the first of them that fails
is reported. -/

namespace SourcePreview.Command

/-- What a command leaves: its exit code, and what it wrote. -/
structure Report where
  code : Nat
  written : Written
  deriving DecidableEq, Repr

/-- Why a command breaks off without a report: a format that is too wide, or settings with a path to
a place that a list does not have. -/
inductive Breakdown where
  | overwide (e : Overwide)
  | misplaced
  deriving DecidableEq, Repr

def Report.success (out : Text) : Report := ⟨0, .toOut out⟩

def Report.failure (reason : Text) : Report := ⟨1, .toErr ("Error: ".toList ++ reason ++ ['\n'])⟩

def Report.behind (w : Written) (r : Report) : Report :=
  ⟨r.code, ⟨w.out ++ r.written.out, w.err ++ r.written.err⟩⟩

/-- What a command finds: the texts of the files that can be read, by path, the variables, and the
machine. -/
structure Surroundings where
  file? : Text → Option Text
  vars : Settings.Variables
  host : Host

def assignmentFile : Text := ".env".toList

/-- The file of settings that is read when none is named. -/
def usualFile : Text := "loom.toml".toList

def fileVariable : Text := "LOOM_CONFIG_PATH".toList

def withAssignments (vars : Settings.Variables) (file : Option Text) : Settings.Variables :=
  match file with
  | some file => Settings.addVariables vars file
  | none => vars

def pathsOf (i : Invocation) (vars : Settings.Variables) : List Text :=
  [usualFile] ++ i.settingsFile.toList ++ (vars.lookup fileVariable).toList ++
  i.command.file?.toList

/-- A command that has done its work, or one that has a conversation. -/
inductive Plan where
  | finished (r : Report)
  | converse (json : Bool) (session : Session) (language : Language) (source : Text)

def loadSettings (s : Surroundings) (named : Option Text) (overrides : Overrides) :
    Except SettingsError Settings :=
  let vars := withAssignments s.vars (s.file? assignmentFile)
  let entries := Settings.entriesOf vars
  match named.or (vars.lookup fileVariable) with
  | none => Settings.load (s.file? usualFile) entries overrides
  | some path =>
    match s.file? path with
    | none => .error (.missingFile path)
    | some file => Settings.load (some file) entries overrides

def language (file : Text) (named : Option Text) : Except Text Language :=
  match named with
  | some name => (Language.ofName? name).mapError UnknownLanguage.message
  | none =>
    match Language.ofPath? file with
    | some l => .ok l
    | none => .error ("Cannot infer the language of ".toList ++ file ++ "; pass --language".toList)

def settingsOrReason (s : Surroundings) (named : Option Text) (overrides : Overrides) :
    Except Breakdown (Except Text Settings) :=
  match loadSettings s named overrides with
  | .ok settings => .ok (.ok settings)
  | .error .misplaced => .error .misplaced
  | .error _ => .ok (.error "Failed to load configuration".toList)

def sourceOrReason (s : Surroundings) (file : Text) (named : Option Text) :
    Except Text (Text × Language) :=
  match s.file? file with
  | none => .error ("Failed to read ".toList ++ file)
  | some source => (language file named).map fun l => (source, l)

def plan (s : Surroundings) (i : Invocation) : Except Breakdown Plan := do
  match i.command with
  | .languages => return .finished (.success (Language.all.flatMap languageLine))
  | .config =>
    match ← settingsOrReason s i.settingsFile .none with
    | .error reason => return .finished (.failure reason)
    | .ok settings =>
      return .finished (match settings.text? with
        | some text => .success text
        | none => .failure "out-of-range value for u64 type".toList)
  | .highlight file named json =>
    match ← settingsOrReason s i.settingsFile .none with
    | .error reason => return .finished (.failure reason)
    | .ok settings =>
      return .finished (match sourceOrReason s file named with
        | .error reason => .failure reason
        | .ok (source, l) =>
          let spans := Span.classify (settings.profile l) source
          .success (if json then spansJson spans else painted spans))
  | .run file named batch external json =>
    let overrides : Overrides :=
      ⟨if batch then some .batch else none, if external then some .external else none, none⟩
    match ← settingsOrReason s i.settingsFile overrides with
    | .error reason => return .finished (.failure reason)
    | .ok settings =>
      return match sourceOrReason s file named with
        | .error reason => .finished (.failure reason)
        | .ok (source, l) => .converse json (.new s.host settings) l source

def outcomeReport (json : Bool) (o : Outcome) : Report :=
  if json then .success (outcomeJson o)
  else
    match o with
    | .completed => .success []
    | .stopped => .success []
    | .document source => .success source
    | .failed reason => .failure ("Run failed: ".toList ++ reason)

/-- The report about what a conversation came to; a format that is too wide leaves none. -/
def replyReport (json : Bool) : Reply → Except Breakdown Report
  | .outcome o => .ok (outcomeReport json o)
  | .overwide e => .error (.overwide e)
  | _ => .ok (.failure runInProgressText)

def Plan.report (p : Plan) (input : List Text) : Except Breakdown Report :=
  match p with
  | .finished r => .ok r
  | .converse json session l source => do
    let (shown, reply) := Conversation.run session l source input
    .ok ((← replyReport json reply).behind (writtenAll json shown))

/-- What is said of arguments that ask for no command. -/
def usage : Text :=
  "usage: highlight FILE [-l LANGUAGE] [--json] | ".toList ++
    "run FILE [-l LANGUAGE] [--batch] [--external] [--json] | ".toList ++
    "languages | config, each with [--config FILE]\n".toList

def report (s : Surroundings) (arguments : List Text) (input : Text) : Except Breakdown Report :=
  match Invocation.ofArguments? arguments with
  | none => .ok ⟨2, .toErr usage⟩
  | some i => do (← plan s i).report (Text.lines input)

end SourcePreview.Command
