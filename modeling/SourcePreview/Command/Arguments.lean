import SourcePreview.Text.Basic

/-! The arguments of the command line: one of four commands, its file and its options, which may
stand in any order. -/

namespace SourcePreview

/-- What the command line asks for. -/
inductive Command where
  | highlight (file : Text) (language : Option Text) (json : Bool)
  | run (file : Text) (language : Option Text) (batch external json : Bool)
  | languages
  | config
  deriving DecidableEq, Repr

def Command.file? : Command → Option Text
  | .highlight file _ _ => some file
  | .run file _ _ _ _ => some file
  | _ => none

structure Invocation where
  settingsFile : Option Text
  command : Command
  deriving DecidableEq, Repr

/-- Arguments sorted by kind: the options, and the words that are none, in their order. -/
structure Arguments where
  settingsFile : Option Text
  language : Option Text
  batch : Bool
  external : Bool
  json : Bool
  words : List Text

namespace Arguments

def empty : Arguments := ⟨none, none, false, false, false, []⟩

def attached? (name argument : Text) : Option Text := Text.after? (name ++ ['=']) argument

/-- The value of a short option: it may follow the letter directly or behind an equals sign. -/
def shortValue? (name argument : Text) : Option Text :=
  match attached? name argument with
  | some value => some value
  | none => (Text.after? name argument).filter fun value => !value.isEmpty

def sort? (a : Arguments) : List Text → Option Arguments
  | [] => some a
  | argument :: rest =>
    if argument == "--".toList then some { a with words := a.words ++ rest }
    else if argument == "--json".toList then sort? { a with json := true } rest
    else if argument == "--batch".toList then sort? { a with batch := true } rest
    else if argument == "--external".toList then sort? { a with external := true } rest
    else if argument == "--config".toList then
      match rest with
      | [] => none
      | value :: rest => sort? { a with settingsFile := some value } rest
    else if argument == "--language".toList || argument == "-l".toList then
      match rest with
      | [] => none
      | value :: rest => sort? { a with language := some value } rest
    else
      match attached? "--config".toList argument, attached? "--language".toList argument,
          shortValue? "-l".toList argument with
      | some value, _, _ => sort? { a with settingsFile := some value } rest
      | _, some value, _ => sort? { a with language := some value } rest
      | _, _, some value => sort? { a with language := some value } rest
      | none, none, none =>
        if argument.head? == some '-' && argument != ['-'] then none
        else sort? { a with words := a.words ++ [argument] } rest

def command? (a : Arguments) : Option Command :=
  match a.words.map String.ofList with
  | ["highlight", file] =>
    if a.batch || a.external then none else some (.highlight file.toList a.language a.json)
  | ["run", file] => some (.run file.toList a.language a.batch a.external a.json)
  | ["languages"] => some .languages
  | ["config"] => some .config
  | _ => none

end Arguments

def Invocation.ofArguments? (arguments : List Text) : Option Invocation := do
  let a ← Arguments.empty.sort? arguments
  some ⟨a.settingsFile, ← a.command?⟩

example : Invocation.ofArguments?
    (["run", "-ljava", "m.txt", "--config=c.toml", "--json"].map String.toList) =
    some ⟨some "c.toml".toList, .run "m.txt".toList (some "java".toList) false false true⟩ := by
      decide +kernel

end SourcePreview
