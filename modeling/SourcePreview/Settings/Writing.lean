import SourcePreview.Settings.Loading
import SourcePreview.Toml.Writing

/-! Settings written out as a TOML document, such as they can be read again. Of the profiles only
those that are set are written. -/

namespace SourcePreview.Settings

/-- The lines of a profile: its entries, and behind them a table for each comment delimited on both
sides. -/
def profileText (name : Text) (p : Profile) : Text :=
  let header := "\n[languages.".toList ++ name ++ "]\n".toList
  let marker := (p.lineComment.map fun m => Toml.line "line_comment" (Toml.quote m)).getD []
  let noBlocks := if p.blockComments.isEmpty then Toml.line "block_comments" (Toml.array []) else []
  let words := Toml.line "string_prefixes" (Toml.array p.stringPrefixes.words) ++
    Toml.line "keywords" (Toml.array p.keywords.words) ++
    Toml.line "builtins" (Toml.array p.builtins.words)
  let blocks := p.blockComments.flatMap fun b =>
    "\n[[languages.".toList ++ name ++ ".block_comments]]\n".toList ++
      Toml.line "open" (Toml.quote b.opening) ++ Toml.line "close" (Toml.quote b.closing)
  header ++ marker ++ noBlocks ++ words ++ blocks

/-- The text of settings. A time limit that is no 64-bit integer with a sign cannot be written. -/
def text? (s : Settings) : Option Text :=
  let profiles := Language.all.filterMap fun l => (s.override? l).map (profileText l.name)
  if 2 ^ 63 ≤ s.initTimeoutSecs then none
  else
    some ("[engine]\n".toList ++
      Toml.line "input_mode" (Toml.quote (Overrides.nameOf inputModes s.inputMode)) ++
      Toml.line "python_runtime" (Toml.quote (Overrides.nameOf backends s.pythonBackend)) ++
      "\n[runtime]\n".toList ++ Toml.line "python_command" (Toml.quote s.pythonCommand) ++
      Toml.line "init_timeout_secs" (Number.digits s.initTimeoutSecs) ++
      (if profiles.isEmpty then "\n[languages]\n".toList else profiles.flatten))

end SourcePreview.Settings
