import SourcePreview.Json
import SourcePreview.Number.Digits

/-! TOML as it is written: strings, arrays of strings, and tables of lines. A string is written in
the first of four styles that needs no escapes for it: between double quotes, between single quotes,
and the two with three quotes each. Where all need escapes it stands between double quotes, three
each if it has several lines. -/

namespace SourcePreview.Toml

def isControl (c : Char) : Bool := c.toNat < 0x20 || c.toNat == 0x7f

/-- The quotes around a string: double ones allow escapes, single ones do not; a block has three of
them at each end. -/
inductive Style where
  | basic
  | literal
  | basicBlock
  | literalBlock
  deriving DecidableEq, Repr

namespace Style

def delimiter : Style → Text
  | .basic => ['"']
  | .literal => ['\'']
  | .basicBlock => ['"', '"', '"']
  | .literalBlock => ['\'', '\'', '\'']

/-- Whether a line feed stands for itself. -/
def isBlock : Style → Bool
  | .basic | .literal => false
  | .basicBlock | .literalBlock => true

/-- Whether a style shows a string without escapes, those of tabs apart. -/
def shows (s : Text) : Style → Bool
  | .basic => !s.any (fun c => isControl c && c != '\t') && !s.contains '\\' && !s.contains '"'
  | .literal => !s.any (fun c => isControl c && c != '\t') && !s.contains '\''
  | .basicBlock =>
    !s.any (fun c => isControl c && c != '\t' && c != '\n') && !s.contains '\\' &&
      !Text.containsText ['"', '"', '"'] s
  | .literalBlock =>
    !s.any (fun c => isControl c && c != '\t' && c != '\n') && !Text.containsText ['\'', '\'',
      '\''] s

def ofText (s : Text) : Style :=
  ([basic, literal, basicBlock, literalBlock].find? (shows s)).getD
  (if s.contains '\n' then basicBlock else basic)

end Style

def hexDigits (n : Nat) : Text :=
  ([4096, 256, 16, 1].map fun place => Json.hexDigit (n / place % 16)).map Char.toUpper

/-- A character between double quotes, other than a double quote; in a block a line feed stands for
itself. -/
def escape (block : Bool) (c : Char) : Text :=
  if c == '\n' then (if block then ['\n'] else ['\\', 'n'])
  else if c == '\x08' then ['\\', 'b']
  else if c == '\t' then ['\\', 't']
  else if c == '\x0c' then ['\\', 'f']
  else if c == '\r' then ['\\', 'r']
  else if c == '\\' then ['\\', '\\']
  else if isControl c then '\\' :: 'u' :: hexDigits c.toNat
  else [c]

/-- A text between double quotes, with `quotes` of them just before it; a block has at most two in a
row unescaped. -/
def escapeAll (block : Bool) (quotes : Nat) : Text → Text
  | [] => []
  | c :: r =>
    if c == '"' then
      if block && quotes < 2 then '"' :: escapeAll block (quotes + 1) r
      else '\\' :: '"' :: escapeAll block 0 r
    else escape block c ++ escapeAll block 0 r

/-- A string as it is written; the lines of a block start on a line of their own. -/
def quote (s : Text) : Text :=
  let style := Style.ofText s
  let body := match style with
    | .basic | .basicBlock => escapeAll style.isBlock 0 s
    | .literal | .literalBlock => s
  style.delimiter ++ (if style.isBlock && s.contains '\n' then ['\n'] else []) ++ body ++
  style.delimiter

/-- An array of strings; more than one item take a line each. -/
def array : List Text → Text
  | [] => "[]".toList
  | [item] => '[' :: quote item ++ [']']
  | items =>
    '[' :: items.flatMap (fun item => "\n    ".toList ++ quote item ++ [',']) ++ ['\n', ']']

def line (name : String) (value : Text) : Text := name.toList ++ " = ".toList ++ value ++ ['\n']

example : quote "a\tb".toList = "\"a\\tb\"".toList ∧ quote ['\x1b'] = "\"\\u001B\"".toList := by
  decide +kernel

/-- Each style has the strings that those before it cannot show. -/
example : quote "it's".toList = "\"it's\"".toList ∧ quote "q\"uote".toList = "'q\"uote'".toList ∧
    quote "pa\"b'c".toList = "\"\"\"pa\"b'c\"\"\"".toList ∧
    quote "a\\'".toList = "'''a\\''''".toList := by
  decide +kernel

end SourcePreview.Toml
