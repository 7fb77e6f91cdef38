import SourcePreview.Number.Radix

/-! JSON strings: reading (`string?`) and writing (`quote`). Written strings are escaped no more
than they have to be. -/

namespace SourcePreview.Json

def isBlank (c : Char) : Bool := c == ' ' || c == '\t' || c == '\n' || c == '\r'

/-- The character that a letter behind a backslash stands for. -/
def escaped? : Char → Option Char
  | '"' => some '"'
  | '\\' => some '\\'
  | '/' => some '/'
  | 'b' => some '\x08'
  | 'f' => some '\x0c'
  | 'n' => some '\n'
  | 'r' => some '\r'
  | 't' => some '\t'
  | _ => none

/-- A part of a string: a character, or a numbered UTF-16 unit. -/
inductive Part where
  | char (c : Char)
  | unit (n : Nat)
  deriving DecidableEq, Repr

/-- The parts of a string behind its opening quote, and the text behind its closing quote. -/
def parts? : Text → Option (List Part × Text)
  | [] => none
  | c :: r =>
    if c == '"' then some ([], r)
    else if c == '\\' then
      match r with
      | [] => none
      | e :: r =>
        if e == 'u' then
          match r with
          | h1 :: h2 :: h3 :: h4 :: r =>
            match Number.valueIn? 16 0 [h1, h2, h3, h4], parts? r with
            | some n, some (ps, rest) => some (.unit n :: ps, rest)
            | _, _ => none
          | _ => none
        else
          match escaped? e, parts? r with
          | some x, some (ps, rest) => some (.char x :: ps, rest)
          | _, _ => none
    else if c.toNat < 0x20 then none
    else (parts? r).map fun (ps, rest) => (.char c :: ps, rest)

/-- The text of parts: a leading surrogate and the trailing one that follows it make one character,
and no surrogate stands alone. -/
def text? : List Part → Option Text
  | [] => some []
  | .char c :: ps => (text? ps).map (c :: ·)
  | .unit n :: ps =>
    if 0xd800 ≤ n ∧ n < 0xdc00 then
      match ps with
      | .unit m :: ps =>
        if 0xdc00 ≤ m ∧ m < 0xe000 then
          (text? ps).map (Char.ofNat (0x10000 + (n - 0xd800) * 0x400 + (m - 0xdc00)) :: ·)
        else none
      | _ => none
    else if 0xdc00 ≤ n ∧ n < 0xe000 then none
    else (text? ps).map (Char.ofNat n :: ·)

/-- The text that a JSON string stands for; blanks around it do not count. -/
def string? (s : Text) : Option Text :=
  match Text.after? ['"'] (s.dropWhile isBlank) with
  | none => none
  | some r =>
    match parts? r with
    | none => none
    | some (ps, rest) => if rest.all isBlank then text? ps else none

example : string? " \"a\\n\\u00e9\\ud83d\\ude00\" ".toList = some ['a', '\n', 'é', '😀'] ∧
    string? "\"\\ud83d\"".toList = none ∧ string? "\"a\"b".toList = none ∧
        string? "7".toList = none := by decide +kernel

/-- A hexadecimal digit, in lower case. -/
def hexDigit (n : Nat) : Char :=
  if n < 10 then Char.ofNat ('0'.toNat + n) else Char.ofNat ('a'.toNat + (n - 10))

/-- A character as it is written in a string. -/
def escape (c : Char) : Text :=
  if c == '"' || c == '\\' then ['\\', c]
  else if c == '\n' then ['\\', 'n']
  else if c == '\r' then ['\\', 'r']
  else if c == '\t' then ['\\', 't']
  else if c == '\x08' then ['\\', 'b']
  else if c == '\x0c' then ['\\', 'f']
  else if c.toNat < 0x20 then
    ['\\', 'u', '0', '0', hexDigit (c.toNat / 16), hexDigit (c.toNat % 16)]
  else [c]

/-- A text as a JSON string. -/
def quote (s : Text) : Text := '"' :: s.flatMap escape ++ ['"']

example : quote ['a', '"', '\n', '\x1e', 'é'] = "\"a\\\"\\n\\u001eé\"".toList := by decide +kernel

end SourcePreview.Json
