import SourcePreview.Number.Radix

/-! The lexical level of TOML: blanks, comments and line ends, and the four kinds of strings. A
reader takes its part off the start of a text and gives the rest; `none` is an error. -/

namespace SourcePreview.Toml

/-- A blank inside of a line. -/
def isSpace (c : Char) : Bool := c == ' ' || c == '\t'

/-- Whether a character may stand in a comment or a string: a tab, or anything that is no control
character. -/
def isPrintable (c : Char) : Bool := c == '\t' || (0x20 ≤ c.toNat && c.toNat != 0x7f)

def skipSpace (s : Text) : Text := s.dropWhile isSpace

def afterLineEnd? : Text → Option Text
  | [] => none
  | c :: r =>
    if c == '\n' then some r
    else if c == '\r' then Text.after? ['\n'] r
    else none

/-- What follows the blanks, the comment and the end of a line. The end of the text ends a line as
well. -/
def finishLine? (s : Text) : Option Text :=
  let s := match skipSpace s with
    | [] => []
    | c :: r => if c == '#' then r.dropWhile isPrintable else c :: r
  if s.isEmpty then some [] else afterLineEnd? s

/-- Drops blanks, line ends and comments; `commented` tells whether the text starts inside of a
comment. -/
def skipLines? (commented : Bool) : Text → Option Text
  | [] => some []
  | c :: r =>
    if c == '\n' then skipLines? false r
    else if c == '\r' then (if r.head? == some '\n' then skipLines? commented r else none)
    else if commented then (if isPrintable c then skipLines? true r else none)
    else if c == '#' then skipLines? true r
    else if isSpace c then skipLines? false r
    else some (c :: r)

def scalar? (n : Nat) : Option Char := if n.isValidChar then some (Char.ofNat n) else none

/-- The character that a letter behind a backslash stands for. -/
def escaped? (c : Char) : Option Char :=
  if c == 'b' then some '\x08'
  else if c == 't' then some '\t'
  else if c == 'n' then some '\n'
  else if c == 'f' then some '\x0c'
  else if c == 'r' then some '\r'
  else if c == '"' || c == '\\' then some c
  else none

/-- Adds characters in front of what a reader gave. -/
def prepend (start : Text) (r : Option (Text × Text)) : Option (Text × Text) :=
  r.map fun (a, b) => (start ++ a, b)

/-- The character with a hexadecimal number, in front of what follows. -/
def numbered (hex : Text) (r : Option (Text × Text)) : Option (Text × Text) :=
  ((Number.valueIn? 16 0 hex).bind scalar?).bind fun x => prepend [x] r

/-- The rest of a string in double quotes, behind the opening one. -/
def basic? : Text → Option (Text × Text)
  | [] => none
  | c :: r =>
    if c == '"' then some ([], r)
    else if c == '\\' then
      match r with
      | [] => none
      | e :: r =>
        if e == 'u' then
          match r with
          | a :: b :: c :: d :: r => numbered [a, b, c, d] (basic? r)
          | _ => none
        else if e == 'U' then
          match r with
          | a :: b :: c :: d :: a' :: b' :: c' :: d' :: r =>
            numbered [a, b, c, d, a', b', c', d'] (basic? r)
          | _ => none
        else (escaped? e).bind fun x => prepend [x] (basic? r)
    else if isPrintable c then prepend [c] (basic? r)
    else none

/-- The rest of a string in single quotes, behind the opening one. -/
def literal? (s : Text) : Option (Text × Text) :=
  (Text.splitOnce '\'' s).bind fun (a, r) => if a.all isPrintable then some (a, r) else none

/-- The end of a string in three quotes each: up to two more quotes before the closing ones belong
to the string. -/
def closeTriple (quote : Char) (s : Text) : Text × Text :=
  let more := (s.takeWhile (· == quote)).take 2
  (more, s.drop more.length)

def quotesFollow (quote : Char) (r : Text) : Bool := (r.takeWhile (· == quote)).length ≥ 2

/-- The rest of a string in three double quotes each. Behind a backslash at the end of a line,
blanks and line ends are dropped; `dropping` tells whether the text starts there. -/
def tripleBasic? (dropping : Bool) : Text → Option (Text × Text)
  | [] => none
  | c :: r =>
    if dropping && (isSpace c || c == '\n') then tripleBasic? true r
    else if c == '\r' then (if r.head? == some '\n' then tripleBasic? dropping r else none)
    else if c == '\n' then prepend ['\n'] (tripleBasic? false r)
    else if c == '"' then
      if quotesFollow '"' r then some (closeTriple '"' (r.drop 2))
      else prepend ['"'] (tripleBasic? false r)
    else if c == '\\' then
      if (afterLineEnd? (skipSpace r)).isSome then tripleBasic? true r
      else
        match r with
        | [] => none
        | e :: r =>
          if e == 'u' then
            match r with
            | a :: b :: c :: d :: r => numbered [a, b, c, d] (tripleBasic? false r)
            | _ => none
          else if e == 'U' then
            match r with
            | a :: b :: c :: d :: a' :: b' :: c' :: d' :: r =>
              numbered [a, b, c, d, a', b', c', d'] (tripleBasic? false r)
            | _ => none
          else (escaped? e).bind fun x => prepend [x] (tripleBasic? false r)
    else if isPrintable c then prepend [c] (tripleBasic? false r)
    else none

/-- The rest of a string in three single quotes each. -/
def tripleLiteral? : Text → Option (Text × Text)
  | [] => none
  | c :: r =>
    if c == '\r' then (if r.head? == some '\n' then tripleLiteral? r else none)
    else if c == '\'' then
      if quotesFollow '\'' r then some (closeTriple '\'' (r.drop 2))
      else prepend ['\''] (tripleLiteral? r)
    else if c == '\n' || isPrintable c then prepend [c] (tripleLiteral? r)
    else none

def lineString? : Text → Option (Text × Text)
  | [] => none
  | c :: r => if c == '"' then basic? r else if c == '\'' then literal? r else none

/-- A string; a line end right behind three opening quotes does not count. -/
def string? (s : Text) : Option (Text × Text) :=
  let afterOpening (r : Text) : Text := (afterLineEnd? r).getD r
  match Text.after? "\"\"\"".toList s, Text.after? "'''".toList s with
  | some r, _ => tripleBasic? false (afterOpening r)
  | none, some r => tripleLiteral? (afterOpening r)
  | none, none => lineString? s

end SourcePreview.Toml
