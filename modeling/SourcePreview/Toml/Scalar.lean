import SourcePreview.Number.Numeral
import SourcePreview.Number.Radix
import SourcePreview.Settings.Node

/-! Unquoted TOML values: truth values, integers, floats, dates and times. A date or a time is read
as its canonical text. -/

namespace SourcePreview.Toml

def withoutUnderscores? (isDigit : Char → Bool) (s : Text) : Option Text :=
  let groups := Text.splitAll '_' s
  if groups.all (fun g => !g.isEmpty && g.all isDigit) then some groups.flatten else none

def digits? (s : Text) : Option Text := withoutUnderscores? Number.isDigit s

/-- Decimal digits without a zero in front of others. -/
def plainDigits? (s : Text) : Option Text :=
  (digits? s).filter fun row => row.length ≤ 1 || row.head? != some '0'

/-- An integer in a base that its first two characters name. -/
def based? (s : Text) : Option Int64 :=
  let read (base : Nat) (row : Text) : Option Int64 :=
    (withoutUnderscores? (fun c => (Number.digitIn? base c).isSome) row).bind fun row =>
      (Number.valueIn? base 0 row).bind fun n => Number.int64? n
  match Text.after? "0x".toList s, Text.after? "0o".toList s, Text.after? "0b".toList s with
  | some row, _, _ => read 16 row
  | _, some row, _ => read 8 row
  | _, _, some row => read 2 row
  | none, none, none => none

def integer? (s : Text) : Option Int64 :=
  match based? s with
  | some n => some n
  | none =>
    let (negative, row) := Number.cutSign s
    (plainDigits? row).bind fun row =>
      (Number.value? row).bind fun n => Number.int64? (if negative then -(n : Int) else n)

/-- The exponent part of a float, without underscores. -/
def exponent? (s : Text) : Option Text :=
  let row := (Number.cutSign s).2
  (digits? row).map fun digits => s.take (s.length - row.length) ++ digits

/-- The digits of an unsigned float, without underscores: a whole part with a fraction, an exponent,
or both. -/
def floatDigits? (s : Text) : Option Text :=
  let (mantissa, power) := match Text.cutAtFirst (fun c => c == 'e' || c == 'E') s with
    | some (a, _, b) => (a, some b)
    | none => (s, none)
  let (whole, fraction) := match Text.splitOnce '.' mantissa with
    | some (a, b) => (a, some b)
    | none => (mantissa, none)
  if power.isNone && fraction.isNone then none
  else do
    let whole ← plainDigits? whole
    let fraction ← match fraction with
      | some f => (digits? f).map ('.' :: ·)
      | none => some []
    let power ← match power with
      | some p => (exponent? p).map ('e' :: ·)
      | none => some []
    some (whole ++ fraction ++ power)

/-- A float. One that is too large is an error, unless it is negative. -/
def float? (s : Text) : Option Float :=
  let (negative, row) := Number.cutSign s
  if row == "inf".toList || row == "nan".toList then Number.readFloat? s
  else do
    let x ← Number.readFloat? (← floatDigits? row)
    if negative then some (-x) else if x == 1 / 0 then none else some x

/-- A number of exactly `width` digits within bounds. -/
def field? (width low high : Nat) (s : Text) : Option Nat :=
  if s.length = width then (Number.value? s).filter fun n => low ≤ n && n ≤ high else none

def daysIn (year month : Nat) : Nat :=
  if month = 2 then (if year % 4 = 0 ∧ (year % 100 ≠ 0 ∨ year % 400 = 0) then 29 else 28)
  else if month = 4 ∨ month = 6 ∨ month = 9 ∨ month = 11 then 30
  else 31

def date? (s : Text) : Option Text :=
  match Text.splitAll '-' s with
  | [y, m, d] => do
    let year ← field? 4 0 9999 y
    let month ← field? 2 1 12 m
    let _ ← field? 2 1 (daysIn year month) d
    some s
  | _ => none

/-- The canonical text of a fraction of a second: at most nine digits, no zeros at the end, nothing
if it is zero. -/
def fraction? (s : Text) : Option Text :=
  if s.isEmpty || !s.all Number.isDigit then none
  else
    let row := Text.trimEndOf (· == '0') (s.take 9)
    some (if row.isEmpty then [] else '.' :: row)

def time? (s : Text) : Option Text :=
  let (clock, fraction) := match Text.splitOnce '.' s with
    | some (a, b) => (a, some b)
    | none => (s, none)
  match Text.splitAll ':' clock with
  | [h, m, sec] => do
    let _ ← field? 2 0 23 h
    let _ ← field? 2 0 59 m
    let _ ← field? 2 0 60 sec
    match fraction with
    | none => some clock
    | some f => (fraction? f).map (clock ++ ·)
  | _ => none

/-- The canonical text of a distance from universal time. -/
def offset? (sign : Char) (s : Text) : Option Text :=
  match Text.splitAll ':' s with
  | [h, m] => do
    let hours ← field? 2 0 23 h
    let minutes ← field? 2 0 59 m
    some ((if hours = 0 ∧ minutes = 0 then '+' else sign) :: s)
  | _ => none

def offsetTime? (s : Text) : Option Text :=
  match Text.dropLastIf (fun c => c == 'Z' || c == 'z') s with
  | some time => (time? time).map (· ++ ['Z'])
  | none =>
    match Text.cutAtFirst (fun c => c == '+' || c == '-') s with
    | some (time, sign, distance) => do some ((← time? time) ++ (← offset? sign distance))
    | none => time? s

def dateTime? (s : Text) : Option Text :=
  (Text.cutAtFirst (fun c => c == 'T' || c == 't') s).bind fun (day, _, clock) => do
    some ((← date? day) ++ 'T' :: (← offsetTime? clock))

def word? (s : Text) : Option Node :=
  if s == "true".toList then some (.bool true)
  else if s == "false".toList then some (.bool false)
  else
    match integer? s, float? s, date? s, time? s, dateTime? s with
    | some n, _, _, _, _ => some (.int n)
    | _, some x, _, _, _ => some (.float x)
    | _, _, some d, _, _ => some (.text d)
    | _, _, _, some t, _ => some (.text t)
    | _, _, _, _, some d => some (.text d)
    | none, none, none, none, none => none

/-- Whether a character may stand in an unquoted value. -/
def isWordChar (c : Char) : Bool :=
  c.isAlphanum || c == '+' || c == '-' || c == '_' || c == '.' || c == ':'

/-- An unquoted value at the start of a text. One blank may stand between a date and a time. -/
def scalar (s : Text) : Option (Node × Text) :=
  let (word, r) := Text.spanOf isWordChar s
  let spaced := do
    let day ← date? word
    let (clock, r) := Text.spanOf isWordChar (← Text.after? [' '] r)
    some (day, clock, r)
  match spaced with
  | some (day, clock, r') =>
    if clock.isEmpty then some (.text day, r)
    else (offsetTime? clock).map fun t => (.text (day ++ 'T' :: t), r')
  | none => (word? word).map (·, r)

end SourcePreview.Toml
