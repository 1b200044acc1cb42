import JavaGenerics.Text.Numeral
import JavaGenerics.Toml.Scanner
import JavaGenerics.Toml.Value

/-!
# Keys, strings, numbers and dates

* `Toml.text` — a string in one of its four notations: quoted with escapes or taken literally, on
  one line or on several.
* `Toml.key` — a bare or quoted key, or several joined by dots.
* `Toml.integer`, `Toml.float`, `Toml.dateTime` — numbers and dates.  Integers have 64 bits and a
  sign, other numbers are doubles.
-/

namespace JavaGenerics.Toml

open Scanner

/-! ## Characters -/

/-- Blanks within a line. -/
def isSpace (c : Char) : Bool :=
  c == ' ' || c == '\t'

/-- Characters that text may hold as they are: all but the controls, of which the tab is allowed. -/
def isPlain (c : Char) : Bool :=
  c == '\t' || (0x20 ≤ c.toNat && c.toNat != 0x7f)

def isBinary (c : Char) : Bool :=
  c == '0' || c == '1'

def isOctal (c : Char) : Bool :=
  '0' ≤ c && c ≤ '7'

def isHex (c : Char) : Bool :=
  c.isDigit || ('a' ≤ c && c ≤ 'f') || ('A' ≤ c && c ≤ 'F')

/-! ## Blanks -/

def spaces : Scanner Unit := do
  let _ ← takeWhile isSpace
  return ()

/-- The end of a line. -/
def newline : Scanner Unit :=
  orElse (literal "\n") (literal "\r\n")

/-- A comment up to the end of its line. -/
def comment : Scanner Unit := do
  char '#'
  let _ ← takeWhile isPlain
  return ()

/-- Blanks, ends of lines and comments. -/
def blanks : Scanner Unit := do
  let _ ← many <| orElse (do let _ ← satisfy isSpace) <| do
    let _ ← optionally comment
    newline
  return ()

/-! ## Strings -/

/-- The character with the given code point, if there is one. -/
def codePoint (n : Nat) : Scanner Char :=
  if n.isValidChar then pure (Char.ofNat n) else refuse

/-- What follows a backslash. -/
def escaped : Scanner Char := do
  match ← satisfy fun _ => true with
  | 'b' => return '\x08'
  | 't' => return '\t'
  | 'n' => return '\n'
  | 'f' => return '\x0c'
  | 'r' => return '\r'
  | '"' => return '"'
  | '\\' => return '\\'
  | 'u' => codePoint (number 16 (← exactly 4 isHex))
  | 'U' => codePoint (number 16 (← exactly 8 isHex))
  | _ => refuse

/-- A character of a quoted string, or an escape. -/
def quotedChar : Scanner Char :=
  orElse (satisfy fun c => isPlain c && c != '"' && c != '\\') <| do
    char '\\'
    escaped

/-- A quoted string on one line. -/
def quotedText : Scanner (List Char) := do
  char '"'
  let chars ← many quotedChar
  char '"'
  return chars

/-- A literal string on one line. -/
def literalText : Scanner (List Char) := do
  char '\''
  let chars ← takeWhile fun c => isPlain c && c != '\''
  char '\''
  return chars

/-- One or two quotes inside a string of several lines, which ends at three. -/
def fewQuotes (quote : Char) : Scanner (List Char) := do
  let run ← takeWhile (· == quote)
  if run.length = 1 ∨ run.length = 2 then return run else refuse

/-- The end of a string of several lines.  Up to two of its quotes belong to the string. -/
def closingQuotes (quote : Char) : Scanner (List Char) := do
  let run ← takeWhile (· == quote)
  if 3 ≤ run.length ∧ run.length ≤ 5 then return run.drop 3 else refuse

/-- A line break inside a string. -/
def lineBreak : Scanner (List Char) := do
  newline
  return ['\n']

/-- A backslash at the end of a line, which takes the following blanks and line breaks with it. -/
def continuation : Scanner (List Char) := do
  char '\\'
  spaces
  newline
  let _ ← many <| orElse (do let _ ← satisfy isSpace) newline
  return []

/-- A string of several lines, given what it is made of. -/
def manyLines (quote : Char) (piece : Scanner (List Char)) : Scanner (List Char) := do
  let _ ← exactly 3 (· == quote)
  let _ ← optionally newline
  let pieces ← many (orElse (fewQuotes quote) (orElse lineBreak piece))
  let last ← closingQuotes quote
  return pieces.flatten ++ last

/-- A quoted string of several lines. -/
def quotedLines : Scanner (List Char) :=
  manyLines '"' (orElse continuation (List.singleton <$> quotedChar))

/-- A literal string of several lines. -/
def literalLines : Scanner (List Char) :=
  manyLines '\'' (List.singleton <$> satisfy fun c => isPlain c && c != '\'')

/-- A string in any notation. -/
def text : Scanner String := do
  let three := (← rest).take 3
  String.ofList <$>
    if three = ['"', '"', '"'] then quotedLines
    else if three = ['\'', '\'', '\''] then literalLines
    else orElse quotedText literalText

/-! ## Keys -/

def isBare (c : Char) : Bool :=
  c.isAlphanum || c == '_' || c == '-'

/-- One part of a key. -/
def keyPart : Scanner String := do
  match ← peek with
  | some '"' => String.ofList <$> quotedText
  | some '\'' => String.ofList <$> literalText
  | _ =>
    let chars ← takeWhile isBare
    if chars.isEmpty then refuse else return String.ofList chars

/-- A key, whose parts are joined by dots.  Each part nests a table in the one before. -/
def key : Scanner (List String) := do
  let parts ← sepBy keyPart do
    spaces
    char '.'
    spaces
  if parts.length ≤ maxNesting then return parts else refuse

/-! ## Numbers -/

/-- Digits, between which single underscores may stand. -/
def digits (isDigit : Char → Bool) : Scanner (List Char) := do
  let first ← satisfy isDigit
  let more ← many do
    let _ ← optionally (char '_')
    satisfy isDigit
  return first :: more

/-- Decimal digits without a leading zero. -/
def decimalDigits : Scanner (List Char) := do
  let chars ← digits Char.isDigit
  match chars with
  | '0' :: _ :: _ => refuse
  | _ => return chars

/-- A sign, and whether it is a minus. -/
def sign : Scanner Bool := do
  match ← optionally (satisfy fun c => c == '+' || c == '-') with
  | some c => return c == '-'
  | none => return false

/-- An integer after a letter for its base, which takes no sign. -/
def basedInteger : Scanner Int := do
  char '0'
  let chars ←
    match ← satisfy fun _ => true with
    | 'x' => number 16 <$> digits isHex
    | 'o' => number 8 <$> digits isOctal
    | 'b' => number 2 <$> digits isBinary
    | _ => refuse
  return (chars : Int)

/-- A decimal integer. -/
def decimalInteger : Scanner Int := do
  let negative ← sign
  let n := (number 10 (← decimalDigits) : Int)
  return if negative then -n else n

/-- An integer of 64 bits with a sign. -/
def integer : Scanner Value := do
  let n ← orElse basedInteger decimalInteger
  if -9223372036854775808 ≤ n ∧ n ≤ 9223372036854775807 then return .integer n else refuse

/-- The digits after the point. -/
def fraction : Scanner (List Char) := do
  char '.'
  digits Char.isDigit

/-- An exponent of ten. -/
def exponent : Scanner Int := do
  let _ ← satisfy fun c => c == 'e' || c == 'E'
  let negative ← sign
  let n := (number 10 (← digits Char.isDigit) : Int)
  return if negative then -n else n

/-- A number with a fraction, an exponent or both. -/
def decimal : Scanner Decimal := do
  let whole ← decimalDigits
  match ← optionally fraction with
  | none => return ⟨whole, ← exponent⟩
  | some fraction =>
    return ⟨whole ++ fraction, (← optionally exponent).getD 0 - fraction.length⟩

/-- A number that is no integer.  Infinity may be named, and a negative number may round to it, but
a positive one may not. -/
def float : Scanner Value := do
  let negative ← sign
  orElse (literal "inf") <| orElse (literal "nan") do
    let number ← decimal
    if !negative && number.exceedsDouble then refuse
  return .float

/-! ## Dates -/

/-- A number of exactly `count` digits within the given bounds. -/
def fixedNumber (count low high : Nat) : Scanner Nat := do
  let n := number 10 (← exactly count Char.isDigit)
  if low ≤ n ∧ n ≤ high then return n else refuse

/-- The number of days of a month. -/
def daysIn (year month : Nat) : Nat :=
  if month = 2 then
    if year % 4 = 0 ∧ (year % 100 ≠ 0 ∨ year % 400 = 0) then 29 else 28
  else if month = 4 ∨ month = 6 ∨ month = 9 ∨ month = 11 then 30
  else 31

def date : Scanner Unit := do
  let year ← fixedNumber 4 0 9999
  char '-'
  let month ← fixedNumber 2 1 12
  char '-'
  let _ ← fixedNumber 2 1 (daysIn year month)
  return ()

def time : Scanner Unit := do
  let _ ← fixedNumber 2 0 23
  char ':'
  let _ ← fixedNumber 2 0 59
  char ':'
  let _ ← fixedNumber 2 0 60
  let _ ← optionally do
    char '.'
    let _ ← satisfy Char.isDigit
    takeWhile Char.isDigit
  return ()

def zone : Scanner Unit :=
  orElse (do let _ ← satisfy fun c => c == 'Z' || c == 'z') do
    let _ ← satisfy fun c => c == '+' || c == '-'
    let _ ← fixedNumber 2 0 23
    char ':'
    let _ ← fixedNumber 2 0 59
    return ()

/-- A date, a time, or both, and then perhaps with a time zone. -/
def dateTime : Scanner Value := do
  orElse time do
    date
    let _ ← optionally do
      let _ ← satisfy fun c => c == 'T' || c == 't' || c == ' '
      time
      optionally zone
    return ()
  return .dateTime

end JavaGenerics.Toml
