import Patchbay.Decimal.Nearest
import Patchbay.Toml.Reader
import Patchbay.Toml.Value

/-! Strings, numbers, dates and times. -/

set_option autoImplicit false

namespace Patchbay.Toml

open Reader

/-! ## Strings -/

def isHexDigit (char : Char) : Bool :=
  char.isDigit || ('a' ≤ char && char ≤ 'f') || ('A' ≤ char && char ≤ 'F')

def digitValue (char : Char) : Nat :=
  if char.isDigit then char.toNat - '0'.toNat
  else if 'a' ≤ char then char.toNat - 'a'.toNat + 10
  else char.toNat - 'A'.toNat + 10

def digitsValue (base : Nat) (digits : List Char) : Nat :=
  digits.foldl (fun value digit => value * base + digitValue digit) 0

def charOfNumber (length : Nat) : Reader Char := do
  let number := digitsValue 16 (← count isHexDigit length)
  require number.isValidChar
  return Char.ofNat number

def escaped : Reader Char := do
  match ← one (fun _ => true) with
  | 'b' => return '\x08'
  | 't' => return '\t'
  | 'n' => return '\n'
  | 'f' => return '\x0c'
  | 'r' => return '\r'
  | '"' => return '"'
  | '\\' => return '\\'
  | 'u' => charOfNumber 4
  | 'U' => charOfNumber 8
  | _ => failure

def escape : Reader (List Char) := do
  exactly '\\'
  return [← escaped]

def plain (mark : Char) (char : Char) : Bool := isTextChar char && char ≠ mark

def isBasicChar (char : Char) : Bool := plain '"' char && char ≠ '\\'

def basicString : Reader String := do
  exactly '"'
  let pieces ← many ((fun char => [char]) <$> one isBasicChar <|> escape)
  exactly '"'
  return String.ofList pieces.flatten

def literalString : Reader String := do
  exactly '\''
  let text ← run (plain '\'')
  exactly '\''
  return String.ofList text

def continuation : Reader (List Char) := do
  exactly '\\'
  blanks
  newline
  discard (many (discard (one isBlank) <|> newline))
  return []

def lineBreak : Reader (List Char) := do
  newline
  return ['\n']

/-- One or two quotation marks that do not end a string of several lines. -/
def innerMarks (mark : Char) : Reader (List Char) := do
  let marks ← run (· = mark)
  require (0 < marks.length && marks.length < 3)
  return marks

/-- Three quotation marks, with up to two more in front that belong to the text. -/
def closingMarks (mark : Char) : Reader (List Char) := do
  let marks ← run (· = mark)
  require (3 ≤ marks.length && marks.length ≤ 5)
  return marks.drop 3

/-- A string of several lines. A line end right after the opening is left out. -/
def longString (mark : Char) (piece : Reader (List Char)) : Reader String := do
  discard (count (· = mark) 3)
  discard (maybe newline)
  let pieces ← many (piece <|> lineBreak <|> innerMarks mark)
  let last ← closingMarks mark
  return String.ofList (pieces.flatten ++ last)

def longBasicString : Reader String :=
  longString '"' ((fun char => [char]) <$> one isBasicChar <|> continuation <|> escape)

def longLiteralString : Reader String :=
  longString '\'' ((fun char => [char]) <$> one (plain '\''))

def string : Reader String :=
  longBasicString <|> basicString <|> longLiteralString <|> literalString

/-! ## Numbers -/

def digits (accept : Char → Bool) : Reader (List Char) := do
  let first ← one accept
  return first :: (← many (one accept <|> exactly '_' *> one accept))

def wholeNumber : Reader (Bool × List Char) := do
  let sign ← maybe (one fun char => char = '+' || char = '-')
  let number ← digits (fun char => char.isDigit)
  require (number.length = 1 || number.head? ≠ some '0')
  return (sign = some '-', number)

/-- Integers are below this bound and not below its negative; they have 64 bits. -/
def integerLimit : Nat := 0x8000000000000000

def integerInRange (number : Int) : Reader Int := do
  require (-(integerLimit : Int) ≤ number && number < integerLimit)
  return number

def basedInteger (mark : String) (base : Nat) (accept : Char → Bool) : Reader Int := do
  word mark
  integerInRange (digitsValue base (← digits accept))

def decimalInteger : Reader Int := do
  let (negative, number) ← wholeNumber
  let magnitude : Int := digitsValue 10 number
  integerInRange (if negative then -magnitude else magnitude)

def integer : Reader Int :=
  basedInteger "0x" 16 isHexDigit
    <|> basedInteger "0o" 8 (fun char => '0' ≤ char && char ≤ '7')
    <|> basedInteger "0b" 2 (fun char => char = '0' || char = '1')
    <|> decimalInteger

def fraction : Reader (List Char) := exactly '.' *> digits (fun char => char.isDigit)

def power : Reader Int := do
  discard (one fun char => char = 'e' || char = 'E')
  let sign ← maybe (one fun char => char = '+' || char = '-')
  let magnitude : Int := digitsValue 10 (← digits (fun char => char.isDigit))
  return if sign = some '-' then -magnitude else magnitude

/-- A number with a fraction or a power of ten. One that is too large is refused;
one that is too far below zero counts as negative infinity. -/
def decimalFloat : Reader Float := do
  let (negative, whole) ← wholeNumber
  let places ← maybe fraction
  let scale ← if places.isSome then maybe power else some <$> power
  let digits := whole ++ places.getD []
  let magnitude := (Decimal.mk (digitsValue 10 digits)
    (scale.getD 0 - (places.getD []).length)).toFloat
  require (negative || magnitude.isFinite)
  return if negative then -magnitude else magnitude

def namedFloat : Reader Float := do
  let sign ← maybe (one fun char => char = '+' || char = '-')
  let magnitude ←
    (do word "inf"; return 1.0 / 0.0) <|> (do word "nan"; return 0.0 / 0.0)
  return if sign = some '-' then -magnitude else magnitude

def float : Reader Float := decimalFloat <|> namedFloat

def boolean : Reader Bool :=
  (do word "true"; return true) <|> (do word "false"; return false)

/-! ## Dates and times -/

def field (width low high : Nat) : Reader Nat := do
  let number := digitsValue 10 (← count (fun char => char.isDigit) width)
  require (low ≤ number && number ≤ high)
  return number

def isLeapYear (year : Nat) : Bool := year % 4 = 0 && (year % 100 ≠ 0 || year % 400 = 0)

def daysInMonth (year month : Nat) : Nat :=
  if month = 2 then if isLeapYear year then 29 else 28
  else if month ∈ [4, 6, 9, 11] then 30
  else 31

def date : Reader Unit := do
  let year ← field 4 0 9999
  exactly '-'
  let month ← field 2 1 12
  exactly '-'
  discard (field 2 1 (daysInMonth year month))

def time : Reader Unit := do
  discard (field 2 0 23)
  exactly ':'
  discard (field 2 0 59)
  exactly ':'
  discard (field 2 0 60)
  discard (maybe (exactly '.' *> one (fun char => char.isDigit) *> run (fun char => char.isDigit)))

def zone : Reader Unit :=
  discard (one fun char => char = 'Z' || char = 'z') <|> do
    discard (one fun char => char = '+' || char = '-')
    discard (field 2 0 23)
    exactly ':'
    discard (field 2 0 59)

def timeOfDate : Reader Unit := do
  discard (one fun char => char = 'T' || char = 't' || char = ' ')
  time
  discard (maybe zone)

def datetime : Reader String := do
  let before ← get
  date *> discard (maybe timeOfDate) <|> time
  return String.ofList (before.take (before.length - (← get).length))

end Patchbay.Toml
