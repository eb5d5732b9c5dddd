import LegacyBasic.Text.Calendar
import LegacyBasic.Text.Decimal
import LegacyBasic.Text.Integer
import LegacyBasic.Toml.Text

/-!
Numbers, dates and times.  A number is first cut out of the text by the characters it may consist
of, and then checked.
-/

namespace LegacyBasic.Toml

/-- Whether every underscore stands after a digit of some base, and such a digit ends the text. -/
def underscoresSeparate (afterDigit : Bool) : List Char → Bool
  | [] => afterDigit
  | c :: rest => (c != '_' || afterDigit) && underscoresSeparate (isHexDigit c) rest

/-- Whether a number begins with a zero that it should not have. -/
def hasLeadingZero : List Char → Bool
  | '0' :: c :: _ => !(c == 'b' || c == 'o' || c == 'x')
  | '+' :: '0' :: _ :: _ => true
  | '-' :: '0' :: _ :: _ => true
  | _ => false

/-- Whether a digit follows every point. -/
def pointsAreFollowed : List Char → Bool
  | [] => true
  | c :: rest => (c != '.' || rest.head?.any Char.isDigit) && pointsAreFollowed rest

/-- The text without its sign, and whether that was a minus. -/
def splitSign : List Char → Bool × List Char
  | '-' :: rest => (true, rest)
  | '+' :: rest => (false, rest)
  | text => (false, text)

def naturalValue (base : Nat) (digits : List Char) : Nat :=
  digits.foldl (fun n c => n * base + hexValue [c]) 0

/-- The value of an integer without its sign. -/
def magnitude (text : List Char) : Nat :=
  match text with
  | '0' :: 'x' :: digits => naturalValue 16 digits
  | '0' :: 'o' :: digits => naturalValue 8 digits
  | '0' :: 'b' :: digits => naturalValue 2 digits
  | digits => naturalValue 10 digits

def integerValue? (text : List Char) : Option Int :=
  if !underscoresSeparate false text || hasLeadingZero text then none
  else
    let (negative, unsigned) := splitSign (text.filter (· ≠ '_'))
    let value := magnitude unsigned
    if negative then if value ≤ Integer.signedLimit then some (-(value : Int)) else none
    else if value < Integer.signedLimit then some (value : Int)
    else none

/-- The pieces of a number between points and exponent marks. -/
def numberParts (text : List Char) : List (List Char) :=
  (text.splitOnP fun c => c == '.' || c == 'e' || c == 'E').filter fun part => !part.isEmpty

/-- Whether a text is a number with a fraction or an exponent that a double can hold. -/
def isDecimal (text : List Char) : Bool :=
  (numberParts text).all (underscoresSeparate false) &&
    !((numberParts text).head?.any hasLeadingZero) && pointsAreFollowed text &&
    (Decimal.ofText? (splitSign (text.filter (· ≠ '_'))).2).any Decimal.isFinite

/-- Whether a text is a date, a time, or both with a letter T between them. -/
def isMoment (text : List Char) : Bool :=
  let date := Calendar.date Calendar.twoDigits
  let time := Calendar.time Calendar.twoDigits Calendar.twoDigits
  match date text with
  | some (_, []) => true
  | some (_, 'T' :: rest) =>
    match time rest with
    | none => false
    | some (_, rest) =>
      let rest := Calendar.fraction rest
      rest.isEmpty || (Calendar.zone rest).any fun (_, rest) => rest.isEmpty
  | some _ => false
  | none => (time text).any fun (_, rest) => (Calendar.fraction rest).isEmpty

def isMomentCharacter (c : Char) : Bool :=
  c.isDigit || ['-', ':', 'T', 't', ' ', '.', 'Z', 'z', '+'].contains c

/-- The text of a date or time with capital letters, and a T in the place of a blank. -/
def normalizeMoment (text : List Char) : List Char :=
  let trimmed := (text.reverse.dropWhile isBlank).reverse
  trimmed.map fun c => if c = 't' ∨ c = ' ' then 'T' else if c = 'z' then 'Z' else c

/-- A number that consists of the characters that `accepts` does. -/
def cut (accepts : Char → Bool) (check : List Char → Option Value) : Reader Value := fun text =>
  (check (text.takeWhile accepts)).map fun value => (value, text.dropWhile accepts)

def integerFrom (text : List Char) : Option Value := (integerValue? text).map .integer

def decimalFrom (text : List Char) : Option Value :=
  if isDecimal text then some (.decimal text) else none

def momentFrom (text : List Char) : Option Value :=
  let text := normalizeMoment text
  if isMoment text then some (.moment text) else none

def isDecimalCharacter (c : Char) : Bool :=
  c.isDigit || ['_', '.', '-', '+', 'e', 'E'].contains c

/-- Whether a point or an exponent mark stands at the front. -/
def continuesDecimal (text : List Char) : Bool :=
  text.head?.any fun c => c == '.' || c == 'e' || c == 'E'

/-- A number in base ten, whose sign is part of it. -/
def decimalNumber : Reader Value := fun text =>
  let (_, unsigned) := splitSign text
  let isSpacedDigit := fun c : Char => c.isDigit || c == '_'
  if continuesDecimal (unsigned.dropWhile isSpacedDigit) then
    cut isDecimalCharacter decimalFrom text
  else
    let sign := text.take (text.length - unsigned.length)
    (integerFrom (sign ++ unsigned.takeWhile isSpacedDigit)).map fun value =>
      (value, unsigned.dropWhile isSpacedDigit)

/-- A number in another base; at least one digit follows the mark. -/
def basedNumber (isDigit : Char → Bool) (mark : Char) (text : List Char) :
    Option (Value × List Char) :=
  if text.head?.any isDigit then
    let isSpacedDigit := fun c => isDigit c || c == '_'
    (integerFrom ('0' :: mark :: text.takeWhile isSpacedDigit)).map fun value =>
      (value, text.dropWhile isSpacedDigit)
  else none

/-- A number, date or time that begins with a digit or a sign. -/
def number : Reader Value
  | '0' :: 'x' :: rest => basedNumber isHexDigit 'x' rest
  | '0' :: 'o' :: rest => basedNumber (fun c => '0' ≤ c && c ≤ '7') 'o' rest
  | '0' :: 'b' :: rest => basedNumber (fun c => c == '0' || c == '1') 'b' rest
  | text =>
    let (_, unsigned) := splitSign text
    match unsigned with
    | 'i' :: 'n' :: 'f' :: rest => some (.decimal ['i', 'n', 'f'], rest)
    | 'n' :: 'a' :: 'n' :: rest => some (.decimal ['n', 'a', 'n'], rest)
    | '0' :: mark :: _ =>
      if mark = 'x' ∨ mark = 'o' ∨ mark = 'b' then none
      else if text.length = unsigned.length ∧ isDate unsigned then
        cut isMomentCharacter momentFrom text
      else decimalNumber text
    | c :: _ =>
      if !c.isDigit then none
      else if text.length = unsigned.length ∧ isDate unsigned then
        cut isMomentCharacter momentFrom text
      else decimalNumber text
    | [] => none
where
  /-- Whether a dash or colon follows the digits, two of them at least. -/
  isDate (text : List Char) : Bool :=
    ((text.dropWhile Char.isDigit).head?.any fun c => c == '-' || c == ':') &&
      !(text.head? == some '0' && (text.takeWhile Char.isDigit).length < 2)

end LegacyBasic.Toml
