import LegacyBasic.Text.Calendar
import LegacyBasic.Text.Decimal
import LegacyBasic.Text.Integer

/-!
What an unquoted scalar is read as.  A text that would be read as something other than a text has
to be quoted: nulls, truth values (the older spellings too), numbers and dates.
-/

namespace LegacyBasic.Yaml.Implicit

/-- Spellings of null, of truth values, and of the numbers that have no digits. -/
def words : List String :=
  ["", "~", "null", "Null", "NULL", "true", "True", "TRUE", "false", "False", "FALSE", ".nan",
    ".NaN", ".NAN", ".inf", ".Inf", ".INF", "+.inf", "+.Inf", "+.INF", "-.inf", "-.Inf", "-.INF"]

/-- Spellings of truth values that older readers accept. -/
def oldTruthValues : List String :=
  ["y", "Y", "yes", "Yes", "YES", "on", "On", "ON", "n", "N", "no", "No", "NO", "off", "Off", "OFF"]

def digitValue (c : Char) : Nat :=
  if c.isDigit then c.toNat - 0x30
  else if 'a' ≤ c ∧ c ≤ 'f' then c.toNat - 0x61 + 10
  else if 'A' ≤ c ∧ c ≤ 'F' then c.toNat - 0x41 + 10
  else 16

/-- The number that digits of a base stand for. -/
def natural? (base : Nat) (digits : List Char) : Option Nat :=
  if digits.all fun c => digitValue c < base then
    some (digits.foldl (fun n c => n * base + digitValue c) 0)
  else none

/-- A number whose base is told by its front: `0x`, `0o`, `0b`, or a zero for octal. -/
def prefixed? : List Char → Option Nat
  | [] => none
  | '0' :: mark :: digit :: rest =>
    if mark.toLower = 'x' then natural? 16 (digit :: rest)
    else if mark.toLower = 'o' then natural? 8 (digit :: rest)
    else if mark.toLower = 'b' then natural? 2 (digit :: rest)
    else natural? 8 (mark :: digit :: rest)
  | '0' :: rest => natural? 8 rest
  | digits => natural? 10 digits

/-- Whether a text is a sign, if any, and a number that `read` accepts, of 64 bits. -/
def isInteger (read : List Char → Option Nat) : List Char → Bool
  | [] => false
  | c :: rest =>
    if c = '-' then (read rest).any (· ≤ Integer.signedLimit)
    else if c = '+' then (read rest).any (· < Integer.signedLimit)
    else (read (c :: rest)).any (· < UInt64.size)

def digits? (base : Nat) (text : List Char) : Option Nat :=
  if text.isEmpty then none else natural? base text

/-- Whether a text is an integer whose base mark stands before its sign. -/
def isMarkedInteger : List Char → Bool
  | '0' :: 'b' :: rest => isInteger (digits? 2) rest
  | '0' :: 'o' :: rest => isInteger (digits? 8) rest
  | _ => false

/-- Whether a text is a number with a fraction or an exponent that a double can hold. -/
def isDecimal (text : List Char) : Bool :=
  let unsigned := if text.head? = some '-' ∨ text.head? = some '+' then text.tail else text
  (Decimal.ofText? unsigned).any Decimal.isFinite

/-- Whether every underscore stands between two digits. -/
def underscoresSeparate (afterDigit : Bool) : List Char → Bool
  | [] => true
  | '_' :: c :: rest => afterDigit && c.isDigit && underscoresSeparate true rest
  | '_' :: [] => false
  | c :: rest => underscoresSeparate c.isDigit rest

/-- Whether a text is a number in which minutes and seconds follow colons. -/
def isSexagesimal (text : List Char) : Bool :=
  let unsigned := if text.head? = some '-' ∨ text.head? = some '+' then text.tail else text
  let isDigitOrSpacer := fun c : Char => c.isDigit || c == '_'
  let front := unsigned.takeWhile isDigitOrSpacer
  let groups := (unsigned.dropWhile isDigitOrSpacer).takeWhile (· ≠ '.')
  let fraction := (unsigned.dropWhile isDigitOrSpacer).dropWhile (· ≠ '.')
  let isGroup := fun group : List Char =>
    match group with
    | [ones] => ones.isDigit
    | [tens, ones] => '0' ≤ tens && tens ≤ '5' && ones.isDigit
    | _ => false
  (front.head?.any Char.isDigit) && groups.head? == some ':' &&
    (groups.tail.splitOn ':').all isGroup && fraction.tail.all isDigitOrSpacer

/-- Whether a text is a date, or a date and a time in one of the accepted formats. -/
def isTimestamp (text : List Char) : Bool :=
  let clock := Calendar.time Calendar.oneOrTwoDigits Calendar.oneOrTwoDigits
  match Calendar.date Calendar.oneOrTwoDigits text with
  | none => false
  | some (_, []) => true
  | some (_, mark :: rest) =>
    if mark = 'T' ∨ mark = 't' then
      let zoned := (clock rest).bind fun (_, rest) => Calendar.zone (Calendar.fraction rest)
      zoned.any fun (_, rest) =>
        rest.isEmpty
    else if mark = ' ' then
      (clock (rest.dropWhile (· = ' '))).any fun (_, rest) => (Calendar.fraction rest).isEmpty
    else false

def isNumberOrDate (text : List Char) : Bool :=
  let plain := text.filter (· ≠ '_')
  isTimestamp text || isInteger prefixed? plain || isDecimal plain || isMarkedInteger plain

/-- Whether an unquoted scalar would be read as something other than this text. -/
def isAmbiguous (text : List Char) : Bool :=
  words.contains (String.ofList text) || oldTruthValues.contains (String.ofList text) ||
    isSexagesimal text ||
    match text with
    | [] => true
    | c :: _ =>
      if c.isDigit ∨ c = '+' ∨ c = '-' then isNumberOrDate text
      else if c = '.' then underscoresSeparate false text && isDecimal (text.filter (· ≠ '_'))
      else false

end LegacyBasic.Yaml.Implicit
