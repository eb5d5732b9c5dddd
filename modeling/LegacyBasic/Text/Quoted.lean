import LegacyBasic.Text.Printable
import LegacyBasic.Text.Utf8

/-!
Quoted text: a text between quotes in which the quote, the backslash and everything unprintable is
written as an escape.
-/

namespace LegacyBasic.Quoted

/-- The hexadecimal digit, in small letters. -/
def hexDigit (n : Nat) : UInt8 := if n < 10 then (0x30 + n).toUInt8 else (0x57 + n).toUInt8

/-- The last `width` hexadecimal digits of a number, in small letters. -/
def hex : Nat → Nat → Bytes
  | 0, _ => []
  | width + 1, n => hex width (n / 16) ++ [hexDigit (n % 16)]

/-- The escape of a character that cannot stand for itself. -/
def escape (c : Char) : Bytes :=
  match c.toNat with
  | 0x07 => "\\a"
  | 0x08 => "\\b"
  | 0x0C => "\\f"
  | 0x0A => "\\n"
  | 0x0D => "\\r"
  | 0x09 => "\\t"
  | 0x0B => "\\v"
  | code =>
    if code < 0x20 ∨ code = 0x7F then "\\x" ++ hex 2 code
    else if code < 0x10000 then "\\u" ++ hex 4 code
    else "\\U" ++ hex 8 code

/-- How an item is written between quotes. -/
def item (quote : Char) : Utf8.Item → Bytes
  | .stray b => "\\x" ++ hex 2 b.toNat
  | .char c =>
    if c = quote ∨ c = '\\' then "\\" ++ String.utf8EncodeChar c
    else if Printable.isPrintable c then String.utf8EncodeChar c
    else escape c

/-- A text between double quotes. -/
def text (content : Bytes) : Bytes :=
  Bytes.concat ["\"", (Utf8.decode content).flatMap (item '"'), "\""]

def character (c : Char) : Bytes := Bytes.concat ["'", item '\'' (.char c), "'"]

end LegacyBasic.Quoted
