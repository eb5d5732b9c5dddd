import LegacyBasic.Text.Integer
import LegacyBasic.Text.Quoted

/-!
Levels of log records.  A level is written as a name, or as a name and a signed offset.
-/

namespace LegacyBasic.Log

/-- How grave a record is; a larger number is graver. -/
abbrev Level := Int

namespace Level

def debug : Level := -4
def info : Level := 0
def warn : Level := 4
def error : Level := 8

/-- The levels that have a name. -/
def named : List (String × Level) :=
  [("DEBUG", debug), ("INFO", info), ("WARN", warn), ("ERROR", error)]

/-- A named level with the distance from it. -/
def relative (name : String) (distance : Int) : Bytes :=
  if distance = 0 then name
  else if 0 < distance then Bytes.concat [name, "+", Bytes.ofInt distance]
  else name ++ Bytes.ofInt distance

/-- A level is shown by the nearest named level at or below it; the lowest name also stands for
what is lower. -/
def name (level : Level) : Bytes :=
  if level < info then relative "DEBUG" (level - debug)
  else if level < warn then relative "INFO" (level - info)
  else if level < error then relative "WARN" (level - warn)
  else relative "ERROR" (level - error)

/-- Why a text names no level. -/
inductive Mistake where
  | unknownName
  | offset (text : Bytes) (mistake : Integer.Mistake)
deriving DecidableEq, Repr

def Mistake.text : Mistake → Bytes
  | .unknownName => "unknown name"
  | .offset text mistake =>
    Bytes.concat ["strconv.Atoi: parsing ", Quoted.text text, ": ", mistake.text]

/-- The capital of an item whose capital is an ASCII character.  Beside the ASCII letters these are
the small i without a dot and the long s. -/
def asciiUpper? : Utf8.Item → Option Char
  | .stray _ => none
  | .char c =>
    if c.toNat < 0x80 then some c.toUpper
    else if c.toNat = 0x131 then some 'I'
    else if c.toNat = 0x17F then some 'S'
    else none

/-- The level with a name in any case. -/
def ofName? (name : Bytes) : Option Level :=
  match (Utf8.decode name).mapM asciiUpper? with
  | none => none
  | some capitals => named.lookup (String.ofList capitals)

def isSign (b : UInt8) : Bool := b == 0x2B || b == 0x2D

/-- Reads a level.  The offset is read before the name is looked at, and the sum wraps around. -/
def ofText (text : Bytes) : Except Mistake Level := do
  let name := text.takeWhile fun b => !isSign b
  let suffix := text.dropWhile fun b => !isSign b
  let offset ←
    match suffix with
    | [] => pure 0
    | _ => (Integer.read suffix).mapError (Mistake.offset suffix)
  match ofName? name with
  | none => throw .unknownName
  | some level => return Integer.wrap (level + offset)

end Level

end LegacyBasic.Log
