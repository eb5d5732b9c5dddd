/-!
Control sequences of a terminal, which are sent with a text and not shown.  An escape opens one;
it is a single character, a sequence with parameters, or a whole string.
-/

namespace LegacyBasic

/-- Where in a control sequence a terminal is. -/
inductive ControlSequence where
  /-- In none: characters are shown. -/
  | text
  | escape
  | escapeMarks
  | sequenceStart
  | sequenceParameters
  | sequenceMarks
  | deviceStart
  | deviceParameters
  | deviceMarks
  /-- A string for the device. -/
  | deviceString
  /-- A string for the system around it; a bell ends it too. -/
  | systemString
  /-- A string for nobody in particular. -/
  | otherString
deriving DecidableEq, Repr

namespace ControlSequence

/-- Whether bytes above ASCII are taken in as they are. -/
def takesAll : ControlSequence → Bool
  | deviceString | systemString => true
  | _ => false

/-- What a byte above ASCII opens outside of strings that take it in. -/
def ofHighByte (b : UInt8) : ControlSequence :=
  if b = 0x90 then deviceStart
  else if b = 0x9B then sequenceStart
  else if b = 0x9D then systemString
  else if b = 0x98 ∨ b = 0x9E ∨ b = 0x9F then otherString
  else text

def ofEscaped (b : UInt8) : ControlSequence :=
  if b < 0x20 ∨ b = 0x7F then escape
  else if b < 0x30 then escapeMarks
  else if b = 0x50 then deviceStart
  else if b = 0x5B then sequenceStart
  else if b = 0x5D then systemString
  else if b = 0x58 ∨ b = 0x5E ∨ b = 0x5F then otherString
  else text

/-- The next place: a control character leaves `here` as it is, a mark leads to `marks`, a digit or
one of its neighbours to `parameters`, and a letter to `last`. -/
def advance (b : UInt8) (here marks parameters last : ControlSequence) : ControlSequence :=
  if b < 0x20 ∨ b = 0x7F then here
  else if b < 0x30 then marks
  else if b < 0x40 then parameters
  else last

/-- Takes in a byte.  Cancel and substitute end everything, and an escape begins anew except right
where a string for the device is announced. -/
def step (place : ControlSequence) (b : UInt8) : ControlSequence :=
  if b = 0x18 ∨ b = 0x1A then text
  else if b = 0x1B then if place = deviceStart then deviceString else escape
  else if b = 0x9C then text
  else if 0x80 ≤ b then if place.takesAll then place else ofHighByte b
  else
    match place with
    | text => text
    | escape => ofEscaped b
    | escapeMarks => advance b escapeMarks escapeMarks text text
    | sequenceStart => advance b sequenceStart sequenceMarks sequenceParameters text
    | sequenceParameters => advance b sequenceParameters sequenceMarks sequenceParameters text
    | sequenceMarks => advance b sequenceMarks sequenceMarks text text
    | deviceStart =>
      if 0x08 ≤ b ∧ b ≤ 0x0D then deviceString
      else advance b deviceStart deviceMarks deviceParameters deviceString
    | deviceParameters => advance b deviceParameters deviceMarks deviceParameters deviceString
    | deviceMarks => advance b deviceMarks deviceMarks deviceString deviceString
    | deviceString => deviceString
    | systemString => if b = 0x07 then text else systemString
    | otherString => otherString

end ControlSequence

end LegacyBasic
