import LegacyBasic.Bytes

/-!
Character classes of single bytes, each byte read as the Latin-1 character of that number.
-/

namespace LegacyBasic.Latin

/-- Blanks: the ASCII ones, the next-line control and the no-break space. -/
def isSpace (b : UInt8) : Bool :=
  (0x09 ≤ b && b ≤ 0x0D) || b == 0x20 || b == 0x85 || b == 0xA0

def isDigit (b : UInt8) : Bool := 0x30 ≤ b && b ≤ 0x39

/-- Capital letters that have a small form in the same character set. -/
def isCapital (b : UInt8) : Bool :=
  (0x41 ≤ b && b ≤ 0x5A) || (0xC0 ≤ b && b ≤ 0xDE && b != 0xD7)

/-- Letters, with the ordinal signs, the micro sign and the underscore. -/
def isLetter (b : UInt8) : Bool :=
  b == 0x5F || (0x61 ≤ b && b ≤ 0x7A) || isCapital b || b == 0xAA || b == 0xB5 || b == 0xBA ||
    (0xDF ≤ b && b != 0xF7)

def isWordByte (b : UInt8) : Bool := isLetter b || isDigit b

/-- The small form of a capital letter; every other byte stays. -/
def lowerByte (b : UInt8) : UInt8 := if isCapital b then b + 0x20 else b

def lower (text : Bytes) : Bytes := text.map lowerByte

@[simp]
theorem lower_nil : lower [] = [] := rfl

@[simp]
theorem lower_cons (b : UInt8) (text : Bytes) :
    lower (b :: text) = lowerByte b :: lower text := rfl

@[simp]
theorem lower_append (left right : Bytes) : lower (left ++ right) = lower left ++ lower right :=
  List.map_append

@[simp]
theorem length_lower (text : Bytes) : (lower text).length = text.length := List.length_map lowerByte

/-- Lowering twice lowers once. -/
@[simp]
theorem lowerByte_lowerByte (b : UInt8) : lowerByte (lowerByte b) = lowerByte b := by
  revert b
  exact Bytes.forall_byte (by decide +kernel)

@[simp]
theorem lower_lower (text : Bytes) : lower (lower text) = lower text := by
  simp [lower]

/-- A small form is a letter exactly when the byte is one. -/
theorem isLetter_lowerByte (b : UInt8) : isLetter (lowerByte b) = isLetter b := by
  revert b
  exact Bytes.forall_byte (by decide +kernel)

/-- A small form is a digit exactly when the byte is one. -/
theorem isDigit_lowerByte (b : UInt8) : isDigit (lowerByte b) = isDigit b := by
  revert b
  exact Bytes.forall_byte (by decide +kernel)

end LegacyBasic.Latin
