import LegacyBasic.Text.Latin

/-!
Decimal integers of 64 bits.  Reading goes from left to right and stops at the first byte that is
no digit or that takes the number out of range, so the first of two mistakes is the one reported.
-/

namespace LegacyBasic.Integer

inductive Mistake where
  | malformed
  | outOfRange
deriving DecidableEq, Repr

def Mistake.text : Mistake → Bytes
  | .malformed => "invalid syntax"
  | .outOfRange => "value out of range"

/-- The least number that no signed integer of 64 bits reaches. -/
def signedLimit : Nat := 0x8000000000000000

def digitValue (b : UInt8) : Nat := b.toNat - 0x30

/-- Continues a number below 2^64 with the digits of a text. -/
def readDigits (number : Nat) : Bytes → Except Mistake Nat
  | [] => .ok number
  | b :: rest =>
    if Latin.isDigit b then
      let next := number * 10 + digitValue b
      if next < UInt64.size then readDigits next rest else .error .outOfRange
    else .error .malformed

def splitSign : Bytes → Bool × Bytes
  | [] => (false, [])
  | b :: rest =>
    if b = 0x2D then (true, rest) else if b = 0x2B then (false, rest) else (false, b :: rest)

/-- Reads an optional sign and at least one digit. -/
def read (text : Bytes) : Except Mistake Int :=
  match splitSign text with
  | (_, []) => .error .malformed
  | (negative, digits) => do
    let magnitude ← readDigits 0 digits
    if negative then
      if magnitude ≤ signedLimit then return -(magnitude : Int) else throw .outOfRange
    else if magnitude < signedLimit then return magnitude
    else throw .outOfRange

/-- The number of 64 bits that an integer wraps around to. -/
def wrap (n : Int) : Int := n.bmod UInt64.size

end LegacyBasic.Integer
