/-!
Decimal numbers with a fraction and an exponent, and which of them a double can hold.
-/

namespace LegacyBasic

/-- A decimal number without its sign: all its digits, how many of them stand after the point, and
the exponent. -/
structure Decimal where
  digits : List Char
  places : Nat
  exponent : Int
deriving DecidableEq, Repr

namespace Decimal

def value (digits : List Char) : Nat :=
  digits.foldl (fun n c => n * 10 + (c.toNat - 0x30)) 0

/-- An exponent's digits; once it is past every double it stops growing. -/
def cappedExponent (digits : List Char) : Nat :=
  digits.foldl (fun n c => if n < 10000 then n * 10 + (c.toNat - 0x30) else n) 0

/-- The exponent at the end of a number: nothing, or a letter e, a sign and digits. -/
def exponent? : List Char → Option Int
  | [] => some 0
  | c :: rest =>
    if c = 'e' ∨ c = 'E' then
      let negative := rest.head? = some '-'
      let digits := if negative ∨ rest.head? = some '+' then rest.tail else rest
      if digits.isEmpty || !digits.all Char.isDigit then none
      else
        let magnitude : Int := cappedExponent digits
        some (if negative then -magnitude else magnitude)
    else none

/-- Reads digits, a point and more digits, and an exponent.  The point may be left out, and one of
the runs of digits may be empty. -/
def ofText? (text : List Char) : Option Decimal :=
  let whole := text.takeWhile Char.isDigit
  let rest := text.dropWhile Char.isDigit
  let hasPoint := rest.head? = some '.'
  let fraction := if hasPoint then rest.tail.takeWhile Char.isDigit else []
  let suffix := if hasPoint then rest.tail.dropWhile Char.isDigit else rest
  if whole.isEmpty && fraction.isEmpty then none
  else (exponent? suffix).map fun exponent => ⟨whole ++ fraction, fraction.length, exponent⟩

/-- The least number that rounds beyond the largest double. -/
def overflowLimit : Nat := ((1 <<< 54) - 1) <<< 970

/-- Whether a double nearest to the number is finite.  The count of digits before the point settles
all but the numbers near the limit. -/
def isFinite (decimal : Decimal) : Bool :=
  let significand := value decimal.digits
  let scale := decimal.exponent - decimal.places
  let size := (Nat.repr significand).length + scale
  if significand = 0 then true
  else if 400 < size then false
  else if size < 300 then true
  else if 0 ≤ scale then significand * Nat.pow 10 scale.toNat < overflowLimit
  else significand < overflowLimit * Nat.pow 10 (-scale).toNat

end Decimal

end LegacyBasic
