import LegacyBasic.Bytes

/-!
UTF-8.  A byte string is read as a sequence of characters and stray bytes; a byte is stray when no
well-formed character starts at it.
-/

namespace LegacyBasic.Utf8

/-- What a byte string holds at one place. -/
inductive Item where
  /-- A well-formed character. -/
  | char (c : Char)
  /-- A byte that belongs to no well-formed character. -/
  | stray (b : UInt8)
deriving DecidableEq, Repr

/-- The character that a leading byte and its continuation make. -/
private def assemble (lead : Nat) (tail : Bytes) : Char :=
  Char.ofNat (tail.foldl (fun code b => code * 64 + (b.toNat - 0x80)) lead)

def isTail (b : UInt8) : Bool := 0x80 ≤ b && b ≤ 0xBF

/-- How many continuation bytes a leading byte asks for, and the range of the first of them. -/
def expected (lead : UInt8) : Option (Nat × UInt8 × UInt8) :=
  if lead < 0x80 then some (0, 0x80, 0xBF)
  else if lead < 0xC2 then none
  else if lead ≤ 0xDF then some (1, 0x80, 0xBF)
  else if lead = 0xE0 then some (2, 0xA0, 0xBF)
  else if lead = 0xED then some (2, 0x80, 0x9F)
  else if lead ≤ 0xEF then some (2, 0x80, 0xBF)
  else if lead = 0xF0 then some (3, 0x90, 0xBF)
  else if lead ≤ 0xF3 then some (3, 0x80, 0xBF)
  else if lead = 0xF4 then some (3, 0x80, 0x8F)
  else none

/-- The bits a leading byte with `count` continuation bytes contributes. -/
private def leadBits (lead : UInt8) : Nat → Nat
  | 0 => lead.toNat
  | 1 => lead.toNat - 0xC0
  | 2 => lead.toNat - 0xE0
  | _ => lead.toNat - 0xF0

/-- The character that starts with `lead`, and how many bytes of `rest` belong to it. -/
def front? (lead : UInt8) (rest : Bytes) : Option (Char × Nat) :=
  match expected lead with
  | none => none
  | some (count, low, high) =>
    let tail := rest.take count
    let fits := tail.length == count && tail.all isTail &&
      (tail.head?.all fun b => low ≤ b && b ≤ high)
    if fits then some (assemble (leadBits lead count) tail, count) else none

/-- The characters and stray bytes of a byte string, in order. -/
def decode : Bytes → List Item
  | [] => []
  | b :: rest =>
    match front? b rest with
    | some (c, count) => .char c :: decode (rest.drop count)
    | none => .stray b :: decode rest
termination_by bytes => bytes.length
decreasing_by
  · simp only [List.length_drop, List.length_cons]; omega
  · simp

/-- The characters of a byte string, when no byte is stray. -/
def characters? (bytes : Bytes) : Option (List Char) :=
  (decode bytes).mapM fun
    | .char c => some c
    | .stray _ => none

def encode (text : List Char) : Bytes := text.flatMap String.utf8EncodeChar

def Item.bytes : Item → Bytes
  | .char c => String.utf8EncodeChar c
  | .stray b => [b]

end LegacyBasic.Utf8
