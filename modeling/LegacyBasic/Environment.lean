import LegacyBasic.Bytes

/-!
Environment variables and their expansion in text.  `$NAME` and `${NAME}` stand for the value of a
variable; a variable that is not set has none, and values are not expanded again.
-/

namespace LegacyBasic

structure Environment where
  bindings : List (Bytes × Bytes) := []
deriving DecidableEq, Repr

namespace Environment

/-- The value of a variable, empty when it is not set. -/
def get (environment : Environment) (name : Bytes) : Bytes :=
  (environment.bindings.lookup name).getD []

/-- Single bytes that are the name of a variable. -/
def isSpecialName (b : UInt8) : Bool :=
  (Bytes.ofText "*#$@!?-").contains b || (0x30 ≤ b && b ≤ 0x39)

/-- Bytes of the other names. -/
def isNameByte (b : UInt8) : Bool :=
  b == 0x5F || (0x30 ≤ b && b ≤ 0x39) || (0x61 ≤ b && b ≤ 0x7A) || (0x41 ≤ b && b ≤ 0x5A)

/-- The name after a dollar sign, and how many bytes belong to it.  A brace that is not closed
counts alone, and nothing counts where no name follows. -/
def reference (text : Bytes) : Bytes × Nat :=
  match text with
  | [] => ([], 0)
  | b :: rest =>
    if b = 0x7B then
      let name := rest.takeWhile (· != 0x7D)
      if name.length = rest.length then ([], 1) else (name, name.length + 2)
    else if isSpecialName b then ([b], 1)
    else
      let name := text.takeWhile isNameByte
      (name, name.length)

def references : Bytes → List Bytes
  | [] => []
  | b :: rest =>
    if b = 0x24 then (reference rest).1 :: references rest else references rest

def expand (environment : Environment) : Bytes → Bytes
  | [] => []
  | [b] => [b]
  | b :: c :: rest =>
    if b = 0x24 then
      match reference (c :: rest) with
      | ([], 0) => b :: expand environment (c :: rest)
      | (name, count) =>
        let value := if name.isEmpty then [] else environment.get name
        value ++ expand environment ((c :: rest).drop count)
    else b :: expand environment (c :: rest)
termination_by text => text.length
decreasing_by
  all_goals simp only [List.length_drop, List.length_cons]
  all_goals omega

end Environment

end LegacyBasic
