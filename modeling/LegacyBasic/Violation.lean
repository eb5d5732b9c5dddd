import LegacyBasic.Token.Basic

/-!
Violations: an internal check that did not hold.  A fault is a cause of one that the library itself
can meet; a violation is what is reported, a kind of check and a message.
-/

namespace LegacyBasic

inductive Check where
  /-- What a function asks of its caller. -/
  | precondition
  /-- What holds at a place of the code. -/
  | invariant
  /-- A place that is never reached. -/
  | unreachable
deriving DecidableEq, Repr

def Check.name : Check → Bytes
  | .precondition => "precondition"
  | .invariant => "invariant"
  | .unreachable => "unreachable"

/-- A check that did not hold. -/
structure Violation where
  check : Check
  message : Bytes
deriving DecidableEq, Repr

def Violation.text (violation : Violation) : Bytes :=
  Bytes.concat [violation.check.name, " violated: ", violation.message]

/-- A value for a directive of a message. -/
inductive Message.Value where
  | text (value : Bytes)
  | number (value : Int)
deriving DecidableEq, Repr

namespace Message

def Value.typed : Value → Bytes
  | .text value => "string=" ++ value
  | .number value => "int=" ++ Bytes.ofInt value

/-- The text of the directive `%directive` for a value. -/
def directive (directive : UInt8) (value : Value) : Bytes :=
  match value with
  | .text text =>
    if directive = 0x73 then text else Bytes.concat ["%!", [directive], "(", value.typed, ")"]
  | .number number =>
    if directive = 0x64 then Bytes.ofInt number
    else Bytes.concat ["%!", [directive], "(", value.typed, ")"]

/-- Fills the directives `%s` and `%d` of a message with values in order; `%%` is a percent sign.
A directive without a value and values without a directive are shown as such. -/
def format : Bytes → List Value → Bytes
  | [], [] => []
  | [], values =>
    Bytes.concat ["%!(EXTRA ", Bytes.join ", " (values.map Value.typed), ")"]
  | [b], values => if b = 0x25 then "%!(NOVERB)" ++ format [] values else b :: format [] values
  | b :: c :: rest, values =>
    if b = 0x25 then
      if c = 0x25 then b :: format rest values
      else
        match values with
        | [] => Bytes.concat ["%!", [c], "(MISSING)"] ++ format rest []
        | value :: values => directive c value ++ format rest values
    else b :: format (c :: rest) values

end Message

namespace Check

/-- The violation of a check with a formatted message. -/
def violation (check : Check) (message : Bytes) (values : List Message.Value) : Violation :=
  ⟨check, Message.format message values⟩

end Check

/-- What ended a computation early. -/
inductive Abort where
  | violated (violation : Violation)
  /-- Something that no check raised. -/
  | foreign (text : Bytes)
deriving DecidableEq, Repr

/-- The violation that ended a computation, if it was ended at all.  What no check raised is not
recovered from and goes on. -/
def Abort.recover : Option Abort → Except Bytes (Option Violation)
  | none => .ok none
  | some (.violated violation) => .ok (some violation)
  | some (.foreign text) => .error text

/-- The causes of violations inside the library. -/
inductive Fault where
  /-- The token at `index` neither begins an argument nor closes the list. -/
  | malformedArguments (index : Nat) (found : Option Token)
  /-- An option line accepted a configuration that it knows no value for. -/
  | unknownOption (config : Kind)
  /-- A function body holds a return without a value. -/
  | valuelessReturn
  /-- A return outside of every block. -/
  | noEnclosingBlock
  /-- A block was left that had not been entered. -/
  | blockUnderflow
deriving DecidableEq, Repr

namespace Fault

/-- How the offending token is shown. -/
def found : Option Token → Bytes
  | none => "end of input"
  | some token => Bytes.concat [token.kind.name, " ", token.lexeme]

/-- The kind of check that a fault fails. -/
def check : Fault → Check
  | malformedArguments .. => .invariant
  | unknownOption .. => .unreachable
  | valuelessReturn => .precondition
  | noEnclosingBlock => .precondition
  | blockUnderflow => .invariant

def message : Fault → Bytes
  | malformedArguments index token =>
    Bytes.concat ["malformed argument list at token ", Bytes.ofNat index, " (", found token, ")"]
  | unknownOption config =>
    Bytes.concat ["option configuration ", config.name, " is not in the accepted set"]
  | valuelessReturn => "return without a value inside a function body"
  | noEnclosingBlock => "no enclosing block"
  | blockUnderflow => "block stack underflow"

def violation (fault : Fault) : Violation := ⟨fault.check, fault.message⟩

end Fault

end LegacyBasic
