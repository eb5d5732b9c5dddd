import LegacyBasic.Log.Level

/-!
Log records and the line that each is written as.
-/

namespace LegacyBasic.Log

inductive Value where
  | text (value : Bytes)
  | count (value : Nat)
deriving DecidableEq, Repr

/-- A record: its level, its message and its values by key, in order. -/
structure Record where
  level : Level
  message : String
  attributes : List (String × Value)
deriving DecidableEq, Repr

/-- Whether an item makes the text around it need quotes. -/
def needsQuotes : Utf8.Item → Bool
  | .stray _ => true
  | .char c =>
    if c.toNat < 0x80 then c.toNat ≤ 0x20 || c == '"' || c == '='
    else c.toNat == 0xFFFD || !Printable.isPrintable c

/-- A text as it stands in a line: between quotes when it could not be told from its
surroundings. -/
def field (text : Bytes) : Bytes :=
  if text.isEmpty || (Utf8.decode text).any needsQuotes then Quoted.text text else text

def Value.field : Value → Bytes
  | .text value => Log.field value
  | .count value => Bytes.ofNat value

def Record.line (record : Record) : Bytes :=
  Bytes.concat ["level=", record.level.name, " msg=", field record.message,
    record.attributes.flatMap fun (key, value) => Bytes.concat [" ", key, "=", value.field], "\n"]

/-- The records at or above a level. -/
def atLeast (level : Level) (records : List Record) : List Record :=
  records.filter fun record => level ≤ record.level

end LegacyBasic.Log
