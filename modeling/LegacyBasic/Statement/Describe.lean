import LegacyBasic.Statement.Basic

/-!
One-line descriptions of statements.  A description names the parts of a statement and counts the
members of a block.
-/

namespace LegacyBasic

/-- An optional token followed by a blank, or nothing. -/
def Token.leading : Option Token → Bytes
  | none => []
  | some token => token.lexeme ++ " "

/-- An optional token after `mark`, or nothing. -/
def Token.trailing (mark : Bytes) : Option Token → Bytes
  | none => []
  | some token => mark ++ token.lexeme

def Statement.blockSize (count : Nat) (noun : Bytes) : Bytes :=
  Bytes.concat [" \x7b ", Bytes.ofNat count, " ", noun, " \x7d"]

/-- `X As Integer`. -/
def Field.describe (field : Field) : Bytes :=
  Bytes.concat [field.name.lexeme, " As ", field.kind.lexeme]

/-- `Red` or `Red = 1`. -/
def Enumerator.describe (member : Enumerator) : Bytes :=
  member.name.lexeme ++ Token.trailing " = " member.value

/-- `byval count As Long`. -/
def Argument.describe (argument : Argument) : Bytes :=
  Bytes.concat [Token.leading argument.modifier, argument.name.lexeme, " As ", argument.kind.lexeme]

/-- The arguments of a callable with commas between them. -/
def Argument.describeAll (arguments : List Argument) : Bytes :=
  Bytes.join ", " (arguments.map describe)

def Statement.describe : Statement → Bytes
  | .record name fields =>
    Bytes.concat ["Type ", name.lexeme, blockSize fields.length "attributes"]
  | .field member => member.describe
  | .enumeration scope name members =>
    Bytes.concat
      [Token.leading scope, "Enum ", name.lexeme, blockSize members.length "attributes"]
  | .enumerator member => member.describe
  | .variableDecl scope name kind =>
    Bytes.concat [scope.lexeme, " ", name.lexeme, " As ", kind.lexeme]
  | .constantDecl scope name kind length value =>
    Bytes.concat [scope.lexeme, " Const ", name.lexeme, Token.trailing " As " kind,
      Token.trailing " * " length, " = ", value.lexeme]
  | .subroutine scope name arguments body =>
    Bytes.concat [scope.lexeme, " Sub ", name.lexeme, "(", Argument.describeAll arguments, ")",
      blockSize body.length "statements"]
  | .function scope name arguments returns body =>
    Bytes.concat [scope.lexeme, " Function ", name.lexeme, "(", Argument.describeAll arguments, ")",
      Token.trailing " As " returns, blockSize body.length "statements"]
  | .argument parameter => parameter.describe
  | .exitLine block => "Exit " ++ block.lexeme
  | .assignment left right => Bytes.concat [left.lexeme, " = ", right.lexeme]
  | .returnLine value => "Return" ++ Token.trailing " " value
  | .optionLine config value => Bytes.concat ["Option ", config.lexeme, Token.trailing " " value]
  | .attributeLine name value => Bytes.concat ["Attribute ", name.lexeme, " = ", value.lexeme]
  | .absent => "null"

end LegacyBasic
