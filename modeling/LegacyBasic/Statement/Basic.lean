import LegacyBasic.Token.Basic

/-!
The statement tree.  Every part is a token of the source; a part that may be left out is optional,
and leaving it out is not the same as writing an empty one.
-/

namespace LegacyBasic

/-- A member of a record type: `X As Integer`. -/
structure Field where
  name : Token
  kind : Token
deriving DecidableEq, Repr

/-- A member of an enumeration: `Red` or `Red = 1`. -/
structure Enumerator where
  name : Token
  value : Option Token
deriving DecidableEq, Repr

/-- A parameter of a callable: `ByVal count As Long`. -/
structure Argument where
  modifier : Option Token
  name : Token
  kind : Token
deriving DecidableEq, Repr

/-- A statement of a module or of a callable's body. -/
inductive Statement where
  /-- `Type Name`, its fields, `End Type`. -/
  | record (name : Token) (fields : List Field)
  | field (member : Field)
  /-- `[Scope] Enum Name`, its members, `End Enum`. -/
  | enumeration (scope : Option Token) (name : Token) (members : List Enumerator)
  | enumerator (member : Enumerator)
  /-- `Scope Name As Kind`. -/
  | variableDecl (scope name kind : Token)
  /-- `Scope Const Name [As Kind] [* Length] = Value`. -/
  | constantDecl (scope name : Token) (kind length : Option Token) (value : Token)
  /-- `Scope Sub Name(Arguments)`, its body, `End Sub`. -/
  | subroutine (scope name : Token) (arguments : List Argument) (body : List Statement)
  /-- `Scope Function Name(Arguments) [As Returns]`, its body, `End Function`. -/
  | function (scope name : Token) (arguments : List Argument) (returns : Option Token)
      (body : List Statement)
  | argument (parameter : Argument)
  /-- `Exit Block`. -/
  | exitLine (block : Token)
  /-- `Left = Right`. -/
  | assignment (left right : Token)
  /-- `Return [Value]`. -/
  | returnLine (value : Option Token)
  /-- `Option Config [Value]`. -/
  | optionLine (config : Token) (value : Option Token)
  /-- `Attribute Name = Value`. -/
  | attributeLine (name value : Token)
  /-- A place in a list that holds no statement. -/
  | absent
deriving Repr

namespace Statement

/-- The word a kind of statement is called by. -/
def label : Statement → String
  | record .. => "type"
  | field .. => "type_attribute"
  | enumeration .. => "enum"
  | enumerator .. => "enum_attribute"
  | variableDecl .. => "variable"
  | constantDecl .. => "constant"
  | subroutine .. => "subroutine"
  | function .. => "function"
  | argument .. => "argument"
  | exitLine .. => "exit"
  | assignment .. => "assignment"
  | returnLine .. => "return"
  | optionLine .. => "option"
  | attributeLine .. => "attribute"
  | absent => "null"

end Statement

end LegacyBasic
