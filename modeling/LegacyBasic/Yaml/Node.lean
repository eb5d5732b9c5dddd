import LegacyBasic.Statement.Basic

/-!
The tree of a document, and the tree that stands for statements: every token is its lexeme, parts
that were left out and empty lists have no key.
-/

namespace LegacyBasic.Yaml

inductive Node where
  | null
  | scalar (content : Bytes)
  | sequence (items : List Node)
  | mapping (entries : List (String × Node))
deriving Repr

namespace Node

def ofToken (token : Token) : Node := .scalar token.lexeme

/-- The entry of a part that is always there. -/
def required (key : String) (token : Token) : List (String × Node) := [(key, ofToken token)]

/-- The entry of a part that may have been left out. -/
def optional (key : String) : Option Token → List (String × Node)
  | none => []
  | some token => [(key, ofToken token)]

/-- The entry of a list, unless it is empty. -/
def list (key : String) : List Node → List (String × Node)
  | [] => []
  | item :: items => [(key, .sequence (item :: items))]

/-- The mapping of a statement: its label, then its parts. -/
def labelled (label : String) (parts : List (List (String × Node))) : Node :=
  .mapping (("kind", .scalar label) :: parts.flatten)

def ofField (field : Field) : Node :=
  labelled "type_attribute" [required "name" field.name, required "type" field.kind]

def ofEnumerator (member : Enumerator) : Node :=
  labelled "enum_attribute" [required "name" member.name, optional "value" member.value]

def ofArgument (argument : Argument) : Node :=
  labelled "argument"
    [optional "modifier" argument.modifier, required "name" argument.name,
      required "type" argument.kind]

mutual

def ofStatement : Statement → Node
  | .record name fields =>
    labelled "type" [required "name" name, list "attributes" (fields.map ofField)]
  | .field member => ofField member
  | .enumeration scope name members =>
    labelled "enum"
      [optional "scope" scope, required "name" name, list "attributes" (members.map ofEnumerator)]
  | .enumerator member => ofEnumerator member
  | .variableDecl scope name kind =>
    labelled "variable" [required "scope" scope, required "name" name, required "type" kind]
  | .constantDecl scope name kind length value =>
    labelled "constant"
      [required "scope" scope, required "name" name, optional "type" kind,
        optional "length" length, required "value" value]
  | .subroutine scope name arguments body =>
    labelled "subroutine"
      [required "scope" scope, required "name" name, list "arguments" (arguments.map ofArgument),
        list "body" (ofStatements body)]
  | .function scope name arguments returns body =>
    labelled "function"
      [required "scope" scope, required "name" name, list "arguments" (arguments.map ofArgument),
        optional "returns" returns, list "body" (ofStatements body)]
  | .argument parameter => ofArgument parameter
  | .exitLine block => labelled "exit" [required "block" block]
  | .assignment left right =>
    labelled "assignment" [required "left" left, required "right" right]
  | .returnLine value => labelled "return" [optional "value" value]
  | .optionLine config value =>
    labelled "option" [required "config" config, optional "value" value]
  | .attributeLine name value =>
    labelled "attribute" [required "name" name, required "value" value]
  | .absent => .null

def ofStatements : List Statement → List Node
  | [] => []
  | statement :: rest => ofStatement statement :: ofStatements rest

end

end Node

/-- The document of the statements of a module. -/
def document (statements : List Statement) : Node := .sequence (Node.ofStatements statements)

end LegacyBasic.Yaml
