import LegacyBasic.Grammar.Rule
import LegacyBasic.Statement.Basic

/-!
The productions of the grammar.  Each construct has one rule; a module and a callable's body are
sequences of alternatives tried in order.  Once the parenthesis of an argument list is open, only
arguments and the closing parenthesis may follow, and anything else is a fault.  Statements are read
until the tokens run out or no alternative matches.
-/

namespace LegacyBasic.Grammar

open Rule

def variableScopes : List Kind :=
  [.keyword .publicWord, .keyword .privateWord, .keyword .staticWord, .keyword .dimWord]

def callableScopes : List Kind :=
  [.keyword .publicWord, .keyword .privateWord, .keyword .staticWord]

def enumerationScopes : List Kind := [.keyword .publicWord, .keyword .privateWord]

/-- Kinds that say how an argument is passed. -/
def argumentModifiers : List Kind := [.keyword .byValWord, .keyword .byRefWord]

def valueKinds : List Kind := [.identifier, .number, .quoted]

def exitBlocks : List Kind := [.keyword .subWord, .keyword .functionWord]

def optionConfigs : List Kind :=
  [.keyword .explicitWord, .keyword .baseWord, .keyword .compareWord, .keyword .privateWord]

/-- `Name As Kind`. -/
def field : Rule Field := do
  let name ← token .identifier
  let _ ← token (.keyword .asWord)
  let kind ← token .identifier
  return ⟨name, kind⟩

/-- `Type Name`, its fields, `End Type`. -/
def record : Rule Statement := do
  let _ ← token (.keyword .typeWord)
  let name ← token .identifier
  let fields ← many field
  let _ ← token (.keyword .endWord)
  let _ ← token (.keyword .typeWord)
  return .record name fields

/-- `Name` or `Name = Number`. -/
def enumerator : Rule Enumerator := do
  let name ← token .identifier
  let value ← following (.symbol .equals) (token .number)
  return ⟨name, value⟩

/-- `[Scope] Enum Name`, its members, `End Enum`. -/
def enumeration : Rule Statement := do
  let scope ← optional enumerationScopes
  let _ ← token (.keyword .enumWord)
  let name ← token .identifier
  let members ← many enumerator
  let _ ← token (.keyword .endWord)
  let _ ← token (.keyword .enumWord)
  return .enumeration scope name members

/-- `Scope Name As Kind`. -/
def variableDecl : Rule Statement := do
  let scope ← oneOf variableScopes
  let name ← token .identifier
  let _ ← token (.keyword .asWord)
  let kind ← token .identifier
  return .variableDecl scope name kind

/-- `Scope Const Name [As Kind] [* Length] = Value`. -/
def constantDecl : Rule Statement := do
  let scope ← oneOf variableScopes
  let _ ← token (.keyword .constWord)
  let name ← token .identifier
  let kind ← following (.keyword .asWord) (token .identifier)
  let length ← following (.symbol .asterisk) (token .number)
  let _ ← token (.symbol .equals)
  let value ← oneOf valueKinds
  return .constantDecl scope name kind length value

/-- `Name = Value`. -/
def assignment : Rule Statement := do
  let left ← token .identifier
  let _ ← token (.symbol .equals)
  let right ← oneOf valueKinds
  return .assignment left right

/-- `Exit Block`. -/
def exitLine : Rule Statement := do
  let _ ← token (.keyword .exitWord)
  let block ← oneOf exitBlocks
  return .exitLine block

/-- `Return [Value]`; inside a function the value is required. -/
def returnLine : Rule Statement := do
  let _ ← token (.keyword .returnWord)
  let value ← optional valueKinds
  if value.isNone && (← enclosing) == .keyword .functionWord then mismatch
  else return .returnLine value

/-- `Attribute Name = Value`. -/
def attributeLine : Rule Statement := do
  let _ ← token (.keyword .attributeWord)
  let name ← token .identifier
  let _ ← token (.symbol .equals)
  let value ← oneOf valueKinds
  return .attributeLine name value

/-- The value that a configuration is followed by. -/
def optionValue : Kind → Rule (Option Token)
  | .keyword .explicitWord => return none
  | .keyword .baseWord => some <$> token .number
  | .keyword .compareWord => some <$> token .identifier
  | .keyword .privateWord => some <$> token (.keyword .moduleWord)
  | config => fail (.unknownOption config)

/-- `Option Explicit`, `Option Base Number`, `Option Compare Name` or `Option Private Module`. -/
def optionLine : Rule Statement := do
  let _ ← token (.keyword .optionWord)
  let config ← oneOf optionConfigs
  let value ← optionValue config.kind
  return .optionLine config value

/-- `[ByVal|ByRef] Name As Kind`. -/
def argument : Rule Argument := do
  let modifier ← optional argumentModifiers
  let name ← token .identifier
  let _ ← token (.keyword .asWord)
  let kind ← token .identifier
  return ⟨modifier, name, kind⟩

/-- An argument with the comma after it, unless the list ends here. -/
def nextArgument : Rule Argument := do
  let _ ← notNext (.symbol .rightParen)
  let parameter ← argument.orFail fun stop => .malformedArguments stop.position stop.rest.head?
  let _ ← optional [.symbol .comma]
  return parameter

/-- The arguments after an open parenthesis, and the closing one. -/
def arguments : Rule (List Argument) := do
  let parameters ← many nextArgument
  let _ ← token (.symbol .rightParen)
  return parameters

/-- The alternatives of a callable's body, in the order they are tried. -/
def bodyAlternatives : List (Rule Statement) :=
  [variableDecl, constantDecl, assignment, exitLine, returnLine, attributeLine]

/-- `Scope Sub Name(Arguments)`, a body of the given alternatives, `End Sub`. -/
def subroutine (body : List (Rule Statement)) : Rule Statement := do
  let scope ← oneOf callableScopes
  let _ ← token (.keyword .subWord)
  let name ← token .identifier
  let _ ← token (.symbol .leftParen)
  let parameters ← arguments
  let statements ← inside (.keyword .subWord) (many (choice body))
  let _ ← token (.keyword .endWord)
  let _ ← token (.keyword .subWord)
  return .subroutine scope name parameters statements

/-- `Scope Function Name(Arguments) [As Kind]`, a body of the given alternatives,
`End Function`. -/
def function (body : List (Rule Statement)) : Rule Statement := do
  let scope ← oneOf callableScopes
  let _ ← token (.keyword .functionWord)
  let name ← token .identifier
  let _ ← token (.symbol .leftParen)
  let parameters ← arguments
  let returns ← following (.keyword .asWord) (token .identifier)
  let statements ← inside (.keyword .functionWord) (many (choice body))
  let _ ← token (.keyword .endWord)
  let _ ← token (.keyword .functionWord)
  return .function scope name parameters returns statements

/-- The alternatives of a module over those of a body, in the order they are tried. -/
def moduleAlternatives (body : List (Rule Statement)) : List (Rule Statement) :=
  [record, variableDecl, constantDecl, subroutine body, function body, enumeration, attributeLine,
    optionLine]

def moduleStatement : Rule Statement := choice (moduleAlternatives bodyAlternatives)

def bodyStatement : Rule Statement := choice bodyAlternatives

/-- The rule for a kind of statement, or for any statement of a module or a body, by name. -/
def ruleNamed? : String → Option (Rule Statement)
  | "type" => some record
  | "type_attribute" => some (.field <$> field)
  | "enum" => some enumeration
  | "enum_attribute" => some (.enumerator <$> enumerator)
  | "variable" => some variableDecl
  | "constant" => some constantDecl
  | "subroutine" => some (subroutine bodyAlternatives)
  | "function" => some (function bodyAlternatives)
  | "argument" => some (.argument <$> argument)
  | "exit" => some exitLine
  | "assignment" => some assignment
  | "return" => some returnLine
  | "option" => some optionLine
  | "attribute" => some attributeLine
  | "top_level" => some moduleStatement
  | "body" => some bodyStatement
  | _ => none

/-- The state before the first token. -/
def State.ofTokens (tokens : List Token) : State := { rest := tokens }

def State.remaining (state : State) : Nat := state.rest.length

/-- Reads statements of a table of alternatives from a state.  After a fault, reading stands where
the fault was met and the statements read before it are lost. -/
def State.parseWith (table : List (Rule Statement)) (state : State) :
    Except Fault (List Statement) × State :=
  match many (choice table) state with
  | .matched statements after => (.ok statements, after)
  | .stuck stop => (.ok [], stop)
  | .failed fault stop => (.error fault, stop)

def State.parse (state : State) : Except Fault (List Statement) × State :=
  state.parseWith (moduleAlternatives bodyAlternatives)

theorem State.parse_eq_many (state : State) :
    state.parse =
      match many moduleStatement state with
      | .matched statements after => (.ok statements, after)
      | .stuck stop => (.ok [], stop)
      | .failed fault stop => (.error fault, stop) := rfl

/-- The statements that a table of alternatives reads at the front of a token list, and how many
tokens follow them. -/
def parseWith (table : List (Rule Statement)) (tokens : List Token) :
    Except Fault (List Statement × Nat) :=
  let (result, state) := (State.ofTokens tokens).parseWith table
  result.map fun statements => (statements, state.remaining)

/-- The statements at the front of a token list, and how many tokens follow them. -/
def parse (tokens : List Token) : Except Fault (List Statement × Nat) :=
  parseWith (moduleAlternatives bodyAlternatives) tokens

theorem parse_eq_map (tokens : List Token) :
    parse tokens =
      (State.ofTokens tokens).parse.1.map fun statements =>
        (statements, (State.ofTokens tokens).parse.2.remaining) := rfl

/-- Tries one rule at the front of a token list inside a callable of the given kind: the statement
and how many tokens it took. -/
def parseOne (rule : Rule Statement) (enclosing : Kind) (tokens : List Token) :
    Except Fault (Option Statement × Nat) :=
  match rule.attempt { rest := tokens, enclosing := enclosing } with
  | .matched statement after => .ok (some statement, after.position)
  | .stuck stop => .ok (none, stop.position)
  | .failed fault _ => .error fault

end LegacyBasic.Grammar
