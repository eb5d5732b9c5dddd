import LegacyBasic.Statement.Basic
import LegacyBasic.Text.Latin

/-!
The legacy form of statements.  Every construct ends with its own line feed and nothing else stands
between statements; keywords are small, numbers and texts stay as they are, and identifiers are
small unless their case is preserved.
-/

namespace LegacyBasic

/-- How identifiers are written. -/
structure Style where
  preserveCase : Bool := false
deriving DecidableEq, Repr

namespace Style

def word (style : Style) (token : Token) : Bytes :=
  if token.kind = .identifier ∧ style.preserveCase = false then Latin.lower token.literal
  else token.lexeme

/-- An optional token followed by a blank, or nothing. -/
def leading (style : Style) : Option Token → Bytes
  | none => []
  | some token => style.word token ++ " "

/-- An optional token after `mark`, or nothing. -/
def trailing (style : Style) (mark : Bytes) : Option Token → Bytes
  | none => []
  | some token => mark ++ style.word token

end Style

/-- The line that stands for a statement with no legacy form. -/
def placeholder : Bytes := "__POLYFILL__\n"

/-- `name as kind`. -/
def Field.render (style : Style) (field : Field) : Bytes :=
  Bytes.concat [style.word field.name, " as ", style.word field.kind, "\n"]

/-- `name` or `name = value`. -/
def Enumerator.render (style : Style) (member : Enumerator) : Bytes :=
  Bytes.concat [style.word member.name, style.trailing " = " member.value, "\n"]

/-- `modifier name as kind` with the separator after it. -/
def Argument.render (style : Style) (argument : Argument) : Bytes :=
  Bytes.concat [style.leading argument.modifier, style.word argument.name, " as ",
    style.word argument.kind, ", "]

/-- The first line of a callable up to the closing parenthesis.  Every argument is written with its
separator, and the last separator is cut off again. -/
def Style.signature (style : Style) (scope : Token) (keyword : Bytes) (name : Token)
    (arguments : List Argument) : Bytes :=
  let opened := Bytes.concat [style.word scope, " ", keyword, " ", style.word name, "(",
    arguments.flatMap (Argument.render style)]
  let trimmed := if arguments.isEmpty then opened else opened.take (opened.length - 2)
  trimmed ++ ")"

namespace Statement

mutual

def render (style : Style) : Statement → Bytes
  | .record name fields =>
    Bytes.concat ["type ", style.word name, "\n", fields.flatMap (Field.render style),
      "end type\n"]
  | .field member => member.render style
  | .enumeration scope name members =>
    Bytes.concat [style.leading scope, "enum ", style.word name, "\n",
      members.flatMap (Enumerator.render style), "end enum\n"]
  | .enumerator member => member.render style
  | .variableDecl scope name kind =>
    Bytes.concat [style.word scope, " ", style.word name, " as ", style.word kind, "\n"]
  | .constantDecl scope name kind length value =>
    Bytes.concat [style.word scope, " const ", style.word name, style.trailing " as " kind,
      style.trailing " * " length, " = ", style.word value, "\n"]
  | .subroutine scope name arguments body =>
    Bytes.concat [style.signature scope "sub" name arguments, "\n", renderAll style body,
      "end sub\n"]
  | .function scope name arguments returns body =>
    Bytes.concat [style.signature scope "function" name arguments, style.trailing " as " returns,
      "\n", renderAll style body, "end function\n"]
  | .argument parameter => parameter.render style
  | .exitLine block => Bytes.concat ["exit ", style.word block, "\n"]
  | .assignment left right => Bytes.concat [style.word left, " = ", style.word right, "\n"]
  | .optionLine config value =>
    Bytes.concat ["option ", style.word config, style.trailing " " value, "\n"]
  | .attributeLine name value =>
    Bytes.concat ["Attribute ", name.lexeme, " = ", style.word value, "\n"]
  | .returnLine _ => placeholder
  | .absent => placeholder

def renderAll (style : Style) : List Statement → Bytes
  | [] => []
  | statement :: rest => render style statement ++ renderAll style rest

end

@[simp]
theorem renderAll_append (style : Style) (left right : List Statement) :
    renderAll style (left ++ right) = renderAll style left ++ renderAll style right := by
  induction left with
  | nil => simp [renderAll]
  | cons statement rest ih => simp [renderAll, ih]

end Statement

end LegacyBasic
