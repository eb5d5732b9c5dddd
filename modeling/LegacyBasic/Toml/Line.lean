import LegacyBasic.Toml.Number

/-!
The lines of a document: headers and assignments, with comments and empty lines between them.
-/

namespace LegacyBasic.Toml

/-- Characters of names without quotes. -/
def isBareCharacter (c : Char) : Bool := c.isAlphanum || c == '_' || c == '-'

def name : Reader String
  | '"' :: rest => (basicText rest).map fun (content, rest) => (String.ofList content, rest)
  | '\'' :: rest => (literalText rest).map fun (content, rest) => (String.ofList content, rest)
  | text =>
    let bare := text.takeWhile isBareCharacter
    if bare.isEmpty then none
    else some (String.ofList bare, text.dropWhile isBareCharacter)

/-- A key up to the character that ends it.  Every name is followed by a dot or that character, so
`steps` need not exceed the length of the text. -/
def keyWithin (closing : Char) : Nat → Reader Key
  | 0, _ => none
  | steps + 1, text => do
    let (first, text) ← name (skipBlanks text)
    match skipBlanks text with
    | [] => none
    | c :: rest =>
      if c = closing then return ([first], rest)
      else if c = '.' then
        let (others, rest) ← keyWithin closing steps rest
        return (first :: others, rest)
      else none

def key (closing : Char) : Reader Key := fun text => keyWithin closing (text.length + 1) text

/-- The text after blanks, line ends and comments. -/
def skipLines : Nat → List Char → List Char
  | 0, text => text
  | steps + 1, text =>
    match text.dropWhile fun c => isBlank c || isLineEnd c with
    | '#' :: rest => skipLines steps (skipComment rest)
    | rest => rest

def skipToItem (text : List Char) : List Char := skipLines (text.length + 1) text

mutual

/-- An expression.  `steps` bounds how deep expressions stand inside each other. -/
def expressionWithin : Nat → Reader Expression
  | 0, _ => none
  | steps + 1, text =>
    match skipBlanks text with
    | [] => none
    | '[' :: rest => (itemsWithin steps rest).map fun (items, rest) => (.array items, rest)
    | '\x7b' :: rest =>
      match skipBlanks rest with
      | '\x7d' :: rest => some (.inlineTable [], rest)
      | rest => (entriesWithin steps rest).map fun (entries, rest) => (.inlineTable entries, rest)
    | 't' :: 'r' :: 'u' :: 'e' :: rest => some (.scalar (.boolean true), rest)
    | 'f' :: 'a' :: 'l' :: 's' :: 'e' :: rest => some (.scalar (.boolean false), rest)
    | c :: rest =>
      if c = '"' ∨ c = '\'' then
        (quotedText (c :: rest)).map fun (content, rest) => (.scalar (.text content), rest)
      else (number (c :: rest)).map fun (value, rest) => (.scalar value, rest)

/-- The items of an array up to its end; a comma may stand after the last one. -/
def itemsWithin : Nat → Reader (List Expression)
  | 0, _ => none
  | steps + 1, text =>
    match skipToItem text with
    | [] => none
    | ']' :: rest => some ([], rest)
    | text => do
      let (item, text) ← expressionWithin steps text
      match skipToItem text with
      | ']' :: rest => return ([item], rest)
      | ',' :: rest =>
        let (items, rest) ← itemsWithin steps rest
        return (item :: items, rest)
      | _ => none

/-- The entries of an inline table up to its end; they all stand on one line. -/
def entriesWithin : Nat → Reader (List (Key × Expression))
  | 0, _ => none
  | steps + 1, text => do
    let (key, text) ← key '=' text
    let (expression, text) ← expressionWithin steps text
    match skipBlanks text with
    | '\x7d' :: rest => return ([(key, expression)], rest)
    | ',' :: rest =>
      let (entries, rest) ← entriesWithin steps rest
      return ((key, expression) :: entries, rest)
    | _ => none

end

def expression : Reader Expression := fun text => expressionWithin (2 * text.length + 2) text

def line : Reader Line
  | '[' :: '[' :: rest => do
    let (key, rest) ← key ']' rest
    match rest with
    | ']' :: rest => return (.repeatedHeader key, rest)
    | _ => none
  | '[' :: rest => (key ']' rest).map fun (key, rest) => (.header key, rest)
  | text => do
    let (key, rest) ← key '=' text
    let (expression, rest) ← expression rest
    return (.assignment key expression, rest)

/-- The text after a line: nothing but blanks and a comment may stand before the line end. -/
def endOfLine (text : List Char) : Option (List Char) :=
  match skipBlanks text with
  | [] => some []
  | c :: rest => if c = '#' ∨ isLineEnd c then some (c :: rest) else none

/-- The lines of a text; every line takes up characters, so `steps` need not exceed its length. -/
def linesWithin : Nat → List Char → Option (List Line)
  | 0, _ => none
  | steps + 1, text =>
    match skipToItem text with
    | [] => some []
    | text => do
      let (first, rest) ← line text
      let others ← linesWithin steps (← endOfLine rest)
      return first :: others

/-- Control characters, which may stand nowhere; a carriage return only before a line feed. -/
def hasControlCharacter : List Char → Bool
  | [] => false
  | c :: rest =>
    ((c.toNat < 0x20 && c != '\t' && c != '\n' && c != '\r') || c.toNat == 0x7F ||
      (c == '\r' && rest.head? != some '\n')) || hasControlCharacter rest

def lines? (text : List Char) : Option (List Line) :=
  if hasControlCharacter text then none else linesWithin (text.length + 1) text

end LegacyBasic.Toml
