/-!
TOML data: the values of a document, and the expressions it is written with.
-/

namespace LegacyBasic.Toml

/-- A key: one name, or several with dots between them. -/
abbrev Key := List String

/-- A value of a document.  Numbers with a fraction and dates keep their text. -/
inductive Value where
  | text (content : List Char)
  | integer (value : Int)
  | decimal (text : List Char)
  | boolean (value : Bool)
  | moment (text : List Char)
  | array (items : List Value)
  | table (entries : List (String × Value))
  /-- The tables of a repeated header, in order. -/
  | tables (items : List (List (String × Value)))
deriving Repr

/-- The entries of a table, in the order they were made. -/
abbrev Table := List (String × Value)

/-- What may stand after an equals sign. -/
inductive Expression where
  | scalar (value : Value)
  | array (items : List Expression)
  | inlineTable (entries : List (Key × Expression))
deriving Repr

/-- A line of a document that says something. -/
inductive Line where
  /-- `[key]`. -/
  | header (key : Key)
  /-- `[[key]]`. -/
  | repeatedHeader (key : Key)
  /-- `key = expression`. -/
  | assignment (key : Key) (expression : Expression)
deriving Repr

/-- What a reader makes of the front of a text; nothing when the text is not TOML. -/
abbrev Reader (α : Type) := List Char → Option (α × List Char)

def isBlank (c : Char) : Bool := c == ' ' || c == '\t'

def isLineEnd (c : Char) : Bool := c == '\n' || c == '\r'

def skipBlanks (text : List Char) : List Char := text.dropWhile isBlank

def skipComment (text : List Char) : List Char := text.dropWhile fun c => !isLineEnd c

end LegacyBasic.Toml
