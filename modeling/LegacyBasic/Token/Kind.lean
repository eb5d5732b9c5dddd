import LegacyBasic.Text.Utf8

/-!
Kinds of tokens: the keywords and symbols of the language, the three kinds that carry source text,
and the codes that name no kind of the table.  Which words are keywords does not depend on the case
of letters, and a word is read as UTF-8, so that a letter of another alphabet counts when its small
form is a Latin one.
-/

namespace LegacyBasic

inductive Keyword where
  | publicWord
  | privateWord
  | staticWord
  | dimWord
  | byValWord
  | byRefWord
  | asWord
  | ifWord
  | subWord
  | functionWord
  | typeWord
  | enumWord
  | constWord
  | endWord
  | exitWord
  | returnWord
  | doWord
  | loopWord
  | whileWord
  | wendWord
  | forWord
  | nextWord
  | andWord
  | orWord
  | xorWord
  | attributeWord
  | optionWord
  | explicitWord
  | baseWord
  | compareWord
  | moduleWord
deriving DecidableEq, Repr

namespace Keyword

/-- Every keyword, in the order of the codes. -/
def all : List Keyword :=
  [publicWord, privateWord, staticWord, dimWord, byValWord, byRefWord, asWord, ifWord, subWord,
    functionWord, typeWord, enumWord, constWord, endWord, exitWord, returnWord, doWord, loopWord,
    whileWord, wendWord, forWord, nextWord, andWord, orWord, xorWord, attributeWord, optionWord,
    explicitWord, baseWord, compareWord, moduleWord]

def spelling : Keyword → String
  | publicWord => "public"
  | privateWord => "private"
  | staticWord => "static"
  | dimWord => "dim"
  | byValWord => "byval"
  | byRefWord => "byref"
  | asWord => "as"
  | ifWord => "if"
  | subWord => "sub"
  | functionWord => "function"
  | typeWord => "type"
  | enumWord => "enum"
  | constWord => "const"
  | endWord => "end"
  | exitWord => "exit"
  | returnWord => "return"
  | doWord => "do"
  | loopWord => "loop"
  | whileWord => "while"
  | wendWord => "wend"
  | forWord => "for"
  | nextWord => "next"
  | andWord => "and"
  | orWord => "or"
  | xorWord => "xor"
  | attributeWord => "attribute"
  | optionWord => "option"
  | explicitWord => "explicit"
  | baseWord => "base"
  | compareWord => "compare"
  | moduleWord => "module"

def lexeme (keyword : Keyword) : Bytes := Bytes.ofText keyword.spelling

def ofLexeme? (word : Bytes) : Option Keyword := all.find? fun keyword => keyword.lexeme = word

theorem mem_all (keyword : Keyword) : keyword ∈ all := by
  cases keyword <;> decide

/-- A keyword is read back from its written form. -/
@[simp]
theorem ofLexeme?_lexeme (keyword : Keyword) : ofLexeme? keyword.lexeme = some keyword := by
  cases keyword <;> decide +kernel

theorem lexeme_of_ofLexeme? {word : Bytes} {keyword : Keyword}
    (h : ofLexeme? word = some keyword) : keyword.lexeme = word := by
  simpa using List.find?_some h

end Keyword

inductive Symbol where
  | leftParen
  | rightParen
  | leftBracket
  | rightBracket
  | plus
  | minus
  | asterisk
  | slash
  | less
  | lessEqual
  | greater
  | greaterEqual
  | equals
  | dot
  | comma
deriving DecidableEq, Repr

namespace Symbol

/-- Every symbol, in the order of the codes. -/
def all : List Symbol :=
  [leftParen, rightParen, leftBracket, rightBracket, plus, minus, asterisk, slash, less, lessEqual,
    greater, greaterEqual, equals, dot, comma]

def spelling : Symbol → String
  | leftParen => "("
  | rightParen => ")"
  | leftBracket => "["
  | rightBracket => "]"
  | plus => "+"
  | minus => "-"
  | asterisk => "*"
  | slash => "/"
  | less => "<"
  | lessEqual => "<="
  | greater => ">"
  | greaterEqual => ">="
  | equals => "="
  | dot => "."
  | comma => ","

def lexeme (symbol : Symbol) : Bytes := Bytes.ofText symbol.spelling

def ofLexeme? (word : Bytes) : Option Symbol := all.find? fun symbol => symbol.lexeme = word

theorem mem_all (symbol : Symbol) : symbol ∈ all := by
  cases symbol <;> decide

/-- A symbol is read back from its written form. -/
@[simp]
theorem ofLexeme?_lexeme (symbol : Symbol) : ofLexeme? symbol.lexeme = some symbol := by
  cases symbol <;> decide +kernel

theorem lexeme_of_ofLexeme? {word : Bytes} {symbol : Symbol}
    (h : ofLexeme? word = some symbol) : symbol.lexeme = word := by
  simpa using List.find?_some h

end Symbol

/-- What a token is; the grammar looks at nothing else. -/
inductive Kind where
  /-- The kind of a token that was never read. -/
  | illegal
  /-- A name that is no keyword. -/
  | identifier
  /-- A decimal number. -/
  | number
  /-- A text in double quotes. -/
  | quoted
  | keyword (word : Keyword)
  | symbol (sign : Symbol)
  /-- A code that the table of kinds does not list. -/
  | unlisted (code : Int) (outside : code < 0 ∨ 50 ≤ code)
deriving DecidableEq, Repr

namespace Kind

/-- Whether tokens of this kind carry the source text they were read from. -/
def hasPayload : Kind → Bool
  | identifier => true
  | number => true
  | quoted => true
  | _ => false

/-- The fixed written form of a keyword or symbol; other kinds have none. -/
def lexeme : Kind → Bytes
  | keyword word => word.lexeme
  | symbol sign => sign.lexeme
  | _ => []

def name : Kind → Bytes
  | illegal => Bytes.ofText "ILLEGAL"
  | identifier => Bytes.ofText "IDENT"
  | number => Bytes.ofText "NUMBER"
  | quoted => Bytes.ofText "STRING"
  | keyword word => word.lexeme
  | symbol sign => sign.lexeme
  | unlisted _ _ => Bytes.ofText "?"

/-- The kinds of the table, in the order of their codes. -/
def table : List Kind :=
  [illegal, identifier, number, quoted] ++ Keyword.all.map keyword ++ Symbol.all.map symbol

/-- The code of a kind: its place in the table, or the code that the table does not list. -/
def code : Kind → Int
  | unlisted code _ => code
  | kind => table.idxOf kind

def ofCode (code : Int) : Kind :=
  if outside : code < 0 ∨ 50 ≤ code then unlisted code outside
  else table.getD code.toNat illegal

/-- The kind of the table that is shown by this name. -/
def ofName? (name : Bytes) : Option Kind := table.find? fun kind => kind.name = name

/-- A kind is determined by its code. -/
@[simp]
theorem ofCode_code (kind : Kind) : ofCode kind.code = kind := by
  cases kind with
  | unlisted code outside => simp [ofCode, Kind.code, outside]
  | keyword word => cases word <;> decide +kernel
  | symbol sign => cases sign <;> decide +kernel
  | _ => decide +kernel

end Kind

namespace Word

/-- The small form of a character whose small form is an ASCII character.  Beside the ASCII
capitals these are the capital I with a dot above and the Kelvin sign. -/
def asciiLower? (c : Char) : Option Char :=
  if c.toNat < 0x80 then some c.toLower
  else if c.toNat = 0x130 then some 'i'
  else if c.toNat = 0x212A then some 'k'
  else none

/-- The small form of an item that a keyword could hold. -/
def lowerItem? : Utf8.Item → Option UInt8
  | .char c => (asciiLower? c).map fun small => small.toNat.toUInt8
  | .stray _ => none

/-- The small form of a word, when it is written in ASCII. -/
def asciiForm? (word : Bytes) : Option Bytes := (Utf8.decode word).mapM lowerItem?

/-- The kind of a word: a keyword in any case, or an identifier. -/
def kind (word : Bytes) : Kind :=
  match (asciiForm? word).bind Keyword.ofLexeme? with
  | some keyword => .keyword keyword
  | none => .identifier

end Word

end LegacyBasic
