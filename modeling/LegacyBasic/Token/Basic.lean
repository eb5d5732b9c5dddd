import LegacyBasic.Token.Kind

/-!
Tokens: a kind, the source text of the kinds that carry one, and the place of the first byte.
-/

namespace LegacyBasic

/-- A place in a source, counted from one; zero stands for no place. -/
structure Position where
  line : Int := 0
  column : Int := 0
deriving DecidableEq, Repr

namespace Position

def start : Position := ⟨1, 1⟩

/-- The place after one byte: a line feed begins the next line. -/
def next (position : Position) (b : UInt8) : Position :=
  if b = 0x0A then ⟨position.line + 1, 1⟩ else ⟨position.line, position.column + 1⟩

def after (position : Position) (text : Bytes) : Position := text.foldl next position

@[simp]
theorem after_nil (position : Position) : position.after [] = position := rfl

@[simp]
theorem after_cons (position : Position) (b : UInt8) (text : Bytes) :
    position.after (b :: text) = (position.next b).after text := rfl

@[simp]
theorem after_append (position : Position) (left right : Bytes) :
    position.after (left ++ right) = (position.after left).after right := by
  simp [after]

end Position

structure Token where
  kind : Kind := .illegal
  literal : Bytes := []
  position : Position := {}
deriving DecidableEq, Repr

namespace Token

/-- A token at no place; kinds without source text drop the literal. -/
def unplaced (kind : Kind) (literal : Bytes) : Token :=
  { kind := kind, literal := if kind.hasPayload then literal else [] }

/-- The canonical text of a token: its source text, or the fixed form of its kind. -/
def lexeme (token : Token) : Bytes :=
  if token.kind.hasPayload then token.literal else token.kind.lexeme

/-- Whether the token is of this kind; its text is not looked at. -/
def is (token : Token) (kind : Kind) : Bool := token.kind == kind

@[simp]
theorem kind_unplaced (kind : Kind) (literal : Bytes) : (unplaced kind literal).kind = kind := rfl

end Token

end LegacyBasic
