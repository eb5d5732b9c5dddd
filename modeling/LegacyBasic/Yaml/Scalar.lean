import LegacyBasic.Text.Utf8
import LegacyBasic.Yaml.Implicit

/-!
How a text is written as a scalar: plain where that reads back as the same text, otherwise in
quotes, as a block of lines, or as binary data when it is not UTF-8.  Binary data is written in
Base64: three bytes are four characters, and a shorter rest is filled up with equals signs.
-/

namespace LegacyBasic.Yaml

namespace Base64

/-- The character for six bits. -/
def digit (n : Nat) : UInt8 :=
  if n < 26 then (0x41 + n).toUInt8
  else if n < 52 then (0x61 + (n - 26)).toUInt8
  else if n < 62 then (0x30 + (n - 52)).toUInt8
  else if n = 62 then 0x2B
  else 0x2F

def encode : Bytes → Bytes
  | [] => []
  | [a] =>
    let n := a.toNat * 16
    [digit (n / 64), digit (n % 64), 0x3D, 0x3D]
  | [a, b] =>
    let n := (a.toNat * 256 + b.toNat) * 4
    [digit (n / 4096), digit (n / 64 % 64), digit (n % 64), 0x3D]
  | a :: b :: c :: rest =>
    let n := a.toNat * 65536 + b.toNat * 256 + c.toNat
    digit (n / 262144) :: digit (n / 4096 % 64) :: digit (n / 64 % 64) :: digit (n % 64) ::
      encode rest

end Base64

/-- The form a scalar is written in. -/
inductive Presentation where
  | plain
  | singleQuoted
  | doubleQuoted
  /-- A block whose lines are kept. -/
  | literal
deriving DecidableEq, Repr

namespace Scalar

def isBreak (c : Char) : Bool :=
  c == '\n' || c == '\r' || c.toNat == 0x85 || c.toNat == 0x2028 || c.toNat == 0x2029

def isBlank (c : Char) : Bool := c == ' ' || c == '\t' || isBreak c || c.toNat == 0

/-- Characters that only an escape can stand for; the tab is told apart. -/
def isSpecial (c : Char) : Bool :=
  let code := c.toNat
  !(c == '\n' || c == '\t' || (0x20 ≤ code && code ≤ 0x7E) || (0xA0 ≤ code && code ≤ 0xD7FF) ||
    (0xE000 ≤ code && code ≤ 0xFFFD && code != 0xFEFF))

/-- Characters that mean something at the front of a scalar. -/
def indicators : List Char :=
  ['#', ',', '[', ']', '{', '}', '&', '*', '!', '|', '>', '\'', '"', '%', '@', '`']

def hasPair (p : Char → Char → Bool) : List Char → Bool
  | a :: b :: rest => p a b || hasPair p (b :: rest)
  | _ => false

/-- Whether the front of a text would be taken for structure. -/
def opensStructure : List Char → Bool
  | [] => false
  | c :: rest =>
    indicators.contains c ||
      ((c == '?' || c == ':' || c == '-') && (rest.head?.all isBlank)) ||
      ['-', '-', '-'].isPrefixOf (c :: rest) || ['.', '.', '.'].isPrefixOf (c :: rest)

/-- Whether a text holds something that would be taken for structure: at its front, a colon before
a blank or at the end, or a number sign after a blank. -/
def hasStructure (text : List Char) : Bool :=
  opensStructure text || hasPair (fun a b => a == ':' && isBlank b) text ||
    text.getLast? == some ':' || hasPair (fun a b => isBlank a && b == '#') text

/-- Whether a blank stands before or after the end of a line. -/
def hasBlankAtBreak (text : List Char) : Bool :=
  hasPair (fun a b => (a == ' ' && isBreak b) || (isBreak a && b == ' ')) text

def hasBlankBeforeBreak (text : List Char) : Bool :=
  hasPair (fun a b => a == ' ' && isBreak b) text

def hasOuterBlank (text : List Char) : Bool :=
  (text.head?.any fun c => c == ' ' || isBreak c) ||
    (text.getLast?.any fun c => c == ' ' || isBreak c)

/-- Whether a text can stand on its own. -/
def allowsPlain (text : List Char) : Bool :=
  !(hasStructure text || hasOuterBlank text ||
    text.any fun c => c == '\t' || isSpecial c || isBreak c)

/-- Whether a text can stand between single quotes. -/
def allowsSingleQuotes (text : List Char) : Bool :=
  !(hasBlankAtBreak text || text.any fun c => c == '\t' || isSpecial c)

def allowsLiteral (text : List Char) : Bool :=
  !(text.getLast? == some ' ' || hasBlankBeforeBreak text || text.any isSpecial)

/-- The form of a text: a block when it has several lines, quotes when it would be read as
something else or as structure. -/
def presentation (text : List Char) (ambiguous : Bool) : Presentation :=
  if text.contains '\n' then if allowsLiteral text then .literal else .doubleQuoted
  else if ambiguous then .doubleQuoted
  else if allowsPlain text then .plain
  else if allowsSingleQuotes text then .singleQuoted
  else .doubleQuoted

/-- The hexadecimal digit, in capital letters. -/
def hexDigit (n : Nat) : Char := if n < 10 then Char.ofNat (0x30 + n) else Char.ofNat (0x37 + n)

/-- The last `width` hexadecimal digits of a number, in capital letters. -/
def hex : Nat → Nat → List Char
  | 0, _ => []
  | width + 1, n => hex width (n / 16) ++ [hexDigit (n % 16)]

def needsEscape (c : Char) : Bool :=
  c == '"' || c == '\\' || c == '\t' || isSpecial c || isBreak c

def escape (c : Char) : List Char :=
  match c.toNat with
  | 0x00 => ['\\', '0']
  | 0x07 => ['\\', 'a']
  | 0x08 => ['\\', 'b']
  | 0x09 => ['\\', 't']
  | 0x0A => ['\\', 'n']
  | 0x0B => ['\\', 'v']
  | 0x0C => ['\\', 'f']
  | 0x0D => ['\\', 'r']
  | 0x1B => ['\\', 'e']
  | 0x22 => ['\\', '"']
  | 0x5C => ['\\', '\\']
  | 0x85 => ['\\', 'N']
  | 0xA0 => ['\\', '_']
  | 0x2028 => ['\\', 'L']
  | 0x2029 => ['\\', 'P']
  | code =>
    if code ≤ 0xFF then '\\' :: 'x' :: hex 2 code
    else if code ≤ 0xFFFF then '\\' :: 'u' :: hex 4 code
    else '\\' :: 'U' :: hex 8 code

/-- The text between double quotes.  After a byte order mark at the front every character is
escaped. -/
def doubleQuotedBody (text : List Char) : List Char :=
  let marked := text.head?.any fun c => c.toNat == 0xFEFF
  text.flatMap fun c => if marked || needsEscape c then escape c else [c]

/-- The text between single quotes; a line that begins inside is indented. -/
def singleQuotedBody (indent : Nat) (afterBreak : Bool) : List Char → List Char
  | [] => []
  | c :: rest =>
    if isBreak c then c :: singleQuotedBody indent true rest
    else
      let margin := if afterBreak then List.replicate indent ' ' else []
      let written := if c = '\'' then ['\'', '\''] else [c]
      margin ++ written ++ singleQuotedBody indent false rest

/-- The marks after the bar of a block: its indentation when the text does not begin with a word,
and what becomes of the line ends after the text. -/
def literalMarks (text : List Char) : List Char :=
  let margin := if text.head?.any fun c => c == ' ' || isBreak c then ['2'] else []
  let ending :=
    match text.reverse with
    | [] => ['-']
    | [last] => if isBreak last then ['+'] else ['-']
    | last :: before :: _ =>
      if isBreak last then if isBreak before then ['+'] else [] else ['-']
  margin ++ ending

/-- The lines of a block.  Every line that begins with a word is indented, and the first of them
begins a line when the text does not. -/
def literalBody (indent : Nat) (afterBreak opened : Bool) : List Char → List Char
  | [] => if opened && !afterBreak then ['\n'] else []
  | c :: rest =>
    if isBreak c then c :: literalBody indent true true rest
    else
      let margin := if afterBreak then List.replicate indent ' ' else []
      let opening := if opened then [] else '\n' :: List.replicate indent ' '
      opening ++ (if opened then margin else []) ++ c :: literalBody indent false true rest

/-- A text in a form, with the line end after it. -/
def write (indent : Nat) (form : Presentation) (text : List Char) : List Char :=
  match form with
  | .plain => text ++ ['\n']
  | .singleQuoted => '\'' :: singleQuotedBody indent false text ++ ['\'', '\n']
  | .doubleQuoted => '"' :: doubleQuotedBody text ++ ['"', '\n']
  | .literal => '|' :: literalMarks text ++ literalBody indent false false text

/-- Cuts a text into lines of `width`, each with its line end; a text shorter than that stays. -/
def wrap (width : Nat) (text : Bytes) : Bytes :=
  if text.length < width then text
  else (Bytes.chunks width text).flatMap (· ++ [0x0A])

/-- The written form of a scalar after its key, with the line end after it; `indent` is that of
further lines. -/
def render (indent : Nat) (content : Bytes) : Bytes :=
  match Utf8.characters? content with
  | some text =>
    Utf8.encode (write indent (presentation text (Implicit.isAmbiguous text)) text)
  | none =>
    let text := (wrap 70 (Base64.encode content)).map fun b => Char.ofNat b.toNat
    "!!binary " ++ Utf8.encode (write indent (presentation text false) text)

end Scalar

end LegacyBasic.Yaml
