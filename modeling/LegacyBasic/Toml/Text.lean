import LegacyBasic.Toml.Value

/-!
Quoted texts: in double quotes with escapes, in single quotes without, each on one line or, in
three quotes, on several.
-/

namespace LegacyBasic.Toml

def isHexDigit (c : Char) : Bool :=
  c.isDigit || ('a' ≤ c && c ≤ 'f') || ('A' ≤ c && c ≤ 'F')

def hexValue (digits : List Char) : Nat :=
  digits.foldl
    (fun n c =>
      n * 16 + if c.isDigit then c.toNat - 0x30 else c.toLower.toNat - 0x61 + 10) 0

def escapedCharacter? (digits : List Char) : Option Char :=
  let code := hexValue digits
  if digits.all isHexDigit && (code < 0xD800 || (0xDFFF < code && code < 0x110000)) then
    some (Char.ofNat code)
  else none

/-- The character that a backslash before this one stands for. -/
def shortEscape? : Char → Option Char
  | 'b' => some (Char.ofNat 0x08)
  | 't' => some '\t'
  | 'n' => some '\n'
  | 'f' => some (Char.ofNat 0x0C)
  | 'r' => some '\r'
  | '"' => some '"'
  | '\\' => some '\\'
  | _ => none

/-- How many hexadecimal digits belong to an escape. -/
def escapeWidth : Char → Nat
  | 'u' => 4
  | 'U' => 8
  | _ => 0

/-- The character after a backslash, and the text after its escape. -/
def escape? : Reader Char
  | [] => none
  | mark :: rest =>
    match escapeWidth mark with
    | 0 => (shortEscape? mark).map fun c => (c, rest)
    | width =>
      if rest.length < width then none
      else (escapedCharacter? (rest.take width)).map fun c => (c, rest.drop width)

/-- The text up to the closing double quote, with escapes replaced. -/
def basicText : Reader (List Char)
  | [] => none
  | c :: rest =>
    if c = '"' then some ([], rest)
    else if isLineEnd c then none
    else if c = '\\' then
      match escape? rest with
      | none => none
      | some (escaped, after) =>
        if after.length < rest.length then
          (basicText after).map fun (content, after) => (escaped :: content, after)
        else none
    else (basicText rest).map fun (content, after) => (c :: content, after)
termination_by text => text.length
decreasing_by
  all_goals simp only [List.length_cons]
  all_goals omega

/-- The text up to the closing single quote, as it stands. -/
def literalText : Reader (List Char)
  | [] => none
  | c :: rest =>
    if c = '\'' then some ([], rest)
    else if isLineEnd c then none
    else (literalText rest).map fun (content, after) => (c :: content, after)

/-- Whether a sixth quote in a row ends a text that five quotes were read of.  `seen` is the text
read so far, last character first; an escaped quote at the front of the row does not count. -/
def tooManyQuotes (quote : Char) (escapes : Bool) (seen : List Char) : Bool :=
  (seen.take 5).length == 5 && (seen.take 5).all (· == quote) &&
    !(escapes && (seen.drop 5).head? == some '\\')

/-- The characters up to three closing quotes, as they stand.  Up to two quotes may stand right
before the closing ones.  `seen` is the text read so far, last character first. -/
def multilineRaw (quote : Char) (escapes : Bool) (seen : List Char) : Reader (List Char)
  | [] => none
  | [c] => if c = quote then none else multilineRaw quote escapes (c :: seen) []
  | c :: d :: rest =>
    if escapes && c == '\\' then multilineRaw quote escapes (d :: c :: seen) rest
    else if c = quote ∧ d = quote ∧ rest.head? = some quote then
      if (rest.drop 1).head? = some quote then
        if tooManyQuotes quote escapes (c :: d :: quote :: seen) then none
        else multilineRaw quote escapes (c :: seen) (d :: rest)
      else some (seen.reverse, rest.drop 1)
    else multilineRaw quote escapes (c :: seen) (d :: rest)

def dropFirstLineEnd : List Char → List Char
  | '\n' :: rest => rest
  | '\r' :: '\n' :: rest => rest
  | text => text

/-- Replaces the escapes of a text of several lines.  A backslash at the end of a line takes the
blanks and line ends after it with it. -/
def replaceEscapes : List Char → Option (List Char)
  | [] => some []
  | c :: rest =>
    if c = '\\' then
      if rest.head?.any fun d => isBlank d || isLineEnd d then
        let blanks := rest.takeWhile fun d => isBlank d || isLineEnd d
        if blanks.contains '\n' then replaceEscapes (rest.drop blanks.length) else none
      else
        match escape? rest with
        | none => none
        | some (escaped, after) =>
          if after.length < rest.length then (replaceEscapes after).map (escaped :: ·) else none
    else (replaceEscapes rest).map (c :: ·)
termination_by text => text.length
decreasing_by
  all_goals simp only [List.length_cons, List.length_drop]
  all_goals omega

/-- The text after three double quotes, up to the closing ones. -/
def multilineBasicText : Reader (List Char) := fun text => do
  let (raw, rest) ← multilineRaw '"' true [] text
  let content ← replaceEscapes (dropFirstLineEnd raw)
  return (content, rest)

/-- The text after three single quotes, up to the closing ones. -/
def multilineLiteralText : Reader (List Char) := fun text => do
  let (raw, rest) ← multilineRaw '\'' false [] text
  return (dropFirstLineEnd raw, rest)

/-- A quoted text in any of its forms. -/
def quotedText : Reader (List Char)
  | '"' :: '"' :: '"' :: rest => multilineBasicText rest
  | '\'' :: '\'' :: '\'' :: rest => multilineLiteralText rest
  | '"' :: rest => basicText rest
  | '\'' :: rest => literalText rest
  | _ => none

end LegacyBasic.Toml
