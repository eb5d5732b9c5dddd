import LegacyBasic.Command.Flag

/-!
The command line of the tool: its commands, the flags of each, and how the word that names the
command is found among flags.
-/

namespace LegacyBasic.Command

inductive Name where
  | compile
  | parse
  | lex
  | version
deriving DecidableEq, Repr

namespace Name

def ofWord? (word : Bytes) : Option Name :=
  [("compile", compile), ("parse", parse), ("lex", lex), ("version", version)].findSome?
    fun (spelling, name) => if Bytes.ofText spelling = word then some name else none

end Name

def commonFlags : List Flag :=
  [{ name := "config" }, { name := "verbose", short := some 'v', isSwitch := true },
    { name := "preserve-case", isSwitch := true }]

def helpFlag : Flag := { name := "help", short := some 'h', isSwitch := true }

/-- The flags of a command, or of the tool without one. -/
def flagsOf : Option Name → List Flag
  | some .compile => { name := "out", short := some 'o' } :: commonFlags ++ [helpFlag]
  | some .parse => { name := "transform", isSwitch := true } :: commonFlags ++ [helpFlag]
  | _ => commonFlags ++ [helpFlag]

/-- Whether an argument is a flag that takes the next argument for its value, as far as can be told
before the command is known: every flag that is not a known switch and has no value of its own. -/
def takesNext (argument : Bytes) : Bool :=
  let known := fun (flag : Option Flag) => flag.any Flag.isSwitch
  if argument.contains 0x3D then false
  else
    match argument with
    | 0x2D :: 0x2D :: name => !known (Flag.withName? commonFlags name)
    | [0x2D, letter] => !known (Flag.withLetter? commonFlags letter)
    | _ => false

/-- The words of a command line that are neither flags nor, as far as can be told, values of
flags. -/
def plainWords : List Bytes → List Bytes
  | [] => []
  | argument :: rest =>
    if argument = "--" then []
    else if takesNext argument then
      match rest with
      | [] => []
      | [_] => []
      | _ :: rest => plainWords rest
    else if argument.isEmpty || argument.head? == some 0x2D then plainWords rest
    else argument :: plainWords rest

/-- The command line without the first occurrence of a word that is no flag's value. -/
def withoutWord (word : Bytes) : List Bytes → List Bytes
  | [] => []
  | argument :: rest =>
    if argument = "--" then argument :: rest
    else if takesNext argument then
      match rest with
      | [] => [argument]
      | value :: rest => argument :: value :: withoutWord word rest
    else if argument.head? != some 0x2D && argument == word then rest
    else argument :: withoutWord word rest

/-- A command and the arguments for it. -/
structure Request where
  name : Option Name
  arguments : List Bytes
deriving DecidableEq, Repr

/-- The command that a command line asks for, or the word that names none. -/
def Request.ofLine (line : List Bytes) : Except Bytes Request :=
  match plainWords line with
  | [] => .ok ⟨none, line⟩
  | word :: _ =>
    match Name.ofWord? word with
    | some name => .ok ⟨some name, withoutWord word line⟩
    | none => .error word

end LegacyBasic.Command
