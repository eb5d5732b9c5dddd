import LegacyBasic.Text.Quoted

/-!
Flags of a command line.  A long flag stands after two dashes, short ones after one; flags and
other arguments may stand in any order until two dashes alone end the flags.
-/

namespace LegacyBasic.Command

structure Flag where
  name : String
  /-- The letter of the short form. -/
  short : Option Char := none
  /-- Whether it is a switch, which may stand without a value. -/
  isSwitch : Bool := false
deriving DecidableEq, Repr

namespace Flag

inductive Mistake where
  | badForm (argument : Bytes)
  | unknown (name : Bytes)
  | missingValue (argument : Bytes)
  | unknownShort (letter : UInt8) (letters : Bytes)
  | missingShortValue (letter : UInt8) (letters : Bytes)
  | invalidSwitch (flag : Flag) (value : Bytes)
deriving DecidableEq, Repr

/-- A flag with both its forms. -/
def display (flag : Flag) : Bytes :=
  match flag.short with
  | none => "--" ++ Bytes.ofText flag.name
  | some letter => Bytes.concat ["-", String.utf8EncodeChar letter, ", --", flag.name]

def quoteLetter (letter : UInt8) : Bytes := Quoted.character (Char.ofNat letter.toNat)

def Mistake.text : Mistake → Bytes
  | .badForm argument => "bad flag syntax: " ++ argument
  | .unknown name => "unknown flag: --" ++ name
  | .missingValue argument => "flag needs an argument: " ++ argument
  | .unknownShort letter letters =>
    Bytes.concat ["unknown shorthand flag: ", quoteLetter letter, " in -", letters]
  | .missingShortValue letter letters =>
    Bytes.concat ["flag needs an argument: ", quoteLetter letter, " in -", letters]
  | .invalidSwitch flag value =>
    Bytes.concat ["invalid argument ", Quoted.text value, " for ", Quoted.text flag.display,
      " flag: strconv.ParseBool: parsing ", Quoted.text value, ": invalid syntax"]

/-- The truth value that a text spells. -/
def switchValue? (value : Bytes) : Option Bool :=
  if (["1", "t", "T", "TRUE", "true", "True"].map Bytes.ofText).contains value then some true
  else if (["0", "f", "F", "FALSE", "false", "False"].map Bytes.ofText).contains value then
    some false
  else none

structure Setting where
  flag : Flag
  value : Bytes
deriving DecidableEq, Repr

/-- A flag with a value; a switch takes truth values only. -/
def set (flag : Flag) (value : Bytes) : Except Mistake Setting :=
  if flag.isSwitch && (switchValue? value).isNone then .error (.invalidSwitch flag value)
  else .ok ⟨flag, value⟩

def withName? (flags : List Flag) (name : Bytes) : Option Flag :=
  flags.find? fun flag => Bytes.ofText flag.name = name

def withLetter? (flags : List Flag) (letter : UInt8) : Option Flag :=
  flags.find? fun flag => flag.short = some (Char.ofNat letter.toNat)

/-- Reads a long flag; `argument` is all of it and `body` what stands after the dashes.  A value
stands after an equals sign or is the next argument. -/
def readLong (flags : List Flag) (argument body : Bytes) (rest : List Bytes) :
    Except Mistake (Setting × List Bytes) := do
  if body.isEmpty || body.head? == some 0x2D || body.head? == some 0x3D then
    throw (.badForm argument)
  let name := body.takeWhile (· != 0x3D)
  match withName? flags name with
  | none => throw (.unknown name)
  | some flag =>
    match body.dropWhile (· != 0x3D) with
    | _ :: value => return (← flag.set value, rest)
    | [] =>
      if flag.isSwitch then return (← flag.set "true", rest)
      else
        match rest with
        | [] => throw (.missingValue argument)
        | value :: rest => return (← flag.set value, rest)

/-- What begins the letters that are meant for a test runner. -/
def runnerMark : Bytes := "test."

/-- Reads the letters after one dash.  A switch needs no value, so other letters may follow it; the
value of another flag is what follows its letter, or the next argument.  Letters for a test runner
are passed over. -/
def readShort (flags : List Flag) (rest : List Bytes) :
    Bytes → Except Mistake (List Setting × List Bytes)
  | [] => .ok ([], rest)
  | letter :: others =>
    if runnerMark.isPrefixOf (letter :: others) then .ok ([], rest)
    else
      match withLetter? flags letter with
      | none => .error (.unknownShort letter (letter :: others))
      | some flag =>
        match others with
        | 0x3D :: c :: value => do return ([← flag.set (c :: value)], rest)
        | _ =>
          if flag.isSwitch then do
            let setting ← flag.set "true"
            let (settings, rest) ← readShort flags rest others
            return (setting :: settings, rest)
          else if !others.isEmpty then do return ([← flag.set others], rest)
          else
            match rest with
            | [] => .error (.missingShortValue letter (letter :: others))
            | value :: rest => do return ([← flag.set value], rest)

/-- The settings and the other arguments of a command line, each in order. -/
structure Reading where
  settings : List Setting := []
  arguments : List Bytes := []
deriving DecidableEq, Repr

/-- Reads a command line.  Every step takes up an argument, so `steps` need not exceed their
number. -/
def readWithin (flags : List Flag) : Nat → List Bytes → Except Mistake Reading
  | 0, _ => .ok {}
  | _, [] => .ok {}
  | steps + 1, argument :: rest =>
    match argument with
    | 0x2D :: 0x2D :: body =>
      if body.isEmpty then .ok { arguments := rest }
      else do
        let (setting, rest) ← readLong flags argument body rest
        let reading ← readWithin flags steps rest
        return { reading with settings := setting :: reading.settings }
    | 0x2D :: letter :: letters => do
      let (settings, rest) ← readShort flags rest (letter :: letters)
      let reading ← readWithin flags steps rest
      return { reading with settings := settings ++ reading.settings }
    | _ => do
      let reading ← readWithin flags steps rest
      return { reading with arguments := argument :: reading.arguments }

def read (flags : List Flag) (arguments : List Bytes) : Except Mistake Reading :=
  readWithin flags (arguments.length + 1) arguments

/-- The value a flag was given last. -/
def Reading.value? (reading : Reading) (name : String) : Option Bytes :=
  (reading.settings.reverse.find? fun setting => setting.flag.name = name).map Setting.value

def Reading.isOn (reading : Reading) (name : String) : Bool :=
  ((reading.value? name).bind switchValue?).getD false

end Flag

end LegacyBasic.Command
