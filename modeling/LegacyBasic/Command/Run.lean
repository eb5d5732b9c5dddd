import LegacyBasic.Command.Line
import LegacyBasic.Compile
import LegacyBasic.Destination
import LegacyBasic.Settings
import LegacyBasic.Text.Width
import LegacyBasic.Yaml.Document

/-!
Running a command.  What is printed is collected, the error of a failed command last; files are
read and written through the file system of the monad.
-/

namespace LegacyBasic.Command

inductive Failure where
  | unknownCommand (word : Bytes)
  | flag (mistake : Flag.Mistake)
  | tooFewArguments (received : Nat)
  | notOneArgument (received : Nat)
  | settings (failure : Settings.Failure)
  | source (path : Bytes) (error : FileError)
  | aborted (fault : Fault)
  | batch (failure : Batch.Failure)
  | destination (conflict : Destination.Conflict)
  | directory (path : Bytes) (error : FileError)
  | output (path : Bytes) (error : FileError)
deriving DecidableEq, Repr

def Failure.text : Failure → Bytes
  | .unknownCommand word => Bytes.concat ["unknown command ", Quoted.text word, " for \"vbnorm\""]
  | .flag mistake => mistake.text
  | .tooFewArguments received =>
    "requires at least 1 arg(s), only received " ++ Bytes.ofNat received
  | .notOneArgument received => "accepts 1 arg(s), received " ++ Bytes.ofNat received
  | .settings failure => failure.text
  | .source path error => "failed to read source: " ++ error.describeRead path
  | .aborted fault => fault.internalError
  | .batch failure => failure.text
  | .destination conflict => conflict.text
  | .directory path error => "failed to create output directory: " ++ error.describe "mkdir" path
  | .output path error => "failed to write output: " ++ error.describeWrite path

structure Printed where
  out : Bytes := []
  err : Bytes := []
deriving DecidableEq, Repr

/-- A command in progress. -/
abbrev Running (m : Type → Type) (α : Type) := ExceptT Failure (StateT Printed m) α

/-- What every command goes by. -/
structure Session where
  style : Style
  outputExtension : Bytes
  level : Log.Level
deriving DecidableEq, Repr

variable {m : Type → Type} [Monad m] [FileSystem m]

def print (text : Bytes) : Running m Unit :=
  modify fun printed => { printed with out := printed.out ++ text }

def printError (text : Bytes) : Running m Unit :=
  modify fun printed => { printed with err := printed.err ++ text }

/-- The session that flags and settings make. -/
def openSession (environment : Environment) (flags : Flag.Reading) : Running m Session := do
  let path := (flags.value? "config").getD []
  let loaded : Except Settings.Failure Settings ←
    if path.isEmpty then Settings.loadFromEnvironment (m := m) environment
    else Settings.load (m := m) environment path
  match loaded with
  | .error failure => throw (.settings failure)
  | .ok settings =>
    match settings.level with
    | .error failure => throw (.settings failure)
    | .ok level =>
      return {
        style := ⟨settings.preserveCase || flags.isOn "preserve-case"⟩
        outputExtension := settings.outputExtension
        level := if flags.isOn "verbose" then .debug else level }

def readSource (path : Bytes) : Running m Source := do
  match ← (FileSystem.read path : m _) with
  | .error error => throw (.source path error)
  | .ok content => return ⟨path, content⟩

/-- Prints the records that the session logs. -/
def log (session : Session) (records : List Log.Record) : Running m Unit :=
  printError ((Log.atLeast session.level records).flatMap Log.Record.line)

/-- The character that is shown for an item; a stray byte is shown as the replacement character. -/
def shownItem : Utf8.Item → Char
  | .char c => c
  | .stray _ => Char.ofNat 0xFFFD

/-- A text without the carriage returns before line feeds. -/
def dropReturns : List Char → List Char
  | '\r' :: '\n' :: rest => '\n' :: dropReturns rest
  | c :: rest => c :: dropReturns rest
  | [] => []

/-- A path for the eye: a tab is shown as four blanks, and the lines of a path that has several are
brought to one width. -/
def showPath (path : Bytes) : Bytes :=
  let spaced := path.flatMap fun b => if b = 0x09 then Bytes.ofText "    " else [b]
  let text := dropReturns ((Utf8.decode spaced).map shownItem)
  Utf8.encode (['\n'].intercalate (Width.align (text.splitOn '\n')))

/-- What is printed about an output. -/
def summary (compilation : Compilation) (destination : Bytes) : Bytes :=
  Bytes.concat [if compilation.isTruncated then "truncated" else "ok", " ",
    showPath compilation.name, " → ", showPath destination, "\n   ",
    Bytes.ofNat compilation.tokens.length, " tokens, ",
    Bytes.ofNat compilation.statements.length, " statements, ",
    Bytes.ofNat compilation.scannedSize, "/", Bytes.ofNat compilation.inputSize,
    " bytes lexed, ", Bytes.ofNat compilation.remaining, " tokens unparsed\n"]

/-- Writes outputs to their places, in order. -/
def writeOutputs : List (Compilation × Bytes) → Running m Unit
  | [] => return
  | (compilation, destination) :: rest => do
    match ← (FileSystem.write destination compilation.output : m _) with
    | .error error => throw (.output destination error)
    | .ok _ =>
      print (summary compilation destination)
      writeOutputs rest

/-- Compiles files, unless that is called off.  Nothing is written unless every source was read and
compiled and every output has a place. -/
def compileFiles (session : Session) (cancelled : Bool) (directory : Bytes) (paths : List Bytes) :
    Running m Unit := do
  let sources ← paths.mapM readSource
  let (records, result) := Batch.compile session.style cancelled sources
  log session records
  match result with
  | .error failure => throw (.batch failure)
  | .ok compilations =>
    match Destination.all (compilations.map Compilation.name) directory session.outputExtension with
    | .error conflict => throw (.destination conflict)
    | .ok destinations =>
      if !directory.isEmpty then
        match ← (FileSystem.makeDirectories directory : m _) with
        | .error (path, error) => throw (.directory path error)
        | .ok _ => pure ()
      writeOutputs (compilations.zip destinations)

def dumpStatements (session : Session) (desugared : Bool) (path : Bytes) : Running m Unit := do
  let source ← readSource path
  let (records, result) := Source.compile { content := source.content } session.style
  log session records
  match result with
  | .error fault => throw (.aborted fault)
  | .ok compilation =>
    let statements := if desugared then compilation.desugared else compilation.statements
    print (Yaml.document statements).render
    if 0 < compilation.remaining then
      printError (Bytes.ofNat compilation.remaining ++ " tokens not parsed\n")

/-- A text in a column: padded to its width, and continued on further lines where it is wider. -/
def column (width : Nat) (text : Bytes) : Bytes :=
  Bytes.join "\n" ((Bytes.chunks width text).map (Bytes.padTo width))

def tokenLine (token : Token) : Bytes :=
  let place := Bytes.concat
    [Bytes.ofInt token.position.line, ":", Bytes.ofInt token.position.column]
  Bytes.concat [column 10 place, column 12 token.kind.name, token.literal, "\n"]

def listTokens (path : Bytes) : Running m Unit := do
  let source ← readSource path
  let scan := Scan.ofSource source.content
  let size := source.content.length - scan.rest.length
  print (Bytes.concat [column 10 "POS", column 12 "TYPE", "LITERAL\n"])
  print (scan.tokens.flatMap tokenLine)
  if size < source.content.length then
    print (Bytes.concat ["stopped at byte ", Bytes.ofNat size, " of ",
      Bytes.ofNat source.content.length, "\n"])

def versionText : Bytes := "vbnorm v0.1.0\n  Git Commit: development\n  Build Date: unknown\n"

def onlyArgument : List Bytes → Running m Bytes
  | [argument] => return argument
  | arguments => throw (.notOneArgument arguments.length)

/-- Carries out a command line, which may be called off while it runs.  Flags are read first, then
the arguments counted, then the settings loaded. -/
def execute (environment : Environment) (cancelled : Bool) (line : List Bytes) :
    Running m Unit := do
  match Request.ofLine line with
  | .error word => throw (.unknownCommand word)
  | .ok request =>
    match Flag.read (flagsOf request.name) request.arguments with
    | .error mistake => throw (.flag mistake)
    | .ok flags =>
      if flags.isOn "help" then return
      match request.name with
      | none => return
      | some .version => print versionText
      | some .compile =>
        if flags.arguments.isEmpty then throw (.tooFewArguments flags.arguments.length)
        let session ← openSession environment flags
        compileFiles session cancelled ((flags.value? "out").getD []) flags.arguments
      | some .parse =>
        let path ← onlyArgument flags.arguments
        let session ← openSession environment flags
        dumpStatements session (flags.isOn "transform") path
      | some .lex =>
        let path ← onlyArgument flags.arguments
        let _ ← openSession environment flags
        listTokens path

/-- The outcome of a command line: whether it failed, and what was printed. -/
structure Outcome where
  failed : Bool
  printed : Printed
deriving DecidableEq, Repr

/-- Runs a command line; the error of a failed one is printed last. -/
def run (environment : Environment) (cancelled : Bool) (line : List Bytes) : m Outcome := do
  let (result, printed) ← (execute environment cancelled line).run.run {}
  match result with
  | .ok _ => return ⟨false, printed⟩
  | .error failure =>
    let error := Bytes.concat ["error: ", failure.text, "\n"]
    return ⟨true, { printed with err := printed.err ++ error }⟩

end LegacyBasic.Command
