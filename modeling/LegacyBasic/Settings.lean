import LegacyBasic.Environment
import LegacyBasic.FileSystem
import LegacyBasic.Log.Level
import LegacyBasic.Toml.Document

/-!
The settings of the tool.  They come from a TOML file, and what the file leaves out has a default.
-/

namespace LegacyBasic

structure Settings where
  logLevel : Bytes := []
  preserveCase : Bool := false
  outputExtension : Bytes := []
  workers : Int := 0
deriving DecidableEq, Repr

namespace Settings

/-- Settings with a default for what was left out; a worker is needed in any case. -/
def withDefaults (settings : Settings) : Settings :=
  { settings with
    logLevel := if settings.logLevel.isEmpty then "warn" else settings.logLevel
    outputExtension :=
      if settings.outputExtension.isEmpty then ".legacy.bas" else settings.outputExtension
    workers := if settings.workers ≤ 0 then 4 else settings.workers }

def default : Settings := withDefaults {}

inductive Failure where
  | notFound (path : Bytes)
  /-- The file cannot be read. -/
  | unreadable (path : Bytes) (error : FileError)
  /-- The file is not TOML, or a setting has a value of the wrong type. -/
  | malformed
  | level (text : Bytes) (mistake : Log.Level.Mistake)
deriving DecidableEq, Repr

def levelMessage (text : Bytes) (mistake : Log.Level.Mistake) : Bytes :=
  Bytes.concat ["invalid log_level ", Quoted.text text, ": slog: level string ", Quoted.text text,
    ": ", mistake.text]

def Failure.text : Failure → Bytes
  | .notFound path => "config file not found: " ++ path
  | .unreadable path error => "failed to parse config: " ++ error.describeRead path
  | .malformed => "failed to parse config: toml: not a valid document"
  | .level text mistake => levelMessage text mistake

/-- The level of the records that are logged. -/
def level (settings : Settings) : Except Failure Log.Level :=
  (Log.Level.ofText settings.logLevel).mapError (Failure.level settings.logLevel)

/-- The small letter of a character, where letters that differ only in case are one.  The long s
and the Kelvin sign are letters of that kind. -/
def foldCase (c : Char) : Char :=
  if c.toNat = 0x17F then 's' else if c.toNat = 0x212A then 'k' else c.toLower

def isNamed (name key : String) : Bool := key.toList.map foldCase == name.toList

def text? : Toml.Value → Option Bytes
  | .text content => some (Utf8.encode content)
  | _ => none

def boolean? : Toml.Value → Option Bool
  | .boolean value => some value
  | _ => none

def integer? : Toml.Value → Option Int
  | .integer value => some value
  | _ => none

/-- Takes over the entries of a table one by one. -/
def applyEntries (apply : Settings → String → Toml.Value → Option Settings) (settings : Settings) :
    Toml.Value → Option Settings
  | .table entries =>
    entries.foldlM (fun settings (key, value) => apply settings key value) settings
  | _ => none

/-- Takes over an entry of the general settings; unknown ones are passed over. -/
def applyGeneral (settings : Settings) (key : String) (value : Toml.Value) : Option Settings :=
  if isNamed "log_level" key then (text? value).map fun text => { settings with logLevel := text }
  else some settings

def applyGenerate (settings : Settings) (key : String) (value : Toml.Value) : Option Settings :=
  if isNamed "preserve_case" key then
    (boolean? value).map fun preserve => { settings with preserveCase := preserve }
  else if isNamed "output_extension" key then
    (text? value).map fun text => { settings with outputExtension := text }
  else some settings

def applyBatch (settings : Settings) (key : String) (value : Toml.Value) : Option Settings :=
  if isNamed "workers" key then
    (integer? value).map fun count => { settings with workers := count }
  else some settings

/-- Takes over a table of the document; unknown ones are passed over. -/
def applySection (settings : Settings) (key : String) (value : Toml.Value) : Option Settings :=
  if isNamed "general" key then applyEntries applyGeneral settings value
  else if isNamed "generate" key then applyEntries applyGenerate settings value
  else if isNamed "batch" key then applyEntries applyBatch settings value
  else some settings

def ofDocument? (document : Bytes) : Option Settings := do
  let table ← Toml.parse? document
  applyEntries applySection {} (.table table)

/-- The settings of a document, with defaults and with a level that is one. -/
def ofDocument (document : Bytes) : Except Failure Settings := do
  match ofDocument? document with
  | none => throw .malformed
  | some settings =>
    let settings := settings.withDefaults
    let _ ← settings.level
    return settings

variable {m : Type → Type} [Monad m] [FileSystem m]

/-- The settings of the file at a path, in which variables are expanded first. -/
def load (environment : Environment) (path : Bytes) : m (Except Failure Settings) := do
  let path := environment.expand path
  match ← FileSystem.status path with
  | .error .notFound => return .error (.notFound path)
  | _ =>
    match ← FileSystem.read path with
    | .error error => return .error (.unreadable path error)
    | .ok document => return ofDocument document

/-- The directory of a user's settings, if the environment tells it. -/
def userDirectory? (environment : Environment) : Option Bytes :=
  let configured := environment.get "XDG_CONFIG_HOME"
  let home := environment.get "HOME"
  if !configured.isEmpty then if Path.isRooted configured then some configured else none
  else if !home.isEmpty then some (home ++ "/.config")
  else none

/-- The places where settings are looked for. -/
def defaultPaths (environment : Environment) : List Bytes :=
  Bytes.ofText "./vbnorm.toml" ::
    match userDirectory? environment with
    | none => []
    | some directory => [Path.join directory "vbnorm/config.toml"]

/-- The settings at the first of the paths that leads somewhere. -/
def loadFirst (environment : Environment) : List Bytes → m (Except Failure Settings)
  | [] => return .ok default
  | path :: rest => do
    match ← FileSystem.status path with
    | .ok _ => load environment path
    | .error _ => loadFirst environment rest

/-- The settings of the file that the environment names, or of the first one at a usual place. -/
def loadFromEnvironment (environment : Environment) : m (Except Failure Settings) :=
  let path := environment.get "VBNORM_CONFIG"
  if path.isEmpty then loadFirst environment (defaultPaths environment)
  else load environment path

end Settings

end LegacyBasic
