import LegacyBasic.Command.Run

/-!
The command line tool.  It gives the commands the files and variables of the process, and prints
what they printed.
-/

namespace LegacyBasic

def FileError.ofFailure (failure : IO.Error) : FileError :=
  match failure with
  | .noFileOrDirectory .. => .notFound
  | .alreadyExists .. => .alreadyExists
  | .permissionDenied .. => .other "permission denied"
  | .inappropriateType _ code _ => if code = 21 then .isDirectory else .notDirectory
  | _ => .other (toString failure)

/-- An access to the path that bytes spell.  Bytes that are not UTF-8 spell none, and no path holds
a zero byte. -/
def accessPath {α : Type} (path : Bytes) (access : String → IO α) : IO (Except FileError α) := do
  if path.contains 0 then return .error .invalidPath
  match String.fromUTF8? ⟨path.toArray⟩ with
  | none => return .error .notFound
  | some path =>
    try
      return .ok (← access path)
    catch failure =>
      return .error (FileError.ofFailure failure)

instance : FileSystem IO where
  status path := accessPath path fun path => do
    let place ← IO.FS.realPath path
    let information ← place.metadata
    return if information.type matches .dir then .directory else .file
  read path := accessPath path fun path => do
    return (← IO.FS.readBinFile path).toList
  makeDirectory path := accessPath path fun path => IO.FS.createDir path
  write path content := do
    match ← accessPath path fun path => IO.FS.Handle.mk path .write with
    | .error error => return .error error
    | .ok handle =>
      try
        handle.write ⟨content.toArray⟩
        handle.flush
        return .ok ()
      catch failure => return .error (.brokenOff "write" (toString failure))

/-- The variables of the process among some names. -/
def variablesNamed (names : List Bytes) : IO (List (Bytes × Bytes)) :=
  names.filterMapM fun name => do
    match String.fromUTF8? ⟨name.toArray⟩ with
    | none => return none
    | some text => return (← IO.getEnv text).map fun value => (name, Bytes.ofText value)

/-- The variables that the commands ask for: those of the settings, and those that the arguments or
the path of the settings refer to. -/
def processEnvironment (arguments : List Bytes) : IO Environment := do
  let own ← variablesNamed (["VBNORM_CONFIG", "XDG_CONFIG_HOME", "HOME"].map Bytes.ofText)
  let texts := arguments ++ own.map Prod.snd
  return ⟨own ++ (← variablesNamed (texts.flatMap Environment.references))⟩

end LegacyBasic

open LegacyBasic in
/-- Runs the command line; the exit status tells whether it failed. -/
def main (arguments : List String) : IO UInt32 := do
  let arguments := arguments.map Bytes.ofText
  -- An interrupt ends the process, so that no command goes on after it was called off.
  let outcome : Command.Outcome ← Command.run (← processEnvironment arguments) false arguments
  (← IO.getStdout).write ⟨outcome.printed.out.toArray⟩
  (← IO.getStderr).write ⟨outcome.printed.err.toArray⟩
  return if outcome.failed then 1 else 0
