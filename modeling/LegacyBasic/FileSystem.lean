import LegacyBasic.Path

/-!
Access to files, in any monad that offers it: asking what a path leads to, reading, writing and
making directories.
-/

namespace LegacyBasic

inductive FileError where
  | notFound
  | notDirectory
  | isDirectory
  | alreadyExists
  | nameTooLong
  /-- The path holds a zero byte. -/
  | invalidPath
  /-- A file was opened for writing and `operation` failed before all was written. -/
  | brokenOff (operation reason : Bytes)
  | other (text : Bytes)
deriving DecidableEq, Repr

def FileError.text : FileError → Bytes
  | .notFound => "no such file or directory"
  | .notDirectory => "not a directory"
  | .isDirectory => "is a directory"
  | .alreadyExists => "file exists"
  | .nameTooLong => "file name too long"
  | .invalidPath => "invalid argument"
  | .brokenOff _ reason => reason
  | .other text => text

/-- A failed access with what was done and the path it was done to. -/
def FileError.describe (error : FileError) (operation path : Bytes) : Bytes :=
  Bytes.concat [operation, " ", path, ": ", error.text]

/-- How a failed reading is reported: a directory can be opened and not be read. -/
def FileError.describeRead (error : FileError) (path : Bytes) : Bytes :=
  error.describe (if error = .isDirectory then "read" else "open") path

/-- How a failed writing is reported: a file can be opened and not be written to the end. -/
def FileError.describeWrite (error : FileError) (path : Bytes) : Bytes :=
  let operation :=
    match error with
    | .brokenOff operation _ => operation
    | _ => "open"
  error.describe operation path

inductive FileStatus where
  | file
  | directory
deriving DecidableEq, Repr

/-- A monad with access to files. -/
class FileSystem (m : Type → Type) where
  /-- What a path leads to. -/
  status : Bytes → m (Except FileError FileStatus)
  /-- The content of a file. -/
  read : Bytes → m (Except FileError Bytes)
  /-- Makes a directory inside one that exists. -/
  makeDirectory : Bytes → m (Except FileError Unit)
  /-- Gives a file a content; a file that does not exist is made.  A file is emptied first, so that
  a write which breaks off leaves a front part of the content. -/
  write : Bytes → Bytes → m (Except FileError Unit)

namespace FileSystem

/-- The path up to the last element, without the separator before that; empty when nothing stands
there but a separator. -/
def leadingPart (path : Bytes) : Bytes :=
  let ahead := (path.reverse.dropWhile (· == Path.separator)).dropWhile (· != Path.separator)
  ahead.tail.reverse

variable {m : Type → Type} [Monad m] [FileSystem m]

/-- Makes a directory and those it is inside of.  Every step looks at a shorter path, so `steps`
need not exceed the length of the path.  A failure comes with the path it was met at. -/
def makeDirectoriesWithin : Nat → Bytes → m (Except (Bytes × FileError) Unit)
  | 0, path => return .error (path, .notFound)
  | steps + 1, path => do
    match ← status path with
    | .ok .directory => return .ok ()
    | .ok .file => return .error (path, .notDirectory)
    | .error _ =>
      let leading := leadingPart path
      let outer ← if leading.isEmpty then pure (.ok ()) else makeDirectoriesWithin steps leading
      match outer with
      | .error failure => return .error failure
      | .ok _ =>
        match ← makeDirectory path with
        | .ok _ => return .ok ()
        | .error failure =>
          match ← status path with
          | .ok .directory => return .ok ()
          | _ => return .error (path, failure)

def makeDirectories (path : Bytes) : m (Except (Bytes × FileError) Unit) :=
  makeDirectoriesWithin (path.length + 1) path

end FileSystem

end LegacyBasic
