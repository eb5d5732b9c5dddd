import LegacyBasic.FileSystem

/-!
A tree of files in memory.  Places are lists of names from the root; a path is followed name by
name, and every name but the last has to lead to a directory.

Whether a file can be read, and how far a write to it gets, the tree tells for every place; a write
that breaks off leaves a front part of what it had to write, and any other access that fails leaves
the tree as it was.  Three things are simpler than on a disk: every place is a file of its own and
nothing links to it from elsewhere, every directory can be searched, and nothing but the accesses
themselves changes the tree.
-/

namespace LegacyBasic

inductive FileEntry where
  | file (content : Bytes)
  | directory
deriving DecidableEq, Repr

/-- Why a place cannot be written to. -/
inductive WriteFault where
  /-- The place cannot be opened for writing. -/
  | refused (reason : Bytes)
  /-- The file is emptied and takes `kept` bytes before `operation` fails. -/
  | brokenOff (kept : Nat) (operation reason : Bytes)
deriving DecidableEq, Repr

/-- A tree of files and the place that relative paths start from.  The root is always there. -/
structure FileTree where
  working : List Bytes := []
  entries : List (List Bytes × FileEntry) := []
  /-- The files that cannot be read, and why. -/
  unreadable : List (List Bytes × Bytes) := []
  /-- The places that cannot be written to. -/
  unwritable : List (List Bytes × WriteFault) := []
deriving DecidableEq, Repr

namespace FileTree

/-- What stands at a place, if anything does. -/
def entry? (tree : FileTree) (place : List Bytes) : Option FileEntry :=
  if place.isEmpty then some .directory else tree.entries.lookup place

def put (place : List Bytes) (entry : FileEntry) :
    List (List Bytes × FileEntry) → List (List Bytes × FileEntry)
  | [] => [(place, entry)]
  | (key, value) :: rest =>
    if key = place then (place, entry) :: rest else (key, value) :: put place entry rest

def insert (tree : FileTree) (place : List Bytes) (entry : FileEntry) : FileTree :=
  { tree with entries := put place entry tree.entries }

/-- Makes the directories that are missing on the way to a place. -/
def ensureDirectory (tree : FileTree) (place : List Bytes) : FileTree :=
  (List.range (place.length + 1)).foldl
    (fun tree count =>
      if (tree.entry? (place.take count)).isSome then tree
      else tree.insert (place.take count) .directory)
    tree

/-- The names of a path; a separator at its end asks for a directory, as a dot does. -/
def names (path : Bytes) : List Bytes :=
  let elements := Path.elements path
  if path.getLast? = some Path.separator then elements ++ [Bytes.ofText "."] else elements

/-- The place that names lead to from a place.  The last name need not lead to anything. -/
def walk (tree : FileTree) (place : List Bytes) : List Bytes → Except FileError (List Bytes)
  | [] => .ok place
  | name :: rest =>
    match tree.entry? place with
    | none => .error .notFound
    | some (.file _) => .error .notDirectory
    | some .directory =>
      if name = "." then tree.walk place rest
      else if name = ".." then tree.walk place.dropLast rest
      else if 255 < name.length then .error .nameTooLong
      else tree.walk (place ++ [name]) rest

def locate (tree : FileTree) (path : Bytes) : Except FileError (List Bytes) :=
  if path.contains 0 then .error .invalidPath
  else if path.isEmpty then .error .notFound
  else if 4096 ≤ path.length then .error .nameTooLong
  else tree.walk (if Path.isRooted path then [] else tree.working) (names path)

def resolve (tree : FileTree) (path : Bytes) : Except FileError FileEntry := do
  match tree.entry? (← tree.locate path) with
  | some entry => return entry
  | none => throw .notFound

/-- The content of the file that a path leads to. -/
def read (tree : FileTree) (path : Bytes) : Except FileError Bytes := do
  let place ← tree.locate path
  match tree.entry? place with
  | none => throw .notFound
  | some .directory => throw .isDirectory
  | some (.file content) =>
    match tree.unreadable.lookup place with
    | some reason => throw (.other reason)
    | none => return content

/-- Gives the file that a path leads to another content, or a front part of it where the write
breaks off. -/
def write (path content : Bytes) : StateM FileTree (Except FileError Unit) := fun tree =>
  match tree.locate path with
  | .error error => (.error error, tree)
  | .ok place =>
    match tree.entry? place, tree.unwritable.lookup place with
    | some .directory, _ => (.error .isDirectory, tree)
    | _, none => (.ok (), tree.insert place (.file content))
    | _, some (.refused reason) => (.error (.other reason), tree)
    | _, some (.brokenOff kept operation reason) =>
      (.error (.brokenOff operation reason), tree.insert place (.file (content.take kept)))

/-- The tree with a new directory where a path leads to. -/
def makeDirectory (tree : FileTree) (path : Bytes) : Except FileError FileTree := do
  let trimmed := (path.reverse.dropWhile (· == Path.separator)).reverse
  if trimmed.isEmpty then throw (if path.isEmpty then .notFound else .alreadyExists)
  let place ← tree.locate trimmed
  match tree.entry? place, tree.unwritable.lookup place with
  | some _, _ => throw .alreadyExists
  | none, some (.refused reason) => throw (.other reason)
  | none, _ => return tree.insert place .directory

instance : FileSystem (StateM FileTree) where
  status path := fun tree =>
    ((tree.resolve path).map fun
      | .file _ => .file
      | .directory => .directory, tree)
  read path := fun tree => (tree.read path, tree)
  makeDirectory path := fun tree =>
    match tree.makeDirectory path with
    | .ok changed => (.ok (), changed)
    | .error error => (.error error, tree)
  write := write

end FileTree

end LegacyBasic
