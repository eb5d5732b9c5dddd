import LegacyBasic.Bytes

/-!
Slash-separated paths, taken as text: cleaning a path removes the elements that lead nowhere, and
two paths that clean to the same text name the same place.
-/

namespace LegacyBasic.Path

def separator : UInt8 := 0x2F

def isRooted (path : Bytes) : Bool := path.head? == some separator

/-- The elements of a path; empty ones do not count. -/
def elements (path : Bytes) : List Bytes :=
  (Bytes.splitOn separator path).filter fun element => !element.isEmpty

/-- One element after the elements kept so far, the last of which comes first.  A dot stays where
it is, and two dots take the last element back; at the root there is none to take back. -/
def reduceStep (rooted : Bool) (kept : List Bytes) (element : Bytes) : List Bytes :=
  if element = "." then kept
  else if element = ".." then
    match kept with
    | [] => if rooted then [] else [".."]
    | last :: before => if last = ".." then ".." :: kept else before
  else element :: kept

/-- The elements of a path without dots, and with two dots only at the front. -/
def reduce (rooted : Bool) (elements : List Bytes) : List Bytes :=
  (elements.foldl (reduceStep rooted) []).reverse

/-- The path with these elements; a path of none is the root or a dot. -/
def ofElements (rooted : Bool) (elements : List Bytes) : Bytes :=
  if rooted then "/" ++ Bytes.join "/" elements
  else if elements.isEmpty then "."
  else Bytes.join "/" elements

/-- The shortest path that leads to the same place. -/
def clean (path : Bytes) : Bytes :=
  ofElements (isRooted path) (reduce (isRooted path) (elements path))

def base (path : Bytes) : Bytes :=
  match (elements path).getLast? with
  | some element => element
  | none => if path.isEmpty then "." else "/"

/-- The cleaned path of everything up to the last separator. -/
def directory (path : Bytes) : Bytes :=
  clean (path.reverse.dropWhile (· != separator)).reverse

/-- A name without its extension, which begins at the last dot. -/
def stem (name : Bytes) : Bytes :=
  if name.contains 0x2E then ((name.reverse.dropWhile (· != 0x2E)).drop 1).reverse else name

/-- A name inside a directory, cleaned. -/
def join (directory name : Bytes) : Bytes :=
  if !directory.isEmpty then clean (Bytes.concat [directory, "/", name])
  else if name.isEmpty then []
  else clean name

end LegacyBasic.Path
