import LegacyBasic.Path

/-!
Where outputs go: beside the source or into one directory, under the source's name with another
extension.  No output may replace a source or another output.
-/

namespace LegacyBasic.Destination

def path (source directory extension : Bytes) : Bytes :=
  let name := Path.stem (Path.base source) ++ extension
  Path.join (if directory.isEmpty then Path.directory source else directory) name

/-- Why outputs have no place. -/
inductive Conflict where
  /-- The output of this source would replace a source. -/
  | source (name destination : Bytes)
  /-- Two sources have the same output. -/
  | output (previous name destination : Bytes)
deriving DecidableEq, Repr

def Conflict.text : Conflict → Bytes
  | .source name destination =>
    Bytes.concat [name, ": output ", destination,
      " would overwrite an input, set --out or output_extension"]
  | .output previous name destination =>
    Bytes.concat [previous, " and ", name, " both write ", destination]

/-- Gives every source of a list its place; `inputs` are the sources' own places, and `claimed` the
places given so far with the source of each. -/
def assign (directory extension : Bytes) (inputs : List Bytes) (claimed : List (Bytes × Bytes)) :
    List Bytes → Except Conflict (List Bytes)
  | [] => .ok []
  | name :: rest => do
    let destination := Path.clean (path name directory extension)
    if inputs.contains destination then throw (.source name destination)
    match claimed.lookup destination with
    | some previous => throw (.output previous name destination)
    | none =>
      let others ← assign directory extension inputs ((destination, name) :: claimed) rest
      return destination :: others

/-- The places of the outputs of the sources, in order. -/
def all (names : List Bytes) (directory extension : Bytes) : Except Conflict (List Bytes) :=
  assign directory extension (names.map Path.clean) [] names

end LegacyBasic.Destination
