import LegacyBasic.Yaml.Node
import LegacyBasic.Yaml.Scalar

/-!
The written form of a document: block sequences and mappings indented by two, an empty sequence or
mapping in brackets.
-/

namespace LegacyBasic.Yaml.Node

def margin (indent : Nat) : Bytes := List.replicate indent 0x20

mutual

/-- A node after a key or a dash at column `indent`, with the line end after it. -/
def afterMark (indent : Nat) (dash : Bool) : Node → Bytes
  | .null => " null\n"
  | .scalar content => " " ++ Scalar.render (indent + 2) content
  | .sequence [] => " []\n"
  | .mapping [] => " \x7b\x7d\n"
  | .sequence (item :: items) =>
    let front : Bytes := if dash then " " else "\n" ++ margin (indent + 2)
    Bytes.concat [front, "-", afterMark (indent + 2) true item, itemLines (indent + 2) items]
  | .mapping ((key, value) :: entries) =>
    let front : Bytes := if dash then " " else "\n" ++ margin (indent + 2)
    Bytes.concat
      [front, key, ":", afterMark (indent + 2) false value, entryLines (indent + 2) entries]

/-- The items of a sequence, each on lines of its own. -/
def itemLines (indent : Nat) : List Node → Bytes
  | [] => []
  | item :: items =>
    Bytes.concat [margin indent, "-", afterMark indent true item, itemLines indent items]

/-- The entries of a mapping, each on lines of its own. -/
def entryLines (indent : Nat) : List (String × Node) → Bytes
  | [] => []
  | (key, value) :: entries =>
    Bytes.concat
      [margin indent, key, ":", afterMark indent false value, entryLines indent entries]

end

def render : Node → Bytes
  | .null => "null\n"
  | .scalar content => Scalar.render 0 content
  | .sequence [] => "[]\n"
  | .mapping [] => "\x7b\x7d\n"
  | .sequence items => itemLines 0 items
  | .mapping entries => entryLines 0 entries

end LegacyBasic.Yaml.Node
