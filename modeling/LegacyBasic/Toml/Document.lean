import LegacyBasic.Text.Utf8
import LegacyBasic.Toml.Line

/-!
The table that a document makes.  Lines are worked off in order.  A table that is only named on the
way to another one is implicit: it may still be opened by a header of its own, once.
-/

namespace LegacyBasic.Toml

/-- The entries with another value at a name. -/
def Table.put (name : String) (value : Value) : Table → Table
  | [] => [(name, value)]
  | (key, old) :: rest =>
    if key = name then (key, value) :: rest else (key, old) :: Table.put name value rest

def Value.isArray : Value → Bool
  | .array _ => true
  | _ => false

/-- A table under construction. -/
structure Builder where
  root : Table := []
  /-- The keys of implicit tables. -/
  implicit : List Key := []
  /-- The keys that hold an array. -/
  arrays : List Key := []
  /-- The key of the table that assignments go to. -/
  context : Key := []

/-- A step of construction; nothing when the document is at fault. -/
abbrev Build (α : Type) := StateT Builder Option α

namespace Build

/-- Changes the table that a key leads to.  A repeated table stands for its last one; anything else
than a table is a fault. -/
def modifyTable (change : Table → Option Table) : Key → Table → Option Table
  | [], table => change table
  | name :: rest, table =>
    match table.lookup name with
    | some (.table entries) => do
      return Table.put name (.table (← modifyTable change rest entries)) table
    | some (.tables items) =>
      match items.getLast? with
      | none => none
      | some last => do
        let changed ← modifyTable change rest last
        return Table.put name (.tables (items.dropLast ++ [changed])) table
    | _ => none

def tableAt : Key → Table → Option Table
  | [], table => some table
  | name :: rest, table =>
    match table.lookup name with
    | some (.table entries) => tableAt rest entries
    | some (.tables items) => items.getLast?.bind (tableAt rest)
    | _ => none

def addImplicit (key : Key) : Build Unit :=
  modify fun builder => { builder with implicit := key :: builder.implicit }

def removeImplicit (key : Key) : Build Unit :=
  modify fun builder => { builder with implicit := builder.implicit.filter (· ≠ key) }

/-- Records whether the value of a name in the current table is an array.  The empty name stands
for the table itself. -/
def setArray (name : String) (isArray : Bool) : Build Unit :=
  modify fun builder =>
    let named := if name.isEmpty then builder.context else builder.context ++ [name]
    let key := if named.isEmpty then [""] else named
    let others := builder.arrays.filter (· ≠ key)
    { builder with arrays := if isArray then key :: others else others }

/-- Gives a name in the current table its value.  A name that has one may get another only if it
holds an array that is being read, or keeps what it has if it is implicit. -/
def setValue (name : String) (value : Value) : Build Unit := do
  let builder ← get
  let key := builder.context ++ [name]
  let table ← tableAt builder.context builder.root
  let write : Build Unit := do
    let root ← modifyTable (fun table => some (Table.put name value table)) builder.context
      builder.root
    modify fun builder => { builder with root := root }
  if (table.lookup name).isNone then write
  else if builder.arrays.contains key then
    removeImplicit key
    write
  else if builder.implicit.contains key then removeImplicit key
  else failure

/-- Makes the tables on the way to a key that are missing, from the root on. -/
def openParents (done : Key) : Key → Build Unit
  | [] => return
  | name :: rest => do
    let builder ← get
    let table ← tableAt done builder.root
    let key := done ++ [name]
    if (table.lookup name).isNone then
      addImplicit key
      let addTable := fun table => some (Table.put name (.table []) table)
      let root ← modifyTable addTable done builder.root
      modify fun builder => { builder with root := root }
    let builder ← get
    let _ ← tableAt key builder.root
    openParents key rest

/-- Adds a table to those of a repeated header. -/
def appendTable (name : String) (table : Table) : Option Table :=
  match table.lookup name with
  | none => some (Table.put name (.tables [[]]) table)
  | some (.tables items) => some (Table.put name (.tables (items ++ [[]])) table)
  | some _ => none

/-- Opens the table of a key; a repeated one is a new table each time. -/
def openTable (key : Key) (repeated : Bool) : Build Unit := do
  let some name := key.getLast? | failure
  let parents := key.dropLast
  openParents [] parents
  modify fun builder => { builder with context := parents }
  if repeated then
    let builder ← get
    let root ← modifyTable (appendTable name) parents builder.root
    modify fun builder => { builder with root := root }
  else setValue name (.table [])
  modify fun builder => { builder with context := key }

/-- Opens the tables that a dotted key names, inside the current one. -/
def openDotted : Key → Build Unit
  | [] => return
  | name :: rest => do
    let key := (← get).context ++ [name]
    addImplicit key
    openTable key false
    openDotted rest

/-- The table with a value at a dotted key. -/
def putDotted (value : Value) : Key → Table → Option Table
  | [], _ => none
  | [name], table => some (Table.put name value table)
  | name :: rest, table =>
    match table.lookup name with
    | none => do return Table.put name (.table (← putDotted value rest [])) table
    | some (.table entries) => do
      return Table.put name (.table (← putDotted value rest entries)) table
    | some _ => none

mutual

/-- The value of an expression that is given to `name`.  Inline tables are built in place. -/
def value (name : String) (inArray : Bool) : Expression → Build Value
  | .scalar scalar => return scalar
  | .array items => do
    setArray name true
    return .array (← values name items)
  | .inlineTable entries => do
    let outer := (← get).context
    let key := outer ++ [name]
    addImplicit key
    openTable key inArray
    let table ← assignAll key [] entries
    modify fun builder => { builder with context := outer }
    return .table table

def values (name : String) : List Expression → Build (List Value)
  | [] => return []
  | item :: rest => do
    let first ← value name true item
    return first :: (← values name rest)

/-- Works off the entries of the inline table of a key. -/
def assignAll (context : Key) (table : Table) : List (Key × Expression) → Build Table
  | [] => return table
  | (key, expression) :: rest => do
    let some name := key.getLast? | failure
    openDotted key.dropLast
    let result ← value name false expression
    setValue name result
    setArray name result.isArray
    let table ← putDotted result key table
    modify fun builder => { builder with context := context }
    assignAll context table rest

end

def line : Line → Build Unit
  | .header key => do
    openTable key false
    setArray "" false
  | .repeatedHeader key => do
    openTable key true
    setArray "" false
  | .assignment key expression => do
    let outer := (← get).context
    let _ ← assignAll outer [] [(key, expression)]

def lines : List Line → Build Unit
  | [] => return
  | first :: rest => do
    line first
    lines rest

end Build

/-- The bytes without a byte order mark at their front. -/
def dropByteOrderMark : Bytes → Bytes
  | 0xEF :: 0xBB :: 0xBF :: rest => rest
  | 0xFF :: 0xFE :: rest => rest
  | 0xFE :: 0xFF :: rest => rest
  | bytes => bytes

/-- The table that a document makes; nothing when it is not TOML. -/
def parse? (bytes : Bytes) : Option Table := do
  let text ← Utf8.characters? (dropByteOrderMark bytes)
  let lines ← lines? text
  let (_, builder) ← (Build.lines lines).run {}
  return builder.root

end LegacyBasic.Toml
