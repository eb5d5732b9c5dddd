import Mathlib
import LegacyBasic.Proofs.Layout
import LegacyBasic.Yaml.Node

/-!
Reading documents back.  A lexeme is scanned as its token, and a mapping says by its keys which
parts of a statement are there.  Main statement: the document of a source determines its statements
up to the places of their tokens, before and after desugaring.
-/

namespace LegacyBasic

/-- The statement with its tokens at no place: its kind and shape, which parts of it are there, and
the kind and literal of each of them. -/
def Statement.withoutPlaces : Statement → Statement :=
  mapTokens Token.withoutPlace Token.withoutPlace

namespace Yaml.Node

/-! ### The reader -/

/-- The entry of a mapping with this key. -/
def get? (key : String) : Node → Option Node
  | .mapping entries => entries.lookup key
  | _ => none

/-- The token whose lexeme a scalar holds. -/
def token? : Node → Option Token
  | .scalar content => (Scan.contents content).tokens.head?
  | _ => none

/-- A part that is always there. -/
def required? (node : Node) (key : String) : Option Token := (node.get? key).bind token?

/-- A part that may have been left out. -/
def optional? (node : Node) (key : String) : Option (Option Token) := (node.get? key).mapM token?

/-- The members of a list, from its entry if it has one. -/
def members? {α : Type} (read : Node → Option α) : Option Node → Option (List α)
  | none => some []
  | some (.sequence items) => items.mapM read
  | some _ => none

/-- A list, which has no entry when it is empty. -/
def list? {α : Type} (read : Node → Option α) (node : Node) (key : String) : Option (List α) :=
  members? read (node.get? key)

def field? (node : Node) : Option Field := do
  return ⟨← node.required? "name", ← node.required? "type"⟩

def enumerator? (node : Node) : Option Enumerator := do
  return ⟨← node.required? "name", ← node.optional? "value"⟩

def argument? (node : Node) : Option Argument := do
  return ⟨← node.optional? "modifier", ← node.required? "name", ← node.required? "type"⟩

def labels : List String :=
  ["type", "type_attribute", "enum", "enum_attribute", "variable", "constant", "subroutine",
    "function", "argument", "exit", "assignment", "return", "option", "attribute"]

def label? (node : Node) : Option String :=
  match node.get? "kind" with
  | some (.scalar content) => labels.find? fun label => Bytes.ofText label = content
  | _ => none

/-- The statement with this label, from its mapping and the statements of its body. -/
def assemble? (node : Node) (body : List Statement) (label : String) : Option Statement :=
  match label with
  | "type" => do return .record (← node.required? "name") (← node.list? field? "attributes")
  | "type_attribute" => do return .field (← node.field?)
  | "enum" => do
    return .enumeration (← node.optional? "scope") (← node.required? "name")
      (← node.list? enumerator? "attributes")
  | "enum_attribute" => do return .enumerator (← node.enumerator?)
  | "variable" => do
    return .variableDecl (← node.required? "scope") (← node.required? "name")
      (← node.required? "type")
  | "constant" => do
    return .constantDecl (← node.required? "scope") (← node.required? "name")
      (← node.optional? "type") (← node.optional? "length") (← node.required? "value")
  | "subroutine" => do
    return .subroutine (← node.required? "scope") (← node.required? "name")
      (← node.list? argument? "arguments") body
  | "function" => do
    return .function (← node.required? "scope") (← node.required? "name")
      (← node.list? argument? "arguments") (← node.optional? "returns") body
  | "argument" => do return .argument (← node.argument?)
  | "exit" => do return .exitLine (← node.required? "block")
  | "assignment" => do
    return .assignment (← node.required? "left") (← node.required? "right")
  | "return" => do return .returnLine (← node.optional? "value")
  | "option" => do
    return .optionLine (← node.required? "config") (← node.optional? "value")
  | "attribute" => do
    return .attributeLine (← node.required? "name") (← node.required? "value")
  | _ => none

mutual

/-- The statement that a node stands for. -/
def statement? : Node → Option Statement
  | .null => some .absent
  | .mapping entries => do
    assemble? (.mapping entries) (← body? entries) (← label? (.mapping entries))
  | _ => none

/-- The statements under the key of a body, or none where it is missing. -/
def body? : List (String × Node) → Option (List Statement)
  | [] => some []
  | (key, node) :: entries => if key = "body" then sequence? node else body? entries

def sequence? : Node → Option (List Statement)
  | .sequence items => statements? items
  | _ => none

def statements? : List Node → Option (List Statement)
  | [] => some []
  | node :: nodes => do return (← statement? node) :: (← statements? nodes)

end

/-! ### Entries -/

theorem lookup_entry (key other : String) (node : Node) (entries : List (String × Node)) :
    ((other, node) :: entries).lookup key =
      if key = other then some node else entries.lookup key := by
  by_cases hkey : key = other
  · simp [hkey]
  · rw [List.lookup_cons, beq_false_of_ne hkey, if_neg hkey]

@[simp]
theorem lookup_append (key : String) (left right : List (String × Node)) :
    (left ++ right).lookup key = (left.lookup key).or (right.lookup key) := by
  induction left with
  | nil => simp
  | cons entry left ih =>
    obtain ⟨other, node⟩ := entry
    rw [List.cons_append, lookup_entry, lookup_entry, ih]
    split <;> rfl

/-- The label has a key of its own, and every other key leads to a part. -/
@[simp]
theorem get?_labelled (key label : String) (parts : List (List (String × Node))) :
    (labelled label parts).get? key =
      if key = "kind" then some (.scalar label) else parts.flatten.lookup key := by
  rw [labelled, get?, lookup_entry]

@[simp]
theorem lookup_required (key other : String) (token : Token) :
    (required other token).lookup key = if key = other then some (ofToken token) else none := by
  rw [required, lookup_entry, List.lookup_nil]

@[simp]
theorem lookup_optional (key other : String) (token : Option Token) :
    (optional other token).lookup key = if key = other then token.map ofToken else none := by
  cases token with
  | none => simp [optional]
  | some token => rw [optional, lookup_entry, List.lookup_nil, Option.map_some]

/-- The node of a list that has an entry. -/
def listed? : List Node → Option Node
  | [] => none
  | item :: items => some (.sequence (item :: items))

@[simp]
theorem lookup_list (key other : String) (items : List Node) :
    (list other items).lookup key = if key = other then listed? items else none := by
  cases items with
  | nil => simp [list, listed?]
  | cons item items => rw [list, lookup_entry, List.lookup_nil, listed?]

@[simp]
theorem members?_none {α : Type} (read : Node → Option α) : members? read none = some [] := rfl

@[simp]
theorem members?_listed? {α : Type} (read : Node → Option α) (items : List Node) :
    members? read (listed? items) = items.mapM read := by
  cases items <;> rfl

theorem statements?_eq_mapM (nodes : List Node) : statements? nodes = nodes.mapM statement? := by
  induction nodes with
  | nil => rfl
  | cons node nodes ih => simp [statements?, ih]

/-- A body is read like any other list; it has a recursion of its own only to make the reader go
down the tree. -/
theorem body?_eq (entries : List (String × Node)) :
    body? entries = members? statement? (entries.lookup "body") := by
  induction entries with
  | nil => rfl
  | cons entry entries ih =>
    obtain ⟨key, node⟩ := entry
    rw [body?, lookup_entry, ih]
    by_cases hkey : key = "body"
    · rw [if_pos hkey, if_pos hkey.symm]
      cases node with
      | sequence items => exact statements?_eq_mapM items
      | _ => rfl
    · rw [if_neg hkey, if_neg (Ne.symm hkey)]

theorem label?_labelled {label : String} (h : label ∈ labels)
    (parts : List (List (String × Node))) : (labelled label parts).label? = some label := by
  -- No two labels have the same text, so the one that was written is found.
  have hfind : ∀ label ∈ labels,
      labels.find? (fun other => Bytes.ofText other = Bytes.ofText label) = some label := by
    decide +kernel
  rw [label?, get?_labelled, if_pos rfl]
  exact hfind label h

/-- A labelled mapping is put together from its parts and its body. -/
theorem statement?_labelled {label : String} (h : label ∈ labels)
    (parts : List (List (String × Node))) :
    (labelled label parts).statement? =
      (members? statement? (parts.flatten.lookup "body")).bind fun body =>
        assemble? (labelled label parts) body label := by
  have hlabel := label?_labelled h parts
  rw [labelled] at hlabel ⊢
  rw [statement?, body?_eq, lookup_entry, if_neg (by decide), hlabel]
  rfl

/-! ### Parts are read back -/

@[simp]
theorem token?_ofToken {token : Token} (h : token.WellFormed) :
    token? (ofToken token) = some token.withoutPlace := by
  rw [ofToken, token?, Scan.contents_lexeme_of_wellFormed h]
  rfl

theorem mapM_ofToken {token : Option Token} (h : ∀ part ∈ token, part.WellFormed) :
    (token.map ofToken).mapM token? = some (token.map Token.withoutPlace) := by
  cases token with
  | none => rfl
  | some token => simp [token?_ofToken (h token rfl)]

/-- A list is read back where each member of it is. -/
theorem mapM_map {α : Type} {read : Node → Option α} {write : α → Node} {clear : α → α}
    {items : List α} (h : ∀ item ∈ items, read (write item) = some (clear item)) :
    (items.map write).mapM read = some (items.map clear) := by
  induction items with
  | nil => rfl
  | cons item items ih =>
    obtain ⟨hitem, hitems⟩ := List.forall_mem_cons.1 h
    simp [hitem, ih hitems]

theorem field?_ofField {field : Field} (h : ∀ token ∈ Slot.parts field.slots, token.WellFormed) :
    field? (ofField field) = some (field.mapTokens Token.withoutPlace) := by
  obtain ⟨hname, hkind⟩ : field.name.WellFormed ∧ field.kind.WellFormed := by
    simpa [Field.slots] using h
  simp [ofField, field?, required?, hname, hkind, Field.mapTokens]

theorem enumerator?_ofEnumerator {member : Enumerator}
    (h : ∀ token ∈ Slot.parts member.slots, token.WellFormed) :
    enumerator? (ofEnumerator member) = some (member.mapTokens Token.withoutPlace) := by
  obtain ⟨hname, hvalue⟩ :
      member.name.WellFormed ∧ ∀ token ∈ member.value, token.WellFormed := by
    simpa [Enumerator.slots] using h
  simp [ofEnumerator, enumerator?, required?, optional?, hname, mapM_ofToken hvalue,
    Enumerator.mapTokens]

theorem argument?_ofArgument {argument : Argument}
    (h : ∀ token ∈ Slot.parts argument.slots, token.WellFormed) :
    argument? (ofArgument argument) = some (argument.mapTokens Token.withoutPlace) := by
  simp only [Argument.slots, Slot.parts_append, Slot.parts_optional, Slot.parts_part,
    Slot.parts_mark, Slot.parts_nil, List.forall_mem_append, List.forall_mem_cons,
    Option.mem_toList] at h
  obtain ⟨hmodifier, hname, hkind, _⟩ := h
  simp [ofArgument, argument?, required?, optional?, mapM_ofToken hmodifier, hname, hkind,
    Argument.mapTokens]

theorem wellFormed_of_signature {scope name : Token} {word : Keyword} {arguments : List Argument}
    (h : ∀ token ∈ Slot.parts (Slot.signature scope word name arguments), token.WellFormed) :
    scope.WellFormed ∧ name.WellFormed ∧
      ∀ argument ∈ arguments, ∀ token ∈ Slot.parts argument.slots, token.WellFormed := by
  simp only [Slot.signature, Slot.parts_part, Slot.parts_mark, Slot.parts_append, Slot.parts_nil,
    List.append_nil, List.forall_mem_cons, Argument.slotsAll, Slot.mem_parts_flatMap] at h
  obtain ⟨hscope, hname, harguments⟩ := h
  refine ⟨hscope, hname, fun argument hmem token htoken => ?_⟩
  exact harguments token ⟨argument, hmem, by simpa using htoken⟩

mutual

/-- A statement whose tokens are well formed is read back but for their places. -/
theorem statement?_ofStatement : ∀ statement : Statement,
    (∀ token ∈ Slot.parts statement.slots, token.WellFormed) →
      statement? (ofStatement statement) = some statement.withoutPlaces
  | .record name fields, h => by
    simp only [Statement.slots, Slot.closing, Slot.parts_append, Slot.parts_part, Slot.parts_mark,
      Slot.parts_nil, List.append_nil, List.forall_mem_append, List.forall_mem_cons,
      Slot.mem_parts_flatMap] at h
    obtain ⟨⟨hname, _⟩, hfields⟩ := h
    have hlist := mapM_map fun field hmem =>
      field?_ofField fun token htoken => hfields token ⟨field, hmem, htoken⟩
    rw [ofStatement, statement?_labelled (show "type" ∈ labels by decide)]
    simp [assemble?, required?, list?, hname, hlist, Statement.withoutPlaces, Statement.mapTokens]
  | .field member, h => by
    have hmember := field?_ofField h
    rw [ofField] at hmember
    rw [ofStatement, ofField, statement?_labelled (show "type_attribute" ∈ labels by decide)]
    simp [assemble?, hmember, Statement.withoutPlaces, Statement.mapTokens]
  | .enumeration scope name members, h => by
    simp only [Statement.slots, Slot.closing, Slot.parts_append, Slot.parts_part, Slot.parts_mark,
      Slot.parts_nil, Slot.parts_optional, List.append_nil, List.forall_mem_append,
      List.forall_mem_cons, Slot.mem_parts_flatMap, Option.mem_toList] at h
    obtain ⟨⟨hscope, hname, _⟩, hmembers⟩ := h
    have hlist := mapM_map fun member hmem =>
      enumerator?_ofEnumerator fun token htoken => hmembers token ⟨member, hmem, htoken⟩
    rw [ofStatement, statement?_labelled (show "enum" ∈ labels by decide)]
    simp [assemble?, required?, optional?, list?, mapM_ofToken hscope, hname, hlist,
      Statement.withoutPlaces, Statement.mapTokens]
  | .enumerator member, h => by
    have hmember := enumerator?_ofEnumerator h
    rw [ofEnumerator] at hmember
    rw [ofStatement, ofEnumerator, statement?_labelled (show "enum_attribute" ∈ labels by decide)]
    simp [assemble?, hmember, Statement.withoutPlaces, Statement.mapTokens]
  | .variableDecl scope name kind, h => by
    obtain ⟨hscope, hname, hkind⟩ : scope.WellFormed ∧ name.WellFormed ∧ kind.WellFormed := by
      simpa [Statement.slots] using h
    rw [ofStatement, statement?_labelled (show "variable" ∈ labels by decide)]
    simp [assemble?, required?, hscope, hname, hkind, Statement.withoutPlaces, Statement.mapTokens]
  | .constantDecl scope name kind length value, h => by
    simp only [Statement.slots, Slot.parts_append, Slot.parts_part, Slot.parts_mark, Slot.parts_nil,
      Slot.parts_following, List.forall_mem_append, List.forall_mem_cons, Option.mem_toList] at h
    obtain ⟨⟨⟨⟨hscope, hname, _⟩, hkind⟩, hlength⟩, hvalue, _⟩ := h
    rw [ofStatement, statement?_labelled (show "constant" ∈ labels by decide)]
    simp [assemble?, required?, optional?, hscope, hname, mapM_ofToken hkind, mapM_ofToken hlength,
      hvalue, Statement.withoutPlaces, Statement.mapTokens]
  | .subroutine scope name arguments body, h => by
    simp only [Statement.slots, Slot.parts_append, List.forall_mem_append] at h
    obtain ⟨⟨hsignature, hbody⟩, _⟩ := h
    obtain ⟨hscope, hname, harguments⟩ := wellFormed_of_signature hsignature
    have hlist := mapM_map fun argument hmem => argument?_ofArgument (harguments argument hmem)
    rw [ofStatement, statement?_labelled (show "subroutine" ∈ labels by decide)]
    simp [assemble?, required?, list?, hscope, hname, hlist, mapM_ofStatements body hbody,
      Statement.withoutPlaces, Statement.mapTokens]
  | .function scope name arguments returns body, h => by
    simp only [Statement.slots, Slot.parts_append, Slot.parts_following, List.forall_mem_append,
      Option.mem_toList] at h
    obtain ⟨⟨⟨hsignature, hreturns⟩, hbody⟩, _⟩ := h
    obtain ⟨hscope, hname, harguments⟩ := wellFormed_of_signature hsignature
    have hlist := mapM_map fun argument hmem => argument?_ofArgument (harguments argument hmem)
    rw [ofStatement, statement?_labelled (show "function" ∈ labels by decide)]
    simp [assemble?, required?, optional?, list?, hscope, hname, mapM_ofToken hreturns, hlist,
      mapM_ofStatements body hbody, Statement.withoutPlaces, Statement.mapTokens]
  | .argument parameter, h => by
    have hparameter := argument?_ofArgument h
    rw [ofArgument] at hparameter
    rw [ofStatement, ofArgument, statement?_labelled (show "argument" ∈ labels by decide)]
    simp [assemble?, hparameter, Statement.withoutPlaces, Statement.mapTokens]
  | .exitLine block, h => by
    obtain hblock : block.WellFormed := by simpa [Statement.slots] using h
    rw [ofStatement, statement?_labelled (show "exit" ∈ labels by decide)]
    simp [assemble?, required?, hblock, Statement.withoutPlaces, Statement.mapTokens]
  | .assignment left right, h => by
    obtain ⟨hleft, hright⟩ : left.WellFormed ∧ right.WellFormed := by
      simpa [Statement.slots] using h
    rw [ofStatement, statement?_labelled (show "assignment" ∈ labels by decide)]
    simp [assemble?, required?, hleft, hright, Statement.withoutPlaces, Statement.mapTokens]
  | .returnLine value, h => by
    have hvalue : ∀ token ∈ value, token.WellFormed := by simpa [Statement.slots] using h
    rw [ofStatement, statement?_labelled (show "return" ∈ labels by decide)]
    simp [assemble?, optional?, mapM_ofToken hvalue, Statement.withoutPlaces, Statement.mapTokens]
  | .optionLine config value, h => by
    obtain ⟨hconfig, hvalue⟩ : config.WellFormed ∧ ∀ token ∈ value, token.WellFormed := by
      simpa [Statement.slots] using h
    rw [ofStatement, statement?_labelled (show "option" ∈ labels by decide)]
    simp [assemble?, required?, optional?, hconfig, mapM_ofToken hvalue, Statement.withoutPlaces,
      Statement.mapTokens]
  | .attributeLine name value, h => by
    obtain ⟨hname, hvalue⟩ : name.WellFormed ∧ value.WellFormed := by
      simpa [Statement.slots] using h
    rw [ofStatement, statement?_labelled (show "attribute" ∈ labels by decide)]
    simp [assemble?, required?, hname, hvalue, Statement.withoutPlaces, Statement.mapTokens]
  | .absent, _ => rfl

theorem mapM_ofStatements : ∀ statements : List Statement,
    (∀ token ∈ Slot.parts (Statement.slotsAll statements), token.WellFormed) →
      (ofStatements statements).mapM statement? =
        some (statements.map Statement.withoutPlaces)
  | [], _ => rfl
  | statement :: rest, h => by
    rw [Statement.slotsAll, Slot.parts_append, List.forall_mem_append] at h
    obtain ⟨hfirst, hrest⟩ := h
    simp [ofStatements, statement?_ofStatement statement hfirst, mapM_ofStatements rest hrest]

end

/-! ### Places are not written -/

@[simp]
theorem required_withoutPlace (key : String) (token : Token) :
    required key token.withoutPlace = required key token := rfl

@[simp]
theorem optional_withoutPlace (key : String) (token : Option Token) :
    optional key (token.map Token.withoutPlace) = optional key token := by
  cases token <;> rfl

@[simp]
theorem ofField_comp_mapTokens : ofField ∘ Field.mapTokens Token.withoutPlace = ofField := rfl

@[simp]
theorem ofEnumerator_comp_mapTokens :
    ofEnumerator ∘ Enumerator.mapTokens Token.withoutPlace = ofEnumerator := by
  funext member
  simp [ofEnumerator, Enumerator.mapTokens]

@[simp]
theorem ofArgument_comp_mapTokens :
    ofArgument ∘ Argument.mapTokens Token.withoutPlace = ofArgument := by
  funext argument
  simp [ofArgument, Argument.mapTokens]

mutual

theorem ofStatement_withoutPlaces : ∀ statement : Statement,
    ofStatement statement.withoutPlaces = ofStatement statement
  | .subroutine scope name arguments body => by
    have hbody := ofStatements_withoutPlaces body
    rw [Statement.withoutPlaces] at hbody ⊢
    simp [Statement.mapTokens, ofStatement, hbody]
  | .function scope name arguments returns body => by
    have hbody := ofStatements_withoutPlaces body
    rw [Statement.withoutPlaces] at hbody ⊢
    simp [Statement.mapTokens, ofStatement, hbody]
  | .enumerator member => congrFun ofEnumerator_comp_mapTokens member
  | .argument parameter => congrFun ofArgument_comp_mapTokens parameter
  | .record _ _ | .field _ | .enumeration _ _ _ | .variableDecl _ _ _ | .constantDecl _ _ _ _ _
  | .exitLine _ | .assignment _ _ | .returnLine _ | .optionLine _ _ | .attributeLine _ _
  | .absent => by
    simp [Statement.withoutPlaces, Statement.mapTokens, ofStatement, Field.mapTokens, ofField]

theorem ofStatements_withoutPlaces : ∀ statements : List Statement,
    ofStatements (statements.map Statement.withoutPlaces) = ofStatements statements
  | [] => rfl
  | statement :: rest => by
    rw [List.map_cons, ofStatements, ofStatements, ofStatement_withoutPlaces statement,
      ofStatements_withoutPlaces rest]

end

end Yaml.Node

/-- The tokens of a statement stay well formed when its returns are expanded. -/
theorem Statement.wellFormed_expanded {statement : Statement}
    (h : ∀ token ∈ Slot.parts statement.slots, token.WellFormed) :
    ∀ token ∈ Slot.parts statement.expanded.slots, token.WellFormed := by
  intro token htoken
  rcases mem_parts_expanded htoken with hmem | rfl
  · exact h token hmem
  · rfl

/-- The statements of a source can be desugared, and before and after that they are made of
well-formed tokens. -/
theorem Source.wellFormed_of_parse {content : Bytes} {statements : List Statement} {remaining : Nat}
    (h : Grammar.parse (Scan.ofSource content).tokens = .ok (statements, remaining)) :
    (∀ statement ∈ statements, ∀ token ∈ Slot.parts statement.slots, token.WellFormed) ∧
      ∃ desugared, desugar statements = .ok desugared ∧
        ∀ statement ∈ desugared, ∀ token ∈ Slot.parts statement.slots, token.WellFormed := by
  obtain ⟨after, hparse, _⟩ := Grammar.parse_eq_ok_iff.1 h
  have hform : ∀ statement ∈ statements, ∀ token ∈ Slot.parts statement.slots,
      token.WellFormed := by
    intro statement hmem token htoken
    exact Scan.wellFormed_of_mem_tokens (mem_tokens_of_parse hparse hmem htoken)
  obtain ⟨desugared, hdesugar⟩ := Grammar.exists_desugar_of_parse h
  refine ⟨hform, desugared, hdesugar, ?_⟩
  intro replaced hmem
  obtain ⟨_, rfl⟩ := desugar_eq_ok_iff.1 hdesugar
  obtain ⟨statement, hstatement, rfl⟩ := List.mem_map.1 hmem
  exact Statement.wellFormed_expanded (hform statement hstatement)

namespace Yaml

/-- Statements made of well-formed tokens are read back from their document but for the places. -/
theorem sequence?_document {statements : List Statement}
    (h : ∀ statement ∈ statements, ∀ token ∈ Slot.parts statement.slots, token.WellFormed) :
    Node.sequence? (document statements) = some (statements.map Statement.withoutPlaces) := by
  have hall : ∀ token ∈ Slot.parts (Statement.slotsAll statements), token.WellFormed := by
    intro token htoken
    rw [Statement.slotsAll_eq_flatMap, Slot.mem_parts_flatMap] at htoken
    obtain ⟨statement, hmem, hpart⟩ := htoken
    exact h statement hmem token hpart
  rw [document, Node.sequence?, Node.statements?_eq_mapM]
  exact Node.mapM_ofStatements statements hall

theorem document_withoutPlaces (statements : List Statement) :
    document (statements.map Statement.withoutPlaces) = document statements := by
  rw [document, Node.ofStatements_withoutPlaces, document]

/-- Statements made of well-formed tokens have one document exactly when they differ in places
only. -/
theorem document_eq_iff {left right : List Statement}
    (hleft : ∀ statement ∈ left, ∀ token ∈ Slot.parts statement.slots, token.WellFormed)
    (hright : ∀ statement ∈ right, ∀ token ∈ Slot.parts statement.slots, token.WellFormed) :
    document left = document right ↔
      left.map Statement.withoutPlaces = right.map Statement.withoutPlaces := by
  constructor
  · intro h
    have hread := sequence?_document hleft
    rw [h, sequence?_document hright] at hread
    exact (Option.some.inj hread).symm
  · intro h
    rw [← document_withoutPlaces left, h, document_withoutPlaces right]

/-- Documents lose nothing but places.  Two sources that can be read have the same document exactly
when their statements are the same but for the places of their tokens, and both can be desugared,
where the same holds of what comes of them. -/
theorem document_eq_iff_of_parse {first second : Bytes} {left right : List Statement}
    {leftRemaining rightRemaining : Nat}
    (hleft : Grammar.parse (Scan.ofSource first).tokens = .ok (left, leftRemaining))
    (hright : Grammar.parse (Scan.ofSource second).tokens = .ok (right, rightRemaining)) :
    (document left = document right ↔
        left.map Statement.withoutPlaces = right.map Statement.withoutPlaces) ∧
      ∃ leftDesugared rightDesugared,
        desugar left = .ok leftDesugared ∧ desugar right = .ok rightDesugared ∧
          (document leftDesugared = document rightDesugared ↔
            leftDesugared.map Statement.withoutPlaces =
              rightDesugared.map Statement.withoutPlaces) := by
  obtain ⟨hfirst, leftDesugared, hleftDesugar, hfirstDesugared⟩ := Source.wellFormed_of_parse hleft
  obtain ⟨hsecond, rightDesugared, hrightDesugar, hsecondDesugared⟩ :=
    Source.wellFormed_of_parse hright
  exact ⟨document_eq_iff hfirst hsecond, leftDesugared, rightDesugared, hleftDesugar, hrightDesugar,
    document_eq_iff hfirstDesugared hsecondDesugared⟩

/-- One function laid out in two ways.  The trees differ in their places only, so their documents
are the same, and so are those of the expanded return. -/
theorem document_eq_iff_of_parse_two_layouts :
    let first : Bytes := "Private Function f() As Long Return 1 End Function"
    let second : Bytes := "private\n\tFUNCTION f( )\nas Long\nreturn 1\nEND function"
    let name (place : Position) : Token := ⟨.identifier, "f", place⟩
    let value (place : Position) : Token := ⟨.number, "1", place⟩
    let function (scope called type : Position) (body : List Statement) : List Statement :=
      [.function ⟨.keyword .privateWord, [], scope⟩ (name called) []
        (some ⟨.identifier, "Long", type⟩) body]
    let expanded (called returned : Position) : List Statement :=
      [.assignment (name called) (value returned),
        .exitLine (.unplaced (.keyword .functionWord) [])]
    let left := function ⟨1, 1⟩ ⟨1, 18⟩ ⟨1, 25⟩
    let right := function ⟨1, 1⟩ ⟨2, 11⟩ ⟨3, 4⟩
    let leftRead := left [.returnLine (some (value ⟨1, 37⟩))]
    let rightRead := right [.returnLine (some (value ⟨4, 8⟩))]
    Grammar.parse (Scan.ofSource first).tokens = .ok (leftRead, 0) ∧
      Grammar.parse (Scan.ofSource second).tokens = .ok (rightRead, 0) ∧
      leftRead ≠ rightRead ∧ document leftRead = document rightRead ∧
      document (left (expanded ⟨1, 18⟩ ⟨1, 37⟩)) = document (right (expanded ⟨2, 11⟩ ⟨4, 8⟩)) := by
  intro first second name value function expanded left right leftRead rightRead
  let tokens (a b c d e f g h i j k : Position) : List Token :=
    [⟨.keyword .privateWord, [], a⟩, ⟨.keyword .functionWord, [], b⟩, name c,
      ⟨.symbol .leftParen, [], d⟩, ⟨.symbol .rightParen, [], e⟩, ⟨.keyword .asWord, [], f⟩,
      ⟨.identifier, "Long", g⟩, ⟨.keyword .returnWord, [], h⟩, value i, ⟨.keyword .endWord, [], j⟩,
      ⟨.keyword .functionWord, [], k⟩]
  have hparse (a b c d e f g h i j k : Position) : Grammar.parse (tokens a b c d e f g h i j k) =
      .ok (function a c g [.returnLine (some (value i))], 0) := by
    cbv
  have hfirst : (Scan.ofSource first).tokens = tokens ⟨1, 1⟩ ⟨1, 9⟩ ⟨1, 18⟩ ⟨1, 19⟩ ⟨1, 20⟩ ⟨1, 22⟩
      ⟨1, 25⟩ ⟨1, 30⟩ ⟨1, 37⟩ ⟨1, 39⟩ ⟨1, 43⟩ := by
    decide +kernel
  have hsecond : (Scan.ofSource second).tokens = tokens ⟨1, 1⟩ ⟨2, 2⟩ ⟨2, 11⟩ ⟨2, 12⟩ ⟨2, 14⟩ ⟨3, 1⟩
      ⟨3, 4⟩ ⟨4, 1⟩ ⟨4, 8⟩ ⟨5, 1⟩ ⟨5, 5⟩ := by
    decide +kernel
  have hleft : Grammar.parse (Scan.ofSource first).tokens = .ok (leftRead, 0) := by
    rw [hfirst, hparse]
  have hright : Grammar.parse (Scan.ofSource second).tokens = .ok (rightRead, 0) := by
    rw [hsecond, hparse]
  obtain ⟨hread, leftDesugared, rightDesugared, hleftDesugar, hrightDesugar, hdesugared⟩ :=
    document_eq_iff_of_parse hleft hright
  obtain rfl : left (expanded ⟨1, 18⟩ ⟨1, 37⟩) = leftDesugared := Except.ok.inj hleftDesugar
  obtain rfl : right (expanded ⟨2, 11⟩ ⟨4, 8⟩) = rightDesugared := Except.ok.inj hrightDesugar
  exact ⟨hleft, hright, by simp [leftRead, rightRead, left, right, function, value], hread.2 rfl,
    hdesugared.2 rfl⟩

end Yaml

end LegacyBasic
