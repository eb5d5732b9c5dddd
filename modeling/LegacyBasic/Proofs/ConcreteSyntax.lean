import LegacyBasic.Grammar.Productions

/-!
The concrete form of statements.  A statement is written as a row of slots: the tokens it keeps, the
keywords and symbols it does not keep, and the places where a comma may stand.  A token list spells
the statement when it fills the slots in order and holds nothing else.
-/

namespace LegacyBasic

/-- One place of the concrete form of a statement. -/
inductive Slot where
  /-- A token that the statement keeps. -/
  | part (token : Token)
  /-- A keyword or symbol that the statement does not keep. -/
  | mark (kind : Kind)
  /-- The place after an argument, where a comma may stand. -/
  | comma
deriving DecidableEq, Repr

/-- The token lists that fill a row of slots.  A kept token stands there as it is, a mark is any
token of its kind. -/
inductive Spells : List Slot → List Token → Prop where
  | nil : Spells [] []
  | part {slots : List Slot} {tokens : List Token} (token : Token) :
      Spells slots tokens → Spells (.part token :: slots) (token :: tokens)
  | mark {slots : List Slot} {tokens : List Token} {token : Token} {kind : Kind} :
      token.kind = kind → Spells slots tokens → Spells (.mark kind :: slots) (token :: tokens)
  | noComma {slots : List Slot} {tokens : List Token} :
      Spells slots tokens → Spells (.comma :: slots) tokens
  | comma {slots : List Slot} {tokens : List Token} {token : Token} :
      token.kind = .symbol .comma → Spells slots tokens →
        Spells (.comma :: slots) (token :: tokens)

namespace Slot

/-- The slot of a part that may be left out. -/
def optional : Option Token → List Slot
  | none => []
  | some token => [part token]

/-- The slots of a part after its mark, or none. -/
def following (kind : Kind) : Option Token → List Slot
  | none => []
  | some token => [mark kind, part token]

/-- The token that a slot keeps. -/
def part? : Slot → Option Token
  | part token => some token
  | _ => none

def parts (slots : List Slot) : List Token := slots.filterMap part?

@[simp]
theorem parts_nil : parts [] = [] := rfl

@[simp]
theorem parts_part (token : Token) (slots : List Slot) :
    parts (part token :: slots) = token :: parts slots := rfl

@[simp]
theorem parts_mark (kind : Kind) (slots : List Slot) :
    parts (mark kind :: slots) = parts slots := rfl

@[simp]
theorem parts_comma (slots : List Slot) : parts (comma :: slots) = parts slots := rfl

@[simp]
theorem parts_append (left right : List Slot) :
    parts (left ++ right) = parts left ++ parts right := by
  simp [parts]

theorem mem_parts_flatMap {α : Type} {items : List α} {write : α → List Slot} {token : Token} :
    token ∈ parts (items.flatMap write) ↔ ∃ item ∈ items, token ∈ parts (write item) := by
  induction items with
  | nil => simp
  | cons item items ih => simp [ih]

@[simp]
theorem parts_optional (token : Option Token) : parts (optional token) = token.toList := by
  cases token <;> rfl

@[simp]
theorem parts_following (kind : Kind) (token : Option Token) :
    parts (following kind token) = token.toList := by
  cases token <;> rfl

end Slot

namespace Spells

variable {slots left right : List Slot} {tokens : List Token}

@[simp]
theorem nil_iff : Spells [] tokens ↔ tokens = [] := by
  constructor
  · intro h
    cases h
    rfl
  · rintro rfl
    exact .nil

@[simp]
theorem part_iff {token : Token} :
    Spells (.part token :: slots) tokens ↔ ∃ rest, tokens = token :: rest ∧ Spells slots rest := by
  constructor
  · intro h
    cases h with
    | part _ h => exact ⟨_, rfl, h⟩
  · rintro ⟨rest, rfl, h⟩
    exact .part token h

@[simp]
theorem mark_iff {kind : Kind} :
    Spells (.mark kind :: slots) tokens ↔
      ∃ token rest, tokens = token :: rest ∧ token.kind = kind ∧ Spells slots rest := by
  constructor
  · intro h
    cases h with
    | mark hkind h => exact ⟨_, _, rfl, hkind, h⟩
  · rintro ⟨token, rest, rfl, hkind, h⟩
    exact .mark hkind h

theorem comma_iff :
    Spells (.comma :: slots) tokens ↔
      Spells slots tokens ∨
        ∃ token rest, tokens = token :: rest ∧ token.kind = .symbol .comma ∧ Spells slots rest := by
  constructor
  · intro h
    cases h with
    | noComma h => exact .inl h
    | comma hkind h => exact .inr ⟨_, _, rfl, hkind, h⟩
  · rintro (h | ⟨token, rest, rfl, hkind, h⟩)
    · exact .noComma h
    · exact .comma hkind h

/-- Spellings of two rows, one after the other, spell both rows. -/
theorem append {first second : List Token} (hfirst : Spells left first)
    (hsecond : Spells right second) : Spells (left ++ right) (first ++ second) := by
  induction hfirst with
  | nil => exact hsecond
  | part token _ ih => exact .part token ih
  | mark hkind _ ih => exact .mark hkind ih
  | noComma _ ih => exact .noComma ih
  | comma hkind _ ih => exact .comma hkind ih

/-- A spelling of two rows is cut between them. -/
theorem append_iff :
    Spells (left ++ right) tokens ↔
      ∃ first second, tokens = first ++ second ∧ Spells left first ∧ Spells right second := by
  constructor
  · intro h
    induction left generalizing tokens with
    | nil => exact ⟨[], tokens, rfl, .nil, h⟩
    | cons slot left ih =>
      cases h with
      | part token h =>
        obtain ⟨first, second, rfl, hfirst, hsecond⟩ := ih h
        exact ⟨token :: first, second, rfl, .part token hfirst, hsecond⟩
      | mark hkind h =>
        obtain ⟨first, second, rfl, hfirst, hsecond⟩ := ih h
        exact ⟨_ :: first, second, rfl, .mark hkind hfirst, hsecond⟩
      | noComma h =>
        obtain ⟨first, second, rfl, hfirst, hsecond⟩ := ih h
        exact ⟨first, second, rfl, .noComma hfirst, hsecond⟩
      | comma hkind h =>
        obtain ⟨first, second, rfl, hfirst, hsecond⟩ := ih h
        exact ⟨_ :: first, second, rfl, .comma hkind hfirst, hsecond⟩
  · rintro ⟨first, second, rfl, hfirst, hsecond⟩
    exact hfirst.append hsecond

/-- The kept tokens stand in a spelling in their order, each at a place of its own. -/
theorem parts_sublist (h : Spells slots tokens) : (Slot.parts slots).Sublist tokens := by
  induction h with
  | nil => exact .slnil
  | part token _ ih => exact ih.cons_cons token
  | mark _ _ ih => exact ih.cons _
  | noComma _ ih => exact ih
  | comma _ _ ih => exact ih.cons _

end Spells

/-- `Name As Kind`. -/
def Field.slots (field : Field) : List Slot :=
  [.part field.name, .mark (.keyword .asWord), .part field.kind]

/-- `Name` or `Name = Number`. -/
def Enumerator.slots (member : Enumerator) : List Slot :=
  .part member.name :: Slot.following (.symbol .equals) member.value

/-- `[Modifier] Name As Kind`. -/
def Argument.slots (argument : Argument) : List Slot :=
  Slot.optional argument.modifier ++
    [.part argument.name, .mark (.keyword .asWord), .part argument.kind]

/-- The arguments of a callable, with a comma or none after each of them. -/
def Argument.slotsAll (arguments : List Argument) : List Slot :=
  arguments.flatMap fun argument => argument.slots ++ [.comma]

/-- `Scope Word Name(Arguments)`. -/
def Slot.signature (scope : Token) (word : Keyword) (name : Token) (arguments : List Argument) :
    List Slot :=
  .part scope :: .mark (.keyword word) :: .part name :: .mark (.symbol .leftParen) ::
    (Argument.slotsAll arguments ++ [.mark (.symbol .rightParen)])

/-- `End Word`. -/
def Slot.closing (word : Keyword) : List Slot := [.mark (.keyword .endWord), .mark (.keyword word)]

namespace Statement

mutual

def slots : Statement → List Slot
  | .record name fields =>
    [.mark (.keyword .typeWord), .part name] ++ fields.flatMap Field.slots ++
      Slot.closing .typeWord
  | .field member => member.slots
  | .enumeration scope name members =>
    Slot.optional scope ++ [.mark (.keyword .enumWord), .part name] ++
      members.flatMap Enumerator.slots ++ Slot.closing .enumWord
  | .enumerator member => member.slots
  | .variableDecl scope name kind =>
    [.part scope, .part name, .mark (.keyword .asWord), .part kind]
  | .constantDecl scope name kind length value =>
    [.part scope, .mark (.keyword .constWord), .part name] ++
      Slot.following (.keyword .asWord) kind ++ Slot.following (.symbol .asterisk) length ++
      [.mark (.symbol .equals), .part value]
  | .subroutine scope name arguments body =>
    Slot.signature scope .subWord name arguments ++ slotsAll body ++ Slot.closing .subWord
  | .function scope name arguments returns body =>
    Slot.signature scope .functionWord name arguments ++
      Slot.following (.keyword .asWord) returns ++ slotsAll body ++ Slot.closing .functionWord
  | .argument parameter => parameter.slots
  | .exitLine block => [.mark (.keyword .exitWord), .part block]
  | .assignment left right => [.part left, .mark (.symbol .equals), .part right]
  | .returnLine value => .mark (.keyword .returnWord) :: Slot.optional value
  | .optionLine config value =>
    [.mark (.keyword .optionWord), .part config] ++ Slot.optional value
  | .attributeLine name value =>
    [.mark (.keyword .attributeWord), .part name, .mark (.symbol .equals), .part value]
  | .absent => []

def slotsAll : List Statement → List Slot
  | [] => []
  | statement :: rest => slots statement ++ slotsAll rest

end

theorem slotsAll_eq_flatMap (statements : List Statement) :
    slotsAll statements = statements.flatMap slots := by
  induction statements with
  | nil => rfl
  | cons statement rest ih => simp [slotsAll, ih]

@[simp]
theorem slotsAll_append (left right : List Statement) :
    slotsAll (left ++ right) = slotsAll left ++ slotsAll right := by
  simp [slotsAll_eq_flatMap]

end Statement

def Field.WellFormed (field : Field) : Prop :=
  field.name.kind = .identifier ∧ field.kind.kind = .identifier

def Enumerator.WellFormed (member : Enumerator) : Prop :=
  member.name.kind = .identifier ∧ ∀ value ∈ member.value, value.kind = .number

/-- An argument has a name and a kind, and a modifier says how it is passed. -/
def Argument.WellFormed (argument : Argument) : Prop :=
  (∀ modifier ∈ argument.modifier, modifier.kind ∈ Grammar.argumentModifiers) ∧
    argument.name.kind = .identifier ∧ argument.kind.kind = .identifier

namespace Statement

/-- The statements that both a module and a body can hold. -/
def IsDeclaration : Statement → Prop
  | .variableDecl scope name kind =>
    scope.kind ∈ Grammar.variableScopes ∧ name.kind = .identifier ∧ kind.kind = .identifier
  | .constantDecl scope name kind length value =>
    scope.kind ∈ Grammar.variableScopes ∧ name.kind = .identifier ∧
      (∀ token ∈ kind, token.kind = .identifier) ∧ (∀ token ∈ length, token.kind = .number) ∧
      value.kind ∈ Grammar.valueKinds
  | .attributeLine name value => name.kind = .identifier ∧ value.kind ∈ Grammar.valueKinds
  | _ => False

/-- The statements that the body of a callable can hold.  A return carries a value, and only in a
subroutine it may carry none. -/
def InBody (callable : Kind) : Statement → Prop
  | .assignment left right => left.kind = .identifier ∧ right.kind ∈ Grammar.valueKinds
  | .exitLine block => block.kind ∈ Grammar.exitBlocks
  | .returnLine value =>
    (∀ token ∈ value, token.kind ∈ Grammar.valueKinds) ∧
      (callable = .keyword .functionWord → value ≠ none)
  | statement => statement.IsDeclaration

/-- The value that a configuration asks for. -/
def OptionValue (config : Token) (value : Option Token) : Prop :=
  (config.kind = .keyword .explicitWord ∧ value = none) ∨
    ∃ token, value = some token ∧
      ((config.kind = .keyword .baseWord ∧ token.kind = .number) ∨
        (config.kind = .keyword .compareWord ∧ token.kind = .identifier) ∨
        (config.kind = .keyword .privateWord ∧ token.kind = .keyword .moduleWord))

/-- The statements that a module can hold. -/
def InModule : Statement → Prop
  | .record name fields => name.kind = .identifier ∧ ∀ field ∈ fields, field.WellFormed
  | .enumeration scope name members =>
    (∀ token ∈ scope, token.kind ∈ Grammar.enumerationScopes) ∧ name.kind = .identifier ∧
      ∀ member ∈ members, member.WellFormed
  | .subroutine scope name arguments body =>
    scope.kind ∈ Grammar.callableScopes ∧ name.kind = .identifier ∧
      (∀ argument ∈ arguments, argument.WellFormed) ∧
      ∀ statement ∈ body, statement.InBody (.keyword .subWord)
  | .function scope name arguments returns body =>
    scope.kind ∈ Grammar.callableScopes ∧ name.kind = .identifier ∧
      (∀ argument ∈ arguments, argument.WellFormed) ∧
      (∀ token ∈ returns, token.kind = .identifier) ∧
      ∀ statement ∈ body, statement.InBody (.keyword .functionWord)
  | .optionLine config value => OptionValue config value
  | statement => statement.IsDeclaration

/-- A declaration can stand in the body of any callable. -/
theorem IsDeclaration.inBody {statement : Statement} (h : statement.IsDeclaration)
    (callable : Kind) : statement.InBody callable := by
  cases statement <;> first | exact h | exact h.elim

theorem IsDeclaration.inModule {statement : Statement} (h : statement.IsDeclaration) :
    statement.InModule := by
  cases statement <;> first | exact h | exact h.elim

/-- The kinds that open a statement of a body. -/
def bodyStarts : List Kind :=
  Grammar.variableScopes ++
    [.identifier, .keyword .exitWord, .keyword .returnWord, .keyword .attributeWord]

/-- A statement of a body begins with one of the opening kinds, and only an assignment begins with
a name. -/
theorem InBody.exists_cons {statement : Statement} {callable : Kind} {tokens : List Token}
    (h : statement.InBody callable) (hspells : Spells statement.slots tokens) :
    ∃ token rest, tokens = token :: rest ∧ token.kind ∈ bodyStarts ∧
      (token.kind = .identifier → ∃ left right, statement = .assignment left right) := by
  cases statement with
  | variableDecl scope name kind =>
    obtain ⟨rest, rfl, _⟩ := Spells.part_iff.1 hspells
    exact ⟨scope, rest, rfl, List.mem_append_left _ h.1, fun hkind => by
      simp [IsDeclaration, InBody, hkind, Grammar.variableScopes] at h⟩
  | constantDecl scope name kind length value =>
    obtain ⟨rest, rfl, _⟩ := Spells.part_iff.1 hspells
    exact ⟨scope, rest, rfl, List.mem_append_left _ h.1, fun hkind => by
      simp [IsDeclaration, InBody, hkind, Grammar.variableScopes] at h⟩
  | assignment left right =>
    obtain ⟨rest, rfl, _⟩ := Spells.part_iff.1 hspells
    exact ⟨left, rest, rfl, by simp [bodyStarts, h.1], fun _ => ⟨left, right, rfl⟩⟩
  | exitLine block =>
    obtain ⟨token, rest, rfl, hkind, _⟩ := Spells.mark_iff.1 hspells
    exact ⟨token, rest, rfl, by simp [bodyStarts, hkind], by simp [hkind]⟩
  | returnLine value =>
    obtain ⟨token, rest, rfl, hkind, _⟩ := Spells.mark_iff.1 hspells
    exact ⟨token, rest, rfl, by simp [bodyStarts, hkind], by simp [hkind]⟩
  | attributeLine name value =>
    obtain ⟨token, rest, rfl, hkind, _⟩ := Spells.mark_iff.1 hspells
    exact ⟨token, rest, rfl, by simp [bodyStarts, hkind], by simp [hkind]⟩
  | _ => exact h.elim

/-- What stands after the first line of a callable is the first statement of its body or the end
of the callable. -/
theorem exists_cons_of_spells_body {body : List Statement} {callable : Kind} {word : Keyword}
    {more : List Slot} {tokens : List Token} (h : ∀ statement ∈ body, statement.InBody callable)
    (hspells : Spells (slotsAll body ++ Slot.closing word ++ more) tokens) :
    ∃ token rest, tokens = token :: rest ∧ token.kind ∈ .keyword .endWord :: bodyStarts := by
  cases body with
  | nil =>
    obtain ⟨token, rest, rfl, hkind, _⟩ := Spells.mark_iff.1 hspells
    exact ⟨token, rest, rfl, by simp [hkind]⟩
  | cons statement body =>
    rw [slotsAll, List.append_assoc, List.append_assoc] at hspells
    obtain ⟨first, second, rfl, hfirst, _⟩ := Spells.append_iff.1 hspells
    obtain ⟨token, rest, rfl, hstart, _⟩ :=
      (h statement List.mem_cons_self).exists_cons hfirst
    exact ⟨token, rest ++ second, rfl, List.mem_cons_of_mem _ hstart⟩

end Statement

end LegacyBasic
