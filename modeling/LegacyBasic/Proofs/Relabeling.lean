import LegacyBasic.Grammar.Productions
import LegacyBasic.Proofs.Rules

/-!
Relabelings: a change of tokens that keeps their kinds, together with a shift of the positions.
Main statement: reading relabeled tokens gives the relabeled statements or the relabeled fault, so
the grammar looks at nothing but kinds and counts positions from where it began.
-/

namespace LegacyBasic

def Field.mapTokens (change : Token → Token) (field : Field) : Field :=
  ⟨change field.name, change field.kind⟩

def Enumerator.mapTokens (change : Token → Token) (member : Enumerator) : Enumerator :=
  ⟨change member.name, member.value.map change⟩

def Argument.mapTokens (change : Token → Token) (argument : Argument) : Argument :=
  ⟨argument.modifier.map change, change argument.name, change argument.kind⟩

@[simp]
theorem Field.mapTokens_id : Field.mapTokens id = id := rfl

@[simp]
theorem Enumerator.mapTokens_id : Enumerator.mapTokens id = id := by
  funext member
  simp [mapTokens]

@[simp]
theorem Argument.mapTokens_id : Argument.mapTokens id = id := by
  funext argument
  simp [mapTokens]

namespace Statement

mutual

/-- The statement with its tokens changed, the names of attributes by a rule of their own. -/
def mapTokens (change naming : Token → Token) : Statement → Statement
  | .record name fields => .record (change name) (fields.map (Field.mapTokens change))
  | .field member => .field (member.mapTokens change)
  | .enumeration scope name members =>
    .enumeration (scope.map change) (change name) (members.map (Enumerator.mapTokens change))
  | .enumerator member => .enumerator (member.mapTokens change)
  | .variableDecl scope name kind => .variableDecl (change scope) (change name) (change kind)
  | .constantDecl scope name kind length value =>
    .constantDecl (change scope) (change name) (kind.map change) (length.map change) (change value)
  | .subroutine scope name arguments body =>
    .subroutine (change scope) (change name) (arguments.map (Argument.mapTokens change))
      (mapTokensAll change naming body)
  | .function scope name arguments returns body =>
    .function (change scope) (change name) (arguments.map (Argument.mapTokens change))
      (returns.map change) (mapTokensAll change naming body)
  | .argument parameter => .argument (parameter.mapTokens change)
  | .exitLine block => .exitLine (change block)
  | .assignment left right => .assignment (change left) (change right)
  | .returnLine value => .returnLine (value.map change)
  | .optionLine config value => .optionLine (change config) (value.map change)
  | .attributeLine name value => .attributeLine (naming name) (change value)
  | .absent => .absent

def mapTokensAll (change naming : Token → Token) : List Statement → List Statement
  | [] => []
  | statement :: rest => mapTokens change naming statement :: mapTokensAll change naming rest

end

@[simp]
theorem mapTokensAll_eq_map (change naming : Token → Token) (statements : List Statement) :
    mapTokensAll change naming statements = statements.map (mapTokens change naming) := by
  induction statements with
  | nil => rfl
  | cons statement rest ih => simp [mapTokensAll, ih]

mutual

/-- Changing no token changes nothing. -/
theorem mapTokens_id (statement : Statement) : statement.mapTokens id id = statement := by
  cases statement with
  | subroutine scope name arguments body =>
    rw [mapTokens, mapTokensAll_id body]
    simp
  | function scope name arguments returns body =>
    rw [mapTokens, mapTokensAll_id body]
    simp
  | _ => simp [mapTokens]

theorem mapTokensAll_id (statements : List Statement) :
    mapTokensAll id id statements = statements := by
  cases statements with
  | nil => rfl
  | cons statement rest => rw [mapTokensAll, mapTokens_id statement, mapTokensAll_id rest]

end

end Statement

namespace Grammar

variable {α β : Type}

/-- A change of tokens that keeps kinds, and a shift of positions. -/
structure Relabeling where
  change : Token → Token
  kind_change : ∀ token, (change token).kind = token.kind
  offset : Nat

namespace Relabeling

variable (relabeling : Relabeling)

/-- The state among the relabeled tokens. -/
def state (state : State) : State :=
  ⟨state.position + relabeling.offset, state.rest.map relabeling.change, state.enclosing⟩

/-- The fault as it is met among the relabeled tokens. -/
def fault : Fault → Fault
  | .malformedArguments index found =>
    .malformedArguments (index + relabeling.offset) (found.map relabeling.change)
  | other => other

/-- The outcome among the relabeled tokens. -/
def outcome (act : α → α) : Outcome α → Outcome α
  | .matched value after => .matched (act value) (relabeling.state after)
  | .stuck stop => .stuck (relabeling.state stop)
  | .failed fault stop => .failed (relabeling.fault fault) (relabeling.state stop)

def statement : Statement → Statement :=
  Statement.mapTokens relabeling.change relabeling.change

end Relabeling

/-- `other` does among relabeled tokens what `rule` does, with values changed by `act`. -/
def Rule.Relabels (relabeling : Relabeling) (act : α → α) (rule other : Rule α) : Prop :=
  ∀ state, other (relabeling.state state) = relabeling.outcome act (rule state)

namespace Rule.Relabels

variable {relabeling : Relabeling}

theorem pure (act : α → α) (value : α) :
    Relabels relabeling act (Pure.pure value) (Pure.pure (act value)) := fun _ => rfl

theorem mismatch (act : α → α) : Relabels relabeling act Rule.mismatch Rule.mismatch :=
  fun _ => rfl

theorem enclosing : Relabels relabeling id Rule.enclosing Rule.enclosing := fun _ => rfl

/-- A sequence relabels where its parts do, the next one with the relabeled value. -/
theorem bind {actFirst : α → α} {actSecond : β → β} {rule other : Rule α}
    {next otherNext : α → Rule β} (hrule : Relabels relabeling actFirst rule other)
    (hnext : ∀ value, Relabels relabeling actSecond (next value) (otherNext (actFirst value))) :
    Relabels relabeling actSecond (rule >>= next) (other >>= otherNext) := by
  intro state
  rw [bind_run, bind_run, hrule state]
  cases rule state with
  | matched value after => exact hnext value after
  | stuck stop => rfl
  | failed fault stop => rfl

/-- Whether a token is read depends on its kind alone, which a relabeling keeps. -/
theorem oneOf (kinds : List Kind) :
    Relabels relabeling relabeling.change (Rule.oneOf kinds) (Rule.oneOf kinds) := by
  rintro ⟨position, rest, enclosing⟩
  cases rest with
  | nil => rfl
  | cons token rest =>
    by_cases hkind : token.kind ∈ kinds
    · simp [Rule.oneOf, Relabeling.state, Relabeling.outcome, relabeling.kind_change, hkind,
        Nat.add_right_comm]
    · simp [Rule.oneOf, Relabeling.state, Relabeling.outcome, relabeling.kind_change, hkind]

theorem token (kind : Kind) :
    Relabels relabeling relabeling.change (Rule.token kind) (Rule.token kind) := oneOf [kind]

theorem optional (kinds : List Kind) :
    Relabels relabeling (Option.map relabeling.change) (Rule.optional kinds)
      (Rule.optional kinds) := by
  intro state
  have h : Rule.oneOf kinds (relabeling.state state) = _ := oneOf kinds state
  unfold Rule.optional
  rw [h]
  cases Rule.oneOf kinds state <;> rfl

theorem following {act : α → α} {rule other : Rule α} (mark : Kind)
    (hrule : Relabels relabeling act rule other) :
    Relabels relabeling (Option.map act) (Rule.following mark rule)
      (Rule.following mark other) := by
  refine (optional [mark]).bind fun first => ?_
  cases first with
  | none => exact pure (Option.map act) none
  | some token => exact hrule.bind fun value => pure (Option.map act) (some value)

theorem notNext (kind : Kind) : Relabels relabeling id (Rule.notNext kind) (Rule.notNext kind) := by
  intro state
  have h : Rule.oneOf [kind] (relabeling.state state) = _ := oneOf [kind] state
  unfold Rule.notNext
  rw [h]
  cases Rule.oneOf [kind] state <;> rfl

/-- The fault has to be the one among the relabeled tokens. -/
theorem orFail {act : α → α} {rule other : Rule α} {fault : State → Fault}
    (hrule : Relabels relabeling act rule other)
    (hfault : ∀ state, fault (relabeling.state state) = relabeling.fault (fault state)) :
    Relabels relabeling act (Rule.orFail rule fault) (Rule.orFail other fault) := by
  intro state
  unfold Rule.orFail
  rw [hrule state]
  cases rule state with
  | matched value after => rfl
  | stuck stop => simp [Relabeling.outcome, hfault]
  | failed fault stop => rfl

theorem attempt {act : α → α} {rule other : Rule α}
    (hrule : Relabels relabeling act rule other) :
    Relabels relabeling act (Rule.attempt rule) (Rule.attempt other) := by
  intro state
  unfold Rule.attempt
  rw [hrule state]
  cases rule state <;> rfl

theorem choice {act : α → α} {rules : List (Rule α)}
    (hrules : ∀ rule ∈ rules, Relabels relabeling act rule rule) :
    Relabels relabeling act (Rule.choice rules) (Rule.choice rules) := by
  induction rules with
  | nil => exact mismatch act
  | cons rule rules ih =>
    intro state
    have hothers := ih fun other hother => hrules other (List.mem_cons_of_mem rule hother)
    simp only [Rule.choice]
    rw [(hrules rule List.mem_cons_self).attempt state]
    cases Rule.attempt rule state with
    | matched value after => rfl
    | failed fault stop => rfl
    | stuck stop => exact hothers stop

/-- A relabeling keeps how many tokens are left, so a repetition has as many rounds. -/
theorem many {act : α → α} {rule : Rule α} (hrule : Relabels relabeling act rule rule) :
    Relabels relabeling (List.map act) (Rule.many rule) (Rule.many rule) := by
  intro state
  induction hlength : state.rest.length using Nat.strongRecOn generalizing state with
  | _ length ih =>
    subst hlength
    rw [Rule.many, hrule.attempt state, Rule.many.eq_1 rule state]
    cases hattempt : Rule.attempt rule state with
    | stuck stop => rfl
    | failed fault stop => rfl
    | matched value after =>
      by_cases hless : after.rest.length < state.rest.length
      · simp only [Relabeling.outcome, Relabeling.state, List.length_map, hless, ↓reduceIte]
        have hnext := ih after.rest.length hless after rfl
        simp only [Relabeling.state] at hnext
        rw [hnext]
        cases Rule.many rule after <;> rfl
      · simp [Relabeling.outcome, Relabeling.state, hless]

theorem inside {act : α → α} {rule : Rule α} (kind : Kind)
    (hrule : Relabels relabeling act rule rule) :
    Relabels relabeling act (Rule.inside kind rule) (Rule.inside kind rule) := by
  intro state
  have h := hrule { state with enclosing := kind }
  simp only [Relabeling.state] at h
  simp only [Rule.inside, Relabeling.state, h]
  cases rule { state with enclosing := kind } <;> rfl

end Rule.Relabels

section Productions

open Rule

variable (relabeling : Relabeling)

theorem field_relabels : Relabels relabeling (Field.mapTokens relabeling.change) field field :=
  (Relabels.token _).bind fun name => (Relabels.token _).bind fun _ =>
    (Relabels.token _).bind fun kind => Relabels.pure _ (Field.mk name kind)

theorem record_relabels : Relabels relabeling relabeling.statement record record :=
  (Relabels.token _).bind fun _ => (Relabels.token _).bind fun name =>
    (field_relabels relabeling).many.bind fun fields => (Relabels.token _).bind fun _ =>
      (Relabels.token _).bind fun _ => Relabels.pure _ (Statement.record name fields)

theorem enumerator_relabels :
    Relabels relabeling (Enumerator.mapTokens relabeling.change) enumerator enumerator :=
  (Relabels.token _).bind fun name => ((Relabels.token _).following _).bind fun value =>
    Relabels.pure _ (Enumerator.mk name value)

theorem enumeration_relabels : Relabels relabeling relabeling.statement enumeration enumeration :=
  (Relabels.optional _).bind fun scope => (Relabels.token _).bind fun _ =>
    (Relabels.token _).bind fun name => (enumerator_relabels relabeling).many.bind fun members =>
      (Relabels.token _).bind fun _ => (Relabels.token _).bind fun _ =>
        Relabels.pure _ (Statement.enumeration scope name members)

theorem variableDecl_relabels :
    Relabels relabeling relabeling.statement variableDecl variableDecl :=
  (Relabels.oneOf _).bind fun scope => (Relabels.token _).bind fun name =>
    (Relabels.token _).bind fun _ => (Relabels.token _).bind fun kind =>
      Relabels.pure _ (Statement.variableDecl scope name kind)

theorem constantDecl_relabels :
    Relabels relabeling relabeling.statement constantDecl constantDecl :=
  (Relabels.oneOf _).bind fun scope => (Relabels.token _).bind fun _ =>
    (Relabels.token _).bind fun name => ((Relabels.token _).following _).bind fun kind =>
      ((Relabels.token _).following _).bind fun length => (Relabels.token _).bind fun _ =>
        (Relabels.oneOf _).bind fun value =>
          Relabels.pure _ (Statement.constantDecl scope name kind length value)

theorem assignment_relabels : Relabels relabeling relabeling.statement assignment assignment :=
  (Relabels.token _).bind fun left => (Relabels.token _).bind fun _ =>
    (Relabels.oneOf _).bind fun right => Relabels.pure _ (Statement.assignment left right)

theorem exitLine_relabels : Relabels relabeling relabeling.statement exitLine exitLine :=
  (Relabels.token _).bind fun _ => (Relabels.oneOf _).bind fun block =>
    Relabels.pure _ (Statement.exitLine block)

/-- Whether a return has a value stays as it is. -/
theorem returnLine_relabels : Relabels relabeling relabeling.statement returnLine returnLine := by
  refine (Relabels.token _).bind fun _ => (Relabels.optional _).bind fun value =>
    Relabels.enclosing.bind fun kind => ?_
  simp only [Option.isNone_map, id_eq]
  split
  · exact Relabels.mismatch _
  · exact Relabels.pure _ (Statement.returnLine value)

theorem attributeLine_relabels :
    Relabels relabeling relabeling.statement attributeLine attributeLine :=
  (Relabels.token _).bind fun _ => (Relabels.token _).bind fun name =>
    (Relabels.token _).bind fun _ => (Relabels.oneOf _).bind fun value =>
      Relabels.pure _ (Statement.attributeLine name value)

/-- The kind of a configuration stays as it is, so the same value is read after it. -/
theorem optionValue_relabels (config : Kind) :
    Relabels relabeling (Option.map relabeling.change) (optionValue config)
      (optionValue config) := by
  unfold optionValue
  split
  · exact Relabels.pure _ none
  · exact (Relabels.token _).bind fun token => Relabels.pure _ (some token)
  · exact (Relabels.token _).bind fun token => Relabels.pure _ (some token)
  · exact (Relabels.token _).bind fun token => Relabels.pure _ (some token)
  · exact fun _ => rfl

theorem optionLine_relabels : Relabels relabeling relabeling.statement optionLine optionLine := by
  refine (Relabels.token _).bind fun _ => (Relabels.oneOf _).bind fun config => ?_
  rw [relabeling.kind_change]
  exact (optionValue_relabels relabeling config.kind).bind fun value =>
    Relabels.pure _ (Statement.optionLine config value)

theorem argument_relabels :
    Relabels relabeling (Argument.mapTokens relabeling.change) argument argument :=
  (Relabels.optional _).bind fun modifier => (Relabels.token _).bind fun name =>
    (Relabels.token _).bind fun _ => (Relabels.token _).bind fun kind =>
      Relabels.pure _ (Argument.mk modifier name kind)

/-- Where an argument is malformed, the relabeled token is blamed. -/
theorem nextArgument_relabels :
    Relabels relabeling (Argument.mapTokens relabeling.change) nextArgument nextArgument := by
  refine (Relabels.notNext _).bind fun _ => ((argument_relabels relabeling).orFail ?_).bind
    fun parameter => (Relabels.optional _).bind fun _ => Relabels.pure _ parameter
  intro stop
  simp [Relabeling.state, Relabeling.fault]

theorem arguments_relabels :
    Relabels relabeling (List.map (Argument.mapTokens relabeling.change)) arguments arguments :=
  (nextArgument_relabels relabeling).many.bind fun parameters => (Relabels.token _).bind fun _ =>
    Relabels.pure _ parameters

theorem bodyStatement_relabels :
    Relabels relabeling relabeling.statement bodyStatement bodyStatement := by
  refine Relabels.choice ?_
  simp only [bodyAlternatives, List.forall_mem_cons]
  exact ⟨variableDecl_relabels relabeling, constantDecl_relabels relabeling,
    assignment_relabels relabeling, exitLine_relabels relabeling, returnLine_relabels relabeling,
    attributeLine_relabels relabeling, List.forall_mem_nil _⟩

theorem subroutine_relabels :
    Relabels relabeling relabeling.statement (subroutine bodyAlternatives)
      (subroutine bodyAlternatives) := by
  refine (Relabels.oneOf _).bind fun scope => (Relabels.token _).bind fun _ =>
    (Relabels.token _).bind fun name => (Relabels.token _).bind fun _ =>
      (arguments_relabels relabeling).bind fun parameters =>
        ((bodyStatement_relabels relabeling).many.inside _).bind fun body =>
          (Relabels.token _).bind fun _ => (Relabels.token _).bind fun _ => ?_
  have h : Relabels relabeling relabeling.statement _ _ :=
    .pure _ (.subroutine scope name parameters body)
  simpa [Relabeling.statement, Statement.mapTokens] using h

theorem function_relabels :
    Relabels relabeling relabeling.statement (function bodyAlternatives)
      (function bodyAlternatives) := by
  refine (Relabels.oneOf _).bind fun scope => (Relabels.token _).bind fun _ =>
    (Relabels.token _).bind fun name => (Relabels.token _).bind fun _ =>
      (arguments_relabels relabeling).bind fun parameters =>
        ((Relabels.token _).following _).bind fun returns =>
          ((bodyStatement_relabels relabeling).many.inside _).bind fun body =>
            (Relabels.token _).bind fun _ => (Relabels.token _).bind fun _ => ?_
  have h : Relabels relabeling relabeling.statement _ _ :=
    .pure _ (.function scope name parameters returns body)
  simpa [Relabeling.statement, Statement.mapTokens] using h

/-- The grammar of a module looks at nothing of a token but its kind. -/
theorem moduleStatement_relabels :
    Relabels relabeling relabeling.statement moduleStatement moduleStatement := by
  refine Relabels.choice ?_
  simp only [moduleAlternatives, List.forall_mem_cons]
  exact ⟨record_relabels relabeling, variableDecl_relabels relabeling,
    constantDecl_relabels relabeling, subroutine_relabels relabeling, function_relabels relabeling,
    enumeration_relabels relabeling, attributeLine_relabels relabeling,
    optionLine_relabels relabeling, List.forall_mem_nil _⟩

/-- Reading a module of relabeled tokens. -/
theorem State.parse_relabeled (state : State) :
    (relabeling.state state).parse =
      ((state.parse.1.mapError relabeling.fault).map (List.map relabeling.statement),
        relabeling.state state.parse.2) := by
  rw [State.parse_eq_many, State.parse_eq_many, (moduleStatement_relabels relabeling).many state]
  cases Rule.many moduleStatement state <;> rfl

/-- A list of relabeled tokens, with the positions as they were. -/
theorem parse_relabeled (tokens : List Token) (hoffset : relabeling.offset = 0) :
    parse (tokens.map relabeling.change) =
      ((parse tokens).mapError relabeling.fault).map
        fun result => (result.1.map relabeling.statement, result.2) := by
  have hstate : relabeling.state (State.ofTokens tokens) =
      State.ofTokens (tokens.map relabeling.change) := by
    simp [Relabeling.state, State.ofTokens, hoffset]
  have hparse := State.parse_relabeled relabeling (State.ofTokens tokens)
  rw [hstate] at hparse
  rw [parse_eq_map, parse_eq_map, hparse]
  cases (State.ofTokens tokens).parse with
  | mk result after =>
    have hremaining : (relabeling.state after).remaining = after.remaining :=
      List.length_map relabeling.change
    cases result with
    | error fault => rfl
    | ok statements =>
      exact congrArg (fun count => Except.ok (statements.map relabeling.statement, count))
        hremaining

/-- Two token lists that a relabeling makes equal are read alike. -/
theorem exists_parse_of_map_eq {tokens others : List Token} {statements : List Statement}
    {remaining : Nat} (hoffset : relabeling.offset = 0)
    (hsame : others.map relabeling.change = tokens.map relabeling.change)
    (h : parse tokens = .ok (statements, remaining)) :
    ∃ read, parse others = .ok (read, remaining) ∧
      read.map relabeling.statement = statements.map relabeling.statement := by
  have hothers := parse_relabeled relabeling others hoffset
  rw [hsame, parse_relabeled relabeling tokens hoffset, h] at hothers
  cases hread : parse others with
  | error fault =>
    rw [hread] at hothers
    cases hothers
  | ok result =>
    obtain ⟨read, left⟩ := result
    rw [hread] at hothers
    obtain ⟨hstatements, rfl⟩ := Prod.mk.inj (Except.ok.inj hothers)
    exact ⟨read, rfl, hstatements.symm⟩

/-- Two token lists that a relabeling makes equal meet the same fault, up to the relabeling. -/
theorem exists_fault_of_map_eq {tokens others : List Token} {fault : Fault}
    (hoffset : relabeling.offset = 0)
    (hsame : others.map relabeling.change = tokens.map relabeling.change)
    (h : parse tokens = .error fault) :
    ∃ other, parse others = .error other ∧ relabeling.fault other = relabeling.fault fault := by
  have hothers := parse_relabeled relabeling others hoffset
  rw [hsame, parse_relabeled relabeling tokens hoffset, h] at hothers
  cases hread : parse others with
  | ok result =>
    rw [hread] at hothers
    cases hothers
  | error other =>
    rw [hread] at hothers
    exact ⟨other, rfl, (Except.error.inj hothers).symm⟩

end Productions

end Grammar

end LegacyBasic
