import Mathlib
import LegacyBasic.Proofs.Completeness

/-!
The order of the alternatives.  The first two tokens of a construct tell it from every other one, so
of the alternatives of a module, and of those of a body, at most one does not get stuck.  Main
statement: reading gives the same under every order of the two tables.
-/

namespace LegacyBasic.Grammar

variable {α β : Type}

namespace Rule

/-- The rule gets stuck from this state: it neither matches nor fails. -/
def IsStuck (rule : Rule α) (state : State) : Prop := ∃ stop, rule state = .stuck stop

/-- From every state at least one of the two rules gets stuck. -/
def Exclusive (first second : Rule α) : Prop :=
  ∀ state, first.IsStuck state ∨ second.IsStuck state

theorem Exclusive.symm {first second : Rule α} (h : first.Exclusive second) :
    second.Exclusive first := fun state => (h state).symm

theorem Rejects.isStuck {rule : Rule α} {state : State}
    (h : rule.Rejects state.enclosing state.rest) : rule.IsStuck state := h state.position

section Choice

variable {rule : Rule α} {rules table : List (Rule α)} {state : State}

theorem choice_cons_of_isStuck (hforward : rule.Forward) (h : rule.IsStuck state) :
    choice (rule :: rules) state = choice rules state := by
  obtain ⟨stop, hstop⟩ := h
  simp only [choice, hforward.attempt_of_stuck hstop]

theorem choice_cons_of_not_isStuck (h : ¬rule.IsStuck state) :
    choice (rule :: rules) state = rule state := by
  cases hrule : rule state with
  | stuck stop => exact absurd ⟨stop, hrule⟩ h
  | matched value after => simp [choice, attempt, hrule]
  | failed fault stop => simp [choice, attempt, hrule]

theorem choice_swap {first second : Rule α} (hfirst : first.Forward) (hsecond : second.Forward)
    (h : first.Exclusive second) :
    choice (first :: second :: rules) = choice (second :: first :: rules) := by
  funext state
  by_cases hstuck : first.IsStuck state
  · rw [choice_cons_of_isStuck hfirst hstuck]
    by_cases hother : second.IsStuck state
    · rw [choice_cons_of_isStuck hsecond hother, choice_cons_of_isStuck hsecond hother,
        choice_cons_of_isStuck hfirst hstuck]
    · rw [choice_cons_of_not_isStuck hother, choice_cons_of_not_isStuck hother]
  · have hother : second.IsStuck state := (h state).resolve_left hstuck
    rw [choice_cons_of_not_isStuck hstuck, choice_cons_of_isStuck hsecond hother,
      choice_cons_of_not_isStuck hstuck]

/-- Alternatives that exclude each other may be tried in any order. -/
theorem choice_eq_of_perm (hperm : table.Perm rules) (hforward : ∀ rule ∈ rules, rule.Forward)
    (hexclusive : rules.Pairwise Exclusive) : choice table = choice rules := by
  induction hperm with
  | nil => rfl
  | @cons first left right hperm ih =>
    obtain ⟨_, hothers⟩ := List.forall_mem_cons.1 hforward
    obtain ⟨_, hpairwise⟩ := List.pairwise_cons.1 hexclusive
    funext state
    simp only [choice, ih hothers hpairwise]
  | swap first second others =>
    obtain ⟨hfirst, hsecond, _⟩ : first.Forward ∧ second.Forward ∧ _ := by
      simpa only [List.forall_mem_cons] using hforward
    have hpair : first.Exclusive second :=
      (List.pairwise_cons.1 hexclusive).1 second List.mem_cons_self
    exact choice_swap hsecond hfirst hpair.symm
  | @trans left middle right hleft hright ihleft ihright =>
    have hmiddle : ∀ rule ∈ middle, rule.Forward :=
      fun rule hmem => hforward rule (hright.mem_iff.1 hmem)
    have hpairwise := (hright.pairwise_iff Exclusive.symm).2 hexclusive
    exact (ihleft hmiddle hpairwise).trans (ihright hforward hexclusive)

/-- Among alternatives that exclude each other, one that is not stuck decides. -/
theorem choice_of_not_isStuck (hforward : ∀ rule ∈ rules, rule.Forward)
    (hexclusive : rules.Pairwise Exclusive) (hmem : rule ∈ rules) (h : ¬rule.IsStuck state) :
    choice rules state = rule state := by
  obtain ⟨before, after, rfl⟩ := List.append_of_mem hmem
  rw [← choice_eq_of_perm List.perm_middle.symm hforward hexclusive]
  exact choice_cons_of_not_isStuck h

end Choice

variable {kind : Kind} {tokens : List Token}

/-- A rule that reads one of some kinds first gets stuck where none of them stands. -/
theorem rejects_of_first {kinds : List Kind} {next : Token → Rule β}
    (h : ∀ token rest, tokens = token :: rest → token.kind ∉ kinds) :
    Rejects (oneOf kinds >>= next) kind tokens := by
  refine (rejects_oneOf ?_).bind next
  intro token htoken
  obtain ⟨rest, hrest⟩ := List.head?_eq_some_iff.1 htoken
  exact h token rest hrest

/-- A rule that begins with two single tokens gets stuck where no such two stand. -/
theorem rejects_of_first_two {kinds others : List Kind} {next : Token → Token → Rule β}
    (h : ∀ token other rest, tokens = token :: other :: rest →
      token.kind ∈ kinds → other.kind ∉ others) :
    Rejects (oneOf kinds >>= fun value => oneOf others >>= next value) kind tokens := by
  cases tokens with
  | nil => exact rejects_of_first (by simp)
  | cons token tokens =>
    by_cases hkind : token.kind ∈ kinds
    · refine (accepts_oneOf hkind).bind_rejects (rejects_of_first ?_)
      rintro other rest rfl
      exact h token other rest rfl hkind
    · exact rejects_first hkind

end Rule

open Rule

/-- What the alternatives of a module and of a body read. -/
inductive Construct where
  | record
  | variableDecl
  | constantDecl
  | subroutine
  | function
  | enumeration
  | attributeLine
  | optionLine
  | assignment
  | exitLine
  | returnLine
deriving DecidableEq, Repr

namespace Construct

/-- The only construct that can begin with a token of kind `first` before one of kind `second`. -/
def ofKinds? (first : Kind) (second : Option Kind) : Option Construct :=
  match first with
  | .identifier => some assignment
  | .keyword .typeWord => some record
  | .keyword .enumWord => some enumeration
  | .keyword .attributeWord => some attributeLine
  | .keyword .optionWord => some optionLine
  | .keyword .exitWord => some exitLine
  | .keyword .returnWord => some returnLine
  | _ =>
    -- Every other first token is a scope, and the word after it decides.
    match second with
    | some .identifier => some variableDecl
    | some (.keyword .constWord) => some constantDecl
    | some (.keyword .subWord) => some subroutine
    | some (.keyword .functionWord) => some function
    | some (.keyword .enumWord) => some enumeration
    | _ => none

/-- The only construct that can stand at the front of a token list. -/
def ofTokens? : List Token → Option Construct
  | [] => none
  | [token] => ofKinds? token.kind none
  | token :: other :: _ => ofKinds? token.kind (some other.kind)

/-- The alternative that reads a construct, over those of a body. -/
def rule (body : List (Rule Statement)) : Construct → Rule Statement
  | record => Grammar.record
  | variableDecl => Grammar.variableDecl
  | constantDecl => Grammar.constantDecl
  | subroutine => Grammar.subroutine body
  | function => Grammar.function body
  | enumeration => Grammar.enumeration
  | attributeLine => Grammar.attributeLine
  | optionLine => Grammar.optionLine
  | assignment => Grammar.assignment
  | exitLine => Grammar.exitLine
  | returnLine => Grammar.returnLine

def ofModule : List Construct :=
  [record, variableDecl, constantDecl, subroutine, function, enumeration, attributeLine, optionLine]

def ofBody : List Construct :=
  [variableDecl, constantDecl, assignment, exitLine, returnLine, attributeLine]

theorem map_rule_ofModule (body : List (Rule Statement)) :
    ofModule.map (rule body) = moduleAlternatives body := rfl

theorem map_rule_ofBody (body : List (Rule Statement)) :
    ofBody.map (rule body) = bodyAlternatives := rfl

variable {kind : Kind} {tokens : List Token}

/-- One word opens the construct, whatever follows it. -/
theorem ofTokens?_cons {token : Token} {rest : List Token} {construct : Construct}
    (h : ∀ second, ofKinds? token.kind second = some construct) :
    ofTokens? (token :: rest) = some construct := by
  cases rest with
  | nil => exact h none
  | cons other rest => exact h (some other.kind)

/-- A scope opens the construct that the word after it tells. -/
theorem ofKinds?_of_scope {scope : Kind} (h : scope ∈ variableScopes) (second : Option Kind) :
    ofKinds? scope second = ofKinds? (.keyword .dimWord) second := by
  simp only [variableScopes, List.mem_cons, List.not_mem_nil, or_false] at h
  rcases h with rfl | rfl | rfl | rfl <;> rfl

theorem rejects_enumeration_of_ne (h : ofTokens? tokens ≠ some enumeration) :
    Grammar.enumeration.Rejects kind tokens := by
  cases tokens with
  | nil =>
    have hnone : (Rule.optional enumerationScopes).Accepts kind [] [] none :=
      accepts_optional (by simp) (by simp [NextNot]) .nil
    exact hnone.bind_rejects (rejects_of_first (by simp))
  | cons token tokens =>
    have hfirst : token.kind ≠ .keyword .enumWord := by
      intro hkind
      exact h (ofTokens?_cons fun second => by rw [hkind]; rfl)
    by_cases hscope : token.kind ∈ enumerationScopes
    · have hsome : (Rule.optional enumerationScopes).Accepts kind [token] tokens (some token) :=
        accepts_optional (by simpa using hscope) (by simp) (.part token .nil)
      refine hsome.bind_rejects (rejects_of_first ?_)
      rintro other rest rfl hkind
      apply h
      rw [ofTokens?, ofKinds?_of_scope (mem_variableScopes_of_callable
        (mem_callableScopes_of_enumeration hscope)), List.mem_singleton.1 hkind]
      rfl
    · have hnone : (Rule.optional enumerationScopes).Accepts kind [] (token :: tokens) none :=
        accepts_optional (by simp) (fun _ => nextNot_cons.2 hscope) .nil
      exact hnone.bind_rejects (rejects_first (by simpa using hfirst))

/-- The alternative of a construct gets stuck where the first two tokens do not open it. -/
theorem rejects_rule {construct : Construct} (h : ofTokens? tokens ≠ some construct)
    (body : List (Rule Statement)) : (construct.rule body).Rejects kind tokens := by
  -- A word of its own, or a scope and a word, has to stand at the front.
  have hword : ∀ {token rest}, tokens = token :: rest →
      ∀ {word}, (∀ second, ofKinds? word second = some construct) → token.kind ∉ [word] := by
    rintro token rest rfl word hopens hkind
    exact h (ofTokens?_cons (by rwa [List.mem_singleton.1 hkind]))
  have hscope : ∀ {token other rest}, tokens = token :: other :: rest →
      token.kind ∈ variableScopes →
      ∀ {word}, ofKinds? (.keyword .dimWord) (some word) = some construct →
        other.kind ∉ [word] := by
    rintro token other rest rfl htoken word hopens hkind
    apply h
    rw [ofTokens?, ofKinds?_of_scope htoken, List.mem_singleton.1 hkind, hopens]
  cases construct with
  | record => exact rejects_of_first fun _ _ htokens => hword htokens fun _ => rfl
  | variableDecl => exact rejects_of_first_two fun _ _ _ htokens htoken => hscope htokens htoken rfl
  | constantDecl => exact rejects_of_first_two fun _ _ _ htokens htoken => hscope htokens htoken rfl
  | subroutine =>
    exact rejects_of_first_two fun _ _ _ htokens htoken =>
      hscope htokens (mem_variableScopes_of_callable htoken) rfl
  | function =>
    exact rejects_of_first_two fun _ _ _ htokens htoken =>
      hscope htokens (mem_variableScopes_of_callable htoken) rfl
  | enumeration => exact rejects_enumeration_of_ne h
  | attributeLine => exact rejects_of_first fun _ _ htokens => hword htokens fun _ => rfl
  | optionLine => exact rejects_of_first fun _ _ htokens => hword htokens fun _ => rfl
  | assignment => exact rejects_of_first fun _ _ htokens => hword htokens fun _ => rfl
  | exitLine => exact rejects_of_first fun _ _ htokens => hword htokens fun _ => rfl
  | returnLine => exact rejects_of_first fun _ _ htokens => hword htokens fun _ => rfl

/-- The alternatives of different constructs exclude each other. -/
theorem exclusive_of_ne {first second : Construct} (h : first ≠ second)
    (body : List (Rule Statement)) : (first.rule body).Exclusive (second.rule body) := by
  intro state
  by_cases hfirst : ofTokens? state.rest = some first
  · right
    apply Rejects.isStuck
    apply rejects_rule
    rw [hfirst]
    simpa using h
  · left
    exact Rejects.isStuck (rejects_rule hfirst body)

theorem pairwise_exclusive {constructs : List Construct} (h : constructs.Nodup)
    (body : List (Rule Statement)) : (constructs.map (rule body)).Pairwise Exclusive :=
  List.pairwise_map.2 (h.imp fun hne => exclusive_of_ne hne body)

end Construct

theorem moduleAlternatives_exclusive (body : List (Rule Statement)) :
    (moduleAlternatives body).Pairwise Exclusive := by
  rw [← Construct.map_rule_ofModule]
  exact Construct.pairwise_exclusive (by decide) body

theorem bodyAlternatives_exclusive : bodyAlternatives.Pairwise Exclusive := by
  rw [← Construct.map_rule_ofBody []]
  exact Construct.pairwise_exclusive (by decide) []

/-- The alternatives of a module depend on those of a body only through their choice. -/
theorem moduleAlternatives_congr {body other : List (Rule Statement)}
    (h : choice body = choice other) : moduleAlternatives body = moduleAlternatives other := by
  simp only [moduleAlternatives, subroutine, function, h]

/-- The order of the alternatives does not matter.  With the tables of a body and of a module in any
order, reading from any state ends with the same statements or the same fault, and in the same
state; for from every state at most one alternative of each table matches or fails. -/
theorem parse_of_perm_alternatives {body table : List (Rule Statement)}
    (hbody : body.Perm bodyAlternatives) (htable : table.Perm (moduleAlternatives body)) :
    (∀ state : State, state.parseWith table = state.parse) ∧
      (∀ tokens : List Token, parseWith table tokens = parse tokens) ∧
      (∀ state : State, table.Pairwise fun first second =>
        first.IsStuck state ∨ second.IsStuck state) ∧
      ∀ state : State, body.Pairwise fun first second =>
        first.IsStuck state ∨ second.IsStuck state := by
  have hchoice : choice body = choice bodyAlternatives :=
    choice_eq_of_perm hbody bodyAlternatives_forward bodyAlternatives_exclusive
  rw [moduleAlternatives_congr hchoice] at htable
  have hmodule : choice table = moduleStatement :=
    choice_eq_of_perm htable moduleAlternatives_forward
      (moduleAlternatives_exclusive bodyAlternatives)
  have hparse : State.parseWith table = State.parse := by
    funext state
    rw [State.parse_eq_many, State.parseWith, hmodule]
  refine ⟨fun state => congrFun hparse state, ?_, ?_, ?_⟩
  · intro tokens
    rw [parseWith, hparse, parse_eq_map]
  · intro state
    have hpairwise := (htable.pairwise_iff Exclusive.symm).2
      (moduleAlternatives_exclusive bodyAlternatives)
    exact hpairwise.imp fun hexclusive => hexclusive state
  · intro state
    have hpairwise := (hbody.pairwise_iff Exclusive.symm).2 bodyAlternatives_exclusive
    exact hpairwise.imp fun hexclusive => hexclusive state

/-- Both tables in reverse: `Public Sub x() x = x End Sub Private Enum x End Enum` is read to its
end, and `Public Function x(Dim` fails at its fifth token. -/
theorem parse_of_perm_alternatives_reverse :
    let body := bodyAlternatives.reverse
    let table := (moduleAlternatives body).reverse
    let word (keyword : Keyword) : Token := { kind := .keyword keyword }
    let sign (symbol : Symbol) : Token := { kind := .symbol symbol }
    let name : Token := { kind := .identifier, literal := [0x78] }
    body.Perm bodyAlternatives ∧ table.Perm (moduleAlternatives body) ∧
      parseWith table [word .publicWord, word .subWord, name, sign .leftParen, sign .rightParen,
        name, sign .equals, name, word .endWord, word .subWord, word .privateWord, word .enumWord,
        name, word .endWord, word .enumWord] =
        .ok ([.subroutine (word .publicWord) name [] [.assignment name name],
          .enumeration (some (word .privateWord)) name []], 0) ∧
      parseWith table [word .publicWord, word .functionWord, name, sign .leftParen,
        word .dimWord] = .error (.malformedArguments 4 (some (word .dimWord))) := by
  intro body table word sign name
  have hbody : body.Perm bodyAlternatives := List.reverse_perm _
  have htable : table.Perm (moduleAlternatives body) := List.reverse_perm _
  have hparse := (parse_of_perm_alternatives hbody htable).2.1
  refine ⟨hbody, htable, ?_, ?_⟩
  · rw [hparse]
    cbv
  · rw [hparse]
    cbv

end LegacyBasic.Grammar
