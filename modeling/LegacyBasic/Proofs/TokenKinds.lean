import Mathlib
import LegacyBasic.Proofs.Relabeling

/-!
Reading looks at nothing but kinds.  Main statement: where the texts and places of tokens are
changed and their kinds are kept, every rule takes the same way and keeps the changed tokens, from
every position and inside every callable.
-/

namespace LegacyBasic

/-- The fault with the token that it names changed, at the same index. -/
def Fault.mapToken (change : Token → Token) : Fault → Fault
  | .malformedArguments index found => .malformedArguments index (found.map change)
  | fault => fault

namespace Grammar

open Rule

/-- The state with the tokens that are not read yet changed. -/
def State.mapTokens (change : Token → Token) (state : State) : State :=
  { state with rest := state.rest.map change }

/-- The outcome with all tokens changed: those of the statement, of the fault, and those that are
not read yet. -/
def Outcome.mapTokens (change : Token → Token) : Outcome Statement → Outcome Statement
  | .matched statement after =>
    .matched (statement.mapTokens change change) (after.mapTokens change)
  | .stuck stop => .stuck (stop.mapTokens change)
  | .failed fault stop => .failed (fault.mapToken change) (stop.mapTokens change)

def namedRules : List (Rule Statement) :=
  [record, .field <$> field, enumeration, .enumerator <$> enumerator, variableDecl, constantDecl,
    subroutine bodyAlternatives, function bodyAlternatives, .argument <$> argument, exitLine,
    assignment, returnLine, optionLine, attributeLine, moduleStatement, bodyStatement]

theorem mem_namedRules {label : String} {rule : Rule Statement}
    (h : ruleNamed? label = some rule) : rule ∈ namedRules := by
  unfold ruleNamed? at h
  split at h <;> cases h <;> simp [namedRules]

namespace Relabeling

/-- The relabeling that leaves the positions as they are. -/
def ofChange (change : Token → Token) (hkind : ∀ token, (change token).kind = token.kind) :
    Relabeling := ⟨change, hkind, 0⟩

variable {change : Token → Token} (hkind : ∀ token, (change token).kind = token.kind)

theorem fault_ofChange : (ofChange change hkind).fault = Fault.mapToken change := by
  funext fault
  cases fault <;> rfl

theorem outcome_ofChange (outcome : Outcome Statement) :
    (ofChange change hkind).outcome (ofChange change hkind).statement outcome =
      outcome.mapTokens change := by
  cases outcome with
  | matched statement after => rfl
  | stuck stop => rfl
  | failed fault stop =>
    rw [Relabeling.outcome, fault_ofChange]
    rfl

end Relabeling

theorem namedRules_relabels (relabeling : Relabeling) :
    ∀ rule ∈ namedRules, Relabels relabeling relabeling.statement rule rule := by
  simp only [namedRules, List.forall_mem_cons]
  exact ⟨record_relabels relabeling,
    (field_relabels relabeling).bind fun member => Relabels.pure _ (Statement.field member),
    enumeration_relabels relabeling,
    (enumerator_relabels relabeling).bind fun member =>
      Relabels.pure _ (Statement.enumerator member),
    variableDecl_relabels relabeling, constantDecl_relabels relabeling,
    subroutine_relabels relabeling, function_relabels relabeling,
    (argument_relabels relabeling).bind fun parameter =>
      Relabels.pure _ (Statement.argument parameter),
    exitLine_relabels relabeling, assignment_relabels relabeling, returnLine_relabels relabeling,
    optionLine_relabels relabeling, attributeLine_relabels relabeling,
    moduleStatement_relabels relabeling, bodyStatement_relabels relabeling, List.forall_mem_nil _⟩

/-- Reading depends on the kinds of tokens only.  Where a change of tokens keeps their kinds, the
statements read from changed tokens are those read before with every token changed, and as many
tokens remain; a fault is met exactly where one was met before, at the same index.  So it is from
every state, and for every rule on its own. -/
theorem parse_map_of_kind_eq {change : Token → Token}
    (hkind : ∀ token, (change token).kind = token.kind) :
    (∀ tokens : List Token,
      parse (tokens.map change) =
        ((parse tokens).mapError (Fault.mapToken change)).map
          (Prod.map (List.map (Statement.mapTokens change change)) id)) ∧
    (∀ (tokens : List Token) (index : Nat),
      (∃ found, parse (tokens.map change) = .error (.malformedArguments index found)) ↔
        ∃ found, parse tokens = .error (.malformedArguments index found)) ∧
    (∀ state : State,
      (state.mapTokens change).parse =
        ((state.parse.1.mapError (Fault.mapToken change)).map
            (List.map (Statement.mapTokens change change)),
          state.parse.2.mapTokens change)) ∧
    ∀ (label : String) (rule : Rule Statement), ruleNamed? label = some rule →
      ∀ state : State, rule (state.mapTokens change) = (rule state).mapTokens change := by
  have hparse : ∀ tokens : List Token,
      parse (tokens.map change) =
        ((parse tokens).mapError (Fault.mapToken change)).map
          (Prod.map (List.map (Statement.mapTokens change change)) id) := by
    intro tokens
    rw [← Relabeling.fault_ofChange hkind]
    exact parse_relabeled (.ofChange change hkind) tokens rfl
  refine ⟨hparse, ?_, ?_, ?_⟩
  · intro tokens index
    rw [hparse tokens]
    cases parse tokens with
    | ok result => simp [Except.mapError, Except.map]
    | error fault => cases fault <;> simp [Except.mapError, Except.map, Fault.mapToken]
  · intro state
    rw [← Relabeling.fault_ofChange hkind]
    exact State.parse_relabeled (.ofChange change hkind) state
  · intro label rule hlabel state
    rw [← Relabeling.outcome_ofChange hkind]
    exact namedRules_relabels (.ofChange change hkind) rule (mem_namedRules hlabel) state

/-- Texts and places may be forgotten: `Public Function f() Return x End Function Dim` is read up to
its last token, `Public Sub f(Dim` fails at its fifth, and `Return Dim` is no statement of a
function's body. -/
theorem parse_map_of_kind_eq_forget :
    let forget (token : Token) : Token := { kind := token.kind }
    let word (keyword : Keyword) : Token := { kind := .keyword keyword, position := ⟨1, 1⟩ }
    let sign (symbol : Symbol) : Token := { kind := .symbol symbol, position := ⟨1, 1⟩ }
    let name (letter : UInt8) : Token := { kind := .identifier, literal := [letter] }
    let nameless : Token := { kind := .identifier }
    let state : State := ⟨7, [word .returnWord, word .dimWord], .keyword .functionWord⟩
    (∀ token, (forget token).kind = token.kind) ∧
      parse ([word .publicWord, word .functionWord, name 0x66, sign .leftParen, sign .rightParen,
          word .returnWord, name 0x78, word .endWord, word .functionWord, word .dimWord].map
            forget) =
        .ok ([.function { kind := .keyword .publicWord } nameless [] none
          [.returnLine (some nameless)]], 1) ∧
      (∃ found, parse ([word .publicWord, word .subWord, name 0x66, sign .leftParen,
        word .dimWord].map forget) = .error (.malformedArguments 4 found)) ∧
      returnLine (state.mapTokens forget) =
        .stuck ⟨8, [{ kind := .keyword .dimWord }], .keyword .functionWord⟩ := by
  intro forget word sign name nameless state
  have hkind : ∀ token, (forget token).kind = token.kind := fun _ => rfl
  obtain ⟨hparse, hfault, _, hrule⟩ := parse_map_of_kind_eq hkind
  refine ⟨hkind, ?_, ?_, ?_⟩
  · rw [hparse]
    cbv
  · rw [hfault]
    exact ⟨some (word .dimWord), by cbv⟩
  · rw [hrule "return" returnLine rfl]
    rfl

end Grammar

end LegacyBasic
