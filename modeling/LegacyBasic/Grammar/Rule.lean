import LegacyBasic.Violation

/-!
Grammar rules over a list of tokens.  A rule matches and yields a value, gets stuck, or fails with
a fault; only a rule that is tried returns to where it began when it gets stuck, and a fault is
final.
-/

namespace LegacyBasic.Grammar

/-- Where reading stands. -/
structure State where
  /-- How many tokens have been read. -/
  position : Nat := 0
  /-- The tokens not read yet. -/
  rest : List Token
  /-- The kind of callable whose body is being read. -/
  enclosing : Kind := .illegal
deriving DecidableEq, Repr

/-- What a rule does from a state. -/
inductive Outcome (α : Type) where
  | matched (value : α) (after : State)
  /-- The rule does not match; it gave up at `stop`. -/
  | stuck (stop : State)
  | failed (fault : Fault) (stop : State)
deriving Repr

def Rule (α : Type) : Type := State → Outcome α

namespace Rule

variable {α β : Type}

/-- What follows a matched value; the other outcomes stay. -/
def bind (rule : Rule α) (next : α → Rule β) : Rule β := fun state =>
  match rule state with
  | .matched value after => next value after
  | .stuck stop => .stuck stop
  | .failed fault stop => .failed fault stop

instance : Monad Rule where
  pure value := fun state => .matched value state
  bind := bind

@[simp]
theorem pure_run (value : α) (state : State) :
    (pure value : Rule α) state = .matched value state := rfl

theorem bind_run (rule : Rule α) (next : α → Rule β) (state : State) :
    (rule >>= next) state =
      match rule state with
      | .matched value after => next value after
      | .stuck stop => .stuck stop
      | .failed fault stop => .failed fault stop := rfl

def mismatch : Rule α := fun state => .stuck state

/-- The next token, when it is of one of these kinds. -/
def oneOf (kinds : List Kind) : Rule Token := fun state =>
  match state.rest with
  | [] => .stuck state
  | token :: rest =>
    if token.kind ∈ kinds then
      .matched token { state with position := state.position + 1, rest := rest }
    else .stuck state

def token (kind : Kind) : Rule Token := oneOf [kind]

/-- The next token when it is of one of these kinds, and otherwise nothing. -/
def optional (kinds : List Kind) : Rule (Option Token) := fun state =>
  match oneOf kinds state with
  | .matched token after => .matched (some token) after
  | _ => .matched none state

/-- What `rule` reads after a token of kind `mark`, or nothing where no such token stands. -/
def following (mark : Kind) (rule : Rule α) : Rule (Option α) := do
  match ← optional [mark] with
  | none => return none
  | some _ => return some (← rule)

/-- Gets stuck where a token of this kind stands. -/
def notNext (kind : Kind) : Rule Unit := fun state =>
  match oneOf [kind] state with
  | .matched _ _ => .stuck state
  | _ => .matched () state

/-- Fails where `rule` gets stuck. -/
def orFail (rule : Rule α) (fault : State → Fault) : Rule α := fun state =>
  match rule state with
  | .stuck stop => .failed (fault stop) stop
  | outcome => outcome

/-- Tries a rule: where it gets stuck, the tokens it read are given back. -/
def attempt (rule : Rule α) : Rule α := fun state =>
  match rule state with
  | .stuck stop => .stuck { stop with position := state.position, rest := state.rest }
  | outcome => outcome

/-- The first of the alternatives that does not get stuck. -/
def choice : List (Rule α) → Rule α
  | [] => mismatch
  | rule :: rules => fun state =>
    match attempt rule state with
    | .stuck stop => choice rules stop
    | outcome => outcome

/-- Applies a rule as often as it matches.  A match that reads no token is the last one. -/
def many (rule : Rule α) : Rule (List α) := fun state =>
  match attempt rule state with
  | .stuck stop => .matched [] stop
  | .failed fault stop => .failed fault stop
  | .matched value after =>
    if after.rest.length < state.rest.length then
      match many rule after with
      | .matched values last => .matched (value :: values) last
      | outcome => outcome
    else .matched [value] after
termination_by state => state.rest.length

/-- Reads inside a callable of this kind; afterwards the callable around it is current again. -/
def inside (kind : Kind) (rule : Rule α) : Rule α := fun state =>
  match rule { state with enclosing := kind } with
  | .matched value after => .matched value { after with enclosing := state.enclosing }
  | .stuck stop => .stuck { stop with enclosing := state.enclosing }
  | .failed fault stop => .failed fault { stop with enclosing := state.enclosing }

def enclosing : Rule Kind := fun state => .matched state.enclosing state

def fail (fault : Fault) : Rule α := fun state => .failed fault state

end Rule

end LegacyBasic.Grammar
