import Mathlib
import LegacyBasic.Proofs.Alternatives

/-!
Which rules fail.  A repetition fails in one of its rounds and a choice in one of its alternatives,
and no rule but an argument list fails at all: the others match or get stuck.
-/

namespace LegacyBasic.Grammar

variable {α β : Type}

namespace Rule

/-- Before `rest`, the rule reads exactly `tokens` and gets stuck there. -/
def StopsAfter (rule : Rule α) (kind : Kind) (tokens rest : List Token) : Prop :=
  ∀ position, rule ⟨position, tokens ++ rest, kind⟩ =
    .stuck ⟨position + tokens.length, rest, kind⟩

/-- Before `rest`, the rule reads exactly `tokens` and fails there. -/
def FailsAfter (rule : Rule α) (kind : Kind) (tokens rest : List Token) : Prop :=
  ∀ position, rule ⟨position, tokens ++ rest, kind⟩ =
    .failed (.malformedArguments (position + tokens.length) rest.head?)
      ⟨position + tokens.length, rest, kind⟩

/-- The rule matches or gets stuck from every state. -/
def NeverFails (rule : Rule α) : Prop := ∀ state fault stop, rule state ≠ .failed fault stop

/-- Round after round of a repetition leads from a state to another one. -/
inductive Rounds (rule : Rule α) : State → List α → State → Prop where
  | nil (state : State) : Rounds rule state [] state
  | cons {state middle last : State} {value : α} {values : List α}
      (hfirst : rule state = .matched value middle) (hothers : Rounds rule middle values last) :
      Rounds rule state (value :: values) last

section Outcomes

variable {kind : Kind} {tokens first second rest : List Token}

/-- A sequence gets stuck in its first part, or in the next after the first has matched. -/
theorem bind_eq_stuck_iff {rule : Rule α} {next : α → Rule β} {state stop : State} :
    (rule >>= next) state = .stuck stop ↔
      rule state = .stuck stop ∨
        ∃ value middle, rule state = .matched value middle ∧ next value middle = .stuck stop := by
  rw [bind_run]
  cases rule state <;> simp

theorem bind_eq_failed_iff {rule : Rule α} {next : α → Rule β} {state stop : State}
    {fault : Fault} :
    (rule >>= next) state = .failed fault stop ↔
      rule state = .failed fault stop ∨
        ∃ value middle, rule state = .matched value middle ∧
          next value middle = .failed fault stop := by
  rw [bind_run]
  cases rule state <;> simp

/-- A single token is missed without anything being read. -/
theorem oneOf_eq_stuck {kinds : List Kind} {state stop : State}
    (h : oneOf kinds state = .stuck stop) : stop = state ∧ NextNot kinds state.rest := by
  rcases oneOf_cases kinds state with ⟨token, after, hmatched⟩ | hstuck
  · rw [hmatched] at h
    cases h
  · rw [hstuck] at h
    refine ⟨(Outcome.stuck.inj h).symm, ?_⟩
    intro token htoken hkind
    obtain ⟨rest, hrest⟩ := List.head?_eq_some_iff.1 htoken
    simp [oneOf, hrest, hkind] at hstuck

/-- A part is left out only where no token for it stands next. -/
theorem optional_eq_none {kinds : List Kind} {state after : State}
    (h : optional kinds state = .matched none after) :
    after = state ∧ NextNot kinds state.rest := by
  rcases oneOf_cases kinds state with ⟨token, middle, hmatched⟩ | hstuck
  · simp [optional, hmatched] at h
  · simp only [optional, hstuck, Outcome.matched.injEq, true_and] at h
    exact ⟨h.symm, (oneOf_eq_stuck hstuck).2⟩

theorem optional_ne_stuck (kinds : List Kind) (state stop : State) :
    optional kinds state ≠ .stuck stop := by
  unfold optional
  split <;> simp

theorem notNext_eq_matched_iff {expected : Kind} {state after : State} :
    notNext expected state = .matched () after ↔
      after = state ∧ NextNot [expected] state.rest := by
  rcases oneOf_cases [expected] state with ⟨token, middle, hmatched⟩ | hstuck
  · obtain ⟨hkind, hreads⟩ := oneOf_eq_matched_iff.1 hmatched
    simp [notNext, hmatched, hreads.rest_eq, NextNot, List.mem_singleton.1 hkind]
  · have hnot := (oneOf_eq_stuck hstuck).2
    simp [notNext, hstuck, hnot, eq_comm]

theorem stopsAfter_oneOf {kinds : List Kind} (h : NextNot kinds rest) :
    (oneOf kinds).StopsAfter kind [] rest := fun position => oneOf_of_nextNot h position

theorem StopsAfter.bind {rule : Rule α} (h : rule.StopsAfter kind tokens rest)
    (next : α → Rule β) : StopsAfter (rule >>= next) kind tokens rest := by
  intro position
  rw [bind_run, h position]

/-- Behind a part that is read, the sequence stops where its next part does. -/
theorem Accepts.bind_stopsAfter {rule : Rule α} {next : α → Rule β} {value : α}
    (hrule : rule.Accepts kind first (second ++ rest) value)
    (hnext : (next value).StopsAfter kind second rest) :
    StopsAfter (rule >>= next) kind (first ++ second) rest := by
  intro position
  rw [bind_run, List.append_assoc, hrule position, List.length_append, ← Nat.add_assoc]
  exact hnext (position + first.length)

theorem stopsAfter_oneOf_bind {kinds : List Kind} {next : Token → Rule β} {token : Token}
    (h : token.kind ∈ kinds) (hnext : (next token).StopsAfter kind tokens rest) :
    StopsAfter (oneOf kinds >>= next) kind (token :: tokens) rest :=
  (accepts_oneOf h).bind_stopsAfter hnext

/-- What must not get stuck fails where it does, and blames the token there. -/
theorem StopsAfter.orFail {rule : Rule α} (h : rule.StopsAfter kind tokens rest) :
    FailsAfter (rule.orFail fun stop => .malformedArguments stop.position stop.rest.head?) kind
      tokens rest := by
  intro position
  simp only [Rule.orFail, h position]

theorem FailsAfter.bind {rule : Rule α} (h : rule.FailsAfter kind tokens rest)
    (next : α → Rule β) : FailsAfter (rule >>= next) kind tokens rest := by
  intro position
  rw [bind_run, h position]

theorem FailsAfter.not_isStuck {rule : Rule α} {state : State}
    (h : rule.FailsAfter state.enclosing tokens rest) (hrest : state.rest = tokens ++ rest) :
    ¬rule.IsStuck state := by
  rintro ⟨stop, hstop⟩
  have hfails := h state.position
  rw [← hrest, hstop] at hfails
  cases hfails

/-- Behind a part that is read, the sequence fails where its next part does. -/
theorem Accepts.bind_failsAfter {rule : Rule α} {next : α → Rule β} {value : α}
    (hrule : rule.Accepts kind first (second ++ rest) value)
    (hnext : (next value).FailsAfter kind second rest) :
    FailsAfter (rule >>= next) kind (first ++ second) rest := by
  intro position
  rw [bind_run, List.append_assoc, hrule position, List.length_append, ← Nat.add_assoc]
  exact hnext (position + first.length)

theorem failsAfter_oneOf_bind {kinds : List Kind} {next : Token → Rule β} {token : Token}
    (h : token.kind ∈ kinds) (hnext : (next token).FailsAfter kind tokens rest) :
    FailsAfter (oneOf kinds >>= next) kind (token :: tokens) rest :=
  (accepts_oneOf h).bind_failsAfter hnext

/-- A repetition fails in the round after those it can read. -/
theorem Repeats.many_failsAfter {rule : Rule α} {values : List α}
    (h : rule.Repeats kind first (second ++ rest) values)
    (hfails : rule.FailsAfter kind second rest) :
    (many rule).FailsAfter kind (first ++ second) rest := by
  intro position
  have hround : many rule ⟨position + first.length, second ++ rest, kind⟩ =
      .failed (.malformedArguments (position + first.length + second.length) rest.head?)
        ⟨position + first.length + second.length, rest, kind⟩ := by
    rw [many]
    simp only [attempt, hfails (position + first.length)]
  rw [List.append_assoc, h position, hround, Outcome.map_failed, List.length_append,
    Nat.add_assoc]

end Outcomes

theorem pure_neverFails (value : α) : NeverFails (pure value : Rule α) := by
  intro state fault stop h
  simp at h

theorem mismatch_neverFails : NeverFails (mismatch : Rule α) := by
  intro state fault stop h
  simp [mismatch] at h

theorem enclosing_neverFails : NeverFails enclosing := by
  intro state fault stop h
  simp [enclosing] at h

theorem oneOf_neverFails (kinds : List Kind) : NeverFails (oneOf kinds) := by
  intro state fault stop h
  rcases oneOf_cases kinds state with ⟨token, after, hmatched⟩ | hstuck
  · simp [hmatched] at h
  · simp [hstuck] at h

theorem token_neverFails (kind : Kind) : NeverFails (Rule.token kind) := oneOf_neverFails [kind]

theorem optional_neverFails (kinds : List Kind) : NeverFails (optional kinds) := by
  intro state fault stop h
  unfold optional at h
  split at h <;> simp at h

theorem notNext_neverFails (kind : Kind) : NeverFails (notNext kind) := by
  intro state fault stop h
  unfold notNext at h
  split at h <;> simp at h

/-- What comes next must not fail after values that the rule can yield. -/
theorem NeverFails.bind_of_matched {rule : Rule α} {next : α → Rule β} (hrule : rule.NeverFails)
    (hnext : ∀ ⦃state value after⦄, rule state = .matched value after → (next value).NeverFails) :
    NeverFails (rule >>= next) := by
  intro state fault stop h
  rcases bind_eq_failed_iff.1 h with hfails | ⟨value, middle, hmatched, hfails⟩
  · exact hrule state fault stop hfails
  · exact hnext hmatched middle fault stop hfails

theorem NeverFails.bind {rule : Rule α} {next : α → Rule β} (hrule : rule.NeverFails)
    (hnext : ∀ value, (next value).NeverFails) : NeverFails (rule >>= next) :=
  hrule.bind_of_matched fun _ value _ _ => hnext value

theorem NeverFails.following {rule : Rule α} (hrule : rule.NeverFails) (mark : Kind) :
    NeverFails (following mark rule) := by
  refine (optional_neverFails [mark]).bind fun first => ?_
  cases first with
  | none => exact pure_neverFails none
  | some token => exact hrule.bind fun value => pure_neverFails (some value)

theorem attempt_eq_failed_iff {rule : Rule α} {state stop : State} {fault : Fault} :
    attempt rule state = .failed fault stop ↔ rule state = .failed fault stop := by
  unfold attempt
  cases rule state <;> simp

/-- A choice fails in one of its alternatives. -/
theorem choice_eq_failed {rules : List (Rule α)} (hforward : ∀ rule ∈ rules, rule.Forward)
    {state stop : State} {fault : Fault} (h : choice rules state = .failed fault stop) :
    ∃ rule ∈ rules, rule state = .failed fault stop := by
  induction rules with
  | nil => simp [choice, mismatch] at h
  | cons rule rules ih =>
    obtain ⟨hrule, hothers⟩ := List.forall_mem_cons.1 hforward
    by_cases hstuck : rule.IsStuck state
    · rw [choice_cons_of_isStuck hrule hstuck] at h
      obtain ⟨other, hmem, hother⟩ := ih hothers h
      exact ⟨other, List.mem_cons_of_mem rule hmem, hother⟩
    · rw [choice_cons_of_not_isStuck hstuck] at h
      exact ⟨rule, List.mem_cons_self, h⟩

/-- A repetition fails in one of its rounds. -/
theorem many_eq_failed {rule : Rule α} {state stop : State} {fault : Fault}
    (h : many rule state = .failed fault stop) :
    ∃ values middle, rule.Rounds state values middle ∧ rule middle = .failed fault stop := by
  induction hlength : state.rest.length using Nat.strongRecOn generalizing state with
  | _ length ih =>
    subst hlength
    rw [many] at h
    cases hattempt : attempt rule state with
    | stuck last => simp [hattempt] at h
    | failed other last =>
      simp only [hattempt, Outcome.failed.injEq] at h
      obtain ⟨rfl, rfl⟩ := h
      exact ⟨[], state, .nil state, attempt_eq_failed_iff.1 hattempt⟩
    | matched value after =>
      simp only [hattempt] at h
      split at h
      · next hless =>
        cases hmany : many rule after with
        | matched values last => simp [hmany] at h
        | stuck last => simp [hmany] at h
        | failed other last =>
          rw [hmany] at h
          obtain ⟨values, middle, hrounds, hfails⟩ :=
            ih after.rest.length hless (hmany.trans h) rfl
          exact ⟨value :: values, middle, .cons (attempt_eq_matched_iff.1 hattempt) hrounds, hfails⟩
      · simp at h

theorem NeverFails.many {rule : Rule α} (hrule : rule.NeverFails) : NeverFails (many rule) := by
  intro state fault stop h
  obtain ⟨_, middle, _, hfails⟩ := many_eq_failed h
  exact hrule middle fault stop hfails

theorem choice_neverFails {rules : List (Rule α)} (hforward : ∀ rule ∈ rules, rule.Forward)
    (hrules : ∀ rule ∈ rules, rule.NeverFails) : NeverFails (choice rules) := by
  intro state fault stop h
  obtain ⟨rule, hmem, hfails⟩ := choice_eq_failed hforward h
  exact hrules rule hmem state fault stop hfails

theorem NeverFails.inside {rule : Rule α} (hrule : rule.NeverFails) (kind : Kind) :
    NeverFails (inside kind rule) := by
  intro state fault stop h
  unfold Rule.inside at h
  split at h
  · simp at h
  · simp at h
  · next other last hlast => exact hrule _ other last hlast

/-- The rounds of a sound rule read what their values spell. -/
theorem Rounds.sound {rule : Rule α} {slots : α → List Slot} {good : Kind → α → Prop}
    (hsound : rule.Sound slots good) {state last : State} {values : List α}
    (h : rule.Rounds state values last) :
    (∀ value ∈ values, good state.enclosing value) ∧
      ∃ tokens, Spells (values.flatMap slots) tokens ∧ state.Reads tokens last := by
  induction h with
  | nil state => exact ⟨by simp, [], .nil, .refl state⟩
  | cons hfirst _ ih =>
    obtain ⟨hgood, first, hspells, hreads⟩ := hsound hfirst
    obtain ⟨hothers, second, hmore, hlast⟩ := ih
    rw [hreads.enclosing_eq] at hothers
    exact ⟨List.forall_mem_cons.2 ⟨hgood, hothers⟩, first ++ second, hspells.append hmore,
      hreads.trans hlast⟩

end Rule

open Rule

section Productions

theorem field_neverFails : field.NeverFails :=
  (token_neverFails _).bind fun _ => (token_neverFails _).bind fun _ =>
    (token_neverFails _).bind fun _ => pure_neverFails _

theorem record_neverFails : record.NeverFails :=
  (token_neverFails _).bind fun _ => (token_neverFails _).bind fun _ =>
    field_neverFails.many.bind fun _ => (token_neverFails _).bind fun _ =>
      (token_neverFails _).bind fun _ => pure_neverFails _

theorem enumerator_neverFails : enumerator.NeverFails :=
  (token_neverFails _).bind fun _ => ((token_neverFails _).following _).bind fun _ =>
    pure_neverFails _

theorem enumeration_neverFails : enumeration.NeverFails :=
  (optional_neverFails _).bind fun _ => (token_neverFails _).bind fun _ =>
    (token_neverFails _).bind fun _ => enumerator_neverFails.many.bind fun _ =>
      (token_neverFails _).bind fun _ => (token_neverFails _).bind fun _ => pure_neverFails _

theorem variableDecl_neverFails : variableDecl.NeverFails :=
  (oneOf_neverFails _).bind fun _ => (token_neverFails _).bind fun _ =>
    (token_neverFails _).bind fun _ => (token_neverFails _).bind fun _ => pure_neverFails _

theorem constantDecl_neverFails : constantDecl.NeverFails :=
  (oneOf_neverFails _).bind fun _ => (token_neverFails _).bind fun _ =>
    (token_neverFails _).bind fun _ => ((token_neverFails _).following _).bind fun _ =>
      ((token_neverFails _).following _).bind fun _ => (token_neverFails _).bind fun _ =>
        (oneOf_neverFails _).bind fun _ => pure_neverFails _

theorem assignment_neverFails : assignment.NeverFails :=
  (token_neverFails _).bind fun _ => (token_neverFails _).bind fun _ =>
    (oneOf_neverFails _).bind fun _ => pure_neverFails _

theorem exitLine_neverFails : exitLine.NeverFails :=
  (token_neverFails _).bind fun _ => (oneOf_neverFails _).bind fun _ => pure_neverFails _

theorem returnLine_neverFails : returnLine.NeverFails := by
  refine (token_neverFails _).bind fun _ => (optional_neverFails _).bind fun value =>
    enclosing_neverFails.bind fun kind => ?_
  split
  · exact mismatch_neverFails
  · exact pure_neverFails _

theorem attributeLine_neverFails : attributeLine.NeverFails :=
  (token_neverFails _).bind fun _ => (token_neverFails _).bind fun _ =>
    (token_neverFails _).bind fun _ => (oneOf_neverFails _).bind fun _ => pure_neverFails _

/-- Every configuration that an option line accepts has a value that it knows, so the fault for the
others is never met. -/
theorem optionValue_neverFails {config : Kind} (h : config ∈ optionConfigs) :
    (optionValue config).NeverFails := by
  simp only [optionConfigs, List.mem_cons, List.not_mem_nil, or_false] at h
  rcases h with rfl | rfl | rfl | rfl
  · exact pure_neverFails none
  all_goals exact (token_neverFails _).bind fun token => pure_neverFails (some token)

theorem optionLine_neverFails : optionLine.NeverFails := by
  refine (token_neverFails _).bind fun _ => (oneOf_neverFails _).bind_of_matched ?_
  intro state config after hconfig
  exact (optionValue_neverFails (oneOf_eq_matched_iff.1 hconfig).1).bind fun _ => pure_neverFails _

/-- An argument by itself gets stuck; it is its list that makes a fault of that. -/
theorem argument_neverFails : argument.NeverFails :=
  (optional_neverFails _).bind fun _ => (token_neverFails _).bind fun _ =>
    (token_neverFails _).bind fun _ => (token_neverFails _).bind fun _ => pure_neverFails _

/-- No statement of a body has an argument list. -/
theorem body_neverFails (kind : Kind) :
    (inside kind (many (choice bodyAlternatives))).NeverFails := by
  refine (choice_neverFails bodyAlternatives_forward ?_).many.inside kind
  simp only [bodyAlternatives, List.forall_mem_cons]
  exact ⟨variableDecl_neverFails, constantDecl_neverFails, assignment_neverFails,
    exitLine_neverFails, returnLine_neverFails, attributeLine_neverFails, List.forall_mem_nil _⟩

end Productions

end LegacyBasic.Grammar
