import LegacyBasic.Grammar.Rule
import LegacyBasic.Proofs.ConcreteSyntax

/-!
Laws of the grammar rules.  Every rule reads forward and leaves the enclosing callable as it was,
also where it gets stuck or fails; so a rule that is tried and gets stuck leaves no trace.  A rule
is sound when the tokens it reads spell the value it yields.
-/

namespace LegacyBasic.Grammar

variable {α β : Type}

/-- Reading `tokens` leads from `state` to `after`. -/
structure State.Reads (state : State) (tokens : List Token) (after : State) : Prop where
  rest_eq : state.rest = tokens ++ after.rest
  position_eq : after.position = state.position + tokens.length
  enclosing_eq : after.enclosing = state.enclosing

namespace State.Reads

theorem refl (state : State) : state.Reads [] state := ⟨rfl, rfl, rfl⟩

theorem trans {state middle after : State} {first second : List Token}
    (hfirst : state.Reads first middle) (hsecond : middle.Reads second after) :
    state.Reads (first ++ second) after where
  rest_eq := by rw [hfirst.rest_eq, hsecond.rest_eq, List.append_assoc]
  position_eq := by
    rw [hsecond.position_eq, hfirst.position_eq, List.length_append, Nat.add_assoc]
  enclosing_eq := hsecond.enclosing_eq.trans hfirst.enclosing_eq

end State.Reads

namespace Outcome

/-- Where a rule left off. -/
def state : Outcome α → State
  | matched _ after => after
  | stuck stop => stop
  | failed _ stop => stop

def map (f : α → β) : Outcome α → Outcome β
  | matched value after => matched (f value) after
  | stuck stop => stuck stop
  | failed fault stop => failed fault stop

@[simp]
theorem map_matched (f : α → β) (value : α) (after : State) :
    (matched value after).map f = matched (f value) after := rfl

@[simp]
theorem map_stuck (f : α → β) (stop : State) : (stuck stop : Outcome α).map f = stuck stop := rfl

@[simp]
theorem map_failed (f : α → β) (fault : Fault) (stop : State) :
    (failed fault stop : Outcome α).map f = failed fault stop := rfl

@[simp]
theorem state_map (f : α → β) (outcome : Outcome α) : (outcome.map f).state = outcome.state := by
  cases outcome <;> rfl

theorem map_map {γ : Type} (f : α → β) (g : β → γ) (outcome : Outcome α) :
    (outcome.map f).map g = outcome.map (g ∘ f) := by
  cases outcome <;> rfl

end Outcome

namespace Rule

/-- A rule reads forward, whatever its outcome. -/
def Forward (rule : Rule α) : Prop :=
  ∀ state : State, ∃ tokens, state.Reads tokens (rule state).state

/-- The tokens a rule reads spell the value it yields, and the value is good for the enclosing
callable. -/
def Sound (rule : Rule α) (slots : α → List Slot) (good : Kind → α → Prop) : Prop :=
  ∀ ⦃state : State⦄ ⦃value : α⦄ ⦃after : State⦄, rule state = .matched value after →
    good state.enclosing value ∧ ∃ tokens, Spells (slots value) tokens ∧ state.Reads tokens after

theorem pure_eq_matched_iff {value result : α} {state after : State} :
    (pure value : Rule α) state = .matched result after ↔ result = value ∧ after = state := by
  rw [pure_run, Outcome.matched.injEq, eq_comm, eq_comm (a := state)]

/-- A sequence matches where its parts do, one after the other. -/
theorem bind_eq_matched_iff {rule : Rule α} {next : α → Rule β} {state after : State} {result : β} :
    (rule >>= next) state = .matched result after ↔
      ∃ value middle, rule state = .matched value middle ∧
        next value middle = .matched result after := by
  rw [bind_run]
  cases hrule : rule state with
  | matched value middle =>
    constructor
    · intro h
      exact ⟨value, middle, rfl, h⟩
    · rintro ⟨_, _, heq, h⟩
      cases heq
      exact h
  | stuck stop => simp
  | failed fault stop => simp

theorem map_eq_matched_iff {f : α → β} {rule : Rule α} {state after : State} {result : β} :
    (f <$> rule) state = .matched result after ↔
      ∃ value, result = f value ∧ rule state = .matched value after := by
  change (rule >>= fun value => pure (f value)) state = .matched result after ↔ _
  rw [bind_eq_matched_iff]
  constructor
  · rintro ⟨value, middle, hrule, hpure⟩
    obtain ⟨rfl, rfl⟩ := pure_eq_matched_iff.1 hpure
    exact ⟨value, rfl, hrule⟩
  · rintro ⟨value, rfl, hrule⟩
    exact ⟨value, after, hrule, rfl⟩

theorem oneOf_eq_matched_iff {kinds : List Kind} {state after : State} {token : Token} :
    oneOf kinds state = .matched token after ↔ token.kind ∈ kinds ∧ state.Reads [token] after := by
  constructor
  · intro h
    unfold oneOf at h
    split at h
    · simp at h
    · next first rest hrest =>
      split at h
      · next hmem =>
        simp only [Outcome.matched.injEq] at h
        obtain ⟨rfl, rfl⟩ := h
        exact ⟨hmem, hrest, rfl, rfl⟩
      · simp at h
  · rintro ⟨hmem, hrest, hposition, henclosing⟩
    obtain ⟨position, rest, enclosing⟩ := after
    simp only [List.singleton_append, List.length_singleton] at hrest hposition henclosing
    subst hposition henclosing
    simp [oneOf, hrest, hmem]

theorem token_eq_matched_iff {kind : Kind} {state after : State} {token : Token} :
    Rule.token kind state = .matched token after ↔
      token.kind = kind ∧ state.Reads [token] after := by
  simp [Rule.token, oneOf_eq_matched_iff]

/-- A single token is read, or nothing is. -/
theorem oneOf_cases (kinds : List Kind) (state : State) :
    (∃ token after, oneOf kinds state = .matched token after) ∨
      oneOf kinds state = .stuck state := by
  unfold oneOf
  split
  · exact .inr rfl
  · split
    · exact .inl ⟨_, _, rfl⟩
    · exact .inr rfl

/-- A part that may be left out is read as its slot, be it filled or empty. -/
theorem optional_eq_matched {kinds : List Kind} {state after : State} {value : Option Token}
    (h : optional kinds state = .matched value after) :
    (∀ token ∈ value, token.kind ∈ kinds) ∧
      ∃ tokens, Spells (Slot.optional value) tokens ∧ state.Reads tokens after := by
  unfold optional at h
  split at h
  · next token middle htoken =>
    simp only [Outcome.matched.injEq] at h
    obtain ⟨rfl, rfl⟩ := h
    obtain ⟨hkind, hreads⟩ := oneOf_eq_matched_iff.1 htoken
    exact ⟨by simpa using hkind, [token], .part token .nil, hreads⟩
  · simp only [Outcome.matched.injEq] at h
    obtain ⟨rfl, rfl⟩ := h
    exact ⟨by simp, [], .nil, .refl state⟩

theorem following_eq_matched {mark kind : Kind} {state after : State} {value : Option Token}
    (h : following mark (Rule.token kind) state = .matched value after) :
    (∀ token ∈ value, token.kind = kind) ∧
      ∃ tokens, Spells (Slot.following mark value) tokens ∧ state.Reads tokens after := by
  rw [following, bind_eq_matched_iff] at h
  obtain ⟨first, middle, hfirst, hnext⟩ := h
  obtain ⟨hmark, tokens, hspells, hreads⟩ := optional_eq_matched hfirst
  cases first with
  | none =>
    obtain ⟨rfl, rfl⟩ := pure_eq_matched_iff.1 hnext
    obtain rfl := Spells.nil_iff.1 hspells
    exact ⟨by simp, [], .nil, hreads⟩
  | some first =>
    rw [bind_eq_matched_iff] at hnext
    obtain ⟨token, last, htoken, hpure⟩ := hnext
    obtain ⟨rfl, rfl⟩ := pure_eq_matched_iff.1 hpure
    obtain ⟨hkind, hlast⟩ := token_eq_matched_iff.1 htoken
    obtain ⟨_, rfl, hnil⟩ := Spells.part_iff.1 hspells
    obtain rfl := Spells.nil_iff.1 hnil
    refine ⟨by simpa using hkind, [first, token], ?_, hreads.trans hlast⟩
    exact .mark (by simpa using hmark) (.part token .nil)

theorem notNext_eq_matched {kind : Kind} {state after : State} {value : Unit}
    (h : notNext kind state = .matched value after) : after = state := by
  unfold notNext at h
  split at h
  · simp at h
  · simpa using h.symm

theorem orFail_eq_matched_iff {rule : Rule α} {fault : State → Fault} {state after : State}
    {value : α} :
    orFail rule fault state = .matched value after ↔ rule state = .matched value after := by
  unfold orFail
  cases rule state <;> simp

theorem attempt_eq_matched_iff {rule : Rule α} {state after : State} {value : α} :
    attempt rule state = .matched value after ↔ rule state = .matched value after := by
  unfold attempt
  cases rule state <;> simp

/-- A rule that is tried and gets stuck leaves no trace. -/
theorem Forward.attempt_of_stuck {rule : Rule α} (hrule : rule.Forward) {state stop : State}
    (h : rule state = .stuck stop) : attempt rule state = .stuck state := by
  obtain ⟨tokens, hreads⟩ := hrule state
  rw [h] at hreads
  have henclosing : stop.enclosing = state.enclosing := hreads.enclosing_eq
  simp [attempt, h, henclosing]

/-- Where an attempt gets stuck, nothing has been read. -/
theorem Forward.state_eq_of_attempt_stuck {rule : Rule α} (hrule : rule.Forward)
    {state stop : State} (h : attempt rule state = .stuck stop) : stop = state := by
  cases hresult : rule state with
  | matched value after => simp [attempt, hresult] at h
  | failed fault last => simp [attempt, hresult] at h
  | stuck last =>
    rw [hrule.attempt_of_stuck hresult] at h
    simpa using h.symm

theorem pure_forward (value : α) : Forward (pure value : Rule α) :=
  fun state => ⟨[], .refl state⟩

theorem mismatch_forward : Forward (mismatch : Rule α) := fun state => ⟨[], .refl state⟩

theorem fail_forward (fault : Fault) : Forward (fail fault : Rule α) :=
  fun state => ⟨[], .refl state⟩

theorem enclosing_forward : Forward enclosing := fun state => ⟨[], .refl state⟩

theorem oneOf_forward (kinds : List Kind) : Forward (oneOf kinds) := by
  intro state
  rcases oneOf_cases kinds state with ⟨token, after, h⟩ | h
  · rw [h]
    exact ⟨[token], (oneOf_eq_matched_iff.1 h).2⟩
  · rw [h]
    exact ⟨[], .refl state⟩

theorem token_forward (kind : Kind) : Forward (Rule.token kind) := oneOf_forward [kind]

theorem optional_forward (kinds : List Kind) : Forward (optional kinds) := by
  intro state
  rcases oneOf_cases kinds state with ⟨token, after, h⟩ | h
  · simp only [optional, h]
    exact ⟨[token], (oneOf_eq_matched_iff.1 h).2⟩
  · simp only [optional, h]
    exact ⟨[], .refl state⟩

theorem notNext_forward (kind : Kind) : Forward (notNext kind) := by
  intro state
  rcases oneOf_cases [kind] state with ⟨token, after, h⟩ | h
  · simp only [notNext, h]
    exact ⟨[], .refl state⟩
  · simp only [notNext, h]
    exact ⟨[], .refl state⟩

theorem Forward.bind {rule : Rule α} {next : α → Rule β} (hrule : rule.Forward)
    (hnext : ∀ value, (next value).Forward) : Forward (rule >>= next) := by
  intro state
  obtain ⟨tokens, hreads⟩ := hrule state
  rw [bind_run]
  cases h : rule state with
  | matched value middle =>
    rw [h] at hreads
    obtain ⟨others, hothers⟩ := hnext value middle
    exact ⟨tokens ++ others, hreads.trans hothers⟩
  | stuck stop =>
    rw [h] at hreads
    exact ⟨tokens, hreads⟩
  | failed fault stop =>
    rw [h] at hreads
    exact ⟨tokens, hreads⟩

theorem Forward.following {mark : Kind} {rule : Rule α} (hrule : rule.Forward) :
    Forward (following mark rule) := by
  refine (optional_forward [mark]).bind fun first => ?_
  cases first with
  | none => exact pure_forward none
  | some token => exact hrule.bind fun value => pure_forward (some value)

theorem Forward.orFail {rule : Rule α} (hrule : rule.Forward) (fault : State → Fault) :
    Forward (orFail rule fault) := by
  intro state
  obtain ⟨tokens, hreads⟩ := hrule state
  refine ⟨tokens, ?_⟩
  cases h : rule state <;>
    · rw [h] at hreads
      simp only [Rule.orFail, h]
      exact hreads

theorem Forward.attempt {rule : Rule α} (hrule : rule.Forward) : Forward (attempt rule) := by
  intro state
  cases h : rule state with
  | matched value after =>
    obtain ⟨tokens, hreads⟩ := hrule state
    exact ⟨tokens, by simpa [Rule.attempt, h] using h ▸ hreads⟩
  | failed fault stop =>
    obtain ⟨tokens, hreads⟩ := hrule state
    exact ⟨tokens, by simpa [Rule.attempt, h] using h ▸ hreads⟩
  | stuck stop =>
    rw [hrule.attempt_of_stuck h]
    exact ⟨[], .refl state⟩

/-- Alternatives that get stuck give back what they read, so the choice goes forward too. -/
theorem choice_forward {rules : List (Rule α)} (hrules : ∀ rule ∈ rules, rule.Forward) :
    Forward (choice rules) := by
  induction rules with
  | nil => exact mismatch_forward
  | cons rule rules ih =>
    intro state
    have hrule : rule.Forward := hrules rule List.mem_cons_self
    have hothers := ih fun other hother => hrules other (List.mem_cons_of_mem rule hother)
    obtain ⟨tokens, hreads⟩ := hrule.attempt state
    cases h : attempt rule state with
    | matched value after => exact ⟨tokens, by simpa [choice, h] using h ▸ hreads⟩
    | failed fault stop => exact ⟨tokens, by simpa [choice, h] using h ▸ hreads⟩
    | stuck stop =>
      obtain rfl := hrule.state_eq_of_attempt_stuck h
      simpa [choice, h] using hothers stop

/-- A round of a repetition that reads something. -/
theorem many_of_matched {rule : Rule α} {state after : State} {value : α}
    (h : rule state = .matched value after) (hless : after.rest.length < state.rest.length) :
    many rule state = (many rule after).map (value :: ·) := by
  rw [many, attempt_eq_matched_iff.2 h]
  simp only [hless, ↓reduceIte]
  cases many rule after <;> rfl

theorem many_of_stuck {rule : Rule α} {state : State} (h : attempt rule state = .stuck state) :
    many rule state = .matched [] state := by
  rw [many, h]

/-- A repetition that cannot go on has matched. -/
theorem many_ne_stuck (rule : Rule α) (state stop : State) : many rule state ≠ .stuck stop := by
  induction hlength : state.rest.length using Nat.strongRecOn generalizing state stop with
  | _ length ih =>
    subst hlength
    cases h : attempt rule state with
    | stuck last => simp [many, h]
    | failed fault last => simp [many, h]
    | matched value after =>
      by_cases hless : after.rest.length < state.rest.length
      · rw [many_of_matched (attempt_eq_matched_iff.1 h) hless]
        cases hmany : many rule after with
        | stuck last => exact absurd hmany (ih after.rest.length hless after last rfl)
        | matched values last => simp
        | failed fault last => simp
      · simp [many, h, hless]

/-- Every round begins where the one before it ended. -/
theorem Forward.many {rule : Rule α} (hrule : rule.Forward) : Forward (many rule) := by
  intro state
  -- Every round reads at least one token, so the tokens left bound the rounds.
  induction hlength : state.rest.length using Nat.strongRecOn generalizing state with
  | _ length ih =>
    subst hlength
    obtain ⟨tokens, hreads⟩ := hrule.attempt state
    cases h : Rule.attempt rule state with
    | stuck stop =>
      rw [h] at hreads
      rw [Rule.many, h]
      exact ⟨tokens, hreads⟩
    | failed fault stop =>
      rw [h] at hreads
      rw [Rule.many, h]
      exact ⟨tokens, hreads⟩
    | matched value after =>
      rw [h] at hreads
      by_cases hless : after.rest.length < state.rest.length
      · obtain ⟨others, hothers⟩ := ih after.rest.length hless after rfl
        rw [many_of_matched (attempt_eq_matched_iff.1 h) hless, Outcome.state_map]
        exact ⟨tokens ++ others, hreads.trans hothers⟩
      · rw [Rule.many, h]
        simp only [hless, ↓reduceIte]
        exact ⟨tokens, hreads⟩

theorem Forward.inside {rule : Rule α} (hrule : rule.Forward) (kind : Kind) :
    Forward (inside kind rule) := by
  intro state
  obtain ⟨tokens, hrest, hposition, henclosing⟩ := hrule { state with enclosing := kind }
  refine ⟨tokens, ?_⟩
  cases h : rule { state with enclosing := kind } <;>
    · rw [h] at hrest hposition
      simp only [Rule.inside, h]
      exact ⟨hrest, hposition, rfl⟩

/-- Reading inside a callable is reading with that one as the current one, until the end. -/
theorem inside_eq_matched {rule : Rule α} {kind : Kind} {state after : State} {value : α}
    (h : inside kind rule state = .matched value after) :
    ∃ last, rule { state with enclosing := kind } = .matched value last ∧
      after = { last with enclosing := state.enclosing } := by
  unfold inside at h
  split at h
  · next last hlast =>
    simp only [Outcome.matched.injEq] at h
    obtain ⟨rfl, rfl⟩ := h
    exact ⟨last, hlast, rfl⟩
  · simp at h
  · simp at h

theorem Sound.mono {rule : Rule α} {slots : α → List Slot} {good better : Kind → α → Prop}
    (hsound : rule.Sound slots good) (himp : ∀ kind value, good kind value → better kind value) :
    rule.Sound slots better := by
  intro state value after h
  obtain ⟨hgood, hread⟩ := hsound h
  exact ⟨himp _ _ hgood, hread⟩

/-- Inside a callable, values have to be good for that one. -/
theorem Sound.inside {rule : Rule α} {slots : α → List Slot} {good : Kind → α → Prop}
    (hsound : rule.Sound slots good) (kind : Kind) :
    (inside kind rule).Sound slots fun _ => good kind := by
  intro state value after h
  obtain ⟨last, hlast, rfl⟩ := inside_eq_matched h
  obtain ⟨hgood, tokens, hspells, hreads⟩ := hsound hlast
  exact ⟨hgood, tokens, hspells, hreads.rest_eq, hreads.position_eq, rfl⟩

/-- What a choice matches, one of its alternatives does from the same state. -/
theorem choice_eq_matched {rules : List (Rule α)} (hrules : ∀ rule ∈ rules, rule.Forward)
    {state after : State} {value : α} (h : choice rules state = .matched value after) :
    ∃ rule ∈ rules, rule state = .matched value after := by
  induction rules with
  | nil => simp [choice, mismatch] at h
  | cons rule rules ih =>
    have hrule : rule.Forward := hrules rule List.mem_cons_self
    cases hattempt : attempt rule state with
    | matched first middle =>
      simp only [choice, hattempt] at h
      exact ⟨rule, List.mem_cons_self, attempt_eq_matched_iff.1 (hattempt.trans h)⟩
    | failed fault stop => simp [choice, hattempt] at h
    | stuck stop =>
      obtain rfl := hrule.state_eq_of_attempt_stuck hattempt
      simp only [choice, hattempt] at h
      obtain ⟨other, hmem, hother⟩ :=
        ih (fun other hother => hrules other (List.mem_cons_of_mem rule hother)) h
      exact ⟨other, List.mem_cons_of_mem rule hmem, hother⟩

/-- A choice is as sound as its alternatives. -/
theorem choice_sound {rules : List (Rule α)} {slots : α → List Slot} {good : Kind → α → Prop}
    (hforward : ∀ rule ∈ rules, rule.Forward) (hsound : ∀ rule ∈ rules, rule.Sound slots good) :
    (choice rules).Sound slots good := by
  intro state value after h
  obtain ⟨rule, hmem, hrule⟩ := choice_eq_matched hforward h
  exact hsound rule hmem hrule

/-- The rounds of a sound rule spell their values in a row, and each value is good. -/
theorem Sound.many {rule : Rule α} {slots : α → List Slot} {good : Kind → α → Prop}
    (hforward : rule.Forward) (hsound : rule.Sound slots good) :
    (many rule).Sound (·.flatMap slots) fun kind values => ∀ value ∈ values, good kind value := by
  intro state values after h
  induction hlength : state.rest.length using Nat.strongRecOn
    generalizing state values with
  | _ length ih =>
    subst hlength
    rw [Rule.many] at h
    cases hattempt : attempt rule state with
    | failed fault stop => simp [hattempt] at h
    | stuck stop =>
      obtain rfl := hforward.state_eq_of_attempt_stuck hattempt
      simp only [hattempt, Outcome.matched.injEq] at h
      obtain ⟨rfl, rfl⟩ := h
      exact ⟨by simp, [], .nil, .refl stop⟩
    | matched value middle =>
      obtain ⟨hgood, tokens, hspells, hreads⟩ := hsound (attempt_eq_matched_iff.1 hattempt)
      simp only [hattempt] at h
      split at h
      · next hless =>
        cases hmany : Rule.many rule middle with
        | stuck stop => simp [hmany] at h
        | failed fault stop => simp [hmany] at h
        | matched others last =>
          simp only [hmany, Outcome.matched.injEq] at h
          obtain ⟨rfl, rfl⟩ := h
          obtain ⟨hothers, rest, hrest, hlast⟩ := ih middle.rest.length hless hmany rfl
          rw [hreads.enclosing_eq] at hothers
          refine ⟨?_, tokens ++ rest, ?_, hreads.trans hlast⟩
          · simpa using ⟨hgood, hothers⟩
          · simpa using hspells.append hrest
      · simp only [Outcome.matched.injEq] at h
        obtain ⟨rfl, rfl⟩ := h
        exact ⟨by simpa using hgood, tokens, by simpa using hspells, hreads⟩

end Rule

end LegacyBasic.Grammar
