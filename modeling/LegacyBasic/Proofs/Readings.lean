import Mathlib
import LegacyBasic.Proofs.ArgumentLists
import LegacyBasic.Proofs.TokenKinds

/-!
Readings one after another.  A rule that matches has read a token, so every repetition ends.  Main
statement: reading again from where the last reading stopped, after a fault or not, only goes
forward and comes to a reading without a fault, after which nothing changes any more.
-/

namespace LegacyBasic.Grammar

variable {α β : Type}

theorem State.Reads.length_eq {state after : State} {tokens : List Token}
    (h : state.Reads tokens after) :
    state.rest.length = tokens.length + after.rest.length := by
  rw [h.rest_eq, List.length_append]

namespace Rule

/-- A rule that matches has read at least one token. -/
def Progresses (rule : Rule α) : Prop :=
  ∀ ⦃state : State⦄ ⦃value : α⦄ ⦃after : State⦄, rule state = .matched value after →
    ∃ token tokens, state.Reads (token :: tokens) after

/-- Repeating the rule from a state comes to an end.  No more rounds follow one another than there
are tokens, and after the last one the rule gets stuck or fails, which settles the repetition. -/
structure Ends (rule : Rule α) (state : State) : Prop where
  length_le : ∀ ⦃values : List α⦄ ⦃last : State⦄, rule.Rounds state values last →
    values.length + last.rest.length ≤ state.rest.length
  exists_last : ∃ values last, rule.Rounds state values last ∧
    ((rule.IsStuck last ∧ many rule state = .matched values last) ∨
      ∃ fault stop, rule last = .failed fault stop ∧ many rule state = .failed fault stop)

/-- A sound rule progresses when each of its values is written with at least one token. -/
theorem Sound.progresses {rule : Rule α} {slots : α → List Slot} {good : Kind → α → Prop}
    (hsound : rule.Sound slots good)
    (hslots : ∀ ⦃kind value tokens⦄, good kind value → Spells (slots value) tokens →
      tokens ≠ []) : rule.Progresses := by
  intro state value after h
  obtain ⟨hgood, tokens, hspells, hreads⟩ := hsound h
  cases tokens with
  | nil => exact absurd rfl (hslots hgood hspells)
  | cons token tokens => exact ⟨token, tokens, hreads⟩

theorem Progresses.map {rule : Rule α} (hrule : rule.Progresses) (f : α → β) :
    Progresses (f <$> rule) := by
  intro state value after h
  obtain ⟨_, rfl, hmatched⟩ := map_eq_matched_iff.1 h
  exact hrule hmatched

theorem Progresses.length_le_of_rounds {rule : Rule α} (hrule : rule.Progresses)
    {state last : State} {values : List α} (h : rule.Rounds state values last) :
    values.length + last.rest.length ≤ state.rest.length := by
  induction h with
  | nil state => simp
  | cons hfirst _ ih =>
    obtain ⟨token, tokens, hreads⟩ := hrule hfirst
    have hlength := hreads.length_eq
    simp only [List.length_cons] at hlength ⊢
    omega

/-- A repetition ends when each of its rounds reads a token. -/
theorem Progresses.ends {rule : Rule α} (hrule : rule.Progresses) (hforward : rule.Forward)
    (state : State) : rule.Ends state := by
  refine ⟨fun values last h => hrule.length_le_of_rounds h, ?_⟩
  induction hlength : state.rest.length using Nat.strongRecOn generalizing state with
  | _ length ih =>
    subst hlength
    cases h : rule state with
    | stuck stop =>
      refine ⟨[], state, .nil state, .inl ⟨⟨stop, h⟩, ?_⟩⟩
      exact many_of_stuck (hforward.attempt_of_stuck h)
    | failed fault stop =>
      refine ⟨[], state, .nil state, .inr ⟨fault, stop, h, ?_⟩⟩
      rw [many, attempt_eq_failed_iff.2 h]
    | matched value after =>
      obtain ⟨token, tokens, hreads⟩ := hrule h
      have hless : after.rest.length < state.rest.length := by
        rw [hreads.length_eq, List.length_cons]
        omega
      obtain ⟨values, last, hrounds, hend⟩ := ih after.rest.length hless after rfl
      refine ⟨value :: values, last, .cons h hrounds, ?_⟩
      rw [many_of_matched h hless]
      rcases hend with ⟨hstuck, hmany⟩ | ⟨fault, stop, hfails, hmany⟩
      · exact .inl ⟨hstuck, by rw [hmany, Outcome.map_matched]⟩
      · exact .inr ⟨fault, stop, hfails, by rw [hmany, Outcome.map_failed]⟩

/-- A choice that gets stuck leaves no trace. -/
theorem choice_eq_stuck {rules : List (Rule α)} (hforward : ∀ rule ∈ rules, rule.Forward)
    {state stop : State} (h : choice rules state = .stuck stop) : stop = state := by
  induction rules with
  | nil => exact (Outcome.stuck.inj h).symm
  | cons rule rules ih =>
    obtain ⟨hrule, hothers⟩ := List.forall_mem_cons.1 hforward
    by_cases hstuck : rule.IsStuck state
    · rw [choice_cons_of_isStuck hrule hstuck] at h
      exact ih hothers h
    · rw [choice_cons_of_not_isStuck hstuck] at h
      exact absurd ⟨stop, h⟩ hstuck

end Rule

open Rule

section Productions

theorem field_progresses : field.Progresses := by
  apply field_sound.progresses
  rintro kind value tokens _ hspells rfl
  cases hspells

theorem enumerator_progresses : enumerator.Progresses := by
  apply enumerator_sound.progresses
  rintro kind value tokens _ hspells rfl
  cases hspells

theorem argument_progresses : argument.Progresses := by
  apply argument_sound.progresses
  rintro kind ⟨modifier, name, type⟩ tokens _ hspells rfl
  cases modifier <;> cases hspells

theorem nextArgument_progresses : nextArgument.Progresses := by
  apply nextArgument_sound.progresses
  rintro kind ⟨modifier, name, type⟩ tokens _ hspells rfl
  cases modifier <;> cases hspells

/-- A statement of a module is written with at least one token. -/
theorem progresses_of_inModule {rule : Rule Statement}
    (h : rule.Sound Statement.slots fun _ => Statement.InModule) : rule.Progresses :=
  h.progresses fun _ _ _ hgood hspells => ne_nil_of_spells_inModule hgood hspells

/-- A statement of a body is written with at least one token. -/
theorem progresses_of_inBody {rule : Rule Statement}
    (h : rule.Sound Statement.slots Statement.InBody) : rule.Progresses := by
  apply h.progresses
  rintro kind statement tokens hgood hspells rfl
  obtain ⟨token, rest, hcons, _⟩ := hgood.exists_cons hspells
  cases hcons

theorem moduleStatement_progresses : moduleStatement.Progresses :=
  progresses_of_inModule moduleStatement_sound

theorem bodyStatement_progresses : bodyStatement.Progresses :=
  progresses_of_inBody bodyStatement_sound

theorem namedRules_progresses : ∀ rule ∈ namedRules, rule.Progresses := by
  simp only [namedRules, List.forall_mem_cons]
  exact ⟨progresses_of_inModule record_sound, field_progresses.map _,
    progresses_of_inModule enumeration_sound, enumerator_progresses.map _,
    progresses_of_inModule (variableDecl_sound.mono fun _ _ h => h.inModule),
    progresses_of_inModule (constantDecl_sound.mono fun _ _ h => h.inModule),
    progresses_of_inModule subroutine_sound, progresses_of_inModule function_sound,
    argument_progresses.map _, progresses_of_inBody exitLine_sound,
    progresses_of_inBody assignment_sound, progresses_of_inBody returnLine_sound,
    progresses_of_inModule optionLine_sound,
    progresses_of_inModule (attributeLine_sound.mono fun _ _ h => h.inModule),
    moduleStatement_progresses, bodyStatement_progresses, List.forall_mem_nil _⟩

theorem namedRules_forward : ∀ rule ∈ namedRules, rule.Forward := by
  simp only [namedRules, List.forall_mem_cons]
  exact ⟨record_forward, field_forward.bind fun _ => pure_forward _, enumeration_forward,
    enumerator_forward.bind fun _ => pure_forward _, variableDecl_forward, constantDecl_forward,
    subroutine_forward, function_forward, argument_forward.bind fun _ => pure_forward _,
    exitLine_forward, assignment_forward, returnLine_forward, optionLine_forward,
    attributeLine_forward, moduleStatement_forward, bodyStatement_forward, List.forall_mem_nil _⟩

/-- Four tokens open the argument list that breaks off. -/
theorem BreaksOff.four_le_length {read rest : List Token} (h : BreaksOff read rest) :
    4 ≤ read.length := by
  obtain ⟨scope, word, name, opening, arguments, written, begun, expected, rfl, _⟩ := h
  simp only [List.length_cons]
  omega

end Productions

namespace State

/-- The state after a reading, whatever its result. -/
def afterReading (state : State) : State := state.parse.2

/-- What a reading does.  It ends where no statement begins, or it fails at least four tokens
further on. -/
theorem parse_cases (state : State) :
    (∃ statements, state.parse.1 = .ok statements ∧
      moduleStatement.IsStuck state.afterReading) ∨
    ∃ fault read, state.parse.1 = .error fault ∧ state.Reads read state.afterReading ∧
      4 ≤ read.length := by
  obtain ⟨statements, last, hrounds, ⟨hstuck, hmany⟩ | ⟨fault, stop, hfails, hmany⟩⟩ :=
    (moduleStatement_progresses.ends moduleStatement_forward state).exists_last
  · have hparse : state.parse = (.ok statements, last) := by rw [State.parse_eq_many, hmany]
    exact .inl ⟨statements, by rw [hparse], by rwa [afterReading, hparse]⟩
  · have hparse : state.parse = (.error fault, stop) := by rw [State.parse_eq_many, hmany]
    obtain ⟨_, front, _, hfront⟩ := hrounds.sound moduleStatement_sound
    obtain ⟨read, hread, hbreaks⟩ := exists_breaksOff_of_failed hfails
    refine .inr ⟨fault, front ++ read, by rw [hparse], ?_, ?_⟩
    · rw [afterReading, hparse]
      exact hfront.trans hread
    · have hfour := hbreaks.four_le_length
      rw [List.length_append]
      omega

theorem isStuck_afterReading {state : State} {statements : List Statement}
    (h : state.parse.1 = .ok statements) : moduleStatement.IsStuck state.afterReading := by
  rcases state.parse_cases with ⟨_, _, hstuck⟩ | ⟨fault, _, herror, _⟩
  · exact hstuck
  · rw [h] at herror
    cases herror

theorem position_add_four_le {state : State} {fault : Fault}
    (h : state.parse.1 = .error fault) : state.position + 4 ≤ state.afterReading.position := by
  rcases state.parse_cases with ⟨_, hok, _⟩ | ⟨_, read, _, hreads, hfour⟩
  · rw [hok] at h
    cases h
  · rw [hreads.position_eq]
    omega

/-- A reading only goes forward. -/
theorem reads_afterReading (state : State) : ∃ read, state.Reads read state.afterReading := by
  obtain ⟨read, hreads⟩ := moduleStatement_forward.many state
  refine ⟨read, ?_⟩
  rw [afterReading, State.parse_eq_many]
  cases hmany : Rule.many moduleStatement state <;> rwa [hmany] at hreads

/-- Where no statement begins, a reading yields none and stays. -/
theorem parse_of_isStuck {state : State} (h : moduleStatement.IsStuck state) :
    state.parse = (.ok [], state) := by
  obtain ⟨stop, hstop⟩ := h
  rw [State.parse_eq_many, many_of_stuck (moduleStatement_forward.attempt_of_stuck hstop)]

theorem reads_iterate_afterReading (count : Nat) (state : State) :
    ∃ read, state.Reads read (afterReading^[count] state) := by
  induction count with
  | zero => exact ⟨[], .refl state⟩
  | succ count ih =>
    obtain ⟨read, hread⟩ := ih
    obtain ⟨more, hmore⟩ := (afterReading^[count] state).reads_afterReading
    rw [Function.iterate_succ_apply']
    exact ⟨read ++ more, hread.trans hmore⟩

/-- What is reached from the start of a token list stands inside it, and in no callable. -/
theorem Reads.of_ofTokens {tokens read : List Token} {state : State}
    (h : (State.ofTokens tokens).Reads read state) :
    state.position ≤ tokens.length ∧ state.rest = tokens.drop state.position ∧
      state.enclosing = .illegal := by
  have htokens : tokens = read ++ state.rest := h.rest_eq
  have hposition : state.position = read.length := h.position_eq.trans (Nat.zero_add read.length)
  refine ⟨?_, ?_, h.enclosing_eq⟩
  · rw [hposition, htokens, List.length_append]
    exact Nat.le_add_right _ _
  · rw [hposition, htokens, List.drop_left]

/-- Once no statement begins where the readings have come to, they stay there. -/
theorem iterate_afterReading_of_isStuck {state : State} {count later : Nat}
    (h : moduleStatement.IsStuck (afterReading^[count] state)) (hle : count ≤ later) :
    afterReading^[later] state = afterReading^[count] state := by
  have hfixed : afterReading (afterReading^[count] state) = afterReading^[count] state := by
    rw [afterReading, parse_of_isStuck h]
  obtain ⟨more, rfl⟩ := Nat.exists_eq_add_of_le' hle
  rw [Function.iterate_add_apply]
  exact Function.iterate_fixed hfixed more

/-- Reading again after every fault comes to a reading without one: four tokens are used up by each
fault. -/
theorem exists_iterate_parse_eq_ok (state : State) :
    ∃ count, 4 * count ≤ state.rest.length ∧
      ∃ statements, (afterReading^[count] state).parse.1 = .ok statements := by
  induction hlength : state.rest.length using Nat.strongRecOn generalizing state with
  | _ length ih =>
    subst hlength
    rcases state.parse_cases with ⟨statements, hok, _⟩ | ⟨fault, read, _, hreads, hfour⟩
    · exact ⟨0, by simp, statements, hok⟩
    · have hrest := hreads.length_eq
      obtain ⟨count, hcount, hlast⟩ :=
        ih state.afterReading.rest.length (by omega) state.afterReading rfl
      exact ⟨count + 1, by omega, hlast⟩

end State

/-- Readings of one token list, each from where the one before it stopped, after a fault or not.
Between them the position stays inside the list and never goes back, and no callable is open.  A
reading without a fault is the last that does anything; one with a fault goes on by four tokens or
more, so the last one is reached.  Inside a reading, a rule that matches has read a token, a choice
that gets stuck leaves no trace, and so every repetition ends. -/
theorem parse_iterate (tokens : List Token) :
    let states (count : Nat) : State := State.afterReading^[count] (State.ofTokens tokens)
    (∀ count, (states count).position ≤ tokens.length ∧
      (states count).rest = tokens.drop (states count).position ∧
      (states count).enclosing = .illegal ∧
      (states count).position ≤ (states (count + 1)).position) ∧
    (∀ count statements, (states count).parse.1 = .ok statements →
      ∀ later, count < later →
        (states later).parse.1 = .ok [] ∧ states later = states (count + 1)) ∧
    (∀ count fault, (states count).parse.1 = .error fault →
      (states count).position + 4 ≤ (states (count + 1)).position) ∧
    (∃ count statements, 4 * count ≤ tokens.length ∧
      (states count).parse.1 = .ok statements) ∧
    (∀ label rule, ruleNamed? label = some rule → rule.Progresses) ∧
    (∀ rules : List (Rule Statement), (∀ rule ∈ rules, ∃ label, ruleNamed? label = some rule) →
      ∀ state stop, choice rules state = .stuck stop → stop = state) ∧
    ∀ state, moduleStatement.Ends state ∧ bodyStatement.Ends state ∧ field.Ends state ∧
      enumerator.Ends state ∧ nextArgument.Ends state := by
  intro states
  have hnext : ∀ count, states (count + 1) = (states count).afterReading :=
    fun count => Function.iterate_succ_apply' State.afterReading count (State.ofTokens tokens)
  refine ⟨?_, ?_, ?_, ?_, ?_, ?_, ?_⟩
  · intro count
    obtain ⟨read, hread⟩ := State.reads_iterate_afterReading count (State.ofTokens tokens)
    obtain ⟨hinside, hrest, henclosing⟩ := hread.of_ofTokens
    refine ⟨hinside, hrest, henclosing, ?_⟩
    obtain ⟨more, hmore⟩ := (states count).reads_afterReading
    rw [hnext, hmore.position_eq]
    exact Nat.le_add_right _ _
  · intro count statements hok later hlater
    have hstuck := State.isStuck_afterReading hok
    rw [← hnext] at hstuck
    have hsame : states later = states (count + 1) :=
      State.iterate_afterReading_of_isStuck hstuck hlater
    rw [hsame, State.parse_of_isStuck hstuck]
    exact ⟨rfl, rfl⟩
  · intro count fault herror
    rw [hnext]
    exact State.position_add_four_le herror
  · obtain ⟨count, hcount, statements, hok⟩ :=
      State.exists_iterate_parse_eq_ok (State.ofTokens tokens)
    exact ⟨count, statements, hcount, hok⟩
  · intro label rule hlabel
    exact namedRules_progresses rule (mem_namedRules hlabel)
  · intro rules hrules state stop
    apply choice_eq_stuck
    intro rule hmem
    obtain ⟨label, hlabel⟩ := hrules rule hmem
    exact namedRules_forward rule (mem_namedRules hlabel)
  · intro state
    exact ⟨moduleStatement_progresses.ends moduleStatement_forward state,
      bodyStatement_progresses.ends bodyStatement_forward state,
      field_progresses.ends field_forward state,
      enumerator_progresses.ends enumerator_forward state,
      nextArgument_progresses.ends nextArgument_forward state⟩

/-- `Public Sub x(Public Function x(Dim x As x Dim`: two readings fail, at the second `Public` and
at the first `Dim`, the third yields the variable, and later ones yield nothing. -/
theorem parse_iterate_two_faults :
    let word (keyword : Keyword) : Token := { kind := .keyword keyword }
    let opening : Token := { kind := .symbol .leftParen }
    let name : Token := { kind := .identifier, literal := [0x78] }
    let states (count : Nat) : State := State.afterReading^[count] (State.ofTokens
      [word .publicWord, word .subWord, name, opening, word .publicWord, word .functionWord, name,
        opening, word .dimWord, name, word .asWord, name, word .dimWord])
    (states 0).parse.1 = .error (.malformedArguments 4 (some (word .publicWord))) ∧
      (states 0).position + 4 ≤ (states 1).position ∧
      (states 1).parse.1 = .error (.malformedArguments 8 (some (word .dimWord))) ∧
      (states 1).position + 4 ≤ (states 2).position ∧
      (states 2).parse.1 = .ok [.variableDecl (word .dimWord) name name] ∧
      (states 3).remaining = 1 ∧
      ∀ later, 2 < later → (states later).parse.1 = .ok [] ∧ states later = states 3 := by
  intro word opening name states
  obtain ⟨_, hfinal, hfault, _⟩ := parse_iterate
    [word .publicWord, word .subWord, name, opening, word .publicWord, word .functionWord, name,
      opening, word .dimWord, name, word .asWord, name, word .dimWord]
  have hone : states 1 = ⟨4, [word .publicWord, word .functionWord, name, opening, word .dimWord,
      name, word .asWord, name, word .dimWord], .illegal⟩ := by
    simp only [states, word, opening, name]
    decide +kernel
  have htwo : states 2 =
      ⟨8, [word .dimWord, name, word .asWord, name, word .dimWord], .illegal⟩ := by
    simp only [states, word, opening, name]
    decide +kernel
  have hthree : states 3 = ⟨12, [word .dimWord], .illegal⟩ := by
    simp only [states, word, opening, name]
    decide +kernel
  have hfirst : (states 0).parse.1 = .error (.malformedArguments 4 (some (word .publicWord))) := by
    change (State.ofTokens _).parse.1 = _
    cbv
  have hsecond : (states 1).parse.1 = .error (.malformedArguments 8 (some (word .dimWord))) := by
    rw [hone]
    cbv
  have hthird : (states 2).parse.1 = .ok [.variableDecl (word .dimWord) name name] := by
    rw [htwo]
    cbv
  exact ⟨hfirst, hfault 0 _ hfirst, hsecond, hfault 1 _ hsecond, hthird, by rw [hthree]; rfl,
    hfinal 2 _ hthird⟩

end LegacyBasic.Grammar
