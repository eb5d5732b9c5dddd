import Mathlib
import LegacyBasic.Proofs.Concatenation
import LegacyBasic.Proofs.Failing

/-!
Argument lists that break off.  An argument list fails at the first token that neither closes it nor
goes on with an argument.  Main statement: reading fails exactly when such
a list opens after statements that are read to their end, and the token it blames is the first one
that no accepted program has there.
-/

namespace LegacyBasic

theorem Spells.optional_toList (token : Option Token) :
    Spells (Slot.optional token) token.toList := by
  cases token with
  | none => exact .nil
  | some token => exact .part token .nil

namespace Argument

/-- The beginning of an argument, with the kinds of which one has to come next. -/
inductive Begins : List Token → List Kind → Prop where
  | nothing : Begins [] (.identifier :: Grammar.argumentModifiers)
  | modifier {modifier : Token} (hmodifier : modifier.kind ∈ Grammar.argumentModifiers) :
      Begins [modifier] [.identifier]
  | name {modifier : Option Token} {name : Token}
      (hmodifier : ∀ token ∈ modifier, token.kind ∈ Grammar.argumentModifiers)
      (hname : name.kind = .identifier) : Begins (modifier.toList ++ [name]) [.keyword .asWord]
  | as {modifier : Option Token} {name as : Token}
      (hmodifier : ∀ token ∈ modifier, token.kind ∈ Grammar.argumentModifiers)
      (hname : name.kind = .identifier) (has : as.kind = .keyword .asWord) :
      Begins (modifier.toList ++ [name, as]) [.identifier]

/-- Complete arguments written as `tokens` before `rest`, each with the comma after it where one
stands. -/
structure WrittenBefore (arguments : List Argument) (tokens rest : List Token) : Prop where
  wellFormed : ∀ argument ∈ arguments, argument.WellFormed
  spells : Spells (slotsAll arguments) tokens
  comma : Grammar.NextNot [.symbol .comma] rest ∨
    ∀ last ∈ tokens.getLast?, last.kind = .symbol .comma

theorem Begins.exists_completion {begun : List Token} {expected : List Kind}
    (h : Begins begun expected) :
    ∃ (argument : Argument) (more : List Token), argument.WellFormed ∧
      Spells argument.slots (begun ++ more) := by
  let name : Token := { kind := .identifier }
  let as : Token := { kind := .keyword .asWord }
  cases h with
  | nothing =>
    exact ⟨⟨none, name, name⟩, [name, as, name], ⟨by simp, rfl, rfl⟩,
      .part name (.mark rfl (.part name .nil))⟩
  | @modifier modifier hmodifier =>
    exact ⟨⟨some modifier, name, name⟩, [name, as, name], ⟨by simpa using hmodifier, rfl, rfl⟩,
      .part modifier (.part name (.mark rfl (.part name .nil)))⟩
  | @name modifier first hmodifier hname =>
    refine ⟨⟨modifier, first, name⟩, [as, name], ⟨hmodifier, hname, rfl⟩, ?_⟩
    rw [List.append_assoc]
    exact (Spells.optional_toList modifier).append (.part first (.mark rfl (.part name .nil)))
  | @as modifier first second hmodifier hname has =>
    refine ⟨⟨modifier, first, name⟩, [name], ⟨hmodifier, hname, rfl⟩, ?_⟩
    rw [List.append_assoc]
    exact (Spells.optional_toList modifier).append (.part first (.mark has (.part name .nil)))

theorem WrittenBefore.append {first second : List Argument}
    {left right rest : List Token} (hfirst : WrittenBefore first left (right ++ rest))
    (hsecond : WrittenBefore second right rest) :
    WrittenBefore (first ++ second) (left ++ right) rest where
  wellFormed := List.forall_mem_append.2 ⟨hfirst.wellFormed, hsecond.wellFormed⟩
  spells := by
    have hspells := hfirst.spells.append hsecond.spells
    rwa [slotsAll, slotsAll, ← List.flatMap_append] at hspells
  comma := by
    cases right with
    | nil => simpa using hfirst.comma
    | cons token right =>
      rcases hsecond.comma with hnext | hlast
      · exact .inl hnext
      · right
        intro last hmem
        apply hlast last
        rwa [List.getLast?_append_of_ne_nil _ (List.cons_ne_nil token right)] at hmem

end Argument

namespace Grammar

/-- A callable opens here whose argument list breaks off: after a scope, `Sub` or `Function`, a
name, a parenthesis and complete arguments stands neither the closing parenthesis nor an
argument. -/
def OpensBrokenList (tokens : List Token) : Prop :=
  ∃ scope word name opening arguments written rest,
    tokens = scope :: word :: name :: opening :: (written ++ rest) ∧
      scope.kind ∈ callableScopes ∧
      (word.kind = .keyword .subWord ∨ word.kind = .keyword .functionWord) ∧
      name.kind = .identifier ∧ opening.kind = .symbol .leftParen ∧
      Argument.WrittenBefore arguments written rest ∧ NextNot [.symbol .rightParen] rest ∧
      ∀ (argument : Argument) (front back : List Token), argument.WellFormed →
        Spells argument.slots front → rest ≠ front ++ back

/-- The argument list of a callable is read up to `read`, where `rest` neither closes it nor goes on
with the argument begun there. -/
def BreaksOff (read rest : List Token) : Prop :=
  ∃ scope word name opening arguments written begun expected,
    read = scope :: word :: name :: opening :: (written ++ begun) ∧
      scope.kind ∈ callableScopes ∧
      (word.kind = .keyword .subWord ∨ word.kind = .keyword .functionWord) ∧
      name.kind = .identifier ∧ opening.kind = .symbol .leftParen ∧
      Argument.WrittenBefore arguments written (begun ++ rest) ∧
      Argument.Begins begun expected ∧ NextNot expected rest ∧
      NextNot [.symbol .rightParen] (begun ++ rest)

theorem nextNot_append_cons {kinds : List Kind} {front : List Token} {token : Token}
    {rest : List Token} (h : NextNot kinds (front ++ token :: rest)) (more : List Token) :
    NextNot kinds (front ++ token :: more) := by
  cases front <;> exact h

open Rule

section Arguments

variable {kind : Kind} {begun rest written : List Token} {expected : List Kind}

theorem argument_stopsAfter (h : Argument.Begins begun expected) (hrest : NextNot expected rest) :
    argument.StopsAfter kind begun rest := by
  -- A modifier that is left out is seen to be so at the name that comes next.
  have hmodifiers : ∀ {modifier : Option Token} {name : Token} {others : List Token},
      (∀ token ∈ modifier, token.kind ∈ argumentModifiers) → name.kind = .identifier →
      (Rule.optional argumentModifiers).Accepts kind modifier.toList (name :: others)
        modifier := by
    intro modifier name others hmodifier hname
    refine accepts_optional hmodifier ?_ (Spells.optional_toList modifier)
    intro _
    exact nextNot_cons.2 (by simp [hname, argumentModifiers])
  cases h with
  | nothing =>
    have hnone : (Rule.optional argumentModifiers).Accepts kind [] ([] ++ rest) none := by
      refine accepts_optional (by simp) ?_ .nil
      intro _ token htoken hkind
      exact hrest token htoken (List.mem_cons_of_mem _ hkind)
    refine hnone.bind_stopsAfter ((stopsAfter_oneOf ?_).bind _)
    intro token htoken hkind
    exact hrest token htoken (by simp [List.mem_singleton.1 hkind])
  | @modifier modifier hmodifier =>
    have hsome : (Rule.optional argumentModifiers).Accepts kind [modifier] ([] ++ rest)
        (some modifier) :=
      accepts_optional (by simpa using hmodifier) (by simp) (.part modifier .nil)
    exact hsome.bind_stopsAfter ((stopsAfter_oneOf hrest).bind _)
  | @name modifier name hmodifier hname =>
    refine Accepts.bind_stopsAfter (hmodifiers hmodifier hname) ?_
    exact stopsAfter_oneOf_bind (by simp [hname]) ((stopsAfter_oneOf hrest).bind _)
  | @as modifier name as hmodifier hname has =>
    refine Accepts.bind_stopsAfter (hmodifiers hmodifier hname) ?_
    exact stopsAfter_oneOf_bind (by simp [hname])
      (stopsAfter_oneOf_bind (by simp [has]) ((stopsAfter_oneOf hrest).bind _))

/-- Where an argument gets stuck, it has been begun and cannot go on. -/
theorem exists_begins_of_stuck {state stop : State} (h : argument state = .stuck stop) :
    ∃ begun expected, Argument.Begins begun expected ∧ state.Reads begun stop ∧
      NextNot expected stop.rest := by
  rcases bind_eq_stuck_iff.1 h with hstuck | ⟨modifier, middle, hoptional, h⟩
  · exact absurd hstuck (optional_ne_stuck _ _ _)
  obtain ⟨hmodifier, front, hfront, rmodifier⟩ := optional_eq_matched hoptional
  obtain rfl : front = modifier.toList := by
    cases modifier with
    | none => exact Spells.nil_iff.1 hfront
    | some token =>
      obtain ⟨_, rfl, hnil⟩ := Spells.part_iff.1 hfront
      rw [Spells.nil_iff.1 hnil]
      rfl
  rcases bind_eq_stuck_iff.1 h with hstuck | ⟨name, _, hnameRead, h⟩
  · obtain ⟨rfl, hnext⟩ := oneOf_eq_stuck hstuck
    cases modifier with
    | none =>
      obtain ⟨rfl, hnone⟩ := optional_eq_none hoptional
      refine ⟨[], _, .nothing, .refl _, ?_⟩
      intro token htoken hkind
      rcases List.mem_cons.1 hkind with hkind | hkind
      · exact hnext token htoken (by simp [hkind])
      · exact hnone token htoken hkind
    | some modifier => exact ⟨[modifier], _, .modifier (hmodifier modifier rfl), rmodifier, hnext⟩
  obtain ⟨hname, rname⟩ := token_eq_matched_iff.1 hnameRead
  rcases bind_eq_stuck_iff.1 h with hstuck | ⟨as, _, hasRead, h⟩
  · obtain ⟨rfl, hnext⟩ := oneOf_eq_stuck hstuck
    exact ⟨_, _, .name hmodifier hname, rmodifier.trans rname, hnext⟩
  obtain ⟨has, ras⟩ := token_eq_matched_iff.1 hasRead
  rcases bind_eq_stuck_iff.1 h with hstuck | ⟨last, _, _, h⟩
  · obtain ⟨rfl, hnext⟩ := oneOf_eq_stuck hstuck
    exact ⟨_, _, .as hmodifier hname has, rmodifier.trans (rname.trans ras), hnext⟩
  · simp at h

theorem not_spells_of_begins (h : Argument.Begins begun expected)
    (hrest : NextNot expected rest) {parameter : Argument} {front back : List Token}
    (hgood : parameter.WellFormed) (hspells : Spells parameter.slots front) :
    begun ++ rest ≠ front ++ back := by
  intro heq
  have hstops : argument.StopsAfter .illegal begun rest := argument_stopsAfter h hrest
  have haccepts : argument.Accepts .illegal front back parameter := accepts_argument hgood hspells
  have hstuck := hstops 0
  rw [heq, haccepts 0] at hstuck
  cases hstuck

/-- Where no argument stands, one is begun at most. -/
theorem exists_begins_of_not_spells
    (h : ∀ (argument : Argument) (front back : List Token), argument.WellFormed →
      Spells argument.slots front → rest ≠ front ++ back) :
    ∃ begun expected back, rest = begun ++ back ∧ Argument.Begins begun expected ∧
      NextNot expected back := by
  cases hresult : argument ⟨0, rest, .illegal⟩ with
  | matched value after =>
    obtain ⟨hgood, tokens, hspells, hreads⟩ := argument_sound hresult
    exact absurd hreads.rest_eq (h value tokens after.rest hgood hspells)
  | failed fault stop => exact absurd hresult (argument_neverFails _ _ _)
  | stuck stop =>
    obtain ⟨begun, expected, hbegins, hreads, hnext⟩ := exists_begins_of_stuck hresult
    exact ⟨begun, expected, stop.rest, hreads.rest_eq, hbegins, hnext⟩

theorem nextArgument_failsAfter (h : Argument.Begins begun expected)
    (hrest : NextNot expected rest) (hclose : NextNot [.symbol .rightParen] (begun ++ rest)) :
    nextArgument.FailsAfter kind begun rest := by
  have hnext : (notNext (.symbol .rightParen)).Accepts kind [] (begun ++ rest) () :=
    accepts_notNext hclose
  exact hnext.bind_failsAfter ((argument_stopsAfter h hrest).orFail.bind _)

theorem nextArgument_eq_failed {state stop : State} {fault : Fault}
    (h : nextArgument state = .failed fault stop) :
    ∃ begun expected, Argument.Begins begun expected ∧ state.Reads begun stop ∧
      NextNot expected stop.rest ∧ NextNot [.symbol .rightParen] state.rest := by
  rcases bind_eq_failed_iff.1 h with hfails | ⟨_, middle, hnext, hmore⟩
  · unfold notNext at hfails
    split at hfails <;> simp at hfails
  obtain ⟨rfl, hclose⟩ := notNext_eq_matched_iff.1 hnext
  rcases bind_eq_failed_iff.1 hmore with hfails | ⟨parameter, after, _, hcomma⟩
  · cases hargument : argument middle with
    | matched value after => simp [orFail, hargument] at hfails
    | failed other last => exact absurd hargument (argument_neverFails _ _ _)
    | stuck last =>
      simp only [orFail, hargument, Outcome.failed.injEq] at hfails
      obtain ⟨_, rfl⟩ := hfails
      obtain ⟨begun, expected, hbegins, hreads, hexpected⟩ := exists_begins_of_stuck hargument
      exact ⟨begun, expected, hbegins, hreads, hexpected, hclose⟩
  · have hnever : NeverFails (Rule.optional [.symbol .comma] >>= fun _ => pure parameter) :=
      (optional_neverFails _).bind fun _ => pure_neverFails _
    exact absurd hcomma (hnever _ _ _)

/-- The last token of an argument is no comma, and a comma after it is read with it. -/
theorem nextArgument_eq_matched {state after : State} {parameter : Argument}
    (h : nextArgument state = .matched parameter after) :
    ∃ tokens, state.Reads tokens after ∧
      Argument.WrittenBefore [parameter] tokens after.rest := by
  simp only [nextArgument, bind_eq_matched_iff, pure_eq_matched_iff] at h
  obtain ⟨_, middle, hnext, value, last, hargument, comma, _, hoptional, rfl, rfl⟩ := h
  obtain rfl := notNext_eq_matched hnext
  obtain ⟨hgood, tokens, hspells, rargument⟩ := argument_sound (orFail_eq_matched_iff.1 hargument)
  have hcomma := optional_eq_matched hoptional
  cases comma with
  | none =>
    obtain ⟨rfl, hnone⟩ := optional_eq_none hoptional
    refine ⟨tokens, rargument, by simpa using hgood, ?_, .inl hnone⟩
    simpa [Argument.slotsAll] using hspells.append (.noComma .nil)
  | some comma =>
    obtain ⟨hkind, others, hothers, rcomma⟩ := hcomma
    obtain ⟨_, rfl, hnil⟩ := Spells.part_iff.1 hothers
    obtain rfl := Spells.nil_iff.1 hnil
    have hkind : comma.kind = .symbol .comma := by simpa using hkind
    refine ⟨tokens ++ [comma], rargument.trans rcomma, by simpa using hgood, ?_, .inr ?_⟩
    · simpa [Argument.slotsAll] using hspells.append (.comma hkind .nil)
    · simpa using hkind

theorem Rule.Rounds.writtenBefore {state last : State} {arguments : List Argument}
    (h : nextArgument.Rounds state arguments last) :
    ∃ tokens, state.Reads tokens last ∧ Argument.WrittenBefore arguments tokens last.rest := by
  induction h with
  | nil state => exact ⟨[], .refl state, ⟨by simp, .nil, .inr (by simp)⟩⟩
  | cons hfirst _ ih =>
    obtain ⟨front, hfront, hone⟩ := nextArgument_eq_matched hfirst
    obtain ⟨back, hback, hothers⟩ := ih
    rw [hback.rest_eq] at hone
    exact ⟨front ++ back, hfront.trans hback, hone.append hothers⟩

theorem accepts_last_nextArgument {parameter : Argument}
    (h : Argument.WrittenBefore [parameter] written rest) :
    nextArgument.Accepts kind written rest parameter := by
  have hspells : Spells (parameter.slots ++ [.comma]) written := by
    simpa [Argument.slotsAll] using h.spells
  obtain ⟨front, others, rfl, hfront, hothers⟩ := Spells.append_iff.1 hspells
  have hgood : parameter.WellFormed := h.wellFormed parameter List.mem_cons_self
  obtain hnil | ⟨comma, _, rfl, hkind, hnil⟩ := Spells.comma_iff.1 hothers
  · obtain rfl := Spells.nil_iff.1 hnil
    refine accepts_nextArgument hgood hspells (h.comma.resolve_right ?_)
    -- The argument itself ends with the name of its kind.
    simp only [Argument.slots, Spells.append_iff, Spells.part_iff, Spells.mark_iff,
      Spells.nil_iff] at hfront
    obtain ⟨_, _, rfl, _, _, rfl, _, _, rfl, _, _, rfl, rfl⟩ := hfront
    simp [hgood.2.2]
  · obtain rfl := Spells.nil_iff.1 hnil
    have hnext : (notNext (.symbol .rightParen)).Accepts kind [] (front ++ ([comma] ++ rest)) () :=
      accepts_notNext (nextNot_of_spells_argument hgood hfront (by decide)).2
    have hargument : (argument.orFail fun stop =>
        .malformedArguments stop.position stop.rest.head?).Accepts kind front ([comma] ++ rest)
          parameter := fun position =>
      orFail_eq_matched_iff.2 (accepts_argument hgood hfront position)
    have hcomma : (Rule.optional [.symbol .comma]).Accepts kind [comma] ([] ++ rest)
        (some comma) :=
      accepts_optional (by simpa using hkind) (by simp) (.part comma .nil)
    have hrule : nextArgument.Accepts kind ([] ++ (front ++ ([comma] ++ []))) rest parameter :=
      Accepts.bind (by simpa using hnext)
        (hargument.bind (hcomma.bind (accepts_pure parameter)))
    simpa using hrule

theorem nextNot_comma_of_spells {parameter : Argument} (h : parameter.WellFormed)
    (hspells : Spells (parameter.slots ++ [.comma]) written) (after : List Token) :
    written ≠ [] ∧ NextNot [.symbol .comma] (written ++ after) := by
  obtain ⟨front, others, rfl, hfront, _⟩ := Spells.append_iff.1 hspells
  obtain ⟨hne, hstart⟩ : front ≠ [] ∧ NextNot [.symbol .comma] (front ++ (others ++ after)) :=
    nextNot_of_spells_argument h hfront (by decide)
  exact ⟨by simp [hne], by rwa [List.append_assoc]⟩

theorem repeats_nextArgument {arguments : List Argument}
    (h : Argument.WrittenBefore arguments written rest) :
    nextArgument.Repeats kind written rest arguments := by
  rcases List.eq_nil_or_concat' arguments with rfl | ⟨before, last, rfl⟩
  · obtain rfl := Spells.nil_iff.1 h.spells
    exact repeats_nil nextArgument
  · obtain ⟨hgood, hlastGood⟩ := List.forall_mem_append.1 h.wellFormed
    have hspells := h.spells
    rw [Argument.slotsAll, List.flatMap_append] at hspells
    obtain ⟨front, back, rfl, hfront, hback⟩ := Spells.append_iff.1 hspells
    have hwritten : Spells (last.slots ++ [.comma]) back := by simpa using hback
    obtain ⟨hne, hstart⟩ :=
      nextNot_comma_of_spells (hlastGood last List.mem_cons_self) hwritten rest
    have hlast : Argument.WrittenBefore [last] back rest := by
      refine ⟨hlastGood, hback, ?_⟩
      rw [← List.getLast?_append_of_ne_nil front hne]
      exact h.comma
    -- Every argument before the last one is followed by the beginning of another.
    have hbefore : nextArgument.Repeats kind front (back ++ rest) before :=
      (repeats_of_accepts (NextNot [.symbol .comma])
        (fun argument hmem _ _ hargument hafter =>
          accepts_nextArgument (hgood argument hmem) hargument hafter)
        (fun argument hmem _ after hargument =>
          nextNot_comma_of_spells (hgood argument hmem) hargument after)
        hfront hstart).1
    have hround : nextArgument.Repeats kind (back ++ []) rest [last] :=
      (accepts_last_nextArgument hlast).repeats hne (repeats_nil nextArgument)
    rw [List.append_nil] at hround
    exact hbefore.append hround

end Arguments

section Callables

variable {kind : Kind} {read rest : List Token}

theorem BreaksOff.of_cons {token : Token} (h : BreaksOff read (token :: rest))
    (more : List Token) : BreaksOff read (token :: more) := by
  obtain ⟨scope, word, name, opening, arguments, written, begun, expected, hread, hscope, hword,
    hname, hopening, hwritten, hbegins, hexpected, hclose⟩ := h
  refine ⟨scope, word, name, opening, arguments, written, begun, expected, hread, hscope, hword,
    hname, hopening, ⟨hwritten.wellFormed, hwritten.spells, ?_⟩, hbegins, hexpected,
    nextNot_append_cons hclose more⟩
  exact hwritten.comma.imp_left fun hnext => nextNot_append_cons hnext more

theorem opensBrokenList_iff {tokens : List Token} :
    OpensBrokenList tokens ↔ ∃ read rest, tokens = read ++ rest ∧ BreaksOff read rest := by
  constructor
  · rintro ⟨scope, word, name, opening, arguments, written, rest, rfl, hscope, hword, hname,
      hopening, hwritten, hclose, hnone⟩
    obtain ⟨begun, expected, back, rfl, hbegins, hexpected⟩ := exists_begins_of_not_spells hnone
    exact ⟨scope :: word :: name :: opening :: (written ++ begun), back, by simp, scope, word, name,
      opening, arguments, written, begun, expected, rfl, hscope, hword, hname, hopening, hwritten,
      hbegins, hexpected, hclose⟩
  · rintro ⟨_, rest, rfl, scope, word, name, opening, arguments, written, begun, expected, rfl,
      hscope, hword, hname, hopening, hwritten, hbegins, hexpected, hclose⟩
    refine ⟨scope, word, name, opening, arguments, written, begun ++ rest, by simp, hscope, hword,
      hname, hopening, hwritten, hclose, ?_⟩
    intro argument front back hgood hspells
    exact not_spells_of_begins hbegins hexpected hgood hspells

theorem arguments_failsAfter {arguments : List Argument} {written begun : List Token}
    {expected : List Kind} (hwritten : Argument.WrittenBefore arguments written (begun ++ rest))
    (hbegins : Argument.Begins begun expected) (hexpected : NextNot expected rest)
    (hclose : NextNot [.symbol .rightParen] (begun ++ rest)) :
    Grammar.arguments.FailsAfter kind (written ++ begun) rest :=
  ((repeats_nextArgument hwritten).many_failsAfter
    (nextArgument_failsAfter hbegins hexpected hclose)).bind _

/-- A statement of a module fails where the argument list of a callable breaks off. -/
theorem moduleStatement_failsAfter (h : BreaksOff read rest) :
    moduleStatement.FailsAfter kind read rest := by
  obtain ⟨scope, word, name, opening, arguments, written, begun, expected, rfl, hscope, hword,
    hname, hopening, hwritten, hbegins, hexpected, hclose⟩ := h
  have harguments : Grammar.arguments.FailsAfter kind (written ++ begun) rest :=
    arguments_failsAfter hwritten hbegins hexpected hclose
  have hname : name.kind ∈ [Kind.identifier] := List.mem_singleton.2 hname
  have hopening : opening.kind ∈ [Kind.symbol .leftParen] := List.mem_singleton.2 hopening
  obtain ⟨rule, hmem, hfails⟩ : ∃ rule ∈ moduleAlternatives bodyAlternatives,
      rule.FailsAfter kind (scope :: word :: name :: opening :: (written ++ begun)) rest := by
    rcases hword with hword | hword
    · refine ⟨subroutine bodyAlternatives, by simp [moduleAlternatives], ?_⟩
      exact failsAfter_oneOf_bind hscope (failsAfter_oneOf_bind (List.mem_singleton.2 hword)
        (failsAfter_oneOf_bind hname (failsAfter_oneOf_bind hopening (harguments.bind _))))
    · refine ⟨function bodyAlternatives, by simp [moduleAlternatives], ?_⟩
      exact failsAfter_oneOf_bind hscope (failsAfter_oneOf_bind (List.mem_singleton.2 hword)
        (failsAfter_oneOf_bind hname (failsAfter_oneOf_bind hopening (harguments.bind _))))
  intro position
  rw [moduleStatement, choice_of_not_isStuck moduleAlternatives_forward
    (moduleAlternatives_exclusive bodyAlternatives) hmem (FailsAfter.not_isStuck hfails rfl)]
  exact hfails position

/-- What a callable reads up to the parenthesis of its arguments, where it fails. -/
theorem callable_eq_failed {word : Kind} {next : Token → Token → List Argument → Rule Statement}
    (hnext : ∀ scope name parameters, (next scope name parameters).NeverFails)
    {state stop : State} {fault : Fault}
    (h : (do
      let scope ← oneOf callableScopes
      let _ ← token word
      let name ← token .identifier
      let _ ← token (.symbol .leftParen)
      let parameters ← arguments
      next scope name parameters : Rule Statement) state = .failed fault stop) :
    ∃ scope mark name opening middle, scope.kind ∈ callableScopes ∧ mark.kind = word ∧
      name.kind = .identifier ∧ opening.kind = .symbol .leftParen ∧
      state.Reads [scope, mark, name, opening] middle ∧
      many nextArgument middle = .failed fault stop := by
  simp only [bind_eq_failed_iff, (oneOf_neverFails _) _ _ _, (token_neverFails _) _ _ _, false_or,
    oneOf_eq_matched_iff, token_eq_matched_iff] at h
  obtain ⟨scope, _, ⟨hscope, rscope⟩, mark, _, ⟨hmark, rmark⟩, name, _, ⟨hname, rname⟩, opening,
    middle, ⟨hopening, ropening⟩, hfails | ⟨parameters, after, _, hfails⟩⟩ := h
  · refine ⟨scope, mark, name, opening, middle, hscope, hmark, hname, hopening,
      rscope.trans (rmark.trans (rname.trans ropening)), ?_⟩
    simpa [arguments, bind_eq_failed_iff, (token_neverFails _) _ _ _] using hfails
  · exact absurd hfails (hnext _ _ _ _ _ _)

/-- Where a statement of a module fails, the argument list of a callable breaks off. -/
theorem exists_breaksOff_of_failed {state stop : State} {fault : Fault}
    (h : moduleStatement state = .failed fault stop) :
    ∃ read, state.Reads read stop ∧ BreaksOff read stop.rest := by
  have hcallable : ∃ scope mark name opening middle, scope.kind ∈ callableScopes ∧
      (mark.kind = .keyword .subWord ∨ mark.kind = .keyword .functionWord) ∧
      name.kind = .identifier ∧ opening.kind = .symbol .leftParen ∧
      state.Reads [scope, mark, name, opening] middle ∧
      many nextArgument middle = .failed fault stop := by
    obtain ⟨rule, hmem, hfails⟩ := choice_eq_failed moduleAlternatives_forward h
    simp only [moduleAlternatives, List.mem_cons, List.not_mem_nil, or_false] at hmem
    rcases hmem with rfl | rfl | rfl | rfl | rfl | rfl | rfl | rfl
    · exact absurd hfails (record_neverFails _ _ _)
    · exact absurd hfails (variableDecl_neverFails _ _ _)
    · exact absurd hfails (constantDecl_neverFails _ _ _)
    · obtain ⟨scope, mark, name, opening, middle, hscope, hmark, hmore⟩ :=
        callable_eq_failed (fun _ _ _ => (body_neverFails _).bind fun _ =>
          (token_neverFails _).bind fun _ => (token_neverFails _).bind fun _ =>
            pure_neverFails _) hfails
      exact ⟨scope, mark, name, opening, middle, hscope, .inl hmark, hmore⟩
    · obtain ⟨scope, mark, name, opening, middle, hscope, hmark, hmore⟩ :=
        callable_eq_failed (fun _ _ _ => ((token_neverFails _).following _).bind fun _ =>
          (body_neverFails _).bind fun _ => (token_neverFails _).bind fun _ =>
            (token_neverFails _).bind fun _ => pure_neverFails _) hfails
      exact ⟨scope, mark, name, opening, middle, hscope, .inr hmark, hmore⟩
    · exact absurd hfails (enumeration_neverFails _ _ _)
    · exact absurd hfails (attributeLine_neverFails _ _ _)
    · exact absurd hfails (optionLine_neverFails _ _ _)
  obtain ⟨scope, mark, name, opening, middle, hscope, hmark, hname, hopening, hreads, hmany⟩ :=
    hcallable
  obtain ⟨arguments, last, hrounds, hfails⟩ := many_eq_failed hmany
  obtain ⟨written, rwritten, hwritten⟩ := hrounds.writtenBefore
  obtain ⟨begun, expected, hbegins, rbegun, hexpected, hclose⟩ := nextArgument_eq_failed hfails
  rw [rbegun.rest_eq] at hwritten hclose
  exact ⟨[scope, mark, name, opening] ++ (written ++ begun), hreads.trans (rwritten.trans rbegun),
    scope, mark, name, opening, arguments, written, begun, expected, rfl, hscope, hmark, hname,
    hopening, hwritten, hbegins, hexpected, hclose⟩

/-- What has been read before an argument list breaks off is the front of a callable. -/
theorem BreaksOff.exists_statement (h : BreaksOff read rest) :
    ∃ (statement : Statement) (more : List Token), statement.InModule ∧ ¬statement.IsMisread ∧
      Spells statement.slots (read ++ more) := by
  obtain ⟨scope, word, name, opening, arguments, written, begun, expected, rfl, hscope, hword,
    hname, hopening, hwritten, hbegins, _⟩ := h
  obtain ⟨argument, more, hargument, hspells⟩ := hbegins.exists_completion
  let close : Token := { kind := .symbol .rightParen }
  let last : Token := { kind := .keyword .endWord }
  have hgood : ∀ parameter ∈ arguments ++ [argument], parameter.WellFormed :=
    List.forall_mem_append.2 ⟨hwritten.wellFormed, by simpa using hargument⟩
  have hall : Spells (Argument.slotsAll (arguments ++ [argument]) ++ [.mark (.symbol .rightParen)])
      (written ++ (begun ++ more) ++ [close]) := by
    rw [Argument.slotsAll, List.flatMap_append]
    refine (hwritten.spells.append ?_).append (.mark rfl .nil)
    simpa using hspells.append (.noComma .nil)
  have hsignature : ∀ mark, word.kind = .keyword mark →
      Spells (Slot.signature scope mark name (arguments ++ [argument]))
        (scope :: word :: name :: opening :: (written ++ (begun ++ more) ++ [close])) :=
    fun mark hmark => .part scope (.mark hmark (.part name (.mark hopening hall)))
  have hclosing : ∀ mark, word.kind = .keyword mark → Spells (Slot.closing mark) [last, word] :=
    fun mark hmark => .mark rfl (.mark hmark .nil)
  rcases hword with hword | hword
  · refine ⟨.subroutine scope name (arguments ++ [argument]) [], more ++ [close, last, word],
      ⟨hscope, hname, hgood, by simp⟩, ?_, ?_⟩
    · rintro ⟨before, left, right, after, hnil⟩
      simp at hnil
    · have hwhole := (hsignature .subWord hword).append (hclosing .subWord hword)
      simpa [Statement.slots, Statement.slotsAll] using hwhole
  · refine ⟨.function scope name (arguments ++ [argument]) none [], more ++ [close, last, word],
      ⟨hscope, hname, hgood, by simp, by simp⟩, id, ?_⟩
    have hwhole := (hsignature .functionWord hword).append (hclosing .functionWord hword)
    simpa [Statement.slots, Statement.slotsAll, Slot.following] using hwhole

end Callables

theorem parse_nil : parse [] = .ok ([], 0) := by
  rw [parse_eq, rejects_moduleStatement_nil.many moduleStatement_forward]
  rfl

theorem parse_of_spells {statements : List Statement} {tokens : List Token}
    (h : ∀ statement ∈ statements, statement.InModule)
    (hread : ∀ statement ∈ statements, ¬statement.IsMisread)
    (hspells : Spells (Statement.slotsAll statements) tokens) :
    parse tokens = .ok (statements, 0) := by
  have hrepeats : moduleStatement.Repeats .illegal tokens [] statements :=
    repeats_moduleStatement h hread hspells
  simpa [parse_nil] using parse_append_of_repeats hrepeats

theorem parse_of_breaksOff {read rest : List Token} (h : BreaksOff read rest) :
    parse (read ++ rest) = .error (.malformedArguments read.length rest.head?) := by
  have hfails : (many moduleStatement).FailsAfter .illegal ([] ++ read) rest :=
    (repeats_nil moduleStatement).many_failsAfter (moduleStatement_failsAfter h)
  rw [parse_eq, ← List.nil_append read, hfails 0, Nat.zero_add]

/-- After statements that are read to their end, the fault is met that many tokens later. -/
theorem parse_append_of_breaksOff {front read rest : List Token} {statements : List Statement}
    (hfront : parse front = .ok (statements, 0)) (h : BreaksOff read rest) :
    parse (front ++ (read ++ rest)) =
      .error (.malformedArguments (read.length + front.length) rest.head?) := by
  rw [parse_append hfront, parse_of_breaksOff h]
  rfl

/-- Where reading fails, an argument list breaks off after statements that are read to their
end. -/
theorem exists_breaksOff_of_parse {tokens : List Token} {fault : Fault}
    (h : parse tokens = .error fault) :
    ∃ statements front read rest, tokens = front ++ (read ++ rest) ∧
      (∀ statement ∈ statements, statement.InModule) ∧
      Spells (Statement.slotsAll statements) front ∧ parse front = .ok (statements, 0) ∧
      BreaksOff read rest := by
  rw [parse_eq] at h
  cases hmany : Rule.many moduleStatement ⟨0, tokens, .illegal⟩ with
  | matched statements after => simp [hmany] at h
  | stuck stop => simp [hmany] at h
  | failed other stop =>
    obtain ⟨statements, middle, hrounds, hfails⟩ := many_eq_failed hmany
    obtain ⟨hgood, front, hspells, hfront⟩ := hrounds.sound moduleStatement_sound_not_isMisread
    rw [← Statement.slotsAll_eq_flatMap] at hspells
    obtain ⟨read, hread, hbreaks⟩ := exists_breaksOff_of_failed hfails
    have hmodule : ∀ statement ∈ statements, statement.InModule :=
      fun statement hmem => (hgood statement hmem).1
    refine ⟨statements, front, read, stop.rest, ?_, hmodule, hspells, ?_, hbreaks⟩
    · rw [← hread.rest_eq]
      exact hfront.rest_eq
    · exact parse_of_spells hmodule (fun statement hmem => (hgood statement hmem).2) hspells

/-- What has been read before the fault is the front of an accepted program. -/
theorem exists_parse_of_breaksOff {front read rest : List Token} {statements : List Statement}
    (hfront : parse front = .ok (statements, 0)) (h : BreaksOff read rest) :
    ∃ more accepted, parse (front ++ (read ++ more)) = .ok (accepted, 0) := by
  obtain ⟨statement, more, hgood, hread, hspells⟩ := h.exists_statement
  have hlast : parse (read ++ more) = .ok ([statement], 0) := by
    refine parse_of_spells (by simpa using hgood) (by simpa using hread) ?_
    simpa [Statement.slotsAll] using hspells
  exact ⟨more, statements ++ [statement], by rw [parse_append hfront, hlast]⟩

end Grammar

theorem Fault.found_ne_endOfInput (token : Token) :
    Fault.found (some token) ≠ Bytes.ofText "end of input" := by
  -- A name that is no keyword begins with another letter, a keyword or symbol is shown twice.
  let names := ["ILLEGAL", "IDENT", "NUMBER", "STRING", "?"]
  have hfirst : ∀ name ∈ names, 1 ≤ (Bytes.ofText name).length ∧
      (Bytes.ofText name).take 1 ≠ (Bytes.ofText "end of input").take 1 := by decide +kernel
  have hnames : ∀ name ∈ names, ∀ rest : Bytes,
      Bytes.ofText name ++ rest ≠ Bytes.ofText "end of input" := by
    intro name hmem rest h
    obtain ⟨hlength, htake⟩ := hfirst name hmem
    apply htake
    rw [← h, List.take_append_of_le_length hlength]
  obtain ⟨kind, literal, position⟩ := token
  cases kind with
  | illegal => exact hnames "ILLEGAL" (by simp [names]) _
  | identifier => exact hnames "IDENT" (by simp [names]) _
  | number => exact hnames "NUMBER" (by simp [names]) _
  | quoted => exact hnames "STRING" (by simp [names]) _
  | unlisted code outside => exact hnames "?" (by simp [names]) _
  | keyword word =>
    have hwords : ∀ word ∈ Keyword.all, Bytes.concat [word.lexeme, " ", word.lexeme] ≠
        Bytes.ofText "end of input" := by decide +kernel
    exact hwords word word.mem_all
  | symbol sign =>
    have hsigns : ∀ sign ∈ Symbol.all, Bytes.concat [sign.lexeme, " ", sign.lexeme] ≠
        Bytes.ofText "end of input" := by decide +kernel
    exact hsigns sign sign.mem_all

/-- The message of a malformed argument list says `end of input` exactly when no token is blamed. -/
theorem Fault.message_endOfInput_iff {index : Nat} {found : Option Token} :
    (Fault.malformedArguments index found).message =
        Bytes.concat ["malformed argument list at token ", Bytes.ofNat index, " (end of input)"] ↔
      found = none := by
  have htext : Bytes.ofText " (end of input)" =
      Bytes.ofText " (" ++ (Bytes.ofText "end of input" ++ Bytes.ofText ")") := by decide +kernel
  constructor
  · intro h
    cases found with
    | none => rfl
    | some token =>
      simp only [message, Bytes.concat, List.flatten_cons, List.flatten_nil, List.append_nil,
        htext, List.append_cancel_left_eq, List.append_cancel_right_eq] at h
      exact absurd h (found_ne_endOfInput token)
  · rintro rfl
    simp [message, Bytes.concat, htext, Fault.found]

namespace Grammar

/-- A malformed argument list is blamed at the first token that no accepted program has there.
Reading fails exactly when, after statements that are read to their end, a callable opens whose
argument list breaks off.  The tokens before the one blamed are then the front of an accepted
program, and with that token they are not; none is blamed exactly at the end of the input, and the
message says so. -/
theorem parse_fails_iff_opensBrokenList (tokens : List Token) :
    ((∃ fault, parse tokens = .error fault) ↔
      ∃ statements front rest, tokens = front ++ rest ∧
        (∀ statement ∈ statements, statement.InModule) ∧
        Spells (Statement.slotsAll statements) front ∧ parse front = .ok (statements, 0) ∧
        OpensBrokenList rest) ∧
    ∀ fault, parse tokens = .error fault →
      ∃ index, index ≤ tokens.length ∧ fault = .malformedArguments index tokens[index]? ∧
        (∃ more statements, parse (tokens.take index ++ more) = .ok (statements, 0)) ∧
        (index < tokens.length → ∀ more statements,
          parse (tokens.take (index + 1) ++ more) ≠ .ok (statements, 0)) ∧
        (index = tokens.length ↔ fault.message = Bytes.concat
          ["malformed argument list at token ", Bytes.ofNat index, " (end of input)"]) := by
  refine ⟨⟨?_, ?_⟩, ?_⟩
  · rintro ⟨fault, h⟩
    obtain ⟨statements, front, read, rest, rfl, hgood, hspells, hfront, hbreaks⟩ :=
      exists_breaksOff_of_parse h
    exact ⟨statements, front, read ++ rest, rfl, hgood, hspells, hfront,
      opensBrokenList_iff.2 ⟨read, rest, rfl, hbreaks⟩⟩
  · rintro ⟨statements, front, tail, rfl, _, _, hfront, hopens⟩
    obtain ⟨read, rest, rfl, hbreaks⟩ := opensBrokenList_iff.1 hopens
    exact ⟨_, parse_append_of_breaksOff hfront hbreaks⟩
  · intro fault h
    obtain ⟨statements, front, read, rest, rfl, _, _, hfront, hbreaks⟩ :=
      exists_breaksOff_of_parse h
    obtain rfl := Except.error.inj (h.symm.trans (parse_append_of_breaksOff hfront hbreaks))
    have hlength : read.length + front.length = (front ++ read).length := by
      rw [List.length_append, Nat.add_comm]
    rw [← List.append_assoc, hlength]
    have hfound : (front ++ read ++ rest)[(front ++ read).length]? = rest.head? := by
      rw [List.getElem?_append_right (Nat.le_refl _), Nat.sub_self, List.head?_eq_getElem?]
    refine ⟨(front ++ read).length, by simp, by rw [hfound], ?_, ?_, ?_⟩
    · obtain ⟨more, accepted, haccepted⟩ := exists_parse_of_breaksOff hfront hbreaks
      refine ⟨more, accepted, ?_⟩
      rwa [List.take_left', List.append_assoc]
      rfl
    · intro hless more accepted haccepted
      obtain ⟨token, others, rfl⟩ : ∃ token others, rest = token :: others := by
        cases rest with
        | nil => simp at hless
        | cons token others => exact ⟨token, others, rfl⟩
      -- With the token that is blamed the list breaks off there whatever follows.
      have hfails := parse_append_of_breaksOff hfront (hbreaks.of_cons more)
      have htake : (front ++ read ++ token :: others).take ((front ++ read).length + 1) ++ more =
          front ++ (read ++ token :: more) := by
        rw [List.take_length_add_append]
        simp
      rw [htake, hfails] at haccepted
      cases haccepted
    · rw [Fault.message_endOfInput_iff]
      simp [List.head?_eq_none_iff]

/-- `Dim x As x` before `Public Sub x(x As x,`, which breaks off at the end of the input, and before
`Public Function x(ByVal x Dim`, which breaks off at its last token. -/
theorem parse_fails_iff_opensBrokenList_declaration :
    let word (keyword : Keyword) : Token := { kind := .keyword keyword }
    let sign (symbol : Symbol) : Token := { kind := .symbol symbol }
    let name : Token := { kind := .identifier, literal := [0x78] }
    let first := [word .dimWord, name, word .asWord, name]
    let ended := first ++ [word .publicWord, word .subWord, name, sign .leftParen, name,
      word .asWord, name, sign .comma]
    let broken := first ++ [word .publicWord, word .functionWord, name, sign .leftParen,
      word .byValWord, name, word .dimWord]
    (∃ statements front rest, ended = front ++ rest ∧ parse front = .ok (statements, 0) ∧
      OpensBrokenList rest) ∧
    parse ended = .error (.malformedArguments 12 none) ∧
    parse broken = .error (.malformedArguments 10 (some (word .dimWord))) ∧
    (∃ more statements, parse (broken.take 10 ++ more) = .ok (statements, 0)) ∧
    ∀ more statements, parse (broken.take 11 ++ more) ≠ .ok (statements, 0) := by
  intro word sign name first ended broken
  have hended : parse ended = .error (.malformedArguments 12 none) := by cbv
  have hbroken : parse broken = .error (.malformedArguments 10 (some (word .dimWord))) := by cbv
  obtain ⟨statements, front, rest, hsplit, _, _, hfront, hopens⟩ :=
    (parse_fails_iff_opensBrokenList ended).1.1 ⟨_, hended⟩
  obtain ⟨index, _, hindex, hviable, hblamed, _⟩ :=
    (parse_fails_iff_opensBrokenList broken).2 _ hbroken
  obtain rfl : index = 10 := (Fault.malformedArguments.inj hindex).1.symm
  exact ⟨⟨statements, front, rest, hsplit, hfront, hopens⟩, hended, hbroken, hviable,
    hblamed (by decide)⟩

end Grammar

end LegacyBasic
