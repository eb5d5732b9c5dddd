import Mathlib
import LegacyBasic.Grammar.Productions
import LegacyBasic.Proofs.Rules

/-!
Soundness of the grammar: the tokens read by each production spell the construct it yields, and the
construct is well formed.  Main statement: the tokens that reading a module uses up are exactly the
concrete form of the statements it returns.
-/

namespace LegacyBasic.Grammar

open Rule

theorem field_forward : field.Forward :=
  (token_forward _).bind fun _ => (token_forward _).bind fun _ => (token_forward _).bind fun _ =>
    pure_forward _

theorem record_forward : record.Forward :=
  (token_forward _).bind fun _ => (token_forward _).bind fun _ => field_forward.many.bind fun _ =>
    (token_forward _).bind fun _ => (token_forward _).bind fun _ => pure_forward _

theorem enumerator_forward : enumerator.Forward :=
  (token_forward _).bind fun _ => (token_forward _).following.bind fun _ => pure_forward _

theorem enumeration_forward : enumeration.Forward :=
  (optional_forward _).bind fun _ => (token_forward _).bind fun _ => (token_forward _).bind fun _ =>
    enumerator_forward.many.bind fun _ => (token_forward _).bind fun _ =>
      (token_forward _).bind fun _ => pure_forward _

theorem variableDecl_forward : variableDecl.Forward :=
  (oneOf_forward _).bind fun _ => (token_forward _).bind fun _ => (token_forward _).bind fun _ =>
    (token_forward _).bind fun _ => pure_forward _

theorem constantDecl_forward : constantDecl.Forward :=
  (oneOf_forward _).bind fun _ => (token_forward _).bind fun _ => (token_forward _).bind fun _ =>
    (token_forward _).following.bind fun _ => (token_forward _).following.bind fun _ =>
      (token_forward _).bind fun _ => (oneOf_forward _).bind fun _ => pure_forward _

theorem assignment_forward : assignment.Forward :=
  (token_forward _).bind fun _ => (token_forward _).bind fun _ => (oneOf_forward _).bind fun _ =>
    pure_forward _

theorem exitLine_forward : exitLine.Forward :=
  (token_forward _).bind fun _ => (oneOf_forward _).bind fun _ => pure_forward _

theorem returnLine_forward : returnLine.Forward := by
  refine (token_forward _).bind fun _ => (optional_forward _).bind fun value =>
    enclosing_forward.bind fun kind => ?_
  split
  · exact mismatch_forward
  · exact pure_forward _

theorem attributeLine_forward : attributeLine.Forward :=
  (token_forward _).bind fun _ => (token_forward _).bind fun _ => (token_forward _).bind fun _ =>
    (oneOf_forward _).bind fun _ => pure_forward _

theorem optionValue_forward (config : Kind) : (optionValue config).Forward := by
  unfold optionValue
  split
  · exact pure_forward _
  · exact (token_forward _).bind fun _ => pure_forward _
  · exact (token_forward _).bind fun _ => pure_forward _
  · exact (token_forward _).bind fun _ => pure_forward _
  · exact fail_forward _

theorem optionLine_forward : optionLine.Forward :=
  (token_forward _).bind fun _ => (oneOf_forward _).bind fun _ =>
    (optionValue_forward _).bind fun _ => pure_forward _

theorem argument_forward : argument.Forward :=
  (optional_forward _).bind fun _ => (token_forward _).bind fun _ => (token_forward _).bind fun _ =>
    (token_forward _).bind fun _ => pure_forward _

theorem nextArgument_forward : nextArgument.Forward :=
  (notNext_forward _).bind fun _ => (argument_forward.orFail _).bind fun _ =>
    (optional_forward _).bind fun _ => pure_forward _

theorem arguments_forward : arguments.Forward :=
  nextArgument_forward.many.bind fun _ => (token_forward _).bind fun _ => pure_forward _

theorem bodyAlternatives_forward : ∀ rule ∈ bodyAlternatives, rule.Forward := by
  simp only [bodyAlternatives, List.forall_mem_cons]
  exact ⟨variableDecl_forward, constantDecl_forward, assignment_forward, exitLine_forward,
    returnLine_forward, attributeLine_forward, List.forall_mem_nil _⟩

theorem bodyStatement_forward : bodyStatement.Forward := choice_forward bodyAlternatives_forward

theorem subroutine_forward : (subroutine bodyAlternatives).Forward :=
  (oneOf_forward _).bind fun _ => (token_forward _).bind fun _ => (token_forward _).bind fun _ =>
    (token_forward _).bind fun _ => arguments_forward.bind fun _ =>
      (bodyStatement_forward.many.inside _).bind fun _ => (token_forward _).bind fun _ =>
        (token_forward _).bind fun _ => pure_forward _

theorem function_forward : (function bodyAlternatives).Forward :=
  (oneOf_forward _).bind fun _ => (token_forward _).bind fun _ => (token_forward _).bind fun _ =>
    (token_forward _).bind fun _ => arguments_forward.bind fun _ =>
      (token_forward _).following.bind fun _ => (bodyStatement_forward.many.inside _).bind fun _ =>
        (token_forward _).bind fun _ => (token_forward _).bind fun _ => pure_forward _

/-- The alternatives of a module go forward even where they fail. -/
theorem moduleAlternatives_forward :
    ∀ rule ∈ moduleAlternatives bodyAlternatives, rule.Forward := by
  simp only [moduleAlternatives, List.forall_mem_cons]
  exact ⟨record_forward, variableDecl_forward, constantDecl_forward, subroutine_forward,
    function_forward, enumeration_forward, attributeLine_forward, optionLine_forward,
    List.forall_mem_nil _⟩

theorem moduleStatement_forward : moduleStatement.Forward :=
  choice_forward moduleAlternatives_forward

theorem field_sound : field.Sound Field.slots fun _ => Field.WellFormed := by
  intro state value after h
  simp only [field, bind_eq_matched_iff, token_eq_matched_iff, pure_eq_matched_iff] at h
  obtain ⟨name, _, ⟨hname, rname⟩, as, _, ⟨has, ras⟩, kind, _, ⟨hkind, rkind⟩, rfl, rfl⟩ := h
  exact ⟨⟨hname, hkind⟩, _, .part name (.mark has (.part kind .nil)),
    rname.trans (ras.trans rkind)⟩

theorem record_sound : record.Sound Statement.slots fun _ => Statement.InModule := by
  intro state value after h
  simp only [record, bind_eq_matched_iff, token_eq_matched_iff, pure_eq_matched_iff] at h
  obtain ⟨type, _, ⟨htype, rtype⟩, name, _, ⟨hname, rname⟩, fields, _, hmany, close, _,
    ⟨hclose, rclose⟩, word, _, ⟨hword, rword⟩, rfl, rfl⟩ := h
  obtain ⟨hfields, tokens, hspells, rfields⟩ := field_sound.many field_forward hmany
  refine ⟨⟨hname, hfields⟩, [type, name] ++ tokens ++ [close, word], ?_, ?_⟩
  · exact ((Spells.mark htype (.part name .nil)).append hspells).append
      (.mark hclose (.mark hword .nil))
  · exact ((rtype.trans rname).trans rfields).trans (rclose.trans rword)

theorem enumerator_sound : enumerator.Sound Enumerator.slots fun _ => Enumerator.WellFormed := by
  intro state value after h
  simp only [enumerator, bind_eq_matched_iff, token_eq_matched_iff, pure_eq_matched_iff] at h
  obtain ⟨name, _, ⟨hname, rname⟩, number, _, hfollowing, rfl, rfl⟩ := h
  obtain ⟨hnumber, tokens, hspells, rnumber⟩ := following_eq_matched hfollowing
  exact ⟨⟨hname, hnumber⟩, name :: tokens, .part name hspells, rname.trans rnumber⟩

theorem enumeration_sound : enumeration.Sound Statement.slots fun _ => Statement.InModule := by
  intro state value after h
  simp only [enumeration, bind_eq_matched_iff, token_eq_matched_iff, pure_eq_matched_iff] at h
  obtain ⟨scope, _, hoptional, enum, _, ⟨henum, renum⟩, name, _, ⟨hname, rname⟩, members, _, hmany,
    close, _, ⟨hclose, rclose⟩, word, _, ⟨hword, rword⟩, rfl, rfl⟩ := h
  obtain ⟨hscope, front, hfront, rscope⟩ := optional_eq_matched hoptional
  obtain ⟨hmembers, tokens, hspells, rmembers⟩ := enumerator_sound.many enumerator_forward hmany
  refine ⟨⟨hscope, hname, hmembers⟩, front ++ [enum, name] ++ tokens ++ [close, word], ?_, ?_⟩
  · exact ((hfront.append (.mark henum (.part name .nil))).append hspells).append
      (.mark hclose (.mark hword .nil))
  · exact ((rscope.trans (renum.trans rname)).trans rmembers).trans (rclose.trans rword)

/-- A declaration is good for a module and for any body. -/
theorem variableDecl_sound :
    variableDecl.Sound Statement.slots fun _ => Statement.IsDeclaration := by
  intro state value after h
  simp only [variableDecl, bind_eq_matched_iff, oneOf_eq_matched_iff, token_eq_matched_iff,
    pure_eq_matched_iff] at h
  obtain ⟨scope, _, ⟨hscope, rscope⟩, name, _, ⟨hname, rname⟩, as, _, ⟨has, ras⟩, kind, _,
    ⟨hkind, rkind⟩, rfl, rfl⟩ := h
  exact ⟨⟨hscope, hname, hkind⟩, _, .part scope (.part name (.mark has (.part kind .nil))),
    rscope.trans (rname.trans (ras.trans rkind))⟩

theorem constantDecl_sound :
    constantDecl.Sound Statement.slots fun _ => Statement.IsDeclaration := by
  intro state value after h
  simp only [constantDecl, bind_eq_matched_iff, oneOf_eq_matched_iff, token_eq_matched_iff,
    pure_eq_matched_iff] at h
  obtain ⟨scope, _, ⟨hscope, rscope⟩, const, _, ⟨hconst, rconst⟩, name, _, ⟨hname, rname⟩, kind, _,
    hfirst, length, _, hsecond, sign, _, ⟨hsign, rsign⟩, result, _, ⟨hresult, rresult⟩, rfl,
    rfl⟩ := h
  obtain ⟨hkind, first, hkindSpells, rkind⟩ := following_eq_matched hfirst
  obtain ⟨hlength, second, hlengthSpells, rlength⟩ := following_eq_matched hsecond
  refine ⟨⟨hscope, hname, hkind, hlength, hresult⟩,
    [scope, const, name] ++ first ++ second ++ [sign, result], ?_, ?_⟩
  · exact (((Spells.part scope (.mark hconst (.part name .nil))).append hkindSpells).append
      hlengthSpells).append (.mark hsign (.part result .nil))
  · exact (((rscope.trans (rconst.trans rname)).trans rkind).trans rlength).trans
      (rsign.trans rresult)

theorem attributeLine_sound :
    attributeLine.Sound Statement.slots fun _ => Statement.IsDeclaration := by
  intro state value after h
  simp only [attributeLine, bind_eq_matched_iff, oneOf_eq_matched_iff, token_eq_matched_iff,
    pure_eq_matched_iff] at h
  obtain ⟨word, _, ⟨hword, rword⟩, name, _, ⟨hname, rname⟩, sign, _, ⟨hsign, rsign⟩, result, _,
    ⟨hresult, rresult⟩, rfl, rfl⟩ := h
  exact ⟨⟨hname, hresult⟩, _, .mark hword (.part name (.mark hsign (.part result .nil))),
    rword.trans (rname.trans (rsign.trans rresult))⟩

theorem assignment_sound : assignment.Sound Statement.slots Statement.InBody := by
  intro state value after h
  simp only [assignment, bind_eq_matched_iff, oneOf_eq_matched_iff, token_eq_matched_iff,
    pure_eq_matched_iff] at h
  obtain ⟨left, _, ⟨hleft, rleft⟩, sign, _, ⟨hsign, rsign⟩, right, _, ⟨hright, rright⟩, rfl,
    rfl⟩ := h
  exact ⟨⟨hleft, hright⟩, _, .part left (.mark hsign (.part right .nil)),
    rleft.trans (rsign.trans rright)⟩

theorem exitLine_sound : exitLine.Sound Statement.slots Statement.InBody := by
  intro state value after h
  simp only [exitLine, bind_eq_matched_iff, oneOf_eq_matched_iff, token_eq_matched_iff,
    pure_eq_matched_iff] at h
  obtain ⟨word, _, ⟨hword, rword⟩, block, _, ⟨hblock, rblock⟩, rfl, rfl⟩ := h
  exact ⟨hblock, _, .mark hword (.part block .nil), rword.trans rblock⟩

/-- A return without a value is read in a subroutine only. -/
theorem returnLine_sound : returnLine.Sound Statement.slots Statement.InBody := by
  intro state value after h
  simp only [returnLine, bind_eq_matched_iff, token_eq_matched_iff] at h
  obtain ⟨word, middle, ⟨hword, rword⟩, result, last, hoptional, kind, _, henclosing, h⟩ := h
  obtain ⟨hresult, tokens, hspells, rresult⟩ := optional_eq_matched hoptional
  obtain ⟨rfl, rfl⟩ : last.enclosing = kind ∧ last = _ := by
    simpa [Rule.enclosing] using henclosing
  have hreads := rword.trans rresult
  split at h
  · simp [mismatch] at h
  · next hguard =>
    obtain ⟨rfl, rfl⟩ := pure_eq_matched_iff.1 h
    refine ⟨⟨hresult, ?_⟩, _, .mark hword hspells, hreads⟩
    rintro hfunction rfl
    rw [← hreads.enclosing_eq] at hfunction
    simp [hfunction] at hguard

/-- The value that is read is the one that the configuration asks for. -/
theorem optionValue_eq_matched {config : Token} {state after : State} {value : Option Token}
    (h : optionValue config.kind state = .matched value after) :
    Statement.OptionValue config value ∧
      ∃ tokens, Spells (Slot.optional value) tokens ∧ state.Reads tokens after := by
  generalize hconfig : config.kind = kind at h
  unfold optionValue at h
  split at h
  · obtain ⟨rfl, rfl⟩ := pure_eq_matched_iff.1 h
    exact ⟨.inl ⟨hconfig, rfl⟩, [], .nil, .refl _⟩
  · obtain ⟨token, rfl, htoken⟩ := map_eq_matched_iff.1 h
    obtain ⟨hkind, rtoken⟩ := token_eq_matched_iff.1 htoken
    exact ⟨.inr ⟨token, rfl, .inl ⟨hconfig, hkind⟩⟩, [token], .part token .nil, rtoken⟩
  · obtain ⟨token, rfl, htoken⟩ := map_eq_matched_iff.1 h
    obtain ⟨hkind, rtoken⟩ := token_eq_matched_iff.1 htoken
    exact ⟨.inr ⟨token, rfl, .inr (.inl ⟨hconfig, hkind⟩)⟩, [token], .part token .nil, rtoken⟩
  · obtain ⟨token, rfl, htoken⟩ := map_eq_matched_iff.1 h
    obtain ⟨hkind, rtoken⟩ := token_eq_matched_iff.1 htoken
    exact ⟨.inr ⟨token, rfl, .inr (.inr ⟨hconfig, hkind⟩)⟩, [token], .part token .nil, rtoken⟩
  · simp [fail] at h

theorem optionLine_sound : optionLine.Sound Statement.slots fun _ => Statement.InModule := by
  intro state value after h
  simp only [optionLine, bind_eq_matched_iff, oneOf_eq_matched_iff, token_eq_matched_iff,
    pure_eq_matched_iff] at h
  obtain ⟨word, _, ⟨hword, rword⟩, config, _, ⟨_, rconfig⟩, result, _, hvalue, rfl, rfl⟩ := h
  obtain ⟨hresult, tokens, hspells, rresult⟩ := optionValue_eq_matched hvalue
  exact ⟨hresult, [word, config] ++ tokens, .mark hword (.part config hspells),
    rword.trans (rconfig.trans rresult)⟩

theorem argument_sound : argument.Sound Argument.slots fun _ => Argument.WellFormed := by
  intro state value after h
  simp only [argument, bind_eq_matched_iff, token_eq_matched_iff, pure_eq_matched_iff] at h
  obtain ⟨modifier, _, hoptional, name, _, ⟨hname, rname⟩, as, _, ⟨has, ras⟩, kind, _,
    ⟨hkind, rkind⟩, rfl, rfl⟩ := h
  obtain ⟨hmodifier, tokens, hspells, rmodifier⟩ := optional_eq_matched hoptional
  refine ⟨⟨hmodifier, hname, hkind⟩, tokens ++ [name, as, kind], ?_, ?_⟩
  · exact hspells.append (.part name (.mark has (.part kind .nil)))
  · exact rmodifier.trans (rname.trans (ras.trans rkind))

/-- The comma after an argument has a slot of its own, which may stay empty. -/
theorem nextArgument_sound :
    nextArgument.Sound (fun argument => argument.slots ++ [.comma])
      fun _ => Argument.WellFormed := by
  intro state value after h
  simp only [nextArgument, bind_eq_matched_iff, pure_eq_matched_iff] at h
  obtain ⟨_, middle, hnext, parameter, _, hargument, comma, _, hoptional, rfl, rfl⟩ := h
  obtain rfl := notNext_eq_matched hnext
  obtain ⟨hgood, tokens, hspells, rargument⟩ := argument_sound (orFail_eq_matched_iff.1 hargument)
  obtain ⟨hcomma, others, hothers, rcomma⟩ := optional_eq_matched hoptional
  refine ⟨hgood, tokens ++ others, hspells.append ?_, rargument.trans rcomma⟩
  cases comma with
  | none => exact .noComma hothers
  | some comma =>
    obtain ⟨_, rfl, hnil⟩ := Spells.part_iff.1 hothers
    exact .comma (by simpa using hcomma) hnil

/-- A list of arguments is read up to its parenthesis. -/
theorem arguments_eq_matched {state after : State} {parameters : List Argument}
    (h : arguments state = .matched parameters after) :
    (∀ parameter ∈ parameters, parameter.WellFormed) ∧
      ∃ tokens, Spells (Argument.slotsAll parameters ++ [.mark (.symbol .rightParen)]) tokens ∧
        state.Reads tokens after := by
  simp only [arguments, bind_eq_matched_iff, token_eq_matched_iff, pure_eq_matched_iff] at h
  obtain ⟨_, _, hmany, close, _, ⟨hclose, rclose⟩, rfl, rfl⟩ := h
  obtain ⟨hgood, tokens, hspells, rmany⟩ := nextArgument_sound.many nextArgument_forward hmany
  exact ⟨hgood, tokens ++ [close], hspells.append (.mark hclose .nil), rmany.trans rclose⟩

theorem bodyStatement_sound : bodyStatement.Sound Statement.slots Statement.InBody := by
  refine choice_sound bodyAlternatives_forward ?_
  simp only [bodyAlternatives, List.forall_mem_cons]
  exact ⟨variableDecl_sound.mono fun kind _ h => h.inBody kind,
    constantDecl_sound.mono fun kind _ h => h.inBody kind, assignment_sound, exitLine_sound,
    returnLine_sound, attributeLine_sound.mono fun kind _ h => h.inBody kind,
    List.forall_mem_nil _⟩

/-- The statements of a body are good for the callable they stand in. -/
theorem inside_many_bodyStatement_eq_matched {kind : Kind} {state after : State}
    {statements : List Statement}
    (h : inside kind (many bodyStatement) state = .matched statements after) :
    (∀ statement ∈ statements, statement.InBody kind) ∧
      ∃ tokens, Spells (Statement.slotsAll statements) tokens ∧ state.Reads tokens after := by
  rw [Statement.slotsAll_eq_flatMap]
  exact (bodyStatement_sound.many bodyStatement_forward).inside kind h

theorem subroutine_sound :
    (subroutine bodyAlternatives).Sound Statement.slots fun _ => Statement.InModule := by
  intro state value after h
  simp only [subroutine, bind_eq_matched_iff, oneOf_eq_matched_iff, token_eq_matched_iff,
    pure_eq_matched_iff] at h
  obtain ⟨scope, _, ⟨hscope, rscope⟩, sub, _, ⟨hsub, rsub⟩, name, _, ⟨hname, rname⟩, opening, _,
    ⟨hopening, ropening⟩, parameters, _, harguments, body, _, hinside, close, _, ⟨hclose, rclose⟩,
    word, _, ⟨hword, rword⟩, rfl, rfl⟩ := h
  obtain ⟨hparameters, first, hfirst, rfirst⟩ := arguments_eq_matched harguments
  obtain ⟨hbody, second, hsecond, rsecond⟩ := inside_many_bodyStatement_eq_matched hinside
  refine ⟨⟨hscope, hname, hparameters, hbody⟩,
    scope :: sub :: name :: opening :: first ++ second ++ [close, word], ?_, ?_⟩
  · exact ((Spells.part scope (.mark hsub (.part name (.mark hopening hfirst)))).append
      hsecond).append (.mark hclose (.mark hword .nil))
  · exact ((rscope.trans (rsub.trans (rname.trans (ropening.trans rfirst)))).trans rsecond).trans
      (rclose.trans rword)

/-- The kind of a function, if it has one, stands between its arguments and its body. -/
theorem function_sound :
    (function bodyAlternatives).Sound Statement.slots fun _ => Statement.InModule := by
  intro state value after h
  simp only [function, bind_eq_matched_iff, oneOf_eq_matched_iff, token_eq_matched_iff,
    pure_eq_matched_iff] at h
  obtain ⟨scope, _, ⟨hscope, rscope⟩, sub, _, ⟨hsub, rsub⟩, name, _, ⟨hname, rname⟩, opening, _,
    ⟨hopening, ropening⟩, parameters, _, harguments, returns, _, hfollowing, body, _, hinside,
    close, _, ⟨hclose, rclose⟩, word, _, ⟨hword, rword⟩, rfl, rfl⟩ := h
  obtain ⟨hparameters, first, hfirst, rfirst⟩ := arguments_eq_matched harguments
  obtain ⟨hreturns, kind, hkind, rkind⟩ := following_eq_matched hfollowing
  obtain ⟨hbody, second, hsecond, rsecond⟩ := inside_many_bodyStatement_eq_matched hinside
  refine ⟨⟨hscope, hname, hparameters, hreturns, hbody⟩,
    scope :: sub :: name :: opening :: first ++ kind ++ second ++ [close, word], ?_, ?_⟩
  · exact (((Spells.part scope (.mark hsub (.part name (.mark hopening hfirst)))).append
      hkind).append hsecond).append (.mark hclose (.mark hword .nil))
  · exact (((rscope.trans (rsub.trans (rname.trans (ropening.trans rfirst)))).trans rkind).trans
      rsecond).trans (rclose.trans rword)

/-- What is read as a statement of a module is well formed and spelled by its tokens. -/
theorem moduleStatement_sound :
    moduleStatement.Sound Statement.slots fun _ => Statement.InModule := by
  refine choice_sound moduleAlternatives_forward ?_
  simp only [moduleAlternatives, List.forall_mem_cons]
  exact ⟨record_sound, variableDecl_sound.mono fun _ _ h => h.inModule,
    constantDecl_sound.mono fun _ _ h => h.inModule, subroutine_sound, function_sound,
    enumeration_sound, attributeLine_sound.mono fun _ _ h => h.inModule, optionLine_sound,
    List.forall_mem_nil _⟩

/-- The statements that reading a module returns are well formed, and the tokens it used up spell
them. -/
theorem State.parse_sound {state after : State} {statements : List Statement}
    (h : state.parse = (.ok statements, after)) :
    (∀ statement ∈ statements, statement.InModule) ∧
      ∃ tokens, Spells (Statement.slotsAll statements) tokens ∧ state.Reads tokens after := by
  rw [State.parse_eq_many] at h
  split at h
  · next values last hmany =>
    simp only [Prod.mk.injEq, Except.ok.injEq] at h
    obtain ⟨rfl, rfl⟩ := h
    rw [Statement.slotsAll_eq_flatMap]
    exact moduleStatement_sound.many moduleStatement_forward hmany
  · next stop hmany => exact absurd hmany (many_ne_stuck moduleStatement state stop)
  · simp at h

/-- A function keeps a kind exactly when an `As` stands after its argument list. -/
theorem returns_eq_none_iff_of_spells {before after : List Statement} {scope name : Token}
    {arguments : List Argument} {returns : Option Token} {body : List Statement}
    {tokens : List Token}
    (hgood : (Statement.function scope name arguments returns body).InModule)
    (hspells : Spells
      (Statement.slotsAll (before ++ .function scope name arguments returns body :: after))
      tokens) :
    ∃ front rest, tokens = front ++ rest ∧
      Spells (Statement.slotsAll before ++ Slot.signature scope .functionWord name arguments)
        front ∧
      (returns = none ↔ ∀ token ∈ rest.head?, token.kind ≠ .keyword .asWord) := by
  have hsplit :
      Statement.slotsAll (before ++ .function scope name arguments returns body :: after) =
      (Statement.slotsAll before ++ Slot.signature scope .functionWord name arguments) ++
        (Slot.following (.keyword .asWord) returns ++
          (Statement.slotsAll body ++ Slot.closing .functionWord ++ Statement.slotsAll after)) := by
    simp [Statement.slotsAll, Statement.slots]
  rw [hsplit] at hspells
  obtain ⟨front, rest, rfl, hfront, hrest⟩ := Spells.append_iff.1 hspells
  refine ⟨front, rest, rfl, hfront, ?_⟩
  cases returns with
  | none =>
    obtain ⟨token, others, rfl, hkind⟩ :=
      Statement.exists_cons_of_spells_body hgood.2.2.2.2 hrest
    have has : token.kind ≠ .keyword .asWord := by
      rintro heq
      simp [heq, Statement.bodyStarts, variableScopes] at hkind
    simpa using has
  | some kind =>
    obtain ⟨token, others, rfl, hkind, _⟩ := Spells.mark_iff.1 hrest
    simpa using hkind

/-- Reading a module conserves its tokens.  The tokens used up are, in order, the concrete form of
the statements returned, with every token of the tree at its own place, and the statements are well
formed; a function has no kind exactly when no `As` was read after its arguments. -/
theorem parse_conserves_tokens {tokens : List Token} {statements : List Statement}
    {remaining : Nat} (h : parse tokens = .ok (statements, remaining)) :
    remaining ≤ tokens.length ∧
      Spells (Statement.slotsAll statements) (tokens.take (tokens.length - remaining)) ∧
      (Slot.parts (Statement.slotsAll statements)).Sublist
        (tokens.take (tokens.length - remaining)) ∧
      (∀ statement ∈ statements, statement.InModule) ∧
      ∀ before scope name arguments returns body after,
        statements = before ++ .function scope name arguments returns body :: after →
          ∃ front rest, tokens.take (tokens.length - remaining) = front ++ rest ∧
            Spells (Statement.slotsAll before ++
              Slot.signature scope .functionWord name arguments) front ∧
            (returns = none ↔ ∀ token ∈ rest.head?, token.kind ≠ .keyword .asWord) := by
  rw [parse_eq_map] at h
  generalize hparse : (State.ofTokens tokens).parse = outcome at h
  obtain ⟨result, after⟩ := outcome
  cases result with
  | error fault => simp [Except.map] at h
  | ok values =>
    simp only [Except.map, Except.ok.injEq, Prod.mk.injEq] at h
    obtain ⟨rfl, rfl⟩ := h
    obtain ⟨hgood, read, hspells, hreads⟩ := State.parse_sound hparse
    have htokens : tokens = read ++ after.rest := hreads.rest_eq
    have htake : tokens.take (tokens.length - after.remaining) = read := by
      simp [htokens, State.remaining]
    rw [htake]
    refine ⟨by simp [htokens, State.remaining], hspells, hspells.parts_sublist, hgood, ?_⟩
    rintro before scope name arguments returns body rest rfl
    exact returns_eq_none_iff_of_spells (hgood _ (by simp)) hspells

/-- `Public Function f(f As f,) Return f End Function Dim`: all but the last token are used up, and
the function has no kind. -/
theorem parse_conserves_tokens_function :
    let word (keyword : Keyword) : Token := { kind := .keyword keyword }
    let sign (symbol : Symbol) : Token := { kind := .symbol symbol }
    let name : Token := { kind := .identifier, literal := [0x66] }
    let statement : Statement := .function (word .publicWord) name [⟨none, name, name⟩] none
      [.returnLine (some name)]
    let tokens := [word .publicWord, word .functionWord, name, sign .leftParen, name,
      word .asWord, name, sign .comma, sign .rightParen, word .returnWord, name, word .endWord,
      word .functionWord, word .dimWord]
    parse tokens = .ok ([statement], 1) ∧
      Spells (Statement.slotsAll [statement]) (tokens.take 13) ∧ statement.InModule := by
  intro word sign name statement tokens
  have hparse : parse tokens = .ok ([statement], 1) := by cbv
  obtain ⟨_, hspells, _, hgood, _⟩ := parse_conserves_tokens hparse
  exact ⟨hparse, hspells, hgood statement List.mem_cons_self⟩

end LegacyBasic.Grammar
