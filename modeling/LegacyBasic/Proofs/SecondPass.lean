import LegacyBasic.Compile
import LegacyBasic.Proofs.Rereading

/-!
Compiling an output again.  Main statement: a second compilation scans all of the output of the
first, writes the same statements up to the first subroutine that holds a return, and what it writes
a third compilation leaves as it is.
-/

namespace LegacyBasic

section Rendering

variable {style other : Style} {change naming : Token → Token}

section Parts

variable (hword : ∀ token, style.word (change token) = other.word token)

include hword

theorem Style.leading_map (token : Option Token) :
    style.leading (token.map change) = other.leading token := by
  cases token <;> simp [leading, hword]

theorem Style.trailing_map (mark : Bytes) (token : Option Token) :
    style.trailing mark (token.map change) = other.trailing mark token := by
  cases token <;> simp [trailing, hword]

theorem Field.render_mapTokens (field : Field) :
    (field.mapTokens change).render style = field.render other := by
  simp [Field.render, Field.mapTokens, hword]

theorem Enumerator.render_mapTokens (member : Enumerator) :
    (member.mapTokens change).render style = member.render other := by
  simp [Enumerator.render, Enumerator.mapTokens, hword, Style.trailing_map hword]

theorem Argument.render_mapTokens (argument : Argument) :
    (argument.mapTokens change).render style = argument.render other := by
  simp [Argument.render, Argument.mapTokens, hword, Style.leading_map hword]

theorem Style.signature_mapTokens (scope : Token) (keyword : Bytes) (name : Token)
    (arguments : List Argument) :
    style.signature (change scope) keyword (change name)
        (arguments.map (Argument.mapTokens change)) =
      other.signature scope keyword name arguments := by
  have harguments : arguments.flatMap (fun argument => (argument.mapTokens change).render style) =
      arguments.flatMap (Argument.render other) := by
    simp only [Argument.render_mapTokens hword]
  simp [Style.signature, hword, List.flatMap_map, harguments]

end Parts

mutual

/-- What is written of a statement depends only on how its tokens are written. -/
theorem Statement.render_mapTokens (hword : ∀ token, style.word (change token) = other.word token)
    (hname : ∀ token, (naming token).lexeme = token.lexeme) : ∀ statement : Statement,
    (statement.mapTokens change naming).render style = statement.render other
  | .record name fields => by
    have hfields : fields.flatMap (fun field => (field.mapTokens change).render style) =
        fields.flatMap (Field.render other) := by
      simp only [Field.render_mapTokens hword]
    simp [mapTokens, render, hword, List.flatMap_map, hfields]
  | .enumeration scope name members => by
    have hmembers : members.flatMap (fun member => (member.mapTokens change).render style) =
        members.flatMap (Enumerator.render other) := by
      simp only [Enumerator.render_mapTokens hword]
    simp [mapTokens, render, hword, List.flatMap_map, Style.leading_map hword, hmembers]
  | .subroutine scope name arguments body => by
    rw [mapTokens, render, render, Style.signature_mapTokens hword,
      renderAll_mapTokens hword hname body]
  | .function scope name arguments returns body => by
    rw [mapTokens, render, render, Style.signature_mapTokens hword, Style.trailing_map hword,
      renderAll_mapTokens hword hname body]
  | .field member => by simp [mapTokens, render, Field.render_mapTokens hword]
  | .enumerator member => by simp [mapTokens, render, Enumerator.render_mapTokens hword]
  | .argument parameter => by simp [mapTokens, render, Argument.render_mapTokens hword]
  | .variableDecl _ _ _ => by simp [mapTokens, render, hword]
  | .constantDecl _ _ _ _ _ => by simp [mapTokens, render, hword, Style.trailing_map hword]
  | .exitLine _ => by simp [mapTokens, render, hword]
  | .assignment _ _ => by simp [mapTokens, render, hword]
  | .optionLine _ _ => by simp [mapTokens, render, hword, Style.trailing_map hword]
  | .attributeLine _ _ => by simp [mapTokens, render, hword, hname]
  | .returnLine _ => rfl
  | .absent => rfl

theorem Statement.renderAll_mapTokens
    (hword : ∀ token, style.word (change token) = other.word token)
    (hname : ∀ token, (naming token).lexeme = token.lexeme) : ∀ statements : List Statement,
    renderAll style (mapTokensAll change naming statements) = renderAll other statements
  | [] => rfl
  | statement :: rest => by
    rw [mapTokensAll, renderAll, renderAll, render_mapTokens hword hname statement,
      renderAll_mapTokens hword hname rest]

end

end Rendering

theorem Token.lexeme_verbatim (token : Token) : token.verbatim.lexeme = token.lexeme := by
  cases hpayload : token.kind.hasPayload <;>
    simp [Token.verbatim, Token.unplaced, Token.lexeme, hpayload]

/-- Reading a written token back and writing it again keeps its case if both styles do. -/
theorem Style.word_printed (style again : Style) (token : Token) :
    again.word (style.printed token) =
      Style.word ⟨style.preserveCase && again.preserveCase⟩ token := by
  by_cases hkind : token.kind = .identifier
  · cases hfirst : style.preserveCase <;> cases hsecond : again.preserveCase <;>
      simp [Style.word, Style.printed, Token.unplaced, Token.lexeme, Kind.hasPayload, hkind, hfirst,
        hsecond]
  · have hprinted : style.printed token = token.verbatim := by
      simp [Style.printed, Token.verbatim, hkind]
    rw [hprinted, Style.word, Style.word, if_neg (by simp [hkind]), if_neg (by simp [hkind]),
      Token.lexeme_verbatim]

/-- Statements read back in one style are written in another as the first statements are when both
styles have their way. -/
theorem Statement.renderAll_recase (style again : Style) (statements : List Statement) :
    renderAll again (statements.map (recase style)) =
      renderAll ⟨style.preserveCase && again.preserveCase⟩ statements := by
  have h := renderAll_mapTokens (style.word_printed again) Token.lexeme_verbatim statements
  rwa [mapTokensAll_eq_map] at h

theorem Statement.renderAll_withoutPlace (style : Style) (statements : List Statement) :
    renderAll style (statements.map (mapTokens Token.withoutPlace Token.withoutPlace)) =
      renderAll style statements := by
  have hword : ∀ token : Token, style.word token.withoutPlace = style.word token := fun _ => rfl
  have hname : ∀ token : Token, token.withoutPlace.lexeme = token.lexeme := fun _ => rfl
  have h := renderAll_mapTokens hword hname statements
  rwa [mapTokensAll_eq_map] at h

namespace Grammar

/-- The relabeling that forgets places. -/
def Relabeling.withoutPlaces : Relabeling := ⟨Token.withoutPlace, fun _ => rfl, 0⟩

/-- Tokens are read as the same tokens at no place are. -/
theorem exists_parse_of_withoutPlace {tokens unplaced : List Token}
    (htokens : tokens.map Token.withoutPlace = unplaced) {statements : List Statement}
    {after : State} (h : (State.ofTokens unplaced).parse = (.ok statements, after)) :
    ∃ read stop, (State.ofTokens tokens).parse = (.ok read, stop) ∧
      read.map (Statement.mapTokens Token.withoutPlace Token.withoutPlace) = statements ∧
      stop.remaining = after.remaining := by
  have hrelabeled := State.parse_relabeled .withoutPlaces (State.ofTokens tokens)
  have hstate : Relabeling.withoutPlaces.state (State.ofTokens tokens) =
      State.ofTokens unplaced := by
    simp [Relabeling.state, Relabeling.withoutPlaces, State.ofTokens, htokens]
  rw [hstate, h] at hrelabeled
  cases hparse : (State.ofTokens tokens).parse with
  | mk result stop =>
    rw [hparse] at hrelabeled
    cases result with
    | error fault => simp [Except.mapError, Except.map] at hrelabeled
    | ok read =>
      simp only [Except.mapError, Except.map, Prod.mk.injEq, Except.ok.injEq] at hrelabeled
      refine ⟨read, stop, rfl, hrelabeled.1.symm, ?_⟩
      rw [hrelabeled.2]
      simp [State.remaining, Relabeling.state]

end Grammar

namespace Source

open Grammar Statement

/-- A compilation succeeds when parsing and desugaring do. -/
theorem compile_eq_ok_iff {source : Source} {style : Style} {compilation : Compilation} :
    (source.compile style).2 = .ok compilation ↔
      ∃ statements after desugared,
        (State.ofTokens (Scan.ofSource source.content).tokens).parse = (.ok statements, after) ∧
        desugar statements = .ok desugared ∧
        compilation = {
          name := source.name
          tokens := (Scan.ofSource source.content).tokens
          statements := statements
          desugared := desugared
          output := renderAll style desugared
          inputSize := source.content.length
          scannedSize := source.content.length - (Scan.ofSource source.content).rest.length
          remaining := after.remaining } := by
  rw [compile]
  constructor
  · intro h
    cases hparse : (State.ofTokens (Scan.ofSource source.content).tokens).parse with
    | mk result after =>
      cases result with
      | error fault => simp [hparse] at h
      | ok statements =>
        cases hdesugar : desugar statements with
        | error fault => simp [hparse, hdesugar] at h
        | ok desugared =>
          simp only [hparse, hdesugar, Except.ok.injEq] at h
          exact ⟨statements, after, desugared, rfl, hdesugar, h.symm⟩
  · rintro ⟨statements, after, desugared, hparse, hdesugar, rfl⟩
    simp [hparse, hdesugar]

/-- What is kept of a source are tokens of it. -/
theorem mem_tokens_of_parse {tokens : List Token} {statements : List Statement} {after : State}
    (h : (State.ofTokens tokens).parse = (.ok statements, after)) {statement : Statement}
    (hmem : statement ∈ statements) {token : Token} (htoken : token ∈ Slot.parts statement.slots) :
    token ∈ tokens := by
  obtain ⟨_, read, hspells, hreads⟩ := State.parse_sound h
  have hpart : token ∈ Slot.parts (slotsAll statements) := by
    rw [slotsAll_eq_flatMap, Slot.mem_parts_flatMap]
    exact ⟨statement, hmem, htoken⟩
  have htokens : tokens = read ++ after.rest := hreads.rest_eq
  rw [htokens]
  exact List.mem_append_left _ (hspells.parts_sublist.subset hpart)

/-- The statements of a source are statements of a module, made of tokens that a source can
hold. -/
theorem inModule_of_parse {content : Bytes} {statements : List Statement} {after : State}
    (h : (State.ofTokens (Scan.ofSource content).tokens).parse = (.ok statements, after)) :
    ∀ statement ∈ statements, statement.InModule ∧ statement.IsLexical := by
  intro statement hmem
  refine ⟨(State.parse_sound h).1 statement hmem, fun token htoken => ?_⟩
  exact Scan.isLexical_of_mem_tokens (mem_tokens_of_parse h hmem htoken)

/-- What is left after desugaring is a module of tokens that a source can hold, and no function of
it holds a return. -/
theorem desugared_of_compile {source : Source} {style : Style} {compilation : Compilation}
    (h : (source.compile style).2 = .ok compilation) :
    compilation.output = renderAll style compilation.desugared ∧
      ∀ statement ∈ compilation.desugared,
        statement.InModule ∧ statement.IsLexical ∧ statement.FunctionsReturnFree := by
  obtain ⟨statements, after, desugared, hparse, hdesugar, rfl⟩ := compile_eq_ok_iff.1 h
  refine ⟨rfl, fun replaced hmem => ?_⟩
  obtain ⟨_, rfl⟩ := desugar_eq_ok_iff.1 hdesugar
  obtain ⟨statement, hstatement, rfl⟩ := List.mem_map.1 hmem
  obtain ⟨hmodule, hlexical⟩ := inModule_of_parse hparse statement hstatement
  exact ⟨hmodule.expanded, hlexical.expanded, functionsReturnFree_expanded hmodule.not_isValueless⟩

/-- A list falls apart before the first member with a property. -/
theorem take_findIdx {p : Statement → Bool} (statements : List Statement) :
    (∀ statement ∈ statements.take (statements.findIdx p), p statement = false) ∧
      ∀ statement ∈ (statements.drop (statements.findIdx p)).head?, p statement = true := by
  induction statements with
  | nil => simp
  | cons first rest ih =>
    cases hfirst : p first with
    | true => simp [List.findIdx_cons, hfirst]
    | false => simpa [List.findIdx_cons, hfirst] using ih

theorem exists_recase_of_mem {style : Style} {read before : List Statement}
    (h : read.map (mapTokens Token.withoutPlace Token.withoutPlace) = before.map (recase style)) :
    ∀ statement ∈ read, ∃ origin ∈ before,
      origin.recase style = statement.mapTokens Token.withoutPlace Token.withoutPlace := by
  intro statement hmem
  exact List.mem_map.1 (h ▸ List.mem_map_of_mem hmem)

/-- Compiling the legacy form of a desugared module writes it again up to the first subroutine that
holds a return. -/
theorem exists_compile_renderAll {statements : List Statement}
    (h : ∀ statement ∈ statements,
      statement.InModule ∧ statement.IsLexical ∧ statement.FunctionsReturnFree)
    (name : Bytes) (style again : Style) :
    ∃ compilation,
      (Source.compile ⟨name, renderAll style statements⟩ again).2 = .ok compilation ∧
        compilation.inputSize = (renderAll style statements).length ∧
        compilation.scannedSize = compilation.inputSize ∧
        compilation.remaining =
          (printedAll style (statements.drop (statements.findIdx keepsReturn))).length ∧
        compilation.desugared.map (mapTokens Token.withoutPlace Token.withoutPlace) =
          (statements.take (statements.findIdx keepsReturn)).map (recase style) := by
  obtain ⟨hbefore, hafter⟩ := take_findIdx (p := keepsReturn) statements
  generalize hcut : statements.findIdx keepsReturn = cut at hbefore hafter ⊢
  have hsplit := List.take_append_drop cut statements
  have hcontents := contents_renderAll style fun statement hmem => (h statement hmem).2.1
  have hparse := parse_printedAll style
    (fun statement hmem => (h statement (hsplit ▸ hmem)).1)
    (fun statement hmem => ⟨hbefore statement hmem, (h statement (List.mem_of_mem_take hmem)).2.2⟩)
    hafter
  rw [hsplit] at hparse
  obtain ⟨read, stop, hread, hsame, hremaining⟩ :=
    exists_parse_of_withoutPlace (congrArg Scan.tokens hcontents) hparse
  have hdesugar : desugar read = .ok read := by
    refine desugar_of_functionsReturnFree fun statement hmem => ?_
    obtain ⟨origin, horigin, hstatement⟩ := exists_recase_of_mem hsame statement hmem
    have hfree := (h origin (List.mem_of_mem_take horigin)).2.2
    rwa [← functionsReturnFree_mapTokens style.printed Token.verbatim origin, ← recase, hstatement,
      functionsReturnFree_mapTokens] at hfree
  refine ⟨_, compile_eq_ok_iff.2 ⟨read, stop, read, hread, hdesugar, rfl⟩, rfl, ?_, hremaining,
    hsame⟩
  have hrest : (Scan.ofSource (renderAll style statements)).rest = [] :=
    congrArg Scan.rest hcontents
  simp [hrest]

theorem printed_ne_nil_of_keepsReturn (style : Style) {statement : Statement}
    (h : statement.keepsReturn = true) : statement.printed style ≠ [] := by
  cases statement with
  | subroutine scope name arguments body => simp [printed, Style.printedSignature]
  | _ => simp [keepsReturn] at h

/-- Something is left to read exactly when some subroutine holds a return. -/
theorem length_printedAll_drop_pos_iff (style : Style) (statements : List Statement) :
    0 < (printedAll style (statements.drop (statements.findIdx keepsReturn))).length ↔
      statements.findIdx keepsReturn < statements.length := by
  obtain ⟨_, hafter⟩ := take_findIdx (p := keepsReturn) statements
  cases hdrop : statements.drop (statements.findIdx keepsReturn) with
  | nil =>
    have hend := List.drop_eq_nil_iff.1 hdrop
    simp only [printedAll, List.length_nil]
    omega
  | cons statement rest =>
    have hend : ¬statements.length ≤ statements.findIdx keepsReturn := by
      rw [← List.drop_eq_nil_iff, hdrop]
      simp
    rw [hdrop] at hafter
    have hprinted := printed_ne_nil_of_keepsReturn style (hafter statement rfl)
    have hlength := List.length_pos_iff.2 hprinted
    simp only [printedAll, List.length_append]
    omega

/-- A second compilation succeeds and scans all of the first output.  It writes the desugared
statements up to the first subroutine that holds a return, in the case that both styles preserve,
and is truncated exactly when there is such a subroutine.  So without one an output is a fixed point
of compiling in the same style, and a second output always is. -/
theorem compile_output {source : Source} {style : Style} {first : Compilation}
    (h : (source.compile style).2 = .ok first) (name : Bytes) (again : Style) :
    ∃ second, (compile ⟨name, first.output⟩ again).2 = .ok second ∧
      second.scannedSize = first.output.length ∧
      second.output = renderAll ⟨style.preserveCase && again.preserveCase⟩
        (first.desugared.take (first.desugared.findIdx keepsReturn)) ∧
      (second.isTruncated = true ↔
        first.desugared.findIdx keepsReturn < first.desugared.length) ∧
      (again = style → (∀ statement ∈ first.desugared, statement.keepsReturn = false) →
        second.output = first.output) ∧
      ∀ last ∈ [style, again], ∃ third,
        (compile ⟨name, second.output⟩ last).2 = .ok third ∧ third.output = second.output := by
  obtain ⟨houtput, hgood⟩ := desugared_of_compile h
  obtain ⟨second, hsecond, hinput, hscanned, hremaining, hsame⟩ :=
    exists_compile_renderAll hgood name style again
  rw [← houtput] at hsecond hinput
  obtain ⟨hsecondOutput, hsecondGood⟩ := desugared_of_compile hsecond
  have hwritten : ∀ last : Style, renderAll last second.desugared =
      renderAll ⟨style.preserveCase && last.preserveCase⟩
        (first.desugared.take (first.desugared.findIdx keepsReturn)) := by
    intro last
    rw [← renderAll_withoutPlace, hsame, renderAll_recase]
  refine ⟨second, hsecond, by rw [hscanned, hinput], by rw [hsecondOutput, hwritten], ?_, ?_, ?_⟩
  · rw [← length_printedAll_drop_pos_iff style, ← hremaining]
    simp [Compilation.isTruncated, hscanned]
  · rintro rfl hfree
    rw [hsecondOutput, hwritten, List.findIdx_eq_length_of_false hfree, List.take_length,
      Bool.and_self, houtput]
  · intro last hlast
    have hfree : ∀ statement ∈ second.desugared, statement.keepsReturn = false := by
      intro statement hmem
      obtain ⟨origin, horigin, hstatement⟩ := exists_recase_of_mem hsame statement hmem
      have hkeeps := (take_findIdx first.desugared).1 origin horigin
      rwa [← keepsReturn_mapTokens style.printed Token.verbatim origin, ← recase, hstatement,
        keepsReturn_mapTokens] at hkeeps
    have hcase : (style.preserveCase && (again.preserveCase && last.preserveCase)) =
        (style.preserveCase && again.preserveCase) := by
      simp only [List.mem_cons, List.not_mem_nil, or_false] at hlast
      rcases hlast with rfl | rfl
      · rw [Bool.and_comm again.preserveCase, ← Bool.and_assoc, Bool.and_self]
      · rw [Bool.and_self]
    obtain ⟨third, hthird, _, _, _, hagain⟩ := exists_compile_renderAll hsecondGood name again last
    rw [← hsecondOutput] at hthird
    refine ⟨third, hthird, ?_⟩
    rw [(desugared_of_compile hthird).1, ← renderAll_withoutPlace, hagain, renderAll_recase,
      List.findIdx_eq_length_of_false hfree, List.take_length, hwritten, hcase, hsecondOutput,
      hwritten]

/-- A variable and a subroutine with a return, written in the case of the source and compiled again
in small letters: the second pass ends before the subroutine, and the third changes nothing. -/
theorem compile_output_placeholder :
    let source : Source := { content := "Dim X As Y\nPublic Sub S()\nReturn\nEnd Sub\n" }
    ∃ first second third, (source.compile ⟨true⟩).2 = .ok first ∧
      first.output = "dim X as Y\npublic sub S()\n__POLYFILL__\nend sub\n" ∧
      (compile ⟨[], first.output⟩ {}).2 = .ok second ∧
      second.scannedSize = first.output.length ∧ second.output = "dim x as y\n" ∧
      second.isTruncated = true ∧
      (compile ⟨[], second.output⟩ {}).2 = .ok third ∧ third.output = "dim x as y\n" := by
  intro source
  have hvalues : ((source.compile ⟨true⟩).2.toOption.map fun first =>
      (first.output, renderAll {} (first.desugared.take (first.desugared.findIdx keepsReturn)),
        decide (first.desugared.findIdx keepsReturn < first.desugared.length))) =
      some (Bytes.ofText "dim X as Y\npublic sub S()\n__POLYFILL__\nend sub\n",
        Bytes.ofText "dim x as y\n", true) := by
    decide +kernel
  cases hfirst : (source.compile ⟨true⟩).2 with
  | error fault => simp [hfirst, Except.toOption] at hvalues
  | ok first =>
    simp only [hfirst, Except.toOption, Option.map_some, Option.some.injEq, Prod.mk.injEq,
      decide_eq_true_eq] at hvalues
    obtain ⟨hfirstOutput, hwritten, hholds⟩ := hvalues
    obtain ⟨second, hsecond, hscanned, houtput, htruncated, _, hfixed⟩ :=
      compile_output hfirst [] {}
    obtain ⟨third, hthird, hthirdOutput⟩ := hfixed {} (by simp)
    have hsecondOutput : second.output = "dim x as y\n" := houtput.trans hwritten
    exact ⟨first, second, third, rfl, hfirstOutput, hsecond, hscanned, hsecondOutput,
      htruncated.2 hholds, hthird, hthirdOutput.trans hsecondOutput⟩

end Source

end LegacyBasic
