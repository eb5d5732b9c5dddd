import Mathlib
import LegacyBasic.Proofs.Faults
import LegacyBasic.Proofs.Tiling

/-!
Sources one after the other.  What has been scanned and read to its end neither runs into what
follows nor is changed by it.  Main statement: a source that is compiled to its end can be put
before any other, with blanks between them, and the two are compiled one after the other.
-/

namespace LegacyBasic

namespace Latin

theorem not_joins_of_isSpace : ∀ b : UInt8, isSpace b = true →
    isWordByte b = false ∧ b ≠ 0x2E ∧ b ≠ 0x3D :=
  Bytes.forall_byte (by decide +kernel)

theorem apart_blanks (text rest : Bytes) {blanks : Bytes} (hne : blanks ≠ [])
    (h : ∀ b ∈ blanks, isSpace b = true) : Apart text (blanks ++ rest) := by
  obtain ⟨b, others, rfl⟩ := List.exists_cons_of_ne_nil hne
  obtain ⟨hword, hdot, hequals⟩ := not_joins_of_isSpace b (h b List.mem_cons_self)
  exact .inl (by simp [breaks, hword, hdot, hequals])

end Latin

namespace Scan

theorem contents_blanks_append {blanks : Bytes} (h : ∀ b ∈ blanks, Latin.isSpace b = true)
    (rest : Bytes) : contents (blanks ++ rest) = contents rest := by
  induction blanks with
  | nil => rfl
  | cons b blanks ih =>
    obtain ⟨hb, hblanks⟩ := List.forall_mem_cons.1 h
    rw [List.cons_append, contents_cons_of_isSpace hb, ih hblanks]

theorem length_rest_le (source : Bytes) : (ofSource source).rest.length ≤ source.length := by
  obtain ⟨read, _, hread, _⟩ := exists_tiles_ofSource source
  have hlength := congrArg List.length hread
  rw [List.length_append] at hlength
  omega

/-- After a source that is scanned to its end and some blanks, a second one is scanned as it is
alone, up to places. -/
theorem ofSource_append {left blanks : Bytes} (hleft : (ofSource left).rest = [])
    (hne : blanks ≠ []) (hblanks : ∀ b ∈ blanks, Latin.isSpace b = true) (right : Bytes) :
    (ofSource (left ++ blanks ++ right)).tokens.map Token.withoutPlace =
        ((ofSource left).tokens ++ (ofSource right).tokens).map Token.withoutPlace ∧
      (ofSource (left ++ blanks ++ right)).rest = (ofSource right).rest := by
  have hcontents : contents left = ⟨(ofSource left).tokens.map Token.withoutPlace, []⟩ := by
    rw [contents, withoutPlaces, hleft]
  have hboth := contents_append hcontents (Latin.apart_blanks left right hne hblanks)
  rw [contents_blanks_append hblanks, ← List.append_assoc] at hboth
  have htokens := congrArg Scan.tokens hboth
  have hrest := congrArg Scan.rest hboth
  refine ⟨?_, hrest⟩
  rw [List.map_append]
  exact htokens

end Scan

namespace Grammar

/-- A subroutine that would be misread is never read. -/
theorem moduleStatement_sound_not_isMisread :
    moduleStatement.Sound Statement.slots fun _ statement =>
      statement.InModule ∧ ¬statement.IsMisread := by
  intro state statement after h
  obtain ⟨hmodule, tokens, hspells, hreads⟩ := moduleStatement_sound h
  refine ⟨⟨hmodule, ?_⟩, tokens, hspells, hreads⟩
  intro hmisread
  have hrejects : moduleStatement.Rejects state.enclosing (tokens ++ after.rest) :=
    rejects_moduleStatement_of_isMisread hmodule hmisread hspells
  obtain ⟨stop, hstuck⟩ := hrejects state.position
  rw [← hreads.rest_eq] at hstuck
  rw [h] at hstuck
  cases hstuck

/-- Tokens that are read to their end are read so whatever follows them. -/
theorem repeats_of_parse {tokens : List Token} {statements : List Statement}
    (h : parse tokens = .ok (statements, 0)) (rest : List Token) :
    moduleStatement.Repeats .illegal tokens rest statements := by
  rw [parse_eq] at h
  cases hmany : Rule.many moduleStatement ⟨0, tokens, .illegal⟩ with
  | stuck stop => exact absurd hmany (Rule.many_ne_stuck _ _ _)
  | failed fault stop => simp [hmany] at h
  | matched values after =>
    simp only [hmany, Except.ok.injEq, Prod.mk.injEq, List.length_eq_zero_iff] at h
    obtain ⟨rfl, hend⟩ := h
    obtain ⟨hgood, read, hspells, hreads⟩ :=
      moduleStatement_sound_not_isMisread.many moduleStatement_forward hmany
    have htokens : tokens = read := by
      simpa [hend] using hreads.rest_eq
    rw [htokens]
    refine repeats_moduleStatement (fun statement hmem => (hgood statement hmem).1)
      (fun statement hmem => (hgood statement hmem).2) ?_
    rw [Statement.slotsAll_eq_flatMap]
    exact hspells

/-- After tokens that are read to their end, reading goes on as it would have begun there. -/
theorem parse_append {tokens : List Token} {statements : List Statement}
    (h : parse tokens = .ok (statements, 0)) (rest : List Token) :
    parse (tokens ++ rest) =
      match parse rest with
      | .ok (others, remaining) => .ok (statements ++ others, remaining)
      | .error fault => .error (fault.shift tokens.length) :=
  parse_append_of_repeats (repeats_of_parse h rest)

end Grammar

theorem Fault.violation_withoutPlaces (fault : Fault) :
    (Grammar.Relabeling.withoutPlaces.fault fault).violation = fault.violation := by
  cases fault with
  | malformedArguments index found => cases found <;> rfl
  | _ => rfl

theorem Compilation.isTruncated_eq_false_iff {compilation : Compilation} :
    compilation.isTruncated = false ↔
      compilation.inputSize ≤ compilation.scannedSize ∧ compilation.remaining = 0 := by
  simp [isTruncated]

namespace Source

open Grammar Statement

variable {left right : Source} {style : Style} {first second : Compilation} {blanks : Bytes}

theorem whole_of_not_isTruncated (h : (left.compile style).2 = .ok first)
    (hwhole : first.isTruncated = false) :
    (Scan.ofSource left.content).rest = [] ∧ parse first.tokens = .ok (first.statements, 0) := by
  obtain ⟨_, hparse, _, _, hinput, hscanned⟩ := stages_of_compile h
  obtain ⟨hsize, hremaining⟩ := Compilation.isTruncated_eq_false_iff.1 hwhole
  rw [hremaining] at hparse
  refine ⟨?_, hparse⟩
  have hrest := Scan.length_rest_le left.content
  rw [← List.length_eq_zero_iff]
  omega

/-- The tokens of two sources with blanks between them, up to places. -/
theorem tokens_append (h : (left.compile style).2 = .ok first)
    (hwhole : first.isTruncated = false) (hne : blanks ≠ [])
    (hblanks : ∀ b ∈ blanks, Latin.isSpace b = true) (right : Source) :
    (Scan.ofSource (left.content ++ blanks ++ right.content)).tokens.map Token.withoutPlace =
        (first.tokens ++ (Scan.ofSource right.content).tokens).map Token.withoutPlace ∧
      (Scan.ofSource (left.content ++ blanks ++ right.content)).rest =
        (Scan.ofSource right.content).rest := by
  obtain ⟨hrest, _⟩ := whole_of_not_isTruncated h hwhole
  obtain ⟨htokens, _⟩ := stages_of_compile h
  rw [htokens]
  exact Scan.ofSource_append hrest hne hblanks right.content

theorem exists_compile_append (h : (left.compile style).2 = .ok first)
    (hwhole : first.isTruncated = false) (hne : blanks ≠ [])
    (hblanks : ∀ b ∈ blanks, Latin.isSpace b = true) (name : Bytes)
    (hsecond : (right.compile style).2 = .ok second) :
    ∃ both, (compile ⟨name, left.content ++ blanks ++ right.content⟩ style).2 = .ok both ∧
      both.output = first.output ++ second.output ∧
      both.statements.length = first.statements.length + second.statements.length ∧
      both.desugared.length = first.desugared.length + second.desugared.length ∧
      both.scannedSize = left.content.length + blanks.length + second.scannedSize ∧
      both.remaining = second.remaining ∧ both.isTruncated = second.isTruncated := by
  obtain ⟨hsame, hrest⟩ := tokens_append h hwhole hne hblanks right
  obtain ⟨_, hread⟩ := whole_of_not_isTruncated h hwhole
  obtain ⟨_, _, hdesugar, houtput, _⟩ := stages_of_compile h
  obtain ⟨htokens, hothers, hdesugars, houtputs, hinput, hscanned⟩ := stages_of_compile hsecond
  -- Among the tokens at their own places reading goes from the first source to the second.
  have hparse : parse (first.tokens ++ second.tokens) =
      .ok (first.statements ++ second.statements, second.remaining) := by
    rw [parse_append hread, hothers]
  have hdesugared : desugar (first.statements ++ second.statements) =
      .ok (first.desugared ++ second.desugared) := by
    rw [desugar_append hdesugar, hdesugars]
    rfl
  rw [← htokens] at hsame
  obtain ⟨read, hboth, hstatements⟩ := exists_parse_of_map_eq .withoutPlaces rfl hsame hparse
  obtain ⟨replaced, hreplaced, hequal⟩ := exists_desugar_of_map_eq rfl hstatements hdesugared
  have hwritten : renderAll style replaced =
      renderAll style (first.desugared ++ second.desugared) := by
    rw [← renderAll_withoutPlace style replaced, ← renderAll_withoutPlace style (_ ++ _)]
    exact congrArg (renderAll style) hequal
  refine ⟨_, compile_of_parse hboth hreplaced, ?_, ?_, ?_, ?_, rfl, ?_⟩
  · rw [hwritten, renderAll_append, houtput, houtputs]
  · simpa using congrArg List.length hstatements
  · simpa using congrArg List.length hequal
  · have hle := Scan.length_rest_le right.content
    simp only [hrest, List.length_append, hscanned]
    omega
  · have hle := Scan.length_rest_le right.content
    simp only [Compilation.isTruncated, hrest, List.length_append, hinput, hscanned]
    congr 1
    rw [decide_eq_decide]
    omega

theorem exists_fault_append (h : (left.compile style).2 = .ok first)
    (hwhole : first.isTruncated = false) (hne : blanks ≠ [])
    (hblanks : ∀ b ∈ blanks, Latin.isSpace b = true) (name : Bytes) {fault : Fault}
    (hfault : (right.compile style).2 = .error fault) :
    ∃ index found moved, fault = .malformedArguments index found ∧
      (compile ⟨name, left.content ++ blanks ++ right.content⟩ style).2 =
        .error (.malformedArguments (index + first.tokens.length) moved) ∧
      Fault.violation (.malformedArguments (index + first.tokens.length) moved) =
        Fault.violation (.malformedArguments (index + first.tokens.length) found) := by
  obtain ⟨hsame, _⟩ := tokens_append h hwhole hne hblanks right
  obtain ⟨_, hread⟩ := whole_of_not_isTruncated h hwhole
  have hothers := compile_eq_error_iff.1 hfault
  obtain ⟨index, _, hindex⟩ := exists_malformedArguments_of_parse hothers
  generalize (Scan.ofSource right.content).tokens[index]? = found at hindex
  subst hindex
  have hparse : parse (first.tokens ++ (Scan.ofSource right.content).tokens) =
      .error (.malformedArguments (index + first.tokens.length) found) := by
    rw [parse_append hread, hothers]
    rfl
  obtain ⟨other, hother, hequal⟩ := exists_fault_of_map_eq .withoutPlaces rfl hsame hparse
  have hviolation := congrArg Fault.violation hequal
  rw [Fault.violation_withoutPlaces, Fault.violation_withoutPlaces] at hviolation
  obtain ⟨place, _, rfl⟩ := exists_malformedArguments_of_parse hother
  obtain rfl : place = index + first.tokens.length := by
    simp only [Relabeling.fault, Fault.malformedArguments.injEq] at hequal
    exact hequal.1
  exact ⟨index, found, _, rfl, compile_eq_error_iff.2 hother, hviolation⟩

/-- Compiling goes through two sources one after the other.  When the first is compiled to its end,
blanks and any second source can follow it: the two together are compiled exactly when the second
is, their outputs and statements are those of the first and then those of the second, and they stop
where the second stops.  When the second fails, the two together fail at the same token, which now
stands after all tokens of the first. -/
theorem compile_append {left : Source} {style : Style} {first : Compilation}
    (h : (left.compile style).2 = .ok first) (hwhole : first.isTruncated = false)
    {blanks : Bytes} (hne : blanks ≠ []) (hblanks : ∀ b ∈ blanks, Latin.isSpace b = true)
    (right : Source) (name : Bytes) :
    let joined : Source := ⟨name, left.content ++ blanks ++ right.content⟩
    ((∃ both, (joined.compile style).2 = .ok both) ↔
      ∃ second, (right.compile style).2 = .ok second) ∧
    (∀ second both, (right.compile style).2 = .ok second → (joined.compile style).2 = .ok both →
      both.output = first.output ++ second.output ∧
        both.statements.length = first.statements.length + second.statements.length ∧
        both.desugared.length = first.desugared.length + second.desugared.length ∧
        both.scannedSize = left.content.length + blanks.length + second.scannedSize ∧
        both.remaining = second.remaining ∧ both.isTruncated = second.isTruncated) ∧
    ∀ fault, (right.compile style).2 = .error fault →
      ∃ index found moved, fault = .malformedArguments index found ∧
        (joined.compile style).2 =
          .error (.malformedArguments (index + first.tokens.length) moved) ∧
        Fault.violation (.malformedArguments (index + first.tokens.length) moved) =
          Fault.violation (.malformedArguments (index + first.tokens.length) found) := by
  intro joined
  refine ⟨⟨?_, ?_⟩, ?_, ?_⟩
  · rintro ⟨both, hboth⟩
    cases hright : (right.compile style).2 with
    | ok second => exact ⟨second, rfl⟩
    | error fault =>
      obtain ⟨_, _, _, _, hfails, _⟩ := exists_fault_append h hwhole hne hblanks name hright
      rw [hboth] at hfails
      cases hfails
  · rintro ⟨second, hsecond⟩
    obtain ⟨both, hboth, _⟩ := exists_compile_append h hwhole hne hblanks name hsecond
    exact ⟨both, hboth⟩
  · intro second both hsecond hboth
    obtain ⟨other, hother, hfacts⟩ := exists_compile_append h hwhole hne hblanks name hsecond
    obtain rfl : other = both := Except.ok.inj (hother.symm.trans hboth)
    exact hfacts
  · intro fault hfault
    exact exists_fault_append h hwhole hne hblanks name hfault

/-- `Dim x As x` and a line feed before a function, which follows it in the output, and before
`Public Sub x(Dim`, whose fault is then met four tokens later. -/
theorem compile_append_declaration :
    let left : Source := { content := "Dim x As x" }
    let right : Source := { content := "Public Function f() Return 1 End Function #" }
    let broken : Source := { content := "Public Sub x(Dim" }
    ∃ first, (left.compile {}).2 = .ok first ∧ first.isTruncated = false ∧
      (∃ both, (compile ⟨[], left.content ++ [0x0A] ++ right.content⟩ {}).2 = .ok both ∧
        both.output = "dim x as x\npublic function f()\nf = 1\nexit function\nend function\n" ∧
        both.statements.length = 2 ∧ both.scannedSize = 53 ∧ both.isTruncated = true) ∧
      ∃ moved, (compile ⟨[], left.content ++ [0x0A] ++ broken.content⟩ {}).2 =
          .error (.malformedArguments 8 moved) ∧
        (Fault.violation (.malformedArguments 8 moved)).message =
          "malformed argument list at token 8 (dim dim)" := by
  intro left right broken
  have hleft : ((left.compile {}).2.toOption.map fun first =>
      (first.isTruncated, first.output, first.statements.length, first.tokens.length)) =
      some (false, Bytes.ofText "dim x as x\n", 1, 4) := by
    decide +kernel
  have hright : ((right.compile {}).2.toOption.map fun second =>
      (second.isTruncated, second.output, second.statements.length, second.scannedSize)) =
      some (true,
        Bytes.ofText "public function f()\nf = 1\nexit function\nend function\n", 1, 42) := by
    decide +kernel
  have htokens : (Scan.ofSource broken.content).tokens =
      [⟨.keyword .publicWord, [], ⟨1, 1⟩⟩, ⟨.keyword .subWord, [], ⟨1, 8⟩⟩,
        ⟨.identifier, "x", ⟨1, 12⟩⟩, ⟨.symbol .leftParen, [], ⟨1, 13⟩⟩,
        ⟨.keyword .dimWord, [], ⟨1, 14⟩⟩] := by
    decide +kernel
  have hbroken : (broken.compile {}).2 =
      .error (.malformedArguments 4 (some ⟨.keyword .dimWord, [], ⟨1, 14⟩⟩)) := by
    rw [compile_eq_error_iff, htokens]
    cbv
  cases hfirst : (left.compile {}).2 with
  | error fault => simp [hfirst, Except.toOption] at hleft
  | ok first =>
    simp only [hfirst, Except.toOption, Option.map_some, Option.some.injEq, Prod.mk.injEq] at hleft
    obtain ⟨hwhole, houtput, hstatements, hcount⟩ := hleft
    have hblanks : ∀ b ∈ ([0x0A] : Bytes), Latin.isSpace b = true := by decide +kernel
    have happend := compile_append hfirst hwhole (List.cons_ne_nil _ _) hblanks
    refine ⟨first, rfl, hwhole, ?_, ?_⟩
    · cases hsecond : (right.compile {}).2 with
      | error fault => simp [hsecond, Except.toOption] at hright
      | ok second =>
        simp only [hsecond, Except.toOption, Option.map_some, Option.some.injEq,
          Prod.mk.injEq] at hright
        obtain ⟨htruncated, houtputs, hothers, hscanned⟩ := hright
        obtain ⟨hsucceeds, hfacts, _⟩ := happend right []
        obtain ⟨both, hboth⟩ := hsucceeds.2 ⟨second, hsecond⟩
        obtain ⟨hwritten, hlength, _, hsize, _, hsame⟩ := hfacts second both hsecond hboth
        refine ⟨both, hboth, ?_, ?_, ?_, hsame.trans htruncated⟩
        · rw [hwritten, houtput, houtputs]
          rfl
        · rw [hlength, hstatements, hothers]
        · rw [hsize, hscanned]
          rfl
    · obtain ⟨index, found, moved, hform, hfails, hviolation⟩ := (happend broken []).2.2 _ hbroken
      obtain ⟨rfl, rfl⟩ := Fault.malformedArguments.inj hform
      rw [hcount] at hfails hviolation
      refine ⟨moved, hfails, ?_⟩
      rw [hviolation]
      decide +kernel

end Source

end LegacyBasic
