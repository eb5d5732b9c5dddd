import LegacyBasic.Proofs.Completeness
import LegacyBasic.Proofs.Desugaring

/-!
Reading a printed module.  Main statement: statements that hold no return are read back from their
legacy form with nothing changed but the case of names, and reading ends before the first subroutine
that holds one.
-/

namespace LegacyBasic

theorem Spells.flatMap {α : Type} {items : List α} {write : α → List Slot}
    {read : α → List Token} (h : ∀ item ∈ items, Spells (write item) (read item)) :
    Spells (items.flatMap write) (items.flatMap read) := by
  induction items with
  | nil => exact .nil
  | cons item items ih =>
    obtain ⟨hitem, hitems⟩ := List.forall_mem_cons.1 h
    exact hitem.append (ih hitems)

@[simp]
theorem Style.kind_printed (style : Style) (token : Token) :
    (style.printed token).kind = token.kind := rfl

@[simp]
theorem Token.kind_verbatim (token : Token) : token.verbatim.kind = token.kind := rfl

section Spelling

variable (style : Style)

theorem spells_optional (token : Option Token) :
    Spells (Slot.optional (token.map style.printed)) (token.toList.map style.printed) := by
  cases token with
  | none => exact .nil
  | some token => exact .part _ .nil

theorem spells_following (mark : Kind) (token : Option Token) :
    Spells (Slot.following mark (token.map style.printed)) (style.printedAfter mark token) := by
  cases token with
  | none => exact .nil
  | some token => exact .mark rfl (.part _ .nil)

theorem spells_argument (argument : Argument) :
    Spells (argument.mapTokens style.printed).slots (argument.printed style) :=
  (spells_optional style argument.modifier).append (.part _ (.mark rfl (.part _ .nil)))

/-- The commas between arguments fill their places, and the last place stays empty. -/
theorem spells_arguments (arguments : List Argument) :
    Spells (Argument.slotsAll (arguments.map (Argument.mapTokens style.printed)))
      (List.intercalate [.ofMark (.symbol .comma)] (arguments.map (Argument.printed style))) := by
  induction arguments with
  | nil => exact .nil
  | cons argument arguments ih =>
    cases arguments with
    | nil =>
      have hlast := (spells_argument style argument).append (.noComma .nil)
      simpa [Argument.slotsAll] using hlast
    | cons next arguments =>
      have hcomma : Spells [.comma] [.ofMark (.symbol .comma)] := .comma rfl .nil
      have hpart := ((spells_argument style argument).append hcomma).append ih
      simpa [Argument.slotsAll, List.intercalate_cons_cons] using hpart

theorem spells_argumentList (arguments : List Argument) :
    Spells (Argument.slotsAll (arguments.map (Argument.mapTokens style.printed)) ++
        [.mark (.symbol .rightParen)])
      (List.intercalate [.ofMark (.symbol .comma)] (arguments.map (Argument.printed style)) ++
        [.ofMark (.symbol .rightParen)]) :=
  (spells_arguments style arguments).append (.mark rfl .nil)

/-- The written first line of a callable has a comma for every slot but the last. -/
theorem spells_signature (scope : Token) (word : Keyword) (name : Token)
    (arguments : List Argument) :
    Spells (Slot.signature (style.printed scope) word (style.printed name)
        (arguments.map (Argument.mapTokens style.printed)))
      (style.printedSignature scope word name arguments) := by
  rw [Slot.signature, Style.printedSignature, List.append_assoc]
  exact .part _ (.mark rfl (.part _ (.mark rfl (spells_argumentList style arguments))))

theorem spells_closing (word : Keyword) :
    Spells (Slot.closing word) (Statement.printedClosing word) := .mark rfl (.mark rfl .nil)

end Spelling

namespace Statement

variable {style : Style} {kind : Kind}

/-- The statement as it is read back from its legacy form in a style. -/
def recase (style : Style) : Statement → Statement := mapTokens style.printed Token.verbatim

theorem printedAll_eq_flatMap (style : Style) (statements : List Statement) :
    printedAll style statements = statements.flatMap (printed style) := by
  induction statements with
  | nil => rfl
  | cons statement rest ih => simp [printedAll, ih]

theorem printedAll_append (style : Style) (left right : List Statement) :
    printedAll style (left ++ right) = printedAll style left ++ printedAll style right := by
  simp [printedAll_eq_flatMap]

theorem printed_of_isReturn (style : Style) {statement : Statement}
    (h : statement.isReturn = true) : statement.printed style = [placeholderToken] := by
  cases statement with
  | returnLine value => rfl
  | _ => simp [isReturn] at h

/-! Changing tokens makes no return and removes none. -/

theorem isReturn_mapTokens (change naming : Token → Token) (statement : Statement) :
    (statement.mapTokens change naming).isReturn = statement.isReturn := by
  cases statement <;> simp [mapTokens, isReturn]

theorem keepsReturn_mapTokens (change naming : Token → Token) (statement : Statement) :
    (statement.mapTokens change naming).keepsReturn = statement.keepsReturn := by
  cases statement with
  | subroutine scope name arguments body =>
    simp [mapTokens, keepsReturn, List.any_map, Function.comp_def, isReturn_mapTokens]
  | _ => simp [mapTokens, keepsReturn]

theorem functionsReturnFree_mapTokens (change naming : Token → Token) (statement : Statement) :
    (statement.mapTokens change naming).FunctionsReturnFree ↔ statement.FunctionsReturnFree := by
  cases statement with
  | function scope name arguments returns body =>
    simp [mapTokens, FunctionsReturnFree, isReturn_mapTokens]
  | _ => simp [mapTokens, FunctionsReturnFree]

theorem spells_recase_of_isDeclaration {statement : Statement} (h : statement.IsDeclaration) :
    Spells (statement.recase style).slots (statement.printed style) := by
  cases statement with
  | variableDecl scope name kind => exact .part _ (.part _ (.mark rfl (.part _ .nil)))
  | constantDecl scope name kind length value =>
    have hfront : Spells [.part (style.printed scope), .mark (.keyword .constWord),
        .part (style.printed name)]
        [style.printed scope, .ofMark (.keyword .constWord), style.printed name] :=
      .part _ (.mark rfl (.part _ .nil))
    have hback : Spells [.mark (.symbol .equals), .part (style.printed value)]
        [.ofMark (.symbol .equals), style.printed value] := .mark rfl (.part _ .nil)
    have hline := ((hfront.append (spells_following style (.keyword .asWord) kind)).append
      (spells_following style (.symbol .asterisk) length)).append hback
    simpa only [recase, mapTokens, slots, printed] using hline
  | attributeLine name value => exact .mark rfl (.part _ (.mark rfl (.part _ .nil)))
  | _ => exact h.elim

theorem spells_recase_of_inBody {statement : Statement} (h : statement.InBody kind)
    (hreturn : statement.isReturn = false) :
    Spells (statement.recase style).slots (statement.printed style) := by
  cases statement with
  | assignment left right => exact .part _ (.mark rfl (.part _ .nil))
  | exitLine block => exact .mark rfl (.part _ .nil)
  | returnLine value => simp [isReturn] at hreturn
  | _ => exact spells_recase_of_isDeclaration h

theorem spells_body (style : Style) {body : List Statement}
    (h : ∀ statement ∈ body, statement.InBody kind)
    (hreturn : ∀ statement ∈ body, statement.isReturn = false) :
    Spells (slotsAll (body.map (recase style))) (printedAll style body) := by
  rw [slotsAll_eq_flatMap, printedAll_eq_flatMap, List.flatMap_map]
  exact Spells.flatMap fun statement hmem =>
    spells_recase_of_inBody (h statement hmem) (hreturn statement hmem)

/-- Neither a subroutine nor a function with a return in its body. -/
def ReturnFree (statement : Statement) : Prop :=
  statement.keepsReturn = false ∧ statement.FunctionsReturnFree

/-- Without returns, a printed statement spells the statement in the case it was printed in. -/
theorem spells_recase {statement : Statement} (h : statement.InModule)
    (hfree : statement.ReturnFree) :
    Spells (statement.recase style).slots (statement.printed style) := by
  cases statement with
  | record name fields =>
    have hopening : Spells [.mark (.keyword .typeWord), .part (style.printed name)]
        [.ofMark (.keyword .typeWord), style.printed name] := .mark rfl (.part _ .nil)
    have hfields : Spells ((fields.map (Field.mapTokens style.printed)).flatMap Field.slots)
        (fields.flatMap (Field.printed style)) := by
      rw [List.flatMap_map]
      exact .flatMap fun _ _ => .part _ (.mark rfl (.part _ .nil))
    have hblock := (hopening.append hfields).append (spells_closing .typeWord)
    simpa only [recase, mapTokens, slots, printed] using hblock
  | enumeration scope name members =>
    have hopening : Spells [.mark (.keyword .enumWord), .part (style.printed name)]
        [.ofMark (.keyword .enumWord), style.printed name] := .mark rfl (.part _ .nil)
    have hmembers :
        Spells ((members.map (Enumerator.mapTokens style.printed)).flatMap Enumerator.slots)
          (members.flatMap (Enumerator.printed style)) := by
      rw [List.flatMap_map]
      exact .flatMap fun member _ =>
        .part _ (spells_following style (.symbol .equals) member.value)
    have hblock := (((spells_optional style scope).append hopening).append hmembers).append
      (spells_closing .enumWord)
    simpa only [recase, mapTokens, slots, printed] using hblock
  | subroutine scope name arguments body =>
    have hreturn : ∀ statement ∈ body, statement.isReturn = false := by
      simpa [keepsReturn] using hfree.1
    have hblock := ((spells_signature style scope .subWord name arguments).append
      (spells_body style h.2.2.2 hreturn)).append (spells_closing .subWord)
    simpa only [recase, mapTokens, mapTokensAll_eq_map, slots, printed] using hblock
  | function scope name arguments returns body =>
    have hblock := (((spells_signature style scope .functionWord name arguments).append
      (spells_following style (.keyword .asWord) returns)).append
      (spells_body style h.2.2.2.2 hfree.2)).append (spells_closing .functionWord)
    simpa only [recase, mapTokens, mapTokensAll_eq_map, slots, printed] using hblock
  | optionLine config value =>
    have hopening : Spells [.mark (.keyword .optionWord), .part (style.printed config)]
        [.ofMark (.keyword .optionWord), style.printed config] := .mark rfl (.part _ .nil)
    have hline := hopening.append (spells_optional style value)
    simpa only [recase, mapTokens, slots, printed] using hline
  | _ => exact spells_recase_of_isDeclaration h

theorem IsDeclaration.recase {statement : Statement} (h : statement.IsDeclaration) :
    (statement.recase style).IsDeclaration := by
  cases statement with
  | constantDecl scope name kind length value =>
    obtain ⟨hscope, hname, hkind, hlength, hvalue⟩ := h
    exact ⟨hscope, hname, by simpa using hkind, by simpa using hlength, hvalue⟩
  | variableDecl scope name kind => exact h
  | attributeLine name value => exact h
  | _ => exact h.elim

theorem InBody.recase {statement : Statement} (h : statement.InBody kind) :
    (statement.recase style).InBody kind := by
  cases statement with
  | assignment left right => exact h
  | exitLine block => exact h
  | returnLine value =>
    obtain ⟨hvalue, hsome⟩ := h
    exact ⟨by simpa using hvalue, by simpa using hsome⟩
  | _ =>
    apply IsDeclaration.inBody
    apply IsDeclaration.recase
    exact h

theorem wellFormed_mapTokens {argument : Argument} (h : argument.WellFormed) :
    (argument.mapTokens style.printed).WellFormed := by
  obtain ⟨hmodifier, hname, hkind⟩ := h
  exact ⟨by simpa [Argument.mapTokens] using hmodifier, hname, hkind⟩

/-- Only the case of names changes, so a statement of a module stays one. -/
theorem InModule.recase {statement : Statement} (h : statement.InModule) :
    (statement.recase style).InModule := by
  cases statement with
  | record name fields => exact ⟨h.1, List.forall_mem_map.2 fun field hmem => h.2 field hmem⟩
  | enumeration scope name members =>
    obtain ⟨hscope, hname, hmembers⟩ := h
    refine ⟨by simpa using hscope, hname, List.forall_mem_map.2 ?_⟩
    intro member hmem
    exact ⟨(hmembers member hmem).1, by simpa [Enumerator.mapTokens] using (hmembers member hmem).2⟩
  | subroutine scope name arguments body =>
    obtain ⟨hscope, hname, harguments, hbody⟩ := h
    refine ⟨hscope, hname, List.forall_mem_map.2 fun argument hmem => ?_, ?_⟩
    · exact wellFormed_mapTokens (harguments argument hmem)
    · rw [mapTokensAll_eq_map]
      exact List.forall_mem_map.2 fun statement hmem => (hbody statement hmem).recase
  | function scope name arguments returns body =>
    obtain ⟨hscope, hname, harguments, hreturns, hbody⟩ := h
    refine ⟨hscope, hname, List.forall_mem_map.2 fun argument hmem => ?_,
      by simpa using hreturns, ?_⟩
    · exact wellFormed_mapTokens (harguments argument hmem)
    · rw [mapTokensAll_eq_map]
      exact List.forall_mem_map.2 fun statement hmem => (hbody statement hmem).recase
  | optionLine config value =>
    rcases h with ⟨hconfig, rfl⟩ | ⟨token, rfl, h⟩
    · exact .inl ⟨hconfig, rfl⟩
    · exact .inr ⟨style.printed token, rfl, h⟩
  | _ =>
    apply IsDeclaration.inModule
    apply IsDeclaration.recase
    exact h

/-- Without returns no return can take a name for its value. -/
theorem not_isMisread_recase {statement : Statement} (h : statement.ReturnFree) :
    ¬(statement.recase style).IsMisread := by
  cases statement with
  | subroutine scope name arguments body =>
    rintro ⟨before, left, right, after, hbody⟩
    have hmem : Statement.returnLine none ∈ mapTokensAll style.printed Token.verbatim body := by
      rw [hbody]
      simp
    rw [mapTokensAll_eq_map] at hmem
    obtain ⟨statement, hmem, hreturn⟩ := List.mem_map.1 hmem
    have hbodyFree : ∀ statement ∈ body, statement.isReturn = false := by
      simpa [keepsReturn] using h.1
    have hisReturn := isReturn_mapTokens style.printed Token.verbatim statement
    rw [hreturn, hbodyFree statement hmem] at hisReturn
    simp [isReturn] at hisReturn
  | _ => exact id

/-- A printed statement of a body does not begin with an equals sign. -/
theorem InBody.exists_printed_cons {statement : Statement} (h : statement.InBody kind)
    (style : Style) :
    ∃ token rest, statement.printed style = token :: rest ∧ token.kind ≠ .symbol .equals := by
  have hscope : ∀ scope : Token, scope.kind ∈ Grammar.variableScopes →
      (style.printed scope).kind ≠ .symbol .equals := by
    intro scope hscope hkind
    rw [Style.kind_printed] at hkind
    simp [hkind, Grammar.variableScopes] at hscope
  cases statement with
  | variableDecl scope name kind => exact ⟨_, _, rfl, hscope scope h.1⟩
  | constantDecl scope name kind length value => exact ⟨_, _, rfl, hscope scope h.1⟩
  | assignment left right => exact ⟨_, _, rfl, by simp [h.1]⟩
  | exitLine block => exact ⟨_, _, rfl, by decide⟩
  | returnLine value => exact ⟨_, _, rfl, by decide⟩
  | attributeLine name value => exact ⟨_, _, rfl, by decide⟩
  | _ => exact h.elim

theorem exists_printedAll_cons (style : Style) {body : List Statement} (word : Keyword)
    (h : ∀ statement ∈ body, statement.InBody kind) :
    ∃ token rest, printedAll style body ++ printedClosing word = token :: rest ∧
      token.kind ≠ .symbol .equals := by
  cases body with
  | nil => exact ⟨_, _, rfl, by decide⟩
  | cons statement body =>
    obtain ⟨token, rest, hprinted, hkind⟩ :=
      (h statement List.mem_cons_self).exists_printed_cons style
    exact ⟨token, _, by rw [printedAll, hprinted]; rfl, hkind⟩

end Statement

namespace Grammar

open Rule Statement

variable {style : Style} {kind : Kind} {rest : List Token}

/-- A name that no equals sign follows begins no statement of a body. -/
theorem rejects_bodyStatement_of_name {token other : Token} (htoken : token.kind = .identifier)
    (hother : other.kind ≠ .symbol .equals) :
    bodyStatement.Rejects kind (token :: other :: rest) := by
  refine rejects_choice bodyAlternatives_forward ?_
  simp only [bodyAlternatives, List.forall_mem_cons]
  refine ⟨rejects_first ?_, rejects_first ?_, rejects_second ?_, rejects_first ?_,
    rejects_first ?_, rejects_first ?_, List.forall_mem_nil _⟩ <;>
    simp [htoken, hother, variableScopes]

/-- A printed body is read back statement by statement. -/
theorem repeats_bodyStatement_printed {body : List Statement}
    (h : ∀ statement ∈ body, statement.InBody kind)
    (hreturn : ∀ statement ∈ body, statement.isReturn = false) :
    bodyStatement.Repeats kind (printedAll style body) rest (body.map (recase style)) := by
  have hspells := spells_body style h hreturn
  rw [slotsAll_eq_flatMap] at hspells
  refine (repeats_of_accepts (fun _ => True) ?_ ?_ hspells trivial).1
  · intro statement hmem first after hfirst _
    obtain ⟨origin, horigin, rfl⟩ := List.mem_map.1 hmem
    refine accepts_bodyStatement (h origin horigin).recase hfirst fun hstatement => ?_
    have hisReturn := isReturn_mapTokens style.printed Token.verbatim origin
    rw [← recase, hstatement, hreturn origin horigin] at hisReturn
    simp [isReturn] at hisReturn
  · intro statement hmem first after hfirst
    obtain ⟨origin, horigin, rfl⟩ := List.mem_map.1 hmem
    obtain ⟨token, others, rfl, _⟩ := (h origin horigin).recase.exists_cons hfirst
    exact ⟨by simp, trivial⟩

/-- The placeholder of a return begins no statement, so the subroutine that holds it is none. -/
theorem rejects_moduleStatement_of_keepsReturn {statement : Statement} (h : statement.InModule)
    (hreturn : statement.keepsReturn = true) :
    moduleStatement.Rejects kind (statement.printed style ++ rest) := by
  cases statement with
  | subroutine scope name arguments body =>
    obtain ⟨hscope, hname, harguments, hbody⟩ := h
    obtain ⟨broken, hfind⟩ := Option.isSome_iff_exists.1
      (List.find?_isSome.2 (List.any_eq_true.1 hreturn))
    obtain ⟨hisReturn, before, after, rfl, hbefore⟩ := List.find?_eq_some_iff_append.1 hfind
    simp only [List.forall_mem_append, List.forall_mem_cons] at hbody
    obtain ⟨hfront, _, hback⟩ := hbody
    -- The body is read up to the placeholder, which stands before no equals sign.
    obtain ⟨token, others, hothers, htoken⟩ := exists_printedAll_cons style .subWord hback
    have hrepeats : bodyStatement.Repeats (.keyword .subWord) (printedAll style before)
        (placeholderToken :: token :: (others ++ rest)) (before.map (recase style)) :=
      repeats_bodyStatement_printed hfront (by simpa using hbefore)
    have hread := hrepeats.accepts_many bodyStatement_forward
      (rejects_bodyStatement_of_name rfl htoken)
    have hprinted : printed style (.subroutine scope name arguments (before ++ broken :: after)) ++
        rest = style.printed scope :: .ofMark (.keyword .subWord) :: style.printed name ::
          .ofMark (.symbol .leftParen) ::
          (List.intercalate [.ofMark (.symbol .comma)] (arguments.map (Argument.printed style)) ++
            [.ofMark (.symbol .rightParen)] ++
            (printedAll style before ++ placeholderToken :: token :: (others ++ rest))) := by
      have hafter : token :: (others ++ rest) =
          printedAll style after ++ (printedClosing .subWord ++ rest) := by
        rw [← List.append_assoc, hothers]
        rfl
      rw [hafter]
      simp [printed, Style.printedSignature, printedAll_append, printedAll,
        printed_of_isReturn style hisReturn]
    rw [hprinted]
    exact rejects_moduleStatement_of_broken_body hscope rfl hname rfl
      (List.forall_mem_map.2 fun argument hmem => wellFormed_mapTokens (harguments argument hmem))
      (spells_argumentList style arguments) hread (nextNot_cons.2 (by decide))
  | _ => simp [keepsReturn] at hreturn

theorem rejects_moduleStatement_nil : moduleStatement.Rejects kind [] := fun _ => ⟨_, rfl⟩

theorem repeats_moduleStatement_printed {statements : List Statement}
    (h : ∀ statement ∈ statements, statement.InModule)
    (hfree : ∀ statement ∈ statements, statement.ReturnFree) :
    moduleStatement.Repeats kind (printedAll style statements) rest
      (statements.map (recase style)) := by
  refine repeats_moduleStatement ?_ ?_ ?_
  · exact List.forall_mem_map.2 fun statement hmem => (h statement hmem).recase
  · exact List.forall_mem_map.2 fun statement hmem => not_isMisread_recase (hfree statement hmem)
  · rw [slotsAll_eq_flatMap, printedAll_eq_flatMap, List.flatMap_map]
    exact .flatMap fun statement hmem => spells_recase (h statement hmem) (hfree statement hmem)

/-- A printed module is read back up to the first subroutine that holds a return. -/
theorem parse_printedAll (style : Style) {before after : List Statement}
    (h : ∀ statement ∈ before ++ after, statement.InModule)
    (hfree : ∀ statement ∈ before, statement.ReturnFree)
    (hafter : ∀ statement ∈ after.head?, statement.keepsReturn = true) :
    (State.ofTokens (printedAll style (before ++ after))).parse =
      (.ok (before.map (recase style)),
        ⟨(printedAll style before).length, printedAll style after, .illegal⟩) := by
  have hbefore : moduleStatement.Repeats .illegal (printedAll style before)
      (printedAll style after) (before.map (recase style)) :=
    repeats_moduleStatement_printed (fun statement hmem => h statement (by simp [hmem])) hfree
  have hstop : moduleStatement.Rejects .illegal (printedAll style after) := by
    cases after with
    | nil => exact rejects_moduleStatement_nil
    | cons statement after =>
      exact rejects_moduleStatement_of_keepsReturn (h statement (by simp)) (hafter statement rfl)
  have hmany := hbefore.accepts_many moduleStatement_forward hstop 0
  rw [Nat.zero_add] at hmany
  rw [printedAll_append, State.parse_eq_many, State.ofTokens, hmany]

end Grammar

end LegacyBasic
