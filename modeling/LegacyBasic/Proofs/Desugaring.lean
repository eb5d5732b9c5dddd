import LegacyBasic.Desugar
import LegacyBasic.Proofs.Printing
import LegacyBasic.Proofs.Relabeling

/-!
What desugaring does.  A run expands the returns of each function in place and leaves every block
again, or it fails in the first function that holds a return without a value.  Main statements: the
statements of a module stay statements of a module, made of tokens of the source and the keyword of
the exits; no function keeps a return; a module whose functions hold no return is left as it is; and
desugaring goes through two modules one after the other and through a change of tokens.
-/

namespace LegacyBasic

namespace Statement

def isReturn : Statement → Bool
  | .returnLine _ => true
  | _ => false

/-- Whether the statement is a subroutine with a return in its body. -/
def keepsReturn : Statement → Bool
  | .subroutine _ _ _ body => body.any isReturn
  | _ => false

def FunctionsReturnFree : Statement → Prop
  | .function _ _ _ _ body => ∀ statement ∈ body, statement.isReturn = false
  | _ => True

/-- A function whose body holds a return without a value. -/
def IsValueless : Statement → Prop
  | .function _ _ _ _ body => .returnLine none ∈ body
  | _ => False

/-- What a statement in the body of the function `name` stands for: a return with a value stands for
an assignment of it to the name and an exit from the function. -/
def expansion (name : Token) : Statement → List Statement
  | .returnLine (some value) =>
    [.assignment name value, .exitLine (.unplaced (.keyword .functionWord) [])]
  | statement => [statement]

/-- A function with the returns of its body expanded in place; any other statement as it is. -/
def expanded : Statement → Statement
  | .function scope name arguments returns body =>
    .function scope name arguments returns (body.flatMap (expansion name))
  | statement => statement

/-- The blocks inside a statement that stands inside the given ones. -/
def entered (frames : List Frame) : Statement → List Frame
  | .function _ name _ _ _ => ⟨.keyword .functionWord, name⟩ :: frames
  | _ => frames

def isBareReturn : Statement → Bool
  | .returnLine none => true
  | _ => false

def isValueless : Statement → Bool
  | .function _ _ _ _ body => body.any isBareReturn
  | _ => false

theorem isBareReturn_iff {statement : Statement} :
    statement.isBareReturn = true ↔ statement = .returnLine none := by
  cases statement with
  | returnLine value => cases value <;> simp [isBareReturn]
  | _ => simp [isBareReturn]

theorem isValueless_iff (statement : Statement) :
    statement.isValueless = true ↔ statement.IsValueless := by
  cases statement with
  | function scope name arguments returns body =>
    simp [isValueless, IsValueless, isBareReturn_iff]
  | _ => simp [isValueless, IsValueless]

instance : DecidablePred IsValueless := fun statement =>
  decidable_of_iff (statement.isValueless = true) statement.isValueless_iff

theorem InModule.not_isValueless {statement : Statement} (h : statement.InModule) :
    ¬statement.IsValueless := by
  intro hvalueless
  cases statement with
  | function scope name arguments returns body =>
    obtain ⟨_, _, _, _, hbody⟩ := h
    exact (hbody _ hvalueless).2 rfl rfl
  | _ => exact hvalueless.elim

/-- No function holds a return without a value, or there is a first one that does. -/
theorem forall_not_isValueless_or_exists_first (statements : List Statement) :
    (∀ statement ∈ statements, ¬statement.IsValueless) ∨
      ∃ before function after, statements = before ++ function :: after ∧
        (∀ statement ∈ before, ¬statement.IsValueless) ∧ function.IsValueless := by
  by_cases h : ∃ statement ∈ statements, statement.isValueless = true
  · right
    obtain ⟨statement, hmem, hvalueless⟩ := h
    obtain ⟨function, before, after, hbefore, hfunction, hsplit, _⟩ :=
      List.exists_of_eraseP hmem hvalueless
    simp only [isValueless_iff] at hbefore hfunction
    exact ⟨before, function, after, hsplit, hbefore, hfunction⟩
  · left
    simpa [isValueless_iff] using h

/-- Each statement that a body is expanded to stood in the body, or it replaces a return. -/
theorem mem_expansion {name : Token} {statement replaced : Statement}
    (h : replaced ∈ statement.expansion name) :
    (replaced = statement ∧ ∀ value, statement ≠ .returnLine (some value)) ∨
      ∃ value, statement = .returnLine (some value) ∧
        (replaced = .assignment name value ∨
          replaced = .exitLine (.unplaced (.keyword .functionWord) [])) := by
  cases statement with
  | returnLine value =>
    cases value with
    | none => exact .inl ⟨List.mem_singleton.1 h, by simp⟩
    | some value => exact .inr ⟨value, rfl, by simpa [expansion] using h⟩
  | _ => exact .inl ⟨List.mem_singleton.1 h, by simp⟩

/-- Once its returns are expanded, a function holds none, unless one of them carried no value. -/
theorem functionsReturnFree_expanded {statement : Statement} (h : ¬statement.IsValueless) :
    statement.expanded.FunctionsReturnFree := by
  cases statement with
  | function scope name arguments returns body =>
    intro replaced hmem
    obtain ⟨origin, horigin, hreplaced⟩ := List.mem_flatMap.1 hmem
    rcases mem_expansion hreplaced with ⟨rfl, hvalue⟩ | ⟨value, rfl, rfl | rfl⟩
    · cases replaced with
      | returnLine value =>
        cases value with
        | none => exact absurd horigin h
        | some value => exact absurd rfl (hvalue value)
      | _ => rfl
    · rfl
    · rfl
  | _ => trivial

/-- A function that holds no return is left as it is. -/
theorem FunctionsReturnFree.expanded_eq {statement : Statement}
    (h : statement.FunctionsReturnFree) :
    ¬statement.IsValueless ∧ statement.expanded = statement := by
  cases statement with
  | function scope name arguments returns body =>
    have hbody : ∀ inner ∈ body, inner.expansion name = [inner] := by
      intro inner hmem
      cases inner with
      | returnLine value => exact absurd (h _ hmem) (by simp [isReturn])
      | _ => rfl
    refine ⟨fun hvalueless => absurd (h _ hvalueless) (by simp [isReturn]), ?_⟩
    rw [expanded, List.flatMap_def, List.map_congr_left hbody, ← List.flatMap_def,
      List.flatMap_singleton']
  | _ => exact ⟨id, rfl⟩

theorem InModule.expanded {statement : Statement} (h : statement.InModule) :
    statement.expanded.InModule := by
  cases statement with
  | function scope name arguments returns body =>
    obtain ⟨hscope, hname, harguments, hreturns, hbody⟩ := h
    refine ⟨hscope, hname, harguments, hreturns, ?_⟩
    intro replaced hmem
    obtain ⟨origin, horigin, hreplaced⟩ := List.mem_flatMap.1 hmem
    rcases mem_expansion hreplaced with ⟨rfl, _⟩ | ⟨value, rfl, rfl | rfl⟩
    · exact hbody replaced horigin
    · exact ⟨hname, (hbody _ horigin).1 value rfl⟩
    · show Kind.keyword .functionWord ∈ Grammar.exitBlocks
      decide
  | _ => exact h

/-- Returns are expanded to tokens that the function holds and the keyword of the exits. -/
theorem mem_parts_expanded {statement : Statement} {token : Token}
    (h : token ∈ Slot.parts statement.expanded.slots) :
    token ∈ Slot.parts statement.slots ∨ token = .unplaced (.keyword .functionWord) [] := by
  cases statement with
  | function scope name arguments returns body =>
    simp only [expanded, slots, Slot.parts_append, List.mem_append, slotsAll_eq_flatMap,
      Slot.mem_parts_flatMap] at h ⊢
    rcases h with (hfront | ⟨replaced, hmem, htoken⟩) | hclosing
    · exact .inl (.inl (.inl hfront))
    · obtain ⟨origin, horigin, hreplaced⟩ := List.mem_flatMap.1 hmem
      rcases mem_expansion hreplaced with ⟨rfl, _⟩ | ⟨value, rfl, rfl | rfl⟩
      · exact .inl (.inl (.inr ⟨replaced, horigin, htoken⟩))
      · simp only [slots, Slot.parts_part, Slot.parts_mark, Slot.parts_nil, List.mem_cons,
          List.not_mem_nil, or_false] at htoken
        rcases htoken with rfl | rfl
        · exact .inl (.inl (.inl (.inl (by simp [Slot.signature]))))
        · exact .inl (.inl (.inr ⟨_, horigin, by simp [slots]⟩))
      · right
        simpa [slots] using htoken
    · exact .inl (.inr hclosing)
  | _ => exact .inl h

theorem IsLexical.expanded {statement : Statement} (h : statement.IsLexical) :
    statement.expanded.IsLexical := by
  intro token htoken
  rcases mem_parts_expanded htoken with hmem | rfl
  · exact h token hmem
  · trivial

section MapTokens

variable (change naming : Token → Token)

theorem isValueless_mapTokens (statement : Statement) :
    (statement.mapTokens change naming).IsValueless ↔ statement.IsValueless := by
  have hreturn : ∀ inner : Statement,
      inner.mapTokens change naming = .returnLine none ↔ inner = .returnLine none := by
    intro inner
    cases inner <;> simp [mapTokens]
  cases statement with
  | function scope name arguments returns body =>
    simp [mapTokens, IsValueless, hreturn]
  | _ => simp [mapTokens, IsValueless]

/-- Expanding changed tokens, where the keyword of the exits stays. -/
theorem expanded_mapTokens (statement : Statement)
    (hexit : change (.unplaced (.keyword .functionWord) []) =
      .unplaced (.keyword .functionWord) []) :
    (statement.mapTokens change naming).expanded = statement.expanded.mapTokens change naming := by
  cases statement with
  | function scope name arguments returns body =>
    have hbody : ∀ inner : Statement, (inner.mapTokens change naming).expansion (change name) =
        (inner.expansion name).map (mapTokens change naming) := by
      intro inner
      cases inner with
      | returnLine value =>
        cases value with
        | none => rfl
        | some value => simp [mapTokens, expansion, hexit]
      | _ => rfl
    simp only [mapTokens, expanded, mapTokensAll_eq_map, List.flatMap_map, List.map_flatMap, hbody]
  | _ => rfl

end MapTokens

end Statement

namespace Desugarer

theorem bodyStatement_of_ne (name : Token) (frames : List Frame) {first : Statement}
    (h : first ≠ .returnLine none) :
    bodyStatement (⟨.keyword .functionWord, name⟩ :: frames) first =
      .ok (first.expansion name) := by
  cases first with
  | returnLine value =>
    cases value with
    | none => exact absurd rfl h
    | some value => rfl
  | _ => rfl

/-- Inside a function, the returns of a body are expanded unless one of them carries no value. -/
theorem body_of_notMem (name : Token) (frames : List Frame) {statements : List Statement}
    (h : .returnLine none ∉ statements) :
    body (⟨.keyword .functionWord, name⟩ :: frames) statements =
      .ok (statements.flatMap (Statement.expansion name)) := by
  induction statements with
  | nil => rfl
  | cons first rest ih =>
    rw [List.mem_cons, not_or] at h
    obtain ⟨hfirst, hrest⟩ := h
    rw [body, bodyStatement_of_ne name frames (Ne.symm hfirst), ih hrest]
    rfl

theorem body_of_mem (name : Token) (frames : List Frame) {statements : List Statement}
    (h : .returnLine none ∈ statements) :
    body (⟨.keyword .functionWord, name⟩ :: frames) statements = .error .valuelessReturn := by
  induction statements with
  | nil => simp at h
  | cons first rest ih =>
    by_cases hfirst : first = .returnLine none
    · subst hfirst
      rfl
    · have hrest : .returnLine none ∈ rest := (List.mem_cons.1 h).resolve_left (Ne.symm hfirst)
      rw [body, bodyStatement_of_ne name frames hfirst, ih hrest]
      rfl

/-- A statement is expanded, and the blocks are as before. -/
theorem statement_of_not_isValueless (frames : List Frame) {first : Statement}
    (h : ¬first.IsValueless) : statement frames first = (.ok first.expanded, frames) := by
  cases first with
  | function scope name arguments returns statements =>
    simp only [statement, body_of_notMem name frames h, leave, Statement.expanded]
  | _ => rfl

/-- A function that holds a return without a value is entered and not left. -/
theorem statement_of_isValueless (frames : List Frame) {first : Statement}
    (h : first.IsValueless) :
    statement frames first = (.error .valuelessReturn, first.entered frames) := by
  cases first with
  | function scope name arguments returns statements =>
    simp only [statement, body_of_mem name frames h, Statement.entered]
  | _ => exact h.elim

theorem runFrom_of_forall_not_isValueless (frames : List Frame) {statements : List Statement}
    (h : ∀ statement ∈ statements, ¬statement.IsValueless) :
    runFrom frames statements = (.ok (statements.map Statement.expanded), ⟨[], frames⟩) := by
  induction statements with
  | nil => rfl
  | cons first rest ih =>
    obtain ⟨hfirst, hrest⟩ := List.forall_mem_cons.1 h
    simp only [runFrom, statement_of_not_isValueless frames hfirst, ih hrest, Except.map,
      List.map_cons]

theorem runFrom_append_cons (frames : List Frame) {before : List Statement}
    {function : Statement} (hbefore : ∀ statement ∈ before, ¬statement.IsValueless)
    (hfunction : function.IsValueless) (after : List Statement) :
    runFrom frames (before ++ function :: after) =
      (.error .valuelessReturn, ⟨after, function.entered frames⟩) := by
  induction before with
  | nil => simp only [List.nil_append, runFrom, statement_of_isValueless frames hfunction]
  | cons first rest ih =>
    obtain ⟨hfirst, hrest⟩ := List.forall_mem_cons.1 hbefore
    simp only [List.cons_append, runFrom, statement_of_not_isValueless frames hfirst, ih hrest,
      Except.map]

/-- What a run does.  Where every return of a function carries a value, all statements are expanded
and every block is left again.  Otherwise the run fails in the first function with a return that
carries none: it is not left, and the statements after it are pending. -/
theorem run_cases (desugarer : Desugarer) :
    ((∀ statement ∈ desugarer.pending, ¬statement.IsValueless) ∧
        desugarer.run = (.ok (desugarer.pending.map Statement.expanded), ⟨[], desugarer.frames⟩)) ∨
      ∃ before function after, desugarer.pending = before ++ function :: after ∧
        (∀ statement ∈ before, ¬statement.IsValueless) ∧ function.IsValueless ∧
        desugarer.run = (.error .valuelessReturn, ⟨after, function.entered desugarer.frames⟩) := by
  rcases Statement.forall_not_isValueless_or_exists_first desugarer.pending with
    hall | ⟨before, function, after, hsplit, hbefore, hfunction⟩
  · exact .inl ⟨hall, runFrom_of_forall_not_isValueless desugarer.frames hall⟩
  · right
    refine ⟨before, function, after, hsplit, hbefore, hfunction, ?_⟩
    rw [run, hsplit, runFrom_append_cons desugarer.frames hbefore hfunction]

end Desugarer

theorem desugar_of_forall_not_isValueless {statements : List Statement}
    (h : ∀ statement ∈ statements, ¬statement.IsValueless) :
    desugar statements = .ok (statements.map Statement.expanded) := by
  rw [desugar, Desugarer.run, Desugarer.runFrom_of_forall_not_isValueless [] h]

theorem desugar_append_cons {before : List Statement} {function : Statement}
    (hbefore : ∀ statement ∈ before, ¬statement.IsValueless) (hfunction : function.IsValueless)
    (after : List Statement) :
    desugar (before ++ function :: after) = .error .valuelessReturn := by
  rw [desugar, Desugarer.run, Desugarer.runFrom_append_cons [] hbefore hfunction]

theorem desugar_eq_ok_iff {statements desugared : List Statement} :
    desugar statements = .ok desugared ↔
      (∀ statement ∈ statements, ¬statement.IsValueless) ∧
        desugared = statements.map Statement.expanded := by
  rcases Statement.forall_not_isValueless_or_exists_first statements with
    hall | ⟨before, function, after, rfl, hbefore, hfunction⟩
  · rw [desugar_of_forall_not_isValueless hall]
    constructor
    · intro h
      exact ⟨hall, (Except.ok.inj h).symm⟩
    · rintro ⟨_, rfl⟩
      rfl
  · rw [desugar_append_cons hbefore hfunction]
    constructor
    · intro h
      cases h
    · rintro ⟨hnone, _⟩
      exact absurd hfunction (hnone function (by simp))

/-- A module whose functions hold no return is left as it is. -/
theorem desugar_of_functionsReturnFree {statements : List Statement}
    (h : ∀ statement ∈ statements, statement.FunctionsReturnFree) :
    desugar statements = .ok statements := by
  refine desugar_eq_ok_iff.2 ⟨fun statement hmem => (h statement hmem).expanded_eq.1, ?_⟩
  have hmap : statements.map Statement.expanded = statements.map id :=
    List.map_congr_left fun statement hmem => (h statement hmem).expanded_eq.2
  rw [hmap, List.map_id]

/-- Two modules one after the other are desugared one after the other. -/
theorem desugar_append {left right replaced : List Statement} (h : desugar left = .ok replaced) :
    desugar (left ++ right) = (desugar right).map (replaced ++ ·) := by
  obtain ⟨hleft, rfl⟩ := desugar_eq_ok_iff.1 h
  rcases Statement.forall_not_isValueless_or_exists_first right with
    hright | ⟨before, function, after, rfl, hbefore, hfunction⟩
  · have hboth := List.forall_mem_append.2 ⟨hleft, hright⟩
    rw [desugar_of_forall_not_isValueless hboth, desugar_of_forall_not_isValueless hright,
      List.map_append]
    rfl
  · have hboth := List.forall_mem_append.2 ⟨hleft, hbefore⟩
    rw [desugar_append_cons hbefore hfunction, ← List.append_assoc,
      desugar_append_cons hboth hfunction]
    rfl

/-- Desugaring a module of changed tokens, where the keyword of the exits stays. -/
theorem desugar_mapTokens (change naming : Token → Token) (statements : List Statement)
    (hexit : change (.unplaced (.keyword .functionWord) []) =
      .unplaced (.keyword .functionWord) []) :
    desugar (statements.map (Statement.mapTokens change naming)) =
      (desugar statements).map (List.map (Statement.mapTokens change naming)) := by
  have hmapped : ∀ {others : List Statement},
      (∀ statement ∈ others, ¬statement.IsValueless) →
      ∀ statement ∈ others.map (Statement.mapTokens change naming), ¬statement.IsValueless := by
    intro others hothers statement hmem
    obtain ⟨origin, horigin, rfl⟩ := List.mem_map.1 hmem
    rw [Statement.isValueless_mapTokens]
    exact hothers origin horigin
  rcases Statement.forall_not_isValueless_or_exists_first statements with
    hall | ⟨before, function, after, rfl, hbefore, hfunction⟩
  · rw [desugar_of_forall_not_isValueless (hmapped hall), desugar_of_forall_not_isValueless hall]
    simp only [Except.map, List.map_map, Except.ok.injEq]
    exact List.map_congr_left fun statement _ =>
      statement.expanded_mapTokens change naming hexit
  · rw [List.map_append, List.map_cons, desugar_append_cons hbefore hfunction,
      desugar_append_cons (hmapped hbefore)
        ((Statement.isValueless_mapTokens change naming function).2 hfunction)]
    rfl

/-- Two modules that a change of tokens makes equal are desugared alike. -/
theorem exists_desugar_of_map_eq {change naming : Token → Token}
    {statements others desugared : List Statement}
    (hexit : change (.unplaced (.keyword .functionWord) []) =
      .unplaced (.keyword .functionWord) [])
    (hsame : others.map (Statement.mapTokens change naming) =
      statements.map (Statement.mapTokens change naming))
    (h : desugar statements = .ok desugared) :
    ∃ replaced, desugar others = .ok replaced ∧
      replaced.map (Statement.mapTokens change naming) =
        desugared.map (Statement.mapTokens change naming) := by
  have hothers := desugar_mapTokens change naming others hexit
  rw [hsame, desugar_mapTokens change naming statements hexit, h] at hothers
  cases hreplaced : desugar others with
  | error fault => simp [hreplaced, Except.map] at hothers
  | ok replaced =>
    simp only [hreplaced, Except.map, Except.ok.injEq] at hothers
    exact ⟨replaced, rfl, hothers.symm⟩

end LegacyBasic
