import Mathlib
import LegacyBasic.Proofs.Failing
import LegacyBasic.Proofs.SecondPass

/-!
The one fault that can be met.  A rule fails only inside an argument list, and then it names the
token it stopped at; what has been read can always be desugared.  Main statement: a compilation
fails exactly when reading the tokens of its source meets a malformed argument list.
-/

namespace LegacyBasic

namespace Grammar

variable {α β : Type}

namespace Rule

/-- A rule that fails has met a malformed argument list at the token where it stopped. -/
def Blames (rule : Rule α) : Prop :=
  ∀ ⦃state : State⦄ ⦃fault : Fault⦄ ⦃stop : State⦄, rule state = .failed fault stop →
    fault = .malformedArguments stop.position stop.rest.head?

theorem NeverFails.blames {rule : Rule α} (hrule : rule.NeverFails) : rule.Blames :=
  fun state fault stop h => absurd h (hrule state fault stop)

theorem Blames.bind {rule : Rule α} {next : α → Rule β} (hrule : rule.Blames)
    (hnext : ∀ value, (next value).Blames) : Blames (rule >>= next) := by
  intro state fault stop h
  rcases bind_eq_failed_iff.1 h with hfails | ⟨value, middle, _, hfails⟩
  · exact hrule hfails
  · exact hnext value hfails

/-- After a rule that never fails, only what comes next can be to blame. -/
theorem NeverFails.bind_blames {rule : Rule α} {next : α → Rule β} (hrule : rule.NeverFails)
    (hnext : ∀ value, (next value).Blames) : Blames (rule >>= next) :=
  hrule.blames.bind hnext

/-- Before rules that never fail, only the first can be to blame. -/
theorem Blames.bind_neverFails {rule : Rule α} {next : α → Rule β} (hrule : rule.Blames)
    (hnext : ∀ value, (next value).NeverFails) : Blames (rule >>= next) :=
  hrule.bind fun value => (hnext value).blames

theorem NeverFails.orFail_blames {rule : Rule α} (hrule : rule.NeverFails) :
    Blames (rule.orFail fun stop => .malformedArguments stop.position stop.rest.head?) := by
  intro state fault stop h
  unfold Rule.orFail at h
  cases hresult : rule state with
  | matched value after => simp [hresult] at h
  | stuck last =>
    simp only [hresult, Outcome.failed.injEq] at h
    obtain ⟨rfl, rfl⟩ := h
    rfl
  | failed other last => exact absurd hresult (hrule state other last)

theorem choice_blames {rules : List (Rule α)} (hforward : ∀ rule ∈ rules, rule.Forward)
    (hrules : ∀ rule ∈ rules, rule.Blames) : Blames (choice rules) := by
  intro state fault stop h
  obtain ⟨rule, hmem, hfails⟩ := choice_eq_failed hforward h
  exact hrules rule hmem hfails

theorem Blames.many {rule : Rule α} (hrule : rule.Blames) : Blames (many rule) := by
  intro state fault stop h
  obtain ⟨_, middle, _, hfails⟩ := many_eq_failed h
  exact hrule hfails

end Rule

open Rule

theorem nextArgument_blames : nextArgument.Blames :=
  (notNext_neverFails _).bind_blames fun _ =>
    argument_neverFails.orFail_blames.bind_neverFails fun _ =>
      (optional_neverFails _).bind fun _ => pure_neverFails _

theorem arguments_blames : arguments.Blames :=
  nextArgument_blames.many.bind_neverFails fun _ =>
    (token_neverFails _).bind fun _ => pure_neverFails _

theorem subroutine_blames : (subroutine bodyAlternatives).Blames :=
  (oneOf_neverFails _).bind_blames fun _ => (token_neverFails _).bind_blames fun _ =>
    (token_neverFails _).bind_blames fun _ => (token_neverFails _).bind_blames fun _ =>
      arguments_blames.bind_neverFails fun _ => (body_neverFails _).bind fun _ =>
        (token_neverFails _).bind fun _ => (token_neverFails _).bind fun _ => pure_neverFails _

theorem function_blames : (function bodyAlternatives).Blames :=
  (oneOf_neverFails _).bind_blames fun _ => (token_neverFails _).bind_blames fun _ =>
    (token_neverFails _).bind_blames fun _ => (token_neverFails _).bind_blames fun _ =>
      arguments_blames.bind_neverFails fun _ => ((token_neverFails _).following _).bind fun _ =>
        (body_neverFails _).bind fun _ => (token_neverFails _).bind fun _ =>
          (token_neverFails _).bind fun _ => pure_neverFails _

/-- Only the callables can fail, and they do in their argument lists. -/
theorem moduleStatement_blames : moduleStatement.Blames := by
  apply choice_blames moduleAlternatives_forward
  simp only [moduleAlternatives, List.forall_mem_cons]
  exact ⟨record_neverFails.blames, variableDecl_neverFails.blames, constantDecl_neverFails.blames,
    subroutine_blames, function_blames, enumeration_neverFails.blames,
    attributeLine_neverFails.blames, optionLine_neverFails.blames, List.forall_mem_nil _⟩

/-- Reading a module from any state fails only at a malformed argument list, and stops at the token
it blames. -/
theorem State.fault_of_parse {state stop : State} {fault : Fault}
    (h : state.parse = (.error fault, stop)) :
    fault = .malformedArguments stop.position stop.rest.head? ∧
      ∃ read, state.Reads read stop := by
  rw [State.parse_eq_many] at h
  split at h
  · simp at h
  · simp at h
  · next other last hmany =>
    simp only [Prod.mk.injEq, Except.error.injEq] at h
    obtain ⟨rfl, rfl⟩ := h
    obtain ⟨read, hreads⟩ := moduleStatement_forward.many state
    rw [hmany] at hreads
    exact ⟨moduleStatement_blames.many hmany, read, hreads⟩

theorem parse_eq_ok_iff {tokens : List Token} {statements : List Statement} {remaining : Nat} :
    parse tokens = .ok (statements, remaining) ↔
      ∃ after, (State.ofTokens tokens).parse = (.ok statements, after) ∧
        after.remaining = remaining := by
  rw [parse_eq_map]
  cases (State.ofTokens tokens).parse with
  | mk result after => cases result <;> simp [Except.map]

theorem parse_eq_error_iff {tokens : List Token} {fault : Fault} :
    parse tokens = .error fault ↔ ∃ stop, (State.ofTokens tokens).parse = (.error fault, stop) := by
  rw [parse_eq_map]
  cases (State.ofTokens tokens).parse with
  | mk result after => cases result <;> simp [Except.map]

/-- The fault of a token list names a malformed argument list, and the token at its index. -/
theorem exists_malformedArguments_of_parse {tokens : List Token} {fault : Fault}
    (h : parse tokens = .error fault) :
    ∃ index, index ≤ tokens.length ∧ fault = .malformedArguments index tokens[index]? := by
  obtain ⟨stop, hstop⟩ := parse_eq_error_iff.1 h
  obtain ⟨hfault, read, hreads⟩ := State.fault_of_parse hstop
  have hrest : tokens = read ++ stop.rest := hreads.rest_eq
  have hposition : stop.position = read.length := by
    simpa [State.ofTokens] using hreads.position_eq
  refine ⟨stop.position, by simp [hrest, hposition], ?_⟩
  rw [hfault, hrest, hposition, List.getElem?_append_right (Nat.le_refl _), Nat.sub_self,
    List.head?_eq_getElem?]

/-- What has been read is desugared to the end, and every block is left again. -/
theorem exists_run_of_parse {tokens : List Token} {statements : List Statement} {remaining : Nat}
    (h : parse tokens = .ok (statements, remaining)) :
    ∃ desugared, Desugarer.run { pending := statements } = (.ok desugared, { pending := [] }) := by
  obtain ⟨after, hparse, _⟩ := parse_eq_ok_iff.1 h
  have hmodule := (State.parse_sound hparse).1
  refine ⟨_, Desugarer.runFrom_of_forall_not_isValueless [] ?_⟩
  intro statement hmem
  exact (hmodule statement hmem).not_isValueless

theorem exists_desugar_of_parse {tokens : List Token} {statements : List Statement}
    {remaining : Nat} (h : parse tokens = .ok (statements, remaining)) :
    ∃ desugared, desugar statements = .ok desugared := by
  obtain ⟨desugared, hrun⟩ := exists_run_of_parse h
  exact ⟨desugared, by rw [desugar, hrun]⟩

end Grammar

namespace Source

open Grammar

variable {source : Source} {style : Style}

/-- The stages of a compilation that succeeds. -/
theorem stages_of_compile {compilation : Compilation}
    (h : (source.compile style).2 = .ok compilation) :
    compilation.tokens = (Scan.ofSource source.content).tokens ∧
      parse compilation.tokens = .ok (compilation.statements, compilation.remaining) ∧
      desugar compilation.statements = .ok compilation.desugared ∧
      compilation.output = Statement.renderAll style compilation.desugared ∧
      compilation.inputSize = source.content.length ∧
      compilation.scannedSize =
        source.content.length - (Scan.ofSource source.content).rest.length := by
  obtain ⟨statements, after, desugared, hparse, hdesugar, rfl⟩ := compile_eq_ok_iff.1 h
  exact ⟨rfl, parse_eq_ok_iff.2 ⟨after, hparse, rfl⟩, hdesugar, rfl, rfl, rfl⟩

/-- A compilation succeeds when its tokens can be read. -/
theorem compile_of_parse {statements desugared : List Statement} {remaining : Nat}
    (h : parse (Scan.ofSource source.content).tokens = .ok (statements, remaining))
    (hdesugar : desugar statements = .ok desugared) :
    (source.compile style).2 = .ok {
      name := source.name
      tokens := (Scan.ofSource source.content).tokens
      statements := statements
      desugared := desugared
      output := Statement.renderAll style desugared
      inputSize := source.content.length
      scannedSize := source.content.length - (Scan.ofSource source.content).rest.length
      remaining := remaining } := by
  obtain ⟨after, hparse, rfl⟩ := parse_eq_ok_iff.1 h
  exact compile_eq_ok_iff.2 ⟨statements, after, desugared, hparse, hdesugar, rfl⟩

/-- A compilation fails with the fault of its tokens. -/
theorem compile_eq_error_iff {fault : Fault} :
    (source.compile style).2 = .error fault ↔
      parse (Scan.ofSource source.content).tokens = .error fault := by
  cases hparse : parse (Scan.ofSource source.content).tokens with
  | ok result =>
    obtain ⟨desugared, hdesugar⟩ := exists_desugar_of_parse hparse
    simp [compile_of_parse hparse hdesugar]
  | error other =>
    obtain ⟨stop, hstop⟩ := parse_eq_error_iff.1 hparse
    simp [compile, hstop]

/-- A malformed argument list is the only fault.  Reading a token list fails there or not at all,
what has been read is always desugared, and so a compilation fails exactly when reading the tokens
of its source does, and then nothing comes of it. -/
theorem compile_fails_iff_malformedArguments :
    (∀ (tokens : List Token) (fault : Fault), parse tokens = .error fault →
      fault.check = .invariant ∧
        ∃ index, index ≤ tokens.length ∧ fault = .malformedArguments index tokens[index]?) ∧
    (∀ (tokens : List Token) (statements : List Statement) (remaining : Nat),
      parse tokens = .ok (statements, remaining) →
        ∃ desugared,
          Desugarer.run { pending := statements } = (.ok desugared, { pending := [] })) ∧
    ∀ (source : Source) (style : Style),
      let tokens := (Scan.ofSource source.content).tokens
      (∀ fault, (source.compile style).2 = .error fault ↔ parse tokens = .error fault) ∧
        ((source.compile style).2.toOption = none ↔
          ∃ index, parse tokens = .error (.malformedArguments index tokens[index]?)) := by
  refine ⟨?_, ?_, ?_⟩
  · intro tokens fault h
    obtain ⟨index, hindex, rfl⟩ := exists_malformedArguments_of_parse h
    exact ⟨rfl, index, hindex, rfl⟩
  · intro tokens statements remaining h
    exact exists_run_of_parse h
  · intro source style tokens
    refine ⟨fun fault => compile_eq_error_iff, ?_⟩
    cases hparse : parse tokens with
    | ok result =>
      obtain ⟨desugared, hdesugar⟩ := exists_desugar_of_parse hparse
      simp [compile_of_parse hparse hdesugar, Except.toOption]
    | error fault =>
      obtain ⟨index, _, rfl⟩ := exists_malformedArguments_of_parse hparse
      rw [compile_eq_error_iff.2 hparse]
      exact ⟨fun _ => ⟨index, rfl⟩, fun _ => rfl⟩

/-- `Public Sub f(Dim` fails at its fifth token, and a function that returns a value after a
subroutine that returns none is desugared. -/
theorem compile_fails_iff_malformedArguments_dim :
    let broken : Source := { content := "Public Sub f(Dim" }
    let whole : Source :=
      { content := "Public Sub f() Return End Sub Public Function f() Return 1 End Function" }
    let fault : Fault := .malformedArguments 4 (some ⟨.keyword .dimWord, [], ⟨1, 14⟩⟩)
    (parse (Scan.ofSource broken.content).tokens = .error fault ∧ fault.check = .invariant ∧
      (broken.compile {}).2 = .error fault ∧ (broken.compile {}).2.toOption = none) ∧
    ∃ statements desugared,
      parse (Scan.ofSource whole.content).tokens = .ok (statements, 0) ∧
        Desugarer.run { pending := statements } = (.ok desugared, { pending := [] }) ∧
        (whole.compile {}).2.toOption ≠ none := by
  intro broken whole fault
  obtain ⟨hfault, hrun, hcompile⟩ := compile_fails_iff_malformedArguments
  have htokens : (Scan.ofSource broken.content).tokens =
      [⟨.keyword .publicWord, [], ⟨1, 1⟩⟩, ⟨.keyword .subWord, [], ⟨1, 8⟩⟩,
        ⟨.identifier, "f", ⟨1, 12⟩⟩, ⟨.symbol .leftParen, [], ⟨1, 13⟩⟩,
        ⟨.keyword .dimWord, [], ⟨1, 14⟩⟩] := by
    decide +kernel
  have hbroken : parse (Scan.ofSource broken.content).tokens = .error fault := by
    rw [htokens]
    cbv
  obtain ⟨hcheck, index, _, hindex⟩ := hfault _ _ hbroken
  refine ⟨⟨hbroken, hcheck, ((hcompile broken {}).1 fault).2 hbroken,
    (hcompile broken {}).2.2 ⟨index, by rw [hbroken, hindex]⟩⟩, ?_⟩
  have hwhole : (parse (Scan.ofSource whole.content).tokens).toOption.map Prod.snd = some 0 := by
    decide +kernel
  cases hparse : parse (Scan.ofSource whole.content).tokens with
  | error fault => simp [hparse, Except.toOption] at hwhole
  | ok result =>
    obtain ⟨statements, remaining⟩ := result
    obtain rfl : remaining = 0 := by simpa [hparse, Except.toOption] using hwhole
    obtain ⟨desugared, hdesugared⟩ := hrun _ _ _ hparse
    refine ⟨statements, desugared, rfl, hdesugared, ?_⟩
    rw [Ne, (hcompile whole {}).2, hparse]
    simp

end Source

end LegacyBasic
