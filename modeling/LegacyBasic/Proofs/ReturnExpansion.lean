import Mathlib
import LegacyBasic.Proofs.Desugaring

/-!
Desugaring against its specification.  Main statements: desugaring fails exactly where a function
holds a return without a value, and otherwise expands the returns of every function in place, so
that a second time changes nothing; and a desugarer that is run again after a fault gives what a
fresh one gives on the statements that are left, whatever blocks it has not left.
-/

namespace LegacyBasic

namespace Statement

/-- The statements after the first function that holds a return without a value, and none where
there is no such function. -/
def afterValueless : List Statement → List Statement
  | [] => []
  | first :: rest => if first.IsValueless then rest else afterValueless rest

theorem afterValueless_of_forall_not_isValueless {statements : List Statement}
    (h : ∀ statement ∈ statements, ¬statement.IsValueless) : afterValueless statements = [] := by
  induction statements with
  | nil => rfl
  | cons first rest ih =>
    obtain ⟨hfirst, hrest⟩ := List.forall_mem_cons.1 h
    rw [afterValueless, if_neg hfirst, ih hrest]

theorem afterValueless_append_cons {before : List Statement} {function : Statement}
    (hbefore : ∀ statement ∈ before, ¬statement.IsValueless) (hfunction : function.IsValueless)
    (after : List Statement) : afterValueless (before ++ function :: after) = after := by
  induction before with
  | nil => exact if_pos hfunction
  | cons first rest ih =>
    obtain ⟨hfirst, hrest⟩ := List.forall_mem_cons.1 hbefore
    rw [List.cons_append, afterValueless, if_neg hfirst, ih hrest]

theorem iterate_afterValueless_eq_nil {statements : List Statement} {count later : Nat}
    (h : ∀ statement ∈ afterValueless^[count] statements, ¬statement.IsValueless)
    (hlater : count < later) : afterValueless^[later] statements = [] := by
  obtain ⟨more, rfl⟩ := Nat.exists_eq_add_of_le' hlater
  rw [Function.iterate_add_apply, Function.iterate_succ_apply',
    afterValueless_of_forall_not_isValueless h]
  exact Function.iterate_fixed rfl more

end Statement

namespace Desugarer

/-- The desugarer after a run, whatever its result. -/
def afterRun (desugarer : Desugarer) : Desugarer := desugarer.run.2

theorem pending_afterRun (desugarer : Desugarer) :
    desugarer.afterRun.pending = Statement.afterValueless desugarer.pending := by
  rcases run_cases desugarer with
    ⟨hall, hrun⟩ | ⟨before, function, after, hsplit, hbefore, hfunction, hrun⟩
  · rw [afterRun, hrun, Statement.afterValueless_of_forall_not_isValueless hall]
  · rw [afterRun, hrun, hsplit, Statement.afterValueless_append_cons hbefore hfunction]

theorem pending_iterate_afterRun (count : Nat) (desugarer : Desugarer) :
    (afterRun^[count] desugarer).pending = Statement.afterValueless^[count] desugarer.pending := by
  have hsemiconj : Function.Semiconj pending afterRun Statement.afterValueless := pending_afterRun
  exact hsemiconj.iterate_right count desugarer

end Desugarer

/-- Desugaring equals its specification.  It fails, at a return without a value, exactly when a
function of the module holds one; otherwise it expands the returns of each function in place, to an
assignment to the function's own name and an exit, and keeps all else; and a second time changes
nothing. -/
theorem desugar_expands_returns (statements : List Statement) :
    (desugar statements = .error .valuelessReturn ↔
      ∃ statement ∈ statements, statement.IsValueless) ∧
    ((¬∃ statement ∈ statements, statement.IsValueless) →
      desugar statements = .ok (statements.map Statement.expanded) ∧
        desugar (statements.map Statement.expanded) = .ok (statements.map Statement.expanded)) := by
  rcases Statement.forall_not_isValueless_or_exists_first statements with
    hall | ⟨before, function, after, rfl, hbefore, hfunction⟩
  · have hdesugar := desugar_of_forall_not_isValueless hall
    refine ⟨?_, ?_⟩
    · rw [hdesugar]
      simpa using hall
    · intro _
      refine ⟨hdesugar, desugar_of_functionsReturnFree ?_⟩
      intro replaced hmem
      obtain ⟨statement, hstatement, rfl⟩ := List.mem_map.1 hmem
      exact Statement.functionsReturnFree_expanded (hall statement hstatement)
  · have hexists : ∃ statement ∈ before ++ function :: after, statement.IsValueless :=
      ⟨function, by simp, hfunction⟩
    refine ⟨?_, ?_⟩
    · exact iff_of_true (desugar_append_cons hbefore hfunction after) hexists
    · exact fun hnone => absurd hexists hnone

/-- A module with a place that holds no statement, a return outside of every function, a subroutine
that returns nothing, and a function that returns `x` beside another one inside it that returns
nothing: only the return of `x` is expanded.  The inner function on its own cannot be desugared. -/
theorem desugar_expands_returns_nested :
    let scope : Token := { kind := .keyword .publicWord }
    let name : Token := { kind := .identifier, literal := [0x66] }
    let value : Token := { kind := .identifier, literal := [0x78] }
    let inner : Statement := .function scope value [] none [.returnLine none]
    let others : List Statement := [.absent, .returnLine none,
      .subroutine scope name [] [.returnLine none]]
    let desugared := others ++ [.function scope name [] (some value)
      [.assignment name value, .exitLine { kind := .keyword .functionWord }, inner]]
    desugar (others ++ [.function scope name [] (some value) [.returnLine (some value), inner]]) =
        .ok desugared ∧
      desugar desugared = .ok desugared ∧
      desugar (others ++ [inner]) = .error .valuelessReturn := by
  intro scope name value inner others desugared
  obtain ⟨hdesugar, hagain⟩ := (desugar_expands_returns
    (others ++ [.function scope name [] (some value) [.returnLine (some value), inner]])).2
      (by decide)
  exact ⟨hdesugar, hagain, (desugar_expands_returns (others ++ [inner])).1.2 (by decide)⟩

/-- Running a desugarer again after a fault.  Each run gives what a fresh desugarer gives on the
statements that no run before it has read: at first all of them, after a fault those behind the
function it was met in, and none once a run has ended without one.  A run fails only at a return
without a value, and the functions that are not left never show in what a later run yields. -/
theorem run_iterate_eq_desugar (statements : List Statement) :
    let desugarers (count : Nat) : Desugarer := Desugarer.afterRun^[count] { pending := statements }
    let unread (count : Nat) : List Statement := Statement.afterValueless^[count] statements
    ∀ count,
      (desugarers count).run.1 = desugar (unread count) ∧
      (∀ desugared, (desugarers count).run.1 = .ok desugared →
        desugared = (unread count).map Statement.expanded ∧
          (desugarers (count + 1)).frames = (desugarers count).frames ∧
          ∀ later, count < later → unread later = []) ∧
      ∀ fault, (desugarers count).run.1 = .error fault →
        fault = .valuelessReturn ∧ ∃ before function,
          unread count = before ++ function :: unread (count + 1) ∧
            (∃ replaced, desugar before = .ok replaced) ∧ function.IsValueless ∧
            (desugarers (count + 1)).frames = function.entered (desugarers count).frames := by
  intro desugarers unread count
  have hpending : (desugarers count).pending = unread count :=
    Desugarer.pending_iterate_afterRun count { pending := statements }
  have hnext : desugarers (count + 1) = (desugarers count).run.2 :=
    Function.iterate_succ_apply' Desugarer.afterRun count { pending := statements }
  have hunread : unread (count + 1) = Statement.afterValueless (unread count) :=
    Function.iterate_succ_apply' Statement.afterValueless count statements
  rcases Desugarer.run_cases (desugarers count) with
    ⟨hall, hrun⟩ | ⟨before, function, after, hsplit, hbefore, hfunction, hrun⟩
  · rw [hpending] at hall hrun
    rw [hrun, hnext, hrun, desugar_of_forall_not_isValueless hall]
    refine ⟨rfl, ?_, by simp⟩
    intro desugared hdesugared
    refine ⟨(Except.ok.inj hdesugared).symm, rfl, ?_⟩
    intro later hlater
    exact Statement.iterate_afterValueless_eq_nil hall hlater
  · rw [hpending] at hsplit
    rw [hrun, hnext, hrun, hunread, hsplit, desugar_append_cons hbefore hfunction,
      Statement.afterValueless_append_cons hbefore hfunction]
    refine ⟨rfl, by simp, ?_⟩
    intro fault hfault
    refine ⟨(Except.error.inj hfault).symm, before, function, rfl, ?_, hfunction, rfl⟩
    exact ⟨_, desugar_of_forall_not_isValueless hbefore⟩

/-- Functions `f` and `h` return nothing, `g` and `k` return `x`.  The first two runs fail, in `f`
and in `h`, and with both of them entered and not left the third run still assigns to `k`. -/
theorem run_iterate_eq_desugar_two_faults :
    let scope : Token := { kind := .keyword .publicWord }
    let name (letter : UInt8) : Token := { kind := .identifier, literal := [letter] }
    let returning (letter : UInt8) (value : Option Token) : Statement :=
      .function scope (name letter) [] none [.returnLine value]
    let desugarers (count : Nat) : Desugarer := Desugarer.afterRun^[count] { pending :=
      [returning 0x66 none, returning 0x67 (some (name 0x78)), returning 0x68 none,
        returning 0x6B (some (name 0x78))] }
    (desugarers 0).run.1 = .error .valuelessReturn ∧
      (desugarers 1).run.1 = .error .valuelessReturn ∧
      (desugarers 2).frames.map Frame.name = [name 0x68, name 0x66] ∧
      (desugarers 2).run.1 = .ok [.function scope (name 0x6B) [] none
        [.assignment (name 0x6B) (name 0x78), .exitLine { kind := .keyword .functionWord }]] ∧
      (desugarers 3).run.1 = .ok [] := by
  intro scope name returning desugarers
  have hruns := run_iterate_eq_desugar [returning 0x66 none, returning 0x67 (some (name 0x78)),
    returning 0x68 none, returning 0x6B (some (name 0x78))]
  exact ⟨(hruns 0).1, (hruns 1).1, rfl, (hruns 2).1, (hruns 3).1⟩

end LegacyBasic
