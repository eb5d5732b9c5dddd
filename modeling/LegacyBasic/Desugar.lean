import LegacyBasic.Statement.Basic
import LegacyBasic.Violation

/-!
Desugaring: a return with a value inside a function becomes an assignment to the function's name
and an exit from the function.  Functions at the top of a module are rebuilt; every other statement
stays as it is.
-/

namespace LegacyBasic

/-- A block that has been entered: its kind and its name. -/
structure Frame where
  kind : Kind
  name : Token
deriving DecidableEq, Repr

/-- The statements still to be desugared, and the blocks entered and not left, innermost first. -/
structure Desugarer where
  pending : List Statement
  frames : List Frame := []
deriving Repr

namespace Desugarer

/-- What a return in the innermost block becomes. -/
def replaceReturn (frames : List Frame) : Option Token → Except Fault (List Statement)
  | none => .error .valuelessReturn
  | some value =>
    match frames with
    | [] => .error .noEnclosingBlock
    | frame :: _ =>
      .ok [.assignment frame.name value, .exitLine (Token.unplaced frame.kind [])]

/-- What a statement of a function's body becomes. -/
def bodyStatement (frames : List Frame) : Statement → Except Fault (List Statement)
  | .returnLine value => replaceReturn frames value
  | statement => .ok [statement]

def body (frames : List Frame) : List Statement → Except Fault (List Statement)
  | [] => .ok []
  | statement :: rest => do
    let replaced ← bodyStatement frames statement
    let others ← body frames rest
    return replaced ++ others

def leave : List Frame → Except Fault (List Frame)
  | [] => .error .blockUnderflow
  | _ :: frames => .ok frames

/-- What a statement of a module becomes, and the blocks entered afterwards.  A function that
cannot be rebuilt is not left. -/
def statement (frames : List Frame) : Statement → Except Fault Statement × List Frame
  | .function scope name arguments returns statements =>
    let entered := ⟨.keyword .functionWord, name⟩ :: frames
    match body entered statements with
    | .error fault => (.error fault, entered)
    | .ok replaced =>
      match leave entered with
      | .error fault => (.error fault, entered)
      | .ok left => (.ok (.function scope name arguments returns replaced), left)
  | other => (.ok other, frames)

/-- Desugars statements inside the given blocks.  A fault uses up the statement it was met in. -/
def runFrom (frames : List Frame) : List Statement → Except Fault (List Statement) × Desugarer
  | [] => (.ok [], ⟨[], frames⟩)
  | first :: rest =>
    match statement frames first with
    | (.error fault, entered) => (.error fault, ⟨rest, entered⟩)
    | (.ok replaced, entered) =>
      let (result, desugarer) := runFrom entered rest
      (result.map (replaced :: ·), desugarer)

/-- Desugars the statements that are still pending. -/
def run (desugarer : Desugarer) : Except Fault (List Statement) × Desugarer :=
  runFrom desugarer.frames desugarer.pending

end Desugarer

def desugar (statements : List Statement) : Except Fault (List Statement) :=
  (Desugarer.run { pending := statements }).1

end LegacyBasic
