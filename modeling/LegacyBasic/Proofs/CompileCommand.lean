import Mathlib
import LegacyBasic.Command.Run
import LegacyBasic.Proofs.FileTrees
import LegacyBasic.Proofs.Schedules
import LegacyBasic.Proofs.SecondPass

/-!
What compiling files does to a tree of files.  Main statement: a batch that cannot be read, compiled
or placed, or that is called off, leaves the tree as it was; any other writes the outputs of some of
the sources, from the first on, to their places and touches no other file, least of all a source.
Only where a write breaks off does a place hold less than its output, and then a front part of it.
-/

namespace LegacyBasic.Command

variable {α β : Type}

section Exec

variable {action : Running (StateM FileTree) α} {continuation : α → Running (StateM FileTree) β}
  {printed after : Printed} {tree next : FileTree} {value : α} {failure : Failure}

end Exec

variable {session : Session} {cancelled : Bool} {directory : Bytes} {paths : List Bytes}
  {start : FileTree}

/-! ### Reading -/

/-- What writing outputs has written when it ends so in a tree, each output with its place. -/
inductive Wrote (final : FileTree) :
    Except Failure Unit → List (Bytes × Bytes) → List (Bytes × Bytes) → Prop
  | all (outputs : List (Bytes × Bytes)) : Wrote final (.ok ()) outputs outputs
  /-- The outputs before one that cannot be written, each of them whole. -/
  | untilFailure {path output : Bytes} {error : FileError} (front rest : List (Bytes × Bytes))
      (herror : error.isBrokenOff = false)
      (hwrite : FileTree.write path output final = (.error error, final)) :
      Wrote final (.error (.output path error)) (front ++ (path, output) :: rest) front
  /-- The outputs before the write that broke off, and a front part of what that had to write. -/
  | untilBreak {path output part operation reason : Bytes} {before : FileTree}
      (front rest : List (Bytes × Bytes)) (hpart : part <+: output)
      (hwrite : FileTree.write path output before =
        (.error (.brokenOff operation reason), final)) :
      Wrote final (.error (.output path (.brokenOff operation reason)))
        (front ++ (path, output) :: rest) (front ++ [(path, part)])

section Stored

variable {final : FileTree} {result : Except Failure Unit} {outputs changed : List (Bytes × Bytes)}

theorem Wrote.cons (h : Wrote final result outputs changed) (output : Bytes × Bytes) :
    Wrote final result (output :: outputs) (output :: changed) := by
  cases h with
  | all => exact .all (output :: outputs)
  | untilFailure _ rest herror hwrite => exact .untilFailure (output :: changed) rest herror hwrite
  | untilBreak front rest hpart hwrite => exact .untilBreak (output :: front) rest hpart hwrite

end Stored

end LegacyBasic.Command
