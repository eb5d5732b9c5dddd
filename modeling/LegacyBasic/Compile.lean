import LegacyBasic.Desugar
import LegacyBasic.Grammar.Productions
import LegacyBasic.Log.Record
import LegacyBasic.Statement.Render
import LegacyBasic.Token.Scan

/-!
Compiling sources.  A source is scanned, parsed, desugared and rendered.  Input that cannot be read
ends the output early and the compilation says how far each step got; the only failure is a fault.
The results of a batch stand in the order of its sources; the first failure ends the batch, and the
sources after it are not compiled.
-/

namespace LegacyBasic

structure Source where
  name : Bytes := []
  content : Bytes
deriving DecidableEq, Repr

/-- Everything made of one source. -/
structure Compilation where
  name : Bytes
  tokens : List Token
  /-- The statements as parsed. -/
  statements : List Statement
  desugared : List Statement
  output : Bytes
  /-- How many bytes the source holds. -/
  inputSize : Nat
  /-- How many of them were scanned. -/
  scannedSize : Nat
  /-- How many tokens were not parsed. -/
  remaining : Nat
deriving Repr

/-- Whether scanning or parsing stopped before the end. -/
def Compilation.isTruncated (compilation : Compilation) : Bool :=
  compilation.scannedSize < compilation.inputSize || 0 < compilation.remaining

namespace Source

/-- A log record about a source. -/
def record (source : Source) (level : Log.Level) (message : String)
    (attributes : List (String × Log.Value)) : Log.Record :=
  let origin := if source.name.isEmpty then [] else [("source", Log.Value.text source.name)]
  ⟨level, message, ("component", .text "compiler") :: origin ++ attributes⟩

def aborted (source : Source) (fault : Fault) : Log.Record :=
  source.record .error "compilation aborted" [("violation", .text fault.violation.text)]

def scanned (source : Source) (tokens size : Nat) : List Log.Record :=
  source.record .debug "lexed" [("tokens", .count tokens), ("bytes", .count size)] ::
    if size < source.content.length then
      [source.record .warn "lexing stopped before end of input"
        [("offset", .count size), ("size", .count source.content.length)]]
    else []

def parsed (source : Source) (statements remaining : Nat) : List Log.Record :=
  source.record .debug "parsed" [("statements", .count statements)] ::
    if 0 < remaining then
      [source.record .warn "parsing stopped before end of input"
        [("remaining_tokens", .count remaining)]]
    else []

/-- The records of desugaring and rendering. -/
def finished (source : Source) (statements size : Nat) : List Log.Record :=
  [source.record .debug "transformed" [("statements", .count statements)],
    source.record .debug "generated" [("bytes", .count size)]]

/-- Compiles a source; every step leaves its records. -/
def compile (source : Source) (style : Style) :
    List Log.Record × Except Fault Compilation :=
  let scan := Scan.ofSource source.content
  let size := source.content.length - scan.rest.length
  let scanned := source.scanned scan.tokens.length size
  match (Grammar.State.ofTokens scan.tokens).parse with
  | (.error fault, _) => (scanned ++ [source.aborted fault], .error fault)
  | (.ok statements, state) =>
    let parsed := scanned ++ source.parsed statements.length state.remaining
    match desugar statements with
    | .error fault => (parsed ++ [source.aborted fault], .error fault)
    | .ok desugared =>
      let output := Statement.renderAll style desugared
      (parsed ++ source.finished desugared.length output.length,
        .ok {
          name := source.name
          tokens := scan.tokens
          statements := statements
          desugared := desugared
          output := output
          inputSize := source.content.length
          scannedSize := size
          remaining := state.remaining })

end Source

/-- How a fault inside a compilation is reported. -/
def Fault.internalError (fault : Fault) : Bytes :=
  "internal compiler error: " ++ fault.violation.text

/-- Compiles a text again and again, each time what the time before wrote; a fault is the last. -/
def compilePasses (style : Style) : Nat → Bytes → List (Except Fault Compilation)
  | 0, _ => []
  | passes + 1, content =>
    match (Source.compile { content := content } style).2 with
    | .error fault => [.error fault]
    | .ok compilation => .ok compilation :: compilePasses style passes compilation.output

namespace Batch

/-- Why a batch has no results. -/
inductive Failure where
  /-- The source of this name met a fault. -/
  | source (name : Bytes) (fault : Fault)
  /-- The batch was called off before it began. -/
  | cancelled
deriving DecidableEq, Repr

def Failure.text : Failure → Bytes
  | .source name fault => Bytes.concat [name, ": ", fault.internalError]
  | .cancelled => "context canceled"

def compileInOrder (style : Style) :
    List Source → List Log.Record × Except Failure (List Compilation)
  | [] => ([], .ok [])
  | source :: rest =>
    match source.compile style with
    | (records, .error fault) => (records, .error (.source source.name fault))
    | (records, .ok compilation) =>
      let (others, results) := compileInOrder style rest
      (records ++ others, results.map (compilation :: ·))

/-- Compiles a batch, unless it was called off and there is something to compile. -/
def compile (style : Style) (cancelled : Bool) (sources : List Source) :
    List Log.Record × Except Failure (List Compilation) :=
  if cancelled && !sources.isEmpty then ([], .error .cancelled) else compileInOrder style sources

end Batch

end LegacyBasic
