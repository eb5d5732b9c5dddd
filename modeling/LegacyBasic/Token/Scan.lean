import LegacyBasic.Text.Latin
import LegacyBasic.Token.Basic

/-!
Scanning: a source is cut from the left into blanks and tokens, and scanning stops at the first
byte where neither begins.  Main statement: the cut pieces are the input, and each of them is
non-empty, so scanning ends.
-/

namespace LegacyBasic

/-- A non-empty front part of a source, and what follows it. -/
structure Piece where
  /-- The kind of the token, or nothing for blanks. -/
  kind : Option Kind
  text : Bytes
  rest : Bytes
deriving DecidableEq, Repr

namespace Piece

def blanks? (input : Bytes) : Option Piece :=
  match input.takeWhile Latin.isSpace with
  | [] => none
  | b :: text => some ⟨none, b :: text, input.dropWhile Latin.isSpace⟩

/-- A letter and the letters and digits after it. -/
def word? : Bytes → Option Piece
  | [] => none
  | b :: rest =>
    if Latin.isLetter b then
      let text := b :: rest.takeWhile Latin.isWordByte
      some ⟨some (Word.kind text), text, rest.dropWhile Latin.isWordByte⟩
    else none

/-- A dot and the digits after it, when there is one. -/
def fraction? : Bytes → Option (Bytes × Bytes)
  | [] => none
  | b :: rest =>
    if b = 0x2E then
      match rest.takeWhile Latin.isDigit with
      | [] => none
      | digit :: digits => some (b :: digit :: digits, rest.dropWhile Latin.isDigit)
    else none

/-- Digits, with a fraction when a digit follows the dot. -/
def number? (input : Bytes) : Option Piece :=
  match input.takeWhile Latin.isDigit with
  | [] => none
  | digit :: digits =>
    match fraction? (input.dropWhile Latin.isDigit) with
    | none => some ⟨some .number, digit :: digits, input.dropWhile Latin.isDigit⟩
    | some (fraction, rest) => some ⟨some .number, digit :: digits ++ fraction, rest⟩

/-- A double quote and everything up to the next one. -/
def quoted? : Bytes → Option Piece
  | [] => none
  | b :: rest =>
    if b = 0x22 then
      match rest.dropWhile (· != 0x22) with
      | [] => none
      | closing :: after =>
        some ⟨some .quoted, b :: rest.takeWhile (· != 0x22) ++ [closing], after⟩
    else none

/-- A symbol of two bytes where one stands, otherwise a symbol of one byte. -/
def symbol? : Bytes → Option Piece
  | [] => none
  | [b] => (Symbol.ofLexeme? [b]).map fun sign => ⟨some (.symbol sign), [b], []⟩
  | b :: c :: rest =>
    match Symbol.ofLexeme? [b, c] with
    | some sign => some ⟨some (.symbol sign), [b, c], rest⟩
    | none => (Symbol.ofLexeme? [b]).map fun sign => ⟨some (.symbol sign), [b], c :: rest⟩

/-- The ways a piece can begin, in the order they are tried. -/
def scanners : List (Bytes → Option Piece) := [blanks?, word?, number?, quoted?, symbol?]

/-- The piece at the front of the input: that of the first scanner that finds one. -/
def front? (input : Bytes) : Option Piece := scanners.findSome? fun scanner => scanner input

/-- A piece is a non-empty front part of the input. -/
def Fronts (piece : Piece) (input : Bytes) : Prop :=
  piece.text ≠ [] ∧ piece.text ++ piece.rest = input

theorem blanks?_fronts {input : Bytes} {piece : Piece} (h : blanks? input = some piece) :
    piece.Fronts input := by
  unfold blanks? at h
  split at h
  · simp at h
  · next b text htext =>
    simp only [Option.some.injEq] at h
    subst h
    exact ⟨by simp, by rw [← htext]; exact List.takeWhile_append_dropWhile⟩

theorem word?_fronts {input : Bytes} {piece : Piece} (h : word? input = some piece) :
    piece.Fronts input := by
  cases input with
  | nil => simp [word?] at h
  | cons b rest =>
    simp only [word?] at h
    split at h
    · simp only [Option.some.injEq] at h
      subst h
      exact ⟨by simp, by simp [List.takeWhile_append_dropWhile]⟩
    · simp at h

theorem fraction?_append {input text rest : Bytes} (h : fraction? input = some (text, rest)) :
    text ++ rest = input := by
  cases input with
  | nil => simp [fraction?] at h
  | cons b tail =>
    simp only [fraction?] at h
    split at h
    · split at h
      · simp at h
      · next digit digits hdigits =>
        simp only [Option.some.injEq, Prod.mk.injEq] at h
        obtain ⟨rfl, rfl⟩ := h
        rw [← hdigits]
        simp [List.takeWhile_append_dropWhile]
    · simp at h

theorem number?_fronts {input : Bytes} {piece : Piece} (h : number? input = some piece) :
    piece.Fronts input := by
  unfold number? at h
  split at h
  · simp at h
  · next digit digits hdigits =>
    have happend : digit :: digits ++ input.dropWhile Latin.isDigit = input := by
      rw [← hdigits]; exact List.takeWhile_append_dropWhile
    split at h
    · simp only [Option.some.injEq] at h
      subst h
      exact ⟨by simp, happend⟩
    · next fraction rest hfraction =>
      simp only [Option.some.injEq] at h
      subst h
      refine ⟨by simp, ?_⟩
      rw [List.append_assoc, fraction?_append hfraction]
      exact happend

theorem quoted?_fronts {input : Bytes} {piece : Piece} (h : quoted? input = some piece) :
    piece.Fronts input := by
  cases input with
  | nil => simp [quoted?] at h
  | cons b rest =>
    simp only [quoted?] at h
    split at h
    · split at h
      · simp at h
      · next closing after hafter =>
        simp only [Option.some.injEq] at h
        subst h
        refine ⟨by simp, ?_⟩
        have happend : rest.takeWhile (· != 0x22) ++ closing :: after = rest := by
          rw [← hafter]; exact List.takeWhile_append_dropWhile
        simpa using happend
    · simp at h

theorem symbol?_fronts {input : Bytes} {piece : Piece} (h : symbol? input = some piece) :
    piece.Fronts input := by
  unfold symbol? at h
  split at h
  · simp at h
  · obtain ⟨sign, _, rfl⟩ := Option.map_eq_some_iff.1 h
    exact ⟨by simp, by simp⟩
  · split at h
    · simp only [Option.some.injEq] at h
      subst h
      exact ⟨by simp, by simp⟩
    · obtain ⟨sign, _, rfl⟩ := Option.map_eq_some_iff.1 h
      exact ⟨by simp, by simp⟩

theorem front?_fronts {input : Bytes} {piece : Piece} (h : front? input = some piece) :
    piece.Fronts input := by
  obtain ⟨scanner, hmem, hfound⟩ := List.exists_of_findSome?_eq_some h
  simp only [scanners, List.mem_cons, List.not_mem_nil, or_false] at hmem
  rcases hmem with rfl | rfl | rfl | rfl | rfl
  · exact blanks?_fronts hfound
  · exact word?_fronts hfound
  · exact number?_fronts hfound
  · exact quoted?_fronts hfound
  · exact symbol?_fronts hfound

theorem rest_length_lt {input : Bytes} {piece : Piece} (h : front? input = some piece) :
    piece.rest.length < input.length := by
  obtain ⟨hne, happend⟩ := front?_fronts h
  rw [← happend, List.length_append]
  have := List.length_pos_iff.2 hne
  omega

/-- The token of a piece that stands at `position`; blanks have none. -/
def tokens (piece : Piece) (position : Position) : List Token :=
  match piece.kind with
  | none => []
  | some kind =>
    [{ kind := kind, literal := if kind.hasPayload then piece.text else [], position := position }]

end Piece

/-- The outcome of scanning: the tokens read, and the input from the first unreadable byte on. -/
structure Scan where
  tokens : List Token
  rest : Bytes
deriving DecidableEq, Repr

namespace Scan

/-- Scans an input whose first byte stands at `position`. -/
def scanFrom (position : Position) (input : Bytes) : Scan :=
  match _h : Piece.front? input with
  | none => ⟨[], input⟩
  | some piece =>
    let scan := scanFrom (position.after piece.text) piece.rest
    ⟨piece.tokens position ++ scan.tokens, scan.rest⟩
termination_by input.length
decreasing_by exact Piece.rest_length_lt ‹_›

def ofSource (source : Bytes) : Scan := scanFrom Position.start source

end Scan

/-- A source together with whether it has been scanned. -/
structure Scanner where
  source : Bytes
  finished : Bool := false
deriving DecidableEq, Repr

namespace Scanner

/-- The tokens of the source; asking for them scans it. -/
def tokens (scanner : Scanner) : List Token × Scanner :=
  ((Scan.ofSource scanner.source).tokens, { scanner with finished := true })

def offset (scanner : Scanner) : Nat :=
  if scanner.finished then scanner.source.length - (Scan.ofSource scanner.source).rest.length else 0

end Scanner

end LegacyBasic
