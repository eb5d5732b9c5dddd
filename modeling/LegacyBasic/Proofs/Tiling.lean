import Mathlib
import LegacyBasic.Proofs.Scanning

/-!
Where the tokens of a source stand in it.  Main statement: the tokens fill spans of the source in
order, only blanks are left between them, each span is the longest text of its kind, the place of a
token counts what stands before its span, and scanning ends early only at a byte that begins nothing
or at a quote that is never closed.
-/

namespace LegacyBasic

/-- A stretch of a source: the offset of its first byte, and the offset after its last. -/
structure Span where
  start : Nat
  stop : Nat
  nonempty : start < stop
deriving DecidableEq, Repr

namespace Span

/-- The bytes of a source in the span. -/
def text (span : Span) (source : Bytes) : Bytes := (source.take span.stop).drop span.start

def Covers (span : Span) (offset : Nat) : Prop := span.start ≤ offset ∧ offset < span.stop

theorem text_eq {span : Span} {before text after : Bytes} (hstart : span.start = before.length)
    (hstop : span.stop = before.length + text.length) :
    span.text (before ++ (text ++ after)) = text := by
  rw [Span.text, hstart, hstop, List.take_length_add_append, List.take_left, List.drop_left]

end Span

namespace Latin

/-- The small form of an ASCII capital; every other byte stays. -/
def asciiLowerByte (b : UInt8) : UInt8 := if 0x41 ≤ b && b ≤ 0x5A then b + 0x20 else b

def asciiLower (text : Bytes) : Bytes := text.map asciiLowerByte

theorem asciiLowerByte_of_lt : ∀ b : UInt8, b < 0x80 → asciiLowerByte b = lowerByte b :=
  Bytes.forall_byte (by decide +kernel)

theorem asciiLower_of_ascii {text : Bytes} (h : text.all (· < 0x80) = true) :
    asciiLower text = lower text := by
  apply List.map_congr_left
  intro b hb
  exact asciiLowerByte_of_lt b (by simpa using List.all_eq_true.1 h b hb)

/-- A byte where no token and no run of blanks begins. -/
def BeginsNothing (b : UInt8) : Prop :=
  isSpace b = false ∧ isLetter b = false ∧ isDigit b = false ∧ b ≠ 0x22 ∧
    ∀ sign : Symbol, sign.lexeme.head? ≠ some b

/-- A text at whose front scanning stops: its first byte begins nothing, or it is a quote that is
never closed. -/
def Unreadable (text : Bytes) : Prop :=
  ∃ b rest, text = b :: rest ∧ (BeginsNothing b ∨ b = 0x22 ∧ 0x22 ∉ rest)

end Latin

/-- The texts that can stand for a token of this kind.  What a name is and what a symbol is does not
depend on which one it is. -/
def Kind.HasForm (kind : Kind) (text : Bytes) : Prop :=
  match kind with
  | .identifier | .keyword _ => Latin.IsName text
  | .number => Latin.IsNumber text
  | .quoted => Latin.IsQuoted text
  | .symbol _ => ∃ sign : Symbol, text = sign.lexeme
  | .illegal | .unlisted _ _ => False

/-- The text begins the input, it can stand for a token of this kind, and no longer one does. -/
structure Kind.IsLongest (kind : Kind) (input text : Bytes) : Prop where
  isPrefix : text <+: input
  hasForm : kind.HasForm text
  length_le : ∀ longer, longer <+: input → kind.HasForm longer → longer.length ≤ text.length

/-- The token is read from the span of a source. -/
structure Token.Fills (token : Token) (source : Bytes) (span : Span) : Prop where
  literal_eq : token.literal = if token.kind.hasPayload then span.text source else []
  lexeme_eq : token.kind.hasPayload = false →
    token.lexeme = Latin.asciiLower (span.text source)
  isLongest : token.kind.IsLongest (source.drop span.start) (span.text source)
  not_keyword : token.kind = .identifier → Word.kind (span.text source) = .identifier
  line_eq : token.position.line = 1 + (source.take span.start).count 0x0A
  column_eq : token.position.column =
    1 + ((source.take span.start).reverse.takeWhile (· != 0x0A)).length

/-- The tokens fill spans of a source between two offsets, in order, and all else there is blank. -/
structure Scan.Tiles (source : Bytes) (start stop : Nat) (tokens : List Token)
    (spans : List Span) : Prop where
  fills : List.Forall₂ (fun token span => token.Fills source span) tokens spans
  ordered : spans.Pairwise fun span later => span.stop ≤ later.start
  inside : ∀ span ∈ spans, start ≤ span.start ∧ span.stop ≤ stop
  blank : ∀ offset b, start ≤ offset → offset < stop → source[offset]? = some b →
    (∀ span ∈ spans, ¬span.Covers offset) → Latin.isSpace b = true

namespace Position

/-- Every line feed begins a line. -/
theorem line_after (position : Position) (text : Bytes) :
    (position.after text).line = position.line + text.count 0x0A := by
  induction text generalizing position with
  | nil => simp
  | cons b text ih =>
    rw [after_cons, ih, List.count_cons]
    by_cases hb : b = 0x0A
    · simp only [next, hb, ↓reduceIte, beq_self_eq_true]
      omega
    · simp [next, hb]

/-- Columns count the bytes since the last line feed. -/
theorem column_after_start (text : Bytes) :
    (start.after text).column = 1 + (text.reverse.takeWhile (· != 0x0A)).length := by
  induction text using List.reverseRecOn with
  | nil => rfl
  | append_singleton text b ih =>
    rw [after_append, after_cons, after_nil, List.reverse_append, List.reverse_singleton,
      List.singleton_append]
    by_cases hb : b = 0x0A
    · simp [next, hb]
    · simp only [next, hb, ↓reduceIte, ih, bne_iff_ne, ne_eq, not_false_eq_true,
        List.takeWhile_cons_of_pos, List.length_cons]
      omega

end Position

/-- A keyword is written in small ASCII letters, and the word it is read from has the same letters
in any case. -/
theorem Word.lexeme_of_kind {word : Bytes} {keyword : Keyword} (hname : Latin.IsName word)
    (h : Word.kind word = .keyword keyword) : keyword.lexeme = Latin.asciiLower word := by
  rw [Word.kind, asciiForm?_of_isWordByte hname.isWordByte] at h
  by_cases hascii : word.all (· < 0x80) = true
  · rw [if_pos hascii, Option.bind_some] at h
    cases hkeyword : Keyword.ofLexeme? (Latin.lower word) with
    | none => simp [hkeyword] at h
    | some found =>
      obtain rfl : found = keyword := by simpa [hkeyword] using h
      rw [Keyword.lexeme_of_ofLexeme? hkeyword, Latin.asciiLower_of_ascii hascii]
  · simp [hascii] at h

theorem Symbol.asciiLower_lexeme (sign : Symbol) : Latin.asciiLower sign.lexeme = sign.lexeme := by
  cases sign <;> decide +kernel

theorem Symbol.length_lexeme_le (sign : Symbol) : sign.lexeme.length ≤ 2 := by
  cases sign <;> decide +kernel

/-- Whatever begins a symbol is a symbol by itself. -/
theorem Symbol.ofLexeme?_head {sign : Symbol} {b : UInt8} (h : sign.lexeme.head? = some b) :
    (ofLexeme? [b]).isSome = true := by
  have hall : ∀ b ∈ sign.lexeme.head?, (ofLexeme? [b]).isSome = true := by
    cases sign <;> decide +kernel
  exact hall b h

theorem Symbol.ofLexeme?_eq_none_iff {b : UInt8} :
    ofLexeme? [b] = none ↔ ∀ sign : Symbol, sign.lexeme.head? ≠ some b := by
  constructor
  · intro h sign hhead
    have hsome := ofLexeme?_head hhead
    simp [h] at hsome
  · intro h
    cases hsign : ofLexeme? [b] with
    | none => rfl
    | some sign => exact absurd (by rw [lexeme_of_ofLexeme? hsign]; rfl) (h sign)

namespace Piece

variable {input longer : Bytes} {piece : Piece} {kind : Kind}

/-- A front part of one class is at most as long as the run of that class. -/
theorem length_le_takeWhile {p : UInt8 → Bool} (hlonger : longer <+: input)
    (hall : ∀ b ∈ longer, p b = true) : longer.length ≤ (input.takeWhile p).length := by
  obtain ⟨rest, rfl⟩ := hlonger
  rw [List.takeWhile_append_of_pos hall, List.length_append]
  omega

/-! Which kinds a scanner finds. -/

theorem blanks?_kind (h : blanks? input = some piece) : piece.kind = none := by
  unfold blanks? at h
  split at h
  · simp at h
  · obtain rfl := Option.some.inj h
    rfl

theorem word?_kind (h : word? input = some piece) : piece.kind = some (Word.kind piece.text) := by
  cases input with
  | nil => simp [word?] at h
  | cons b rest =>
    simp only [word?] at h
    split at h
    · obtain rfl := Option.some.inj h
      rfl
    · simp at h

theorem number?_kind (h : number? input = some piece) : piece.kind = some .number := by
  unfold number? at h
  split at h
  · simp at h
  · split at h
    · obtain rfl := Option.some.inj h
      rfl
    · obtain rfl := Option.some.inj h
      rfl

theorem quoted?_kind (h : quoted? input = some piece) : piece.kind = some .quoted := by
  cases input with
  | nil => simp [quoted?] at h
  | cons b rest =>
    simp only [quoted?] at h
    split at h
    · split at h
      · simp at h
      · obtain rfl := Option.some.inj h
        rfl
    · simp at h

theorem symbol?_kind (h : symbol? input = some piece) :
    ∃ sign : Symbol, piece.kind = some (.symbol sign) := by
  unfold symbol? at h
  split at h
  · simp at h
  · obtain ⟨sign, _, rfl⟩ := Option.map_eq_some_iff.1 h
    exact ⟨sign, rfl⟩
  · split at h
    · next sign _ =>
      obtain rfl := Option.some.inj h
      exact ⟨sign, rfl⟩
    · obtain ⟨sign, _, rfl⟩ := Option.map_eq_some_iff.1 h
      exact ⟨sign, rfl⟩

/-! No longer text of the same form begins the input. -/

theorem word?_length_le (h : word? input = some piece) (hlonger : longer <+: input)
    (hname : Latin.IsName longer) : longer.length ≤ piece.text.length := by
  cases input with
  | nil => simp [word?] at h
  | cons b rest =>
    simp only [word?] at h
    split at h
    · obtain rfl := Option.some.inj h
      obtain ⟨c, others, rfl, _, hothers⟩ := hname
      have htail : others <+: rest := (List.cons_prefix_cons.1 hlonger).2
      have hrun := length_le_takeWhile htail hothers
      simpa using hrun
    · simp at h

/-- A number with a fraction begins with the whole run of digits, and what follows the dot is a run
of digits too. -/
theorem exists_fraction?_of_prefix {whole decimals : Bytes} (hwhole : Latin.IsDigits whole)
    (hdecimals : Latin.IsDigits decimals) (h : whole ++ 0x2E :: decimals <+: input) :
    input.takeWhile Latin.isDigit = whole ∧
      ∃ found, fraction? (input.dropWhile Latin.isDigit) = some found ∧
        decimals.length + 1 ≤ found.1.length := by
  obtain ⟨rest, rfl⟩ := h
  rw [List.append_assoc]
  obtain ⟨htake, hdrop⟩ := Scan.takeWhile_dropWhile_append (0x2E :: decimals ++ rest) hwhole.2
    (by rintro _ ⟨⟩; rfl)
  refine ⟨htake, ?_⟩
  have hrun := length_le_takeWhile (List.prefix_append decimals rest) hdecimals.2
  rw [hdrop, List.cons_append]
  cases hdigits : (decimals ++ rest).takeWhile Latin.isDigit with
  | nil =>
    rw [hdigits] at hrun
    exact absurd (List.length_eq_zero_iff.1 (Nat.le_zero.1 hrun)) hdecimals.1
  | cons digit digits =>
    rw [hdigits] at hrun
    refine ⟨(0x2E :: digit :: digits, (decimals ++ rest).dropWhile Latin.isDigit), ?_, ?_⟩
    · simp [fraction?, hdigits]
    · simpa using hrun

theorem number?_length_le (h : number? input = some piece) (hlonger : longer <+: input)
    (hnumber : Latin.IsNumber longer) : longer.length ≤ piece.text.length := by
  unfold number? at h
  split at h
  · simp at h
  · next digit digits hdigits =>
    rcases hnumber with hwhole | ⟨whole, decimals, hwhole, hdecimals, rfl⟩
    · have hrun := length_le_takeWhile hlonger hwhole.2
      rw [hdigits] at hrun
      split at h
      · obtain rfl := Option.some.inj h
        exact hrun
      · obtain rfl := Option.some.inj h
        rw [List.length_append]
        omega
    · obtain ⟨htake, found, hfound, hlength⟩ := exists_fraction?_of_prefix hwhole hdecimals hlonger
      rw [hfound] at h
      obtain rfl := Option.some.inj h
      rw [hdigits] at htake
      simp only [htake, List.length_append, List.length_cons]
      omega

theorem quoted?_length_le (h : quoted? input = some piece) (hlonger : longer <+: input)
    (hquoted : Latin.IsQuoted longer) : longer.length ≤ piece.text.length := by
  obtain ⟨inner, hinner, rfl⟩ := hquoted
  obtain ⟨rest, rfl⟩ := hlonger
  -- The first quote after the opening one closes the text, so both texts are the same.
  obtain ⟨htake, hdrop⟩ := Scan.takeWhile_dropWhile_append (p := (· != 0x22)) (0x22 :: rest)
    (by simpa using hinner) (by simp)
  rw [List.append_assoc, List.singleton_append, List.cons_append] at h
  simp only [quoted?, htake, hdrop, ↓reduceIte, Option.some.injEq] at h
  rw [← h]

theorem symbol?_length_le (h : symbol? input = some piece) {sign : Symbol}
    (hlonger : sign.lexeme <+: input) : sign.lexeme.length ≤ piece.text.length := by
  have hbound := sign.length_lexeme_le
  unfold symbol? at h
  split at h
  · simp at h
  · obtain ⟨_, _, rfl⟩ := Option.map_eq_some_iff.1 h
    exact hlonger.length_le
  · next b c rest =>
    split at h
    · obtain rfl := Option.some.inj h
      exact hbound
    · next hpair =>
      obtain ⟨_, _, rfl⟩ := Option.map_eq_some_iff.1 h
      -- A symbol of two bytes here would have been found first.
      by_contra hlength
      have htwo : sign.lexeme.length = 2 := by
        simp only [List.length_singleton, not_le] at hlength
        omega
      have hlexeme : sign.lexeme = [b, c] := by
        have htake := List.prefix_iff_eq_take.1 hlonger
        rw [htwo] at htake
        simpa using htake
      rw [← hlexeme, Symbol.ofLexeme?_lexeme] at hpair
      simp at hpair

theorem HasForm.of_kind (h : piece.HasForm) (hkind : piece.kind = some kind) :
    kind.HasForm piece.text := by
  simp only [HasForm, hkind] at h
  cases kind with
  | identifier => exact h.1
  | keyword word => exact h.1
  | symbol sign => exact ⟨sign, h⟩
  | _ => exact h

/-- The piece that scanning cuts off is the longest text of its kind. -/
theorem front?_isLongest (h : front? input = some piece) (hkind : piece.kind = some kind) :
    kind.IsLongest input piece.text := by
  refine ⟨⟨piece.rest, (front?_fronts h).2⟩, (front?_hasForm h).of_kind hkind, ?_⟩
  intro longer hlonger hform
  obtain ⟨scanner, hmem, hfound⟩ := List.exists_of_findSome?_eq_some h
  simp only [scanners, List.mem_cons, List.not_mem_nil, or_false] at hmem
  rcases hmem with rfl | rfl | rfl | rfl | rfl
  · simp [blanks?_kind hfound] at hkind
  · obtain rfl := Option.some.inj ((word?_kind hfound).symm.trans hkind)
    apply word?_length_le hfound hlonger
    rcases Word.kind_cases piece.text with hword | ⟨word, hword⟩
    · rwa [hword] at hform
    · rwa [hword] at hform
  · obtain rfl := Option.some.inj ((number?_kind hfound).symm.trans hkind)
    exact number?_length_le hfound hlonger hform
  · obtain rfl := Option.some.inj ((quoted?_kind hfound).symm.trans hkind)
    exact quoted?_length_le hfound hlonger hform
  · obtain ⟨found, hsign⟩ := symbol?_kind hfound
    obtain rfl := Option.some.inj (hsign.symm.trans hkind)
    obtain ⟨sign, rfl⟩ := hform
    exact symbol?_length_le hfound hlonger

/-- What a piece of a kind without a payload is read from. -/
theorem front?_lexeme_eq (h : front? input = some piece) (hkind : piece.kind = some kind)
    (hpayload : kind.hasPayload = false) : kind.lexeme = Latin.asciiLower piece.text := by
  have hform := front?_hasForm h
  simp only [HasForm, hkind] at hform
  cases kind with
  | keyword word => exact Word.lexeme_of_kind hform.1 hform.2
  | symbol sign =>
    rw [hform, Symbol.asciiLower_lexeme]
    rfl
  | illegal => exact hform.elim
  | unlisted code outside => exact hform.elim
  | _ => simp [Kind.hasPayload] at hpayload

theorem symbol?_eq_none_iff {b : UInt8} {rest : Bytes} :
    symbol? (b :: rest) = none ↔ Symbol.ofLexeme? [b] = none := by
  cases rest with
  | nil => simp [symbol?]
  | cons c rest =>
    cases hpair : Symbol.ofLexeme? [b, c] with
    | none => simp [symbol?, hpair]
    | some sign =>
      have hhead : sign.lexeme.head? = some b := by
        rw [Symbol.lexeme_of_ofLexeme? hpair]
        rfl
      have hsingle := Symbol.ofLexeme?_head hhead
      rw [Option.isSome_iff_ne_none] at hsingle
      simp [symbol?, hpair, hsingle]

theorem quoted?_eq_none_iff {rest : Bytes} :
    quoted? (0x22 :: rest) = none ↔ 0x22 ∉ rest := by
  simp only [quoted?, ↓reduceIte]
  cases hdrop : rest.dropWhile (· != 0x22) with
  | nil =>
    have hnone := List.dropWhile_eq_nil_iff.1 hdrop
    simp only [true_iff]
    intro hmem
    simpa using hnone 0x22 hmem
  | cons closing after =>
    have hfound : ¬∀ b ∈ rest, (b != 0x22) = true := by
      rw [← List.dropWhile_eq_nil_iff, hdrop]
      simp
    simpa using hfound

/-- Scanning stops at the end of the input and at what it cannot read, and nowhere else. -/
theorem front?_eq_none_iff : front? input = none ↔ input = [] ∨ Latin.Unreadable input := by
  cases input with
  | nil => simp
  | cons b rest =>
    constructor
    · intro h
      refine .inr ⟨b, rest, rfl, ?_⟩
      by_cases hquote : b = 0x22
      · subst hquote
        rw [front?_quote, quoted?_eq_none_iff] at h
        exact .inr ⟨rfl, h⟩
      · cases hspace : Latin.isSpace b with
        | true => simp [front?_of_isSpace hspace] at h
        | false =>
          cases hletter : Latin.isLetter b with
          | true => simp [front?_of_isLetter hletter] at h
          | false =>
            cases hdigit : Latin.isDigit b with
            | true =>
              rw [front?_of_isDigit hdigit] at h
              split at h <;> simp at h
            | false =>
              rw [front?_of_other hspace hletter hdigit hquote, symbol?_eq_none_iff] at h
              exact .inl ⟨hspace, hletter, hdigit, hquote, Symbol.ofLexeme?_eq_none_iff.1 h⟩
    · rintro (h | ⟨c, others, heq, hstop⟩)
      · simp at h
      · obtain ⟨rfl, rfl⟩ := List.cons.inj heq
        rcases hstop with ⟨hspace, hletter, hdigit, hquote, hsign⟩ | ⟨rfl, hopen⟩
        · rw [front?_of_other hspace hletter hdigit hquote, symbol?_eq_none_iff]
          exact Symbol.ofLexeme?_eq_none_iff.2 hsign
        · rw [front?_quote]
          exact quoted?_eq_none_iff.2 hopen

/-- The token of a piece fills the span of the piece. -/
theorem fills_of_front? {before : Bytes} (h : front? input = some piece)
    (hkind : piece.kind = some kind) {span : Span} (hstart : span.start = before.length)
    (hstop : span.stop = before.length + piece.text.length) :
    Token.Fills ⟨kind, if kind.hasPayload then piece.text else [], Position.start.after before⟩
      (before ++ input) span := by
  obtain ⟨_, happend⟩ := front?_fronts h
  have htext : span.text (before ++ input) = piece.text := by
    rw [← happend]
    exact Span.text_eq hstart hstop
  have hbefore : (before ++ input).take span.start = before := by
    rw [hstart, List.take_left]
  constructor
  · rw [htext]
  · intro hpayload
    have hlexeme := front?_lexeme_eq h hkind hpayload
    simpa [Token.lexeme, hpayload, htext] using hlexeme
  · rw [htext, hstart, List.drop_left]
    exact front?_isLongest h hkind
  · rintro rfl
    have hform := front?_hasForm h
    simp only [HasForm, hkind] at hform
    rw [htext]
    exact hform.2
  · rw [hbefore]
    exact Position.line_after Position.start before
  · rw [hbefore]
    exact Position.column_after_start before

end Piece

namespace Scan

variable {source : Bytes} {stop : Nat} {tokens : List Token} {spans : List Span}

theorem Tiles.nil (source : Bytes) (offset : Nat) : Tiles source offset offset [] [] where
  fills := .nil
  ordered := .nil
  inside := by simp
  blank := by
    intro _ _ hstart hstop
    omega

/-- Blanks before a tiling belong to it. -/
theorem Tiles.of_blanks {before text after : Bytes}
    (h : Tiles (before ++ (text ++ after)) (before.length + text.length) stop tokens spans)
    (htext : ∀ b ∈ text, Latin.isSpace b = true) :
    Tiles (before ++ (text ++ after)) before.length stop tokens spans where
  fills := h.fills
  ordered := h.ordered
  inside := by
    intro span hmem
    have hspan := h.inside span hmem
    omega
  blank := by
    intro offset b hstart hstop hb houtside
    by_cases hin : offset < before.length + text.length
    · rw [List.getElem?_append_right hstart, List.getElem?_append_left (by omega)] at hb
      exact htext b (List.mem_of_getElem? hb)
    · exact h.blank offset b (by omega) hstop hb houtside

/-- A token before a tiling joins it. -/
theorem Tiles.cons {token : Token} {span : Span} (h : Tiles source span.stop stop tokens spans)
    (hfills : token.Fills source span) (hstop : span.stop ≤ stop) :
    Tiles source span.start stop (token :: tokens) (span :: spans) where
  fills := .cons hfills h.fills
  ordered := by
    refine List.pairwise_cons.2 ⟨?_, h.ordered⟩
    intro later hlater
    exact (h.inside later hlater).1
  inside := by
    intro other hother
    have hspan := span.nonempty
    rcases List.mem_cons.1 hother with rfl | hother
    · omega
    · have hlater := h.inside other hother
      omega
  blank := by
    intro offset b hoffset hbound hb houtside
    obtain ⟨hfirst, hothers⟩ := List.forall_mem_cons.1 houtside
    have hafter : span.stop ≤ offset := by
      by_contra hbefore
      exact hfirst ⟨hoffset, by omega⟩
    exact h.blank offset b hafter hbound hb hothers

/-- Scanning a text inside a source reads a front part of it, and the tokens tile that part. -/
theorem exists_tiles_scanFrom (before text : Bytes) :
    ∃ read spans, text = read ++ (scanFrom (Position.start.after before) text).rest ∧
      Tiles (before ++ text) before.length (before.length + read.length)
        (scanFrom (Position.start.after before) text).tokens spans := by
  induction hlength : text.length using Nat.strongRecOn generalizing before text with
  | ind length ih =>
    cases hfront : Piece.front? text with
    | none =>
      rw [scanFrom_of_none hfront]
      exact ⟨[], [], rfl, .nil _ _⟩
    | some piece =>
      obtain ⟨hne, happend⟩ := Piece.front?_fronts hfront
      have hshorter : piece.rest.length < length := hlength ▸ Piece.rest_length_lt hfront
      obtain ⟨read, spans, hread, htiles⟩ := ih _ hshorter (before ++ piece.text) piece.rest rfl
      rw [scanFrom_of_some hfront, ← Position.after_append]
      rw [List.append_assoc, happend, List.length_append] at htiles
      have hread : text = (piece.text ++ read) ++
          (scanFrom (Position.start.after (before ++ piece.text)) piece.rest).rest := by
        rw [List.append_assoc, ← hread, happend]
      have hstop : before.length + (piece.text ++ read).length =
          before.length + piece.text.length + read.length := by
        rw [List.length_append, Nat.add_assoc]
      cases hkind : piece.kind with
      | none =>
        have hblank := Piece.front?_hasForm hfront
        simp only [Piece.HasForm, hkind] at hblank
        refine ⟨piece.text ++ read, spans, hread, ?_⟩
        rw [hstop]
        rw [← happend] at htiles ⊢
        simpa [prepend, Piece.tokens, hkind] using htiles.of_blanks hblank
      | some kind =>
        have hpos := List.length_pos_iff.2 hne
        let span : Span := ⟨before.length, before.length + piece.text.length, by omega⟩
        refine ⟨piece.text ++ read, span :: spans, hread, ?_⟩
        rw [hstop]
        have hfills : Token.Fills _ (before ++ text) span :=
          Piece.fills_of_front? hfront hkind rfl rfl
        have hcons : Tiles (before ++ text) span.start _ _ (span :: spans) :=
          htiles.cons hfills (by simp [span])
        simpa [prepend, Piece.tokens, hkind] using hcons

/-- The tokens of a source tile the part of it that was read. -/
theorem exists_tiles_ofSource (source : Bytes) :
    ∃ read spans, source = read ++ (ofSource source).rest ∧
      Tiles source 0 read.length (ofSource source).tokens spans := by
  simpa [ofSource] using exists_tiles_scanFrom [] source

/-- Scanning goes on as long as a piece begins. -/
theorem front?_rest (position : Position) (text : Bytes) :
    Piece.front? (scanFrom position text).rest = none := by
  induction hlength : text.length using Nat.strongRecOn generalizing position text with
  | ind length ih =>
    cases hfront : Piece.front? text with
    | none => rw [scanFrom_of_none hfront, hfront]
    | some piece =>
      rw [scanFrom_of_some hfront]
      exact ih _ (hlength ▸ Piece.rest_length_lt hfront) _ _ rfl

end Scan

namespace Scanner

/-- The tokens of a source tile what has been read of it, none of them is illegal, and less than the
whole source has been read exactly when the next byte begins nothing or is a quote that is never
closed. -/
theorem exists_tiles_tokens (source : Bytes) :
    let tokens := (Scanner.tokens { source }).1
    let offset := (Scanner.tokens { source }).2.offset
    (∃ spans, Scan.Tiles source 0 offset tokens spans) ∧ offset ≤ source.length ∧
      (∀ token ∈ tokens, token.kind ≠ .illegal) ∧
      (offset < source.length ↔ Latin.Unreadable (source.drop offset)) := by
  intro tokens offset
  obtain ⟨read, spans, hread, htiles⟩ := Scan.exists_tiles_ofSource source
  have hlength : source.length = read.length + (Scan.ofSource source).rest.length := by
    rw [← List.length_append, ← hread]
  have hoffset : offset = read.length := by
    simp only [offset, Scanner.tokens, Scanner.offset, ↓reduceIte]
    omega
  have hrest : source.drop offset = (Scan.ofSource source).rest := by
    rw [hoffset]
    nth_rewrite 1 [hread]
    exact List.drop_left
  refine ⟨⟨spans, ?_⟩, by omega, ?_, ?_⟩
  · rw [hoffset]
    exact htiles
  · intro token htoken hillegal
    have hlexical := Scan.isLexical_of_mem_tokens htoken
    simp [Token.IsLexical, hillegal] at hlexical
  · have hend : offset < source.length ↔ source.drop offset ≠ [] := by
      rw [Ne, List.drop_eq_nil_iff, not_le]
    rw [hend, hrest]
    constructor
    · intro hne
      exact (Piece.front?_eq_none_iff.1 (Scan.front?_rest Position.start source)).resolve_left hne
    · rintro ⟨b, rest, heq, _⟩
      rw [heq]
      exact List.cons_ne_nil b rest

end Scanner

end LegacyBasic
