import Mathlib
import LegacyBasic.Proofs.Concatenation
import LegacyBasic.Proofs.Keywords
import LegacyBasic.Proofs.LetterCase

/-!
Tokens written with blanks between them.  Main statement: scanning yields well-formed tokens only,
and every list of well-formed tokens is scanned back from its lexemes, however they are spaced.
-/

namespace LegacyBasic

/-- Nothing but blanks. -/
def Latin.IsBlank (text : Bytes) : Prop := ∀ b ∈ text, isSpace b = true

namespace Token

/-- A token whose literal has the form of its kind.  A name is written as no keyword is, in whatever
case; keywords and symbols carry no literal; and no other kind is well formed. -/
def WellFormed (token : Token) : Prop :=
  match token.kind with
  | .identifier =>
    Latin.IsName token.literal ∧ ∀ keyword : Keyword, Latin.lower token.literal ≠ keyword.lexeme
  | .number => Latin.IsNumber token.literal
  | .quoted => Latin.IsQuoted token.literal
  | .keyword _ | .symbol _ => token.literal = []
  | .illegal | .unlisted _ _ => False

/-- The texts that hold the lexemes of tokens in order, each with blanks after it, and at least one
blank wherever another lexeme follows. -/
inductive Spaced : List Token → Bytes → Prop
  | nil : Spaced [] []
  | cons (token : Token) {gap : Bytes} {tokens : List Token} {text : Bytes}
      (blank : Latin.IsBlank gap) (apart : tokens ≠ [] → gap ≠ []) (spaced : Spaced tokens text) :
      Spaced (token :: tokens) (token.lexeme ++ (gap ++ text))

theorem wellFormed_iff {token : Token} :
    token.WellFormed ↔ token.IsLexical ∧ (token.kind.hasPayload = false → token.literal = []) := by
  cases hkind : token.kind with
  | identifier =>
    simp only [WellFormed, IsLexical, hkind, Kind.hasPayload]
    constructor
    · rintro ⟨hname, hlower⟩
      exact ⟨⟨hname, (Word.kind_eq_identifier_iff hname).2 hlower⟩, by simp⟩
    · rintro ⟨⟨hname, hword⟩, _⟩
      exact ⟨hname, (Word.kind_eq_identifier_iff hname).1 hword⟩
  | _ => simp [WellFormed, IsLexical, hkind, Kind.hasPayload]

theorem WellFormed.unplaced_lexeme {token : Token} (h : token.WellFormed) :
    unplaced token.kind token.lexeme = token.withoutPlace := by
  obtain ⟨kind, literal, position⟩ := token
  cases hpayload : kind.hasPayload with
  | true => simp [unplaced, lexeme, withoutPlace, hpayload]
  | false =>
    obtain rfl : literal = [] := (wellFormed_iff.1 h).2 hpayload
    simp [unplaced, withoutPlace, hpayload]

end Token

namespace Scan

theorem wellFormed_of_mem_tokens {source : Bytes} {token : Token}
    (h : token ∈ (ofSource source).tokens) : token.WellFormed :=
  Token.wellFormed_iff.2 ⟨isLexical_of_mem_tokens h, literal_eq_nil_of_mem h⟩

theorem contents_lexeme_of_wellFormed {token : Token} (h : token.WellFormed) :
    contents token.lexeme = ⟨[token.withoutPlace], []⟩ := by
  rw [← h.unplaced_lexeme]
  exact contents_lexeme (Token.wellFormed_iff.1 h).1

/-- Where the lexemes are spaced, each of them is cut off alone and the blanks are passed over. -/
theorem contents_spaced {tokens : List Token} {text : Bytes} (h : Token.Spaced tokens text)
    (hform : ∀ token ∈ tokens, token.WellFormed) :
    contents text = ⟨tokens.map Token.withoutPlace, []⟩ := by
  induction h with
  | nil => exact contents_of_none Piece.front?_nil
  | @cons token gap tokens text hblank hgap hspaced ih =>
    obtain ⟨htoken, htokens⟩ := List.forall_mem_cons.1 hform
    have hapart : Latin.Apart token.lexeme (gap ++ text) := by
      by_cases hnil : gap = []
      · -- No blank follows the last lexeme only, so nothing does.
        obtain rfl : tokens = [] := by
          by_contra hne
          exact hgap hne hnil
        cases hspaced
        rw [hnil]
        exact .inl rfl
      · exact Latin.apart_blanks _ _ hnil hblank
    rw [contents_append (contents_lexeme_of_wellFormed htoken) hapart,
      contents_blanks_append hblank, ih htokens]
    rfl

/-- Scanning undoes spaced writing.  Every token of a source is well formed.  Well-formed tokens
written with blanks around them, and at least one between neighbours, are scanned to the end as the
same kinds and literals.  So the tokens of a source may be laid out anew in any such way. -/
theorem scan_spaced :
    (∀ source : Bytes, ∀ token ∈ (ofSource source).tokens, token.WellFormed) ∧
      (∀ (tokens : List Token) (margin text : Bytes), (∀ token ∈ tokens, token.WellFormed) →
        Latin.IsBlank margin → Token.Spaced tokens text →
          (ofSource (margin ++ text)).rest = [] ∧
            (ofSource (margin ++ text)).tokens.map Token.withoutPlace =
              tokens.map Token.withoutPlace) ∧
      ∀ source margin text : Bytes, Latin.IsBlank margin →
        Token.Spaced (ofSource source).tokens text →
          (ofSource (margin ++ text)).rest = [] ∧
            (ofSource (margin ++ text)).tokens.map Token.withoutPlace =
              (ofSource source).tokens.map Token.withoutPlace := by
  have hform : ∀ source : Bytes, ∀ token ∈ (ofSource source).tokens, token.WellFormed := by
    intro source token
    exact wellFormed_of_mem_tokens
  have hspaced : ∀ (tokens : List Token) (margin text : Bytes),
      (∀ token ∈ tokens, token.WellFormed) → Latin.IsBlank margin → Token.Spaced tokens text →
        (ofSource (margin ++ text)).rest = [] ∧
          (ofSource (margin ++ text)).tokens.map Token.withoutPlace =
            tokens.map Token.withoutPlace := by
    intro tokens margin text htokens hmargin htext
    have hcontents := contents_blanks_append hmargin text
    rw [contents_spaced htext htokens] at hcontents
    exact ⟨congrArg Scan.rest hcontents, congrArg Scan.tokens hcontents⟩
  refine ⟨hform, hspaced, ?_⟩
  intro source margin text hmargin htext
  exact hspaced _ margin text (hform source) hmargin htext

/-- `<` and `=`, `1` and `.` and `2`, `dim` and `dim_` would run together without the blanks, and a
text may hold any byte but a quote.  Before and after them stand a next-line control and a no-break
space. -/
theorem scan_spaced_neighbours :
    let sign (symbol : Symbol) : Token := { kind := .symbol symbol }
    let number (digits : String) : Token := { kind := .number, literal := digits }
    let dim : Token := { kind := .keyword .dimWord, position := ⟨7, 1⟩ }
    let name : Token := { kind := .identifier, literal := "dIm_" }
    let quoted : Token := { kind := .quoted, literal := [0x22, 0xFF, 0x0A, 0x20, 0x22] }
    let tokens := [sign .less, sign .equals, number "1", sign .dot, number "2", dim, name, quoted]
    let text := Bytes.ofText "< =\n1 . 2 dim\tdIm_ " ++ [0x22, 0xFF, 0x0A, 0x20, 0x22, 0xA0]
    (∀ token ∈ tokens, token.WellFormed) ∧ Token.Spaced tokens text ∧
      (ofSource (0x85 :: text)).rest = [] ∧
      (ofSource (0x85 :: text)).tokens.map Token.withoutPlace =
        tokens.map Token.withoutPlace := by
  intro sign number dim name quoted tokens text
  have hname : name.WellFormed := by
    have hform : Latin.IsName name.literal := ⟨_, _, rfl, by decide +kernel, by decide +kernel⟩
    exact ⟨hform, (Word.kind_eq_identifier_iff hform).1 (by decide +kernel)⟩
  have hnumber : ∀ digits ∈ ["1", "2"], (number digits).WellFormed := by
    simp only [List.forall_mem_cons]
    refine ⟨.inl ⟨by decide +kernel, by decide +kernel⟩,
      .inl ⟨by decide +kernel, by decide +kernel⟩, by simp⟩
  have hquoted : quoted.WellFormed := ⟨[0xFF, 0x0A, 0x20], by decide +kernel, rfl⟩
  have hform : ∀ token ∈ tokens, token.WellFormed := by
    simp only [tokens, List.forall_mem_cons]
    exact ⟨rfl, rfl, hnumber "1" (by simp), rfl, hnumber "2" (by simp), rfl, hname, hquoted,
      List.forall_mem_nil _⟩
  have hblank : ∀ b ∈ [0x20, 0x0A, 0x09, 0xA0], Latin.IsBlank [b] := by
    simp only [Latin.IsBlank, List.forall_mem_singleton]
    decide +kernel
  have hspace := hblank 0x20 (by simp)
  have hspaced : Token.Spaced tokens text := by
    have hrow : Token.Spaced tokens _ :=
      .cons _ hspace (by simp) <| .cons _ (hblank 0x0A (by simp)) (by simp) <|
        .cons _ hspace (by simp) <| .cons _ hspace (by simp) <| .cons _ hspace (by simp) <|
        .cons _ (hblank 0x09 (by simp)) (by simp) <| .cons _ hspace (by simp) <|
        .cons _ (hblank 0xA0 (by simp)) (by simp) .nil
    convert hrow using 1
    decide +kernel
  obtain ⟨_, hscan, _⟩ := scan_spaced
  have hblank : Latin.IsBlank [0x85] := by simp [Latin.IsBlank, Latin.isSpace]
  exact ⟨hform, hspaced, hscan tokens [0x85] text hform hblank hspaced⟩

end Scan

end LegacyBasic
