import Mathlib
import LegacyBasic.Proofs.Faults
import LegacyBasic.Proofs.Tiling

/-!
The case of letters.  Scanning a source in small letters cuts it at the same places, and whatever
differs in case only is read and desugared alike.  Main statement: two sources that differ only in
case, and not inside texts or in the names of attributes, have the same canonical output.
-/

namespace LegacyBasic

namespace Latin

theorem isSpace_lowerByte : ∀ b : UInt8, isSpace (lowerByte b) = isSpace b :=
  Bytes.forall_byte (by decide +kernel)

theorem lowerByte_of_not_isLetter {b : UInt8} (h : isLetter b = false) : lowerByte b = b := by
  have hcapital : isCapital b = false := by
    cases hcapital : isCapital b with
    | false => rfl
    | true => simp [isLetter, hcapital] at h
  simp [lowerByte, hcapital]

/-- What is no letter has one form, and no letter has that form. -/
theorem lowerByte_eq_iff {c : UInt8} (hc : isLetter c = false) (b : UInt8) :
    lowerByte b = c ↔ b = c := by
  by_cases hletter : isLetter b = true
  · have hlower : lowerByte b ≠ c := by
      rintro rfl
      rw [isLetter_lowerByte, hletter] at hc
      cases hc
    have hbyte : b ≠ c := by
      rintro rfl
      rw [hletter] at hc
      cases hc
    simp [hlower, hbyte]
  · rw [lowerByte_of_not_isLetter (by simpa using hletter)]

theorem isLetter_quote : isLetter 0x22 = false := by decide

theorem isLetter_dot : isLetter 0x2E = false := by decide

section Runs

variable {p : UInt8 → Bool} (hp : ∀ b, p (lowerByte b) = p b) (text : Bytes)

include hp

theorem takeWhile_lower : (lower text).takeWhile p = lower (text.takeWhile p) := by
  have hcomp : p ∘ lowerByte = p := funext hp
  rw [lower, List.takeWhile_map, hcomp, lower]

theorem dropWhile_lower : (lower text).dropWhile p = lower (text.dropWhile p) := by
  have hcomp : p ∘ lowerByte = p := funext hp
  rw [lower, List.dropWhile_map, hcomp, lower]

end Runs

/-- A number has no case. -/
theorem IsNumber.lower_eq {text : Bytes} (h : IsNumber text) : lower text = text := by
  have hdigits : ∀ {digits : Bytes}, IsDigits digits → lower digits = digits := by
    intro digits hdigits
    have hsame : digits.map lowerByte = digits.map id := by
      apply List.map_congr_left
      intro b hb
      exact lowerByte_of_not_isLetter (classes_of_isDigit b (hdigits.2 b hb)).2.1
    rw [lower, hsame, List.map_id]
  rcases h with hwhole | ⟨whole, fraction, hwhole, hfraction, rfl⟩
  · exact hdigits hwhole
  · rw [lower_append, lower_cons, hdigits hwhole, hdigits hfraction,
      lowerByte_of_not_isLetter isLetter_dot]

end Latin

namespace Symbol

theorem ofLexeme?_of_isLetter {b : UInt8} (h : Latin.isLetter b = true) : ofLexeme? [b] = none := by
  cases hsign : ofLexeme? [b] with
  | none => rfl
  | some sign =>
    obtain ⟨_, hletter, _⟩ := classes_of_ofLexeme? b (by simp [hsign])
    rw [h] at hletter
    cases hletter

theorem ofLexeme?_lowerByte (b : UInt8) : ofLexeme? [Latin.lowerByte b] = ofLexeme? [b] := by
  cases hletter : Latin.isLetter b with
  | false => rw [Latin.lowerByte_of_not_isLetter hletter]
  | true =>
    rw [ofLexeme?_of_isLetter hletter,
      ofLexeme?_of_isLetter ((Latin.isLetter_lowerByte b).trans hletter)]

/-- Symbols have no case. -/
theorem ofLexeme?_lower_pair (b c : UInt8) :
    ofLexeme? [Latin.lowerByte b, Latin.lowerByte c] = ofLexeme? [b, c] := by
  by_cases hpair : (b = 0x3C ∨ b = 0x3E) ∧ c = 0x3D
  · obtain ⟨hfirst, rfl⟩ := hpair
    rcases hfirst with rfl | rfl <;> rfl
  · rw [ofLexeme?_pair_eq_none hpair, ofLexeme?_pair_eq_none]
    rwa [Latin.lowerByte_eq_iff (by decide), Latin.lowerByte_eq_iff (by decide),
      Latin.lowerByte_eq_iff (by decide)]

end Symbol

/-- Places do not depend on case. -/
theorem Position.after_lower (position : Position) (text : Bytes) :
    position.after (Latin.lower text) = position.after text := by
  induction text generalizing position with
  | nil => rfl
  | cons b text ih =>
    have hnext : position.next (Latin.lowerByte b) = position.next b := by
      rw [next, next, if_congr (Latin.lowerByte_eq_iff (by decide) b) rfl rfl]
    rw [Latin.lower_cons, after_cons, after_cons, hnext, ih]

def Token.lower (token : Token) : Token := { token with literal := Latin.lower token.literal }

namespace Piece

def lower (piece : Piece) : Piece := ⟨piece.kind, Latin.lower piece.text, Latin.lower piece.rest⟩

theorem fraction?_lower (text : Bytes) :
    fraction? (Latin.lower text) =
      (fraction? text).map fun found => (Latin.lower found.1, Latin.lower found.2) := by
  cases text with
  | nil => rfl
  | cons b rest =>
    by_cases hdot : b = 0x2E
    · have hsame := Latin.lowerByte_of_not_isLetter Latin.isLetter_dot
      simp only [hdot, Latin.lower_cons, fraction?, hsame, ↓reduceIte,
        Latin.takeWhile_lower Latin.isDigit_lowerByte,
        Latin.dropWhile_lower Latin.isDigit_lowerByte]
      cases rest.takeWhile Latin.isDigit with
      | nil => rfl
      | cons digit digits => simp [hsame]
    · have hlower : ¬Latin.lowerByte b = 0x2E :=
        mt (Latin.lowerByte_eq_iff Latin.isLetter_dot b).1 hdot
      simp [fraction?, hdot, hlower]

theorem quoted?_lower (text : Bytes) :
    quoted? (Latin.lower text) = (quoted? text).map lower := by
  have hquote : ∀ b : UInt8, (Latin.lowerByte b != 0x22) = (b != 0x22) := by
    intro b
    rw [Bool.eq_iff_iff, bne_iff_ne, bne_iff_ne, Ne, Latin.lowerByte_eq_iff Latin.isLetter_quote]
  cases text with
  | nil => rfl
  | cons b rest =>
    by_cases hb : b = 0x22
    · have hsame := Latin.lowerByte_of_not_isLetter Latin.isLetter_quote
      simp only [hb, Latin.lower_cons, quoted?, hsame, ↓reduceIte,
        Latin.takeWhile_lower (p := (· != 0x22)) hquote,
        Latin.dropWhile_lower (p := (· != 0x22)) hquote]
      cases rest.dropWhile (· != 0x22) with
      | nil => rfl
      | cons closing after => simp [lower, hsame]
    · have hlower : ¬Latin.lowerByte b = 0x22 :=
        mt (Latin.lowerByte_eq_iff Latin.isLetter_quote b).1 hb
      simp [quoted?, hb, hlower]

theorem symbol?_lower (text : Bytes) :
    symbol? (Latin.lower text) = (symbol? text).map lower := by
  rcases text with _ | ⟨b, _ | ⟨c, rest⟩⟩
  · rfl
  · simp only [Latin.lower_cons, Latin.lower_nil, symbol?, Symbol.ofLexeme?_lowerByte]
    cases Symbol.ofLexeme? [b] <;> rfl
  · simp only [Latin.lower_cons, symbol?, Symbol.ofLexeme?_lowerByte, Symbol.ofLexeme?_lower_pair]
    cases Symbol.ofLexeme? [b, c] with
    | some sign => rfl
    | none => cases Symbol.ofLexeme? [b] <;> rfl

/-- The piece at the front of a source in small letters is the piece at its front, in small
letters. -/
theorem front?_lower (text : Bytes) : front? (Latin.lower text) = (front? text).map lower := by
  cases text with
  | nil => rfl
  | cons b rest =>
    by_cases hspace : Latin.isSpace b = true
    · have hlower := (Latin.isSpace_lowerByte b).trans hspace
      rw [Latin.lower_cons, front?_of_isSpace hspace, front?_of_isSpace hlower,
        Latin.takeWhile_lower Latin.isSpace_lowerByte,
        Latin.dropWhile_lower Latin.isSpace_lowerByte]
      rfl
    by_cases hletter : Latin.isLetter b = true
    · have hlower := (Latin.isLetter_lowerByte b).trans hletter
      have hname : Latin.IsName (b :: rest.takeWhile Latin.isWordByte) :=
        ⟨b, _, rfl, hletter, all_of_takeWhile_eq rfl⟩
      rw [Latin.lower_cons, front?_of_isLetter hletter, front?_of_isLetter hlower,
        Latin.takeWhile_lower Latin.isWordByte_lowerByte,
        Latin.dropWhile_lower Latin.isWordByte_lowerByte, ← Latin.lower_cons, Word.kind_lower hname]
      rfl
    by_cases hdigit : Latin.isDigit b = true
    · have hlower := (Latin.isDigit_lowerByte b).trans hdigit
      rw [Latin.lower_cons, front?_of_isDigit hdigit, front?_of_isDigit hlower,
        Latin.takeWhile_lower Latin.isDigit_lowerByte,
        Latin.dropWhile_lower Latin.isDigit_lowerByte, fraction?_lower]
      cases fraction? (rest.dropWhile Latin.isDigit) <;> simp [lower]
    by_cases hquote : b = 0x22
    · have hlower : Latin.lowerByte b = 0x22 :=
        (Latin.lowerByte_eq_iff Latin.isLetter_quote b).2 hquote
      have hquoted := quoted?_lower (b :: rest)
      rw [Latin.lower_cons, hlower, hquote] at hquoted
      rw [Latin.lower_cons, hlower, hquote, front?_quote, front?_quote, hquoted]
    · have hlower : Latin.lowerByte b ≠ 0x22 :=
        mt (Latin.lowerByte_eq_iff Latin.isLetter_quote b).1 hquote
      rw [Bool.not_eq_true] at hspace hletter hdigit
      rw [front?_of_other hspace hletter hdigit hquote, ← symbol?_lower, Latin.lower_cons,
        front?_of_other ((Latin.isSpace_lowerByte b).trans hspace)
          ((Latin.isLetter_lowerByte b).trans hletter) ((Latin.isDigit_lowerByte b).trans hdigit)
          hlower]

theorem tokens_lower (piece : Piece) (position : Position) :
    piece.lower.tokens position = (piece.tokens position).map Token.lower := by
  cases hkind : piece.kind with
  | none => simp [tokens, lower, hkind]
  | some kind =>
    by_cases hpayload : kind.hasPayload = true <;>
      simp [tokens, lower, hkind, hpayload, Token.lower]

end Piece

namespace Scan

/-- The scan of a source in small letters is the scan of the source, in small letters. -/
theorem scanFrom_lower (position : Position) (text : Bytes) :
    scanFrom position (Latin.lower text) =
      ⟨(scanFrom position text).tokens.map Token.lower,
        Latin.lower (scanFrom position text).rest⟩ := by
  induction hlength : text.length using Nat.strongRecOn generalizing position text with
  | ind length ih =>
    have hlower := Piece.front?_lower text
    cases hfront : Piece.front? text with
    | none =>
      rw [hfront] at hlower
      rw [scanFrom_of_none hfront, scanFrom_of_none hlower]
      rfl
    | some piece =>
      rw [hfront, Option.map_some] at hlower
      have hrest := ih _ (hlength ▸ Piece.rest_length_lt hfront) (position.after piece.text)
        piece.rest rfl
      rw [scanFrom_of_some hfront, scanFrom_of_some hlower]
      simp only [Piece.tokens_lower, prepend, List.map_append]
      simp only [Piece.lower, Position.after_lower, hrest]

end Scan

namespace Position

theorem column_after_of_not_mem {text : Bytes} (h : 0x0A ∉ text) (position : Position) :
    (position.after text).column = position.column + text.length := by
  induction text generalizing position with
  | nil => simp
  | cons b text ih =>
    rw [List.mem_cons, not_or] at h
    have hb : ¬b = 0x0A := Ne.symm h.1
    rw [after_cons, ih h.2]
    simp only [next, hb, ↓reduceIte, List.length_cons]
    omega

/-- Every text moves the place, unless it is empty. -/
theorem eq_nil_of_after_eq {position : Position} {text : Bytes}
    (h : position.after text = position) : text = [] := by
  have hline := line_after position text
  rw [h] at hline
  have hfeed : 0x0A ∉ text := by
    apply List.count_eq_zero.1
    omega
  have hcolumn := column_after_of_not_mem hfeed position
  rw [h] at hcolumn
  apply List.length_eq_zero_iff.1
  omega

/-- A place belongs to one offset of a source. -/
theorem eq_of_after_eq {position : Position} {before other rest others : Bytes}
    (h : before ++ rest = other ++ others) (hplace : position.after before = position.after other) :
    before = other := by
  rcases List.append_eq_append_iff.1 h with ⟨more, rfl, _⟩ | ⟨more, rfl, _⟩
  · rw [after_append] at hplace
    rw [eq_nil_of_after_eq hplace.symm, List.append_nil]
  · rw [after_append] at hplace
    rw [eq_nil_of_after_eq hplace, List.append_nil]

end Position

namespace Token

/-- The literal of the token stands in the source at the place of the token. -/
def StandsIn (token : Token) (source : Bytes) : Prop :=
  ∃ before after, source = before ++ (token.literal ++ after) ∧
    Position.start.after before = token.position

/-- The token with a name in small letters; every token that is no name stays. -/
def canonical (token : Token) : Token :=
  if token.kind = .identifier then token.lower else token

/-- The names that stand directly after the keyword of an attribute. -/
def attributeNames : List Token → List Token
  | mark :: name :: rest =>
    if mark.kind = .keyword .attributeWord ∧ name.kind = .identifier then
      name :: attributeNames (name :: rest)
    else attributeNames (name :: rest)
  | _ => []

theorem canonical_of_ne {token : Token} (h : token.kind ≠ .identifier) :
    token.canonical = token := if_neg h

theorem kind_canonical (token : Token) : token.canonical.kind = token.kind := by
  by_cases hkind : token.kind = .identifier <;> simp [canonical, hkind, lower]

theorem lower_canonical (token : Token) : token.canonical.lower = token.lower := by
  by_cases hkind : token.kind = .identifier <;> simp [canonical, hkind, lower]

/-- Without preserving case, a token and its canonical form are written alike. -/
theorem word_canonical (token : Token) :
    Style.word ⟨false⟩ token.canonical = Style.word ⟨false⟩ token := by
  by_cases hkind : token.kind = .identifier
  · simp [canonical, Style.word, hkind, lower]
  · rw [canonical_of_ne hkind]

/-- At one place of a source stands one text of each length. -/
theorem eq_of_standsIn {token other : Token} {source : Bytes} (htoken : token.StandsIn source)
    (hother : other.StandsIn source) (h : token.lower = other.lower) : token = other := by
  obtain ⟨kind, literal, position⟩ := token
  obtain ⟨otherKind, otherLiteral, otherPosition⟩ := other
  simp only [lower, Token.mk.injEq] at h
  obtain ⟨rfl, hliteral, rfl⟩ := h
  -- The same place is the same offset, and there texts of one length are the same bytes.
  obtain ⟨before, after, hsource, hplace⟩ := htoken
  obtain ⟨front, back, rfl, hfront⟩ := hother
  obtain rfl : front = before := Position.eq_of_after_eq hsource (hfront.trans hplace.symm)
  have hlength : otherLiteral.length = literal.length := by
    simpa using (congrArg List.length hliteral).symm
  obtain ⟨rfl, _⟩ : otherLiteral = literal ∧ back = after :=
    List.append_inj (List.append_cancel_left hsource) hlength
  rfl

/-- Tokens that agree place by place in one way agree in every way that follows from it. -/
theorem map_eq_map_of_imp {view change other : Token → Token} {tokens others : List Token}
    (h : tokens.map view = others.map view)
    (himp : ∀ token ∈ tokens, ∀ single ∈ others, view token = view single →
      change token = other single) :
    tokens.map change = others.map other := by
  induction tokens generalizing others with
  | nil =>
    rw [List.map_nil, eq_comm, List.map_eq_nil_iff] at h
    rw [h, List.map_nil, List.map_nil]
  | cons token tokens ih =>
    cases others with
    | nil => simp at h
    | cons single others =>
      rw [List.map_cons, List.map_cons, List.cons.injEq] at h
      rw [List.map_cons, List.map_cons,
        himp token List.mem_cons_self single List.mem_cons_self h.1, ih h.2]
      intro later hlater last hlast
      exact himp later (List.mem_cons_of_mem _ hlater) last (List.mem_cons_of_mem _ hlast)

/-- A token with a literal stands in the source at its span. -/
theorem Fills.standsIn {token : Token} {source : Bytes} {span : Span}
    (h : token.Fills source span) (hpayload : token.kind.hasPayload = true) :
    token.StandsIn source := by
  obtain ⟨after, hafter⟩ := h.isLongest.isPrefix
  refine ⟨source.take span.start, after, ?_, ?_⟩
  · rw [h.literal_eq, if_pos hpayload, hafter, List.take_append_drop]
  · have hline : (Position.start.after (source.take span.start)).line = token.position.line := by
      rw [Position.line_after, h.line_eq]
      rfl
    have hcolumn : (Position.start.after (source.take span.start)).column =
        token.position.column := by
      rw [Position.column_after_start, h.column_eq]
    generalize Position.start.after (source.take span.start) = place at hline hcolumn
    obtain ⟨line, column⟩ := place
    obtain rfl : line = token.position.line := hline
    obtain rfl : column = token.position.column := hcolumn
    rfl

theorem mem_attributeNames {before after : List Token} {mark name : Token}
    (hmark : mark.kind = .keyword .attributeWord) (hname : name.kind = .identifier) :
    name ∈ attributeNames (before ++ mark :: name :: after) := by
  induction before with
  | nil => simp [attributeNames, hmark, hname]
  | cons first before ih =>
    cases before with
    | nil =>
      rw [List.nil_append] at ih
      simp only [List.cons_append, List.nil_append, attributeNames]
      split
      · exact List.mem_cons_of_mem _ ih
      · exact ih
    | cons second before =>
      simp only [List.cons_append] at ih ⊢
      rw [attributeNames]
      split
      · exact List.mem_cons_of_mem _ ih
      · exact ih

end Token

namespace Scan

variable {source : Bytes} {token other : Token}

theorem exists_fills_of_mem (h : token ∈ (ofSource source).tokens) :
    ∃ span, token.Fills source span := by
  obtain ⟨_, spans, _, hfills, -, -, -⟩ := exists_tiles_ofSource source
  generalize (ofSource source).tokens = tokens at h hfills
  induction hfills with
  | nil => simp at h
  | @cons first span tokens spans hfirst _ ih =>
    rcases List.mem_cons.1 h with rfl | h
    · exact ⟨span, hfirst⟩
    · exact ih h

theorem literal_eq_nil_of_mem (h : token ∈ (ofSource source).tokens)
    (hpayload : token.kind.hasPayload = false) : token.literal = [] := by
  obtain ⟨span, hfills⟩ := exists_fills_of_mem h
  simpa [hpayload] using hfills.literal_eq

theorem standsIn_of_mem (h : token ∈ (ofSource source).tokens)
    (hpayload : token.kind.hasPayload = true) : token.StandsIn source := by
  obtain ⟨span, hfills⟩ := exists_fills_of_mem h
  exact hfills.standsIn hpayload

/-- Only names and texts have a case: a number has none, and any other token has no literal. -/
theorem lower_eq_of_mem (h : token ∈ (ofSource source).tokens) (hname : token.kind ≠ .identifier)
    (htext : token.kind ≠ .quoted) : token.lower = token := by
  have hlexical := isLexical_of_mem_tokens h
  obtain ⟨kind, literal, position⟩ := token
  cases hpayload : kind.hasPayload with
  | false =>
    obtain rfl : literal = [] := literal_eq_nil_of_mem h hpayload
    rfl
  | true =>
    cases kind with
    | identifier => exact absurd rfl hname
    | quoted => exact absurd rfl htext
    | number =>
      have hnumber : Latin.lower literal = literal := Latin.IsNumber.lower_eq hlexical
      rw [Token.lower, hnumber]
    | illegal => exact hlexical.elim
    | unlisted code outside => exact hlexical.elim
    | keyword word => simp [Kind.hasPayload] at hpayload
    | symbol sign => simp [Kind.hasPayload] at hpayload

/-- No two tokens of a source differ only in case. -/
theorem eq_of_canonical_eq (h : token ∈ (ofSource source).tokens)
    (hother : other ∈ (ofSource source).tokens) (hsame : token.canonical = other.canonical) :
    token = other := by
  have hkind : token.kind = other.kind := by
    rw [← token.kind_canonical, hsame, other.kind_canonical]
  by_cases hidentifier : token.kind = .identifier
  · have hlower : token.lower = other.lower := by
      rw [← token.lower_canonical, hsame, other.lower_canonical]
    exact Token.eq_of_standsIn (standsIn_of_mem h (by rw [hidentifier]; rfl))
      (standsIn_of_mem hother (by rw [← hkind, hidentifier]; rfl)) hlower
  · rwa [Token.canonical_of_ne hidentifier, Token.canonical_of_ne (hkind ▸ hidentifier)] at hsame

end Scan

namespace Token

/-- The token that stands for a token of another source: the one that differs from it in case
only, where there is one. -/
def counterpart (tokens : List Token) (token : Token) : Token :=
  (tokens.find? fun other => other.canonical == token.canonical).getD token

theorem canonical_counterpart (tokens : List Token) (token : Token) :
    (counterpart tokens token).canonical = token.canonical := by
  rw [counterpart]
  cases hfind : tokens.find? fun other => other.canonical == token.canonical with
  | none => rfl
  | some other => simpa using List.find?_some hfind

theorem kind_counterpart (tokens : List Token) (token : Token) :
    (counterpart tokens token).kind = token.kind := by
  rw [← kind_canonical, canonical_counterpart, kind_canonical]

theorem word_counterpart (tokens : List Token) (token : Token) :
    Style.word ⟨false⟩ (counterpart tokens token) = Style.word ⟨false⟩ token := by
  rw [← word_canonical, canonical_counterpart, word_canonical]

/-- A token that is no name is its own counterpart. -/
theorem counterpart_of_ne {token : Token} (h : token.kind ≠ .identifier) (tokens : List Token) :
    counterpart tokens token = token := by
  have hcanonical := canonical_counterpart tokens token
  have hkind := kind_counterpart tokens token
  rwa [canonical_of_ne h, canonical_of_ne (hkind ▸ h)] at hcanonical

theorem counterpart_eq {source : Bytes} {token other : Token}
    (hother : other ∈ (Scan.ofSource source).tokens) (h : other.canonical = token.canonical) :
    counterpart (Scan.ofSource source).tokens token = other := by
  have hcanonical := canonical_counterpart (Scan.ofSource source).tokens token
  rw [counterpart] at hcanonical ⊢
  cases hfind : (Scan.ofSource source).tokens.find? fun other =>
      other.canonical == token.canonical with
  | none =>
    have hnone := List.find?_eq_none.1 hfind other hother
    simp [h] at hnone
  | some found =>
    rw [hfind] at hcanonical
    exact Scan.eq_of_canonical_eq (List.mem_of_find?_eq_some hfind) hother (hcanonical.trans h.symm)

end Token

/-- A mark and the part after it are spelled by neighbours. -/
theorem Spells.exists_neighbours {slots : List Slot} {tokens : List Token} {kind : Kind}
    {token : Token} (h : Spells slots tokens) (hslots : [.mark kind, .part token] <:+: slots) :
    ∃ before mark after, tokens = before ++ mark :: token :: after ∧ mark.kind = kind := by
  obtain ⟨front, back, rfl⟩ := hslots
  obtain ⟨left, after, rfl, hleft, _⟩ := Spells.append_iff.1 h
  obtain ⟨before, pair, rfl, _, hpair⟩ := Spells.append_iff.1 hleft
  obtain ⟨mark, rest, rfl, hmark, hrest⟩ := Spells.mark_iff.1 hpair
  obtain ⟨last, rfl, _⟩ := Spells.part_iff.1 hrest
  exact ⟨before, mark, last ++ after, by simp, hmark⟩

namespace Statement

variable {change naming other : Token → Token}

mutual

/-- Changing the names of attributes in two ways is the same where the ways agree on all names that
stand after the keyword of an attribute. -/
theorem mapTokens_congr (statement : Statement)
    (h : ∀ name, [.mark (.keyword .attributeWord), .part name] <:+: statement.slots →
      naming name = other name) :
    statement.mapTokens change naming = statement.mapTokens change other := by
  cases statement with
  | subroutine scope name arguments body =>
    have hbody : ∀ name, [.mark (.keyword .attributeWord), .part name] <:+: slotsAll body →
        naming name = other name := by
      intro name hname
      exact h name (hname.trans (List.infix_append _ _ _))
    rw [mapTokens, mapTokens, mapTokensAll_congr body hbody]
  | function scope name arguments returns body =>
    have hbody : ∀ name, [.mark (.keyword .attributeWord), .part name] <:+: slotsAll body →
        naming name = other name := by
      intro name hname
      exact h name (hname.trans (List.infix_append _ _ _))
    rw [mapTokens, mapTokens, mapTokensAll_congr body hbody]
  | attributeLine name value =>
    rw [mapTokens, mapTokens, h name ⟨[], [.mark (.symbol .equals), .part value], rfl⟩]
  | _ => simp only [mapTokens]

theorem mapTokensAll_congr (statements : List Statement)
    (h : ∀ name, [.mark (.keyword .attributeWord), .part name] <:+: slotsAll statements →
      naming name = other name) :
    mapTokensAll change naming statements = mapTokensAll change other statements := by
  cases statements with
  | nil => rfl
  | cons first rest =>
    rw [mapTokensAll, mapTokensAll,
      mapTokens_congr first fun name hname =>
        h name (hname.trans (List.prefix_append _ _).isInfix),
      mapTokensAll_congr rest fun name hname =>
        h name (hname.trans (List.suffix_append _ _).isInfix)]

end

end Statement

namespace Source

open Grammar Statement

variable {first second : Source}

/-- The two sources differ only in case, and not in texts or in the names of attributes. -/
structure SameButCase (first second : Source) : Prop where
  lower_eq : Latin.lower first.content = Latin.lower second.content
  quoted : ∀ token ∈ (Scan.ofSource first.content).tokens, token.kind = .quoted →
    token.StandsIn second.content
  names : ∀ token ∈ Token.attributeNames (Scan.ofSource first.content).tokens,
    token.StandsIn second.content

namespace SameButCase

theorem scan_lower_eq (h : first.SameButCase second) :
    (Scan.ofSource first.content).tokens.map Token.lower =
        (Scan.ofSource second.content).tokens.map Token.lower ∧
      (Scan.ofSource first.content).rest.length = (Scan.ofSource second.content).rest.length := by
  have hfirst := Scan.scanFrom_lower .start first.content
  rw [h.lower_eq, Scan.scanFrom_lower, Scan.mk.injEq] at hfirst
  obtain ⟨htokens, hrest⟩ := hfirst
  have hlength := congrArg List.length hrest
  rw [Latin.length_lower, Latin.length_lower] at hlength
  exact ⟨htokens.symm, hlength.symm⟩

/-- Only names can differ. -/
theorem canonical_eq_of_lower_eq (h : first.SameButCase second) {token other : Token}
    (htoken : token ∈ (Scan.ofSource first.content).tokens)
    (hother : other ∈ (Scan.ofSource second.content).tokens) (hlower : token.lower = other.lower) :
    token.canonical = other.canonical := by
  have hsame : token.lower.kind = other.lower.kind := congrArg Token.kind hlower
  change token.kind = other.kind at hsame
  by_cases hidentifier : token.kind = .identifier
  · rw [Token.canonical, Token.canonical, if_pos hidentifier, if_pos (hsame ▸ hidentifier), hlower]
  rw [Token.canonical_of_ne hidentifier, Token.canonical_of_ne (hsame ▸ hidentifier)]
  by_cases hquoted : token.kind = .quoted
  · exact Token.eq_of_standsIn (h.quoted token htoken hquoted)
      (Scan.standsIn_of_mem hother (by rw [← hsame, hquoted]; rfl)) hlower
  · rw [← Scan.lower_eq_of_mem htoken hidentifier hquoted, hlower,
      Scan.lower_eq_of_mem hother (hsame ▸ hidentifier) (hsame ▸ hquoted)]

/-- The two sources have the same tokens, up to the case of names. -/
theorem map_canonical_eq (h : first.SameButCase second) :
    (Scan.ofSource first.content).tokens.map Token.canonical =
      (Scan.ofSource second.content).tokens.map Token.canonical := by
  apply Token.map_eq_map_of_imp h.scan_lower_eq.1
  intro token htoken other hother hlower
  exact h.canonical_eq_of_lower_eq htoken hother hlower

/-- A token of the first source differs in case only from one of the second. -/
theorem exists_canonical_eq (h : first.SameButCase second) {token : Token}
    (htoken : token ∈ (Scan.ofSource first.content).tokens) :
    ∃ other ∈ (Scan.ofSource second.content).tokens, other.canonical = token.canonical := by
  have hmem : token.canonical ∈ (Scan.ofSource second.content).tokens.map Token.canonical := by
    rw [← h.map_canonical_eq]
    exact List.mem_map_of_mem htoken
  exact List.mem_map.1 hmem

/-- The tokens of the second source are the counterparts of those of the first. -/
theorem map_counterpart (h : first.SameButCase second) :
    (Scan.ofSource first.content).tokens.map
        (Token.counterpart (Scan.ofSource second.content).tokens) =
      (Scan.ofSource second.content).tokens := by
  nth_rewrite 2 [← List.map_id (Scan.ofSource second.content).tokens]
  apply Token.map_eq_map_of_imp h.map_canonical_eq
  intro token _ other hother hsame
  exact Token.counterpart_eq hother hsame.symm

/-- A token that stands in both sources is its own counterpart. -/
theorem counterpart_eq_self (h : first.SameButCase second) {token : Token}
    (htoken : token ∈ (Scan.ofSource first.content).tokens) (hkind : token.kind = .identifier)
    (hstands : token.StandsIn second.content) :
    Token.counterpart (Scan.ofSource second.content).tokens token = token := by
  obtain ⟨other, hother, hcanonical⟩ := h.exists_canonical_eq htoken
  have hotherKind : other.kind = .identifier := by
    rw [← other.kind_canonical, hcanonical, token.kind_canonical, hkind]
  have hlower : other.lower = token.lower := by
    rw [← other.lower_canonical, hcanonical, token.lower_canonical]
  obtain rfl : other = token :=
    Token.eq_of_standsIn (Scan.standsIn_of_mem hother (by rw [hotherKind]; rfl)) hstands hlower
  exact Token.counterpart_eq hother rfl

end SameButCase

/-- The relabeling that takes each token to its counterpart. -/
def counterparts (tokens : List Token) : Relabeling :=
  ⟨Token.counterpart tokens, Token.kind_counterpart tokens, 0⟩

namespace SameButCase

/-- Reading the second source is reading the counterparts of the tokens of the first. -/
theorem parse_eq (h : first.SameButCase second) :
    parse (Scan.ofSource second.content).tokens =
      ((parse (Scan.ofSource first.content).tokens).mapError
        (counterparts (Scan.ofSource second.content).tokens).fault).map fun result =>
          (result.1.map (counterparts (Scan.ofSource second.content).tokens).statement,
            result.2) := by
  have hparse := parse_relabeled (counterparts (Scan.ofSource second.content).tokens)
    (Scan.ofSource first.content).tokens rfl
  rwa [show List.map (counterparts (Scan.ofSource second.content).tokens).change
    (Scan.ofSource first.content).tokens = _ from h.map_counterpart] at hparse

/-- The names of attributes are their own counterparts, so the statements of the second source keep
those of the first. -/
theorem map_statement_eq (h : first.SameButCase second) {statements : List Statement}
    {remaining : Nat}
    (hparse : parse (Scan.ofSource first.content).tokens = .ok (statements, remaining)) :
    statements.map (counterparts (Scan.ofSource second.content).tokens).statement =
      statements.map
        (mapTokens (Token.counterpart (Scan.ofSource second.content).tokens) id) := by
  obtain ⟨after, hstate, _⟩ := parse_eq_ok_iff.1 hparse
  obtain ⟨_, read, hspells, hreads⟩ := State.parse_sound hstate
  have htokens : (Scan.ofSource first.content).tokens = read ++ after.rest := hreads.rest_eq
  have hnames : ∀ name, [.mark (.keyword .attributeWord), .part name] <:+: slotsAll statements →
      Token.counterpart (Scan.ofSource second.content).tokens name = id name := by
    intro name hname
    by_cases hkind : name.kind = .identifier
    · obtain ⟨before, mark, rest, hread, hmark⟩ := hspells.exists_neighbours hname
      have hsplit : (Scan.ofSource first.content).tokens =
          before ++ mark :: name :: (rest ++ after.rest) := by
        rw [htokens, hread]
        simp
      have hmem : name ∈ (Scan.ofSource first.content).tokens := by
        rw [hsplit]
        simp
      have hstands : name.StandsIn second.content := by
        apply h.names
        rw [hsplit]
        exact Token.mem_attributeNames hmark hkind
      exact h.counterpart_eq_self hmem hkind hstands
    · exact Token.counterpart_of_ne hkind _
  change statements.map (mapTokens (Token.counterpart _) (Token.counterpart _)) = _
  rw [← mapTokensAll_eq_map, ← mapTokensAll_eq_map]
  exact mapTokensAll_congr statements hnames

theorem exists_error_iff (h : first.SameButCase second) (style : Style) :
    (∃ fault, (first.compile style).2 = .error fault) ↔
      ∃ fault, (second.compile style).2 = .error fault := by
  simp only [compile_eq_error_iff, h.parse_eq]
  cases parse (Scan.ofSource first.content).tokens <;> simp [Except.mapError, Except.map]

/-- What the two sources are compiled to without preserving case. -/
theorem compile_eq (h : first.SameButCase second) {left right : Compilation}
    (hleft : (first.compile ⟨false⟩).2 = .ok left)
    (hright : (second.compile ⟨false⟩).2 = .ok right) :
    right.output = left.output ∧ right.scannedSize = left.scannedSize ∧
      right.remaining = left.remaining ∧
      right.statements.length = left.statements.length ∧
      right.desugared.length = left.desugared.length := by
  obtain ⟨htokens, hparse, hdesugar, houtput, _, hscanned⟩ := stages_of_compile hleft
  obtain ⟨hothers, hread, hreplaced, hwritten, _, hsize⟩ := stages_of_compile hright
  rw [htokens] at hparse
  rw [hothers, h.parse_eq, hparse] at hread
  simp only [Except.mapError, Except.map, Except.ok.injEq, Prod.mk.injEq,
    h.map_statement_eq hparse] at hread
  obtain ⟨hstatements, hremaining⟩ := hread
  -- The exits that desugaring puts in are keywords, which have no case.
  have hexit : Token.counterpart (Scan.ofSource second.content).tokens
      (.unplaced (.keyword .functionWord) []) = .unplaced (.keyword .functionWord) [] :=
    Token.counterpart_of_ne (by simp) _
  rw [← hstatements, desugar_mapTokens _ _ left.statements hexit, hdesugar] at hreplaced
  have hdesugared := Except.ok.inj hreplaced
  have hname : ∀ token : Token, (id token).lexeme = token.lexeme := fun _ => rfl
  have hrender := renderAll_mapTokens
    (Token.word_counterpart (Scan.ofSource second.content).tokens) hname left.desugared
  rw [mapTokensAll_eq_map] at hrender
  obtain ⟨_, hrest⟩ := h.scan_lower_eq
  have hlength := congrArg List.length h.lower_eq
  rw [Latin.length_lower, Latin.length_lower] at hlength
  refine ⟨?_, ?_, hremaining.symm, ?_, ?_⟩
  · rw [hwritten, ← hdesugared, hrender, houtput]
  · rw [hsize, hscanned, hlength, hrest]
  · rw [← hstatements, List.length_map]
  · rw [← hdesugared, List.length_map]

end SameButCase

/-- Canonical output does not depend on the case of letters.  Two sources that differ only in case,
and not inside texts or in the names of attributes, have the same tokens up to the case of names;
one of them fails exactly when the other does; and otherwise they have the same canonical output and
stop at the same places. -/
theorem compile_sameButCase {first second : Source} (h : first.SameButCase second) :
    (Scan.ofSource first.content).tokens.map Token.canonical =
        (Scan.ofSource second.content).tokens.map Token.canonical ∧
      ((∃ fault, (first.compile ⟨false⟩).2 = .error fault) ↔
        ∃ fault, (second.compile ⟨false⟩).2 = .error fault) ∧
      ∀ left right, (first.compile ⟨false⟩).2 = .ok left →
        (second.compile ⟨false⟩).2 = .ok right →
        right.output = left.output ∧ right.scannedSize = left.scannedSize ∧
          right.remaining = left.remaining ∧
          right.statements.length = left.statements.length ∧
          right.desugared.length = left.desugared.length := by
  refine ⟨h.map_canonical_eq, h.exists_error_iff ⟨false⟩, ?_⟩
  intro left right hleft hright
  exact h.compile_eq hleft hright

/-- A keyword, a name with an accent and a kind in either case, after an attribute whose name and
text stay. -/
theorem compile_sameButCase_attribute :
    let first : Source :=
      ⟨[], Bytes.ofText "ATTRIBUTE Xy = \"aB\"\nDIM " ++ [0xC9] ++ Bytes.ofText " AS Z"⟩
    let second : Source :=
      ⟨[], Bytes.ofText "Attribute Xy = \"aB\"\nDim " ++ [0xE9] ++ Bytes.ofText " As z"⟩
    first.SameButCase second ∧
      (Scan.ofSource first.content).tokens.map Token.canonical =
        (Scan.ofSource second.content).tokens.map Token.canonical ∧
      ∃ left right, (first.compile ⟨false⟩).2 = .ok left ∧ (second.compile ⟨false⟩).2 = .ok right ∧
        left.output =
          Bytes.ofText "Attribute Xy = \"aB\"\ndim " ++ [0xE9] ++ Bytes.ofText " as z\n" ∧
        right.output = left.output := by
  intro first second
  have htokens : (Scan.ofSource first.content).tokens.filter (·.kind = .quoted) =
        [⟨.quoted, "\"aB\"", ⟨1, 16⟩⟩] ∧
      Token.attributeNames (Scan.ofSource first.content).tokens =
        [⟨.identifier, "Xy", ⟨1, 11⟩⟩] := by
    decide +kernel
  have hsame : first.SameButCase second := by
    refine ⟨by decide +kernel, ?_, ?_⟩
    · intro token htoken hkind
      have hmem : token ∈ (Scan.ofSource first.content).tokens.filter (·.kind = .quoted) :=
        List.mem_filter.2 ⟨htoken, by simpa using hkind⟩
      rw [htokens.1, List.mem_singleton] at hmem
      rw [hmem]
      exact ⟨"Attribute Xy = ", Bytes.ofText "\nDim " ++ [0xE9] ++ Bytes.ofText " As z",
        by decide +kernel, by decide +kernel⟩
    · intro token htoken
      rw [htokens.2, List.mem_singleton] at htoken
      rw [htoken]
      exact ⟨"Attribute ",
        Bytes.ofText " = \"aB\"\nDim " ++ [0xE9] ++ Bytes.ofText " As z",
        by decide +kernel, by decide +kernel⟩
  obtain ⟨hcanonical, hfails, hresults⟩ := compile_sameButCase hsame
  have houtput : (first.compile ⟨false⟩).2.toOption.map Compilation.output =
      some (Bytes.ofText "Attribute Xy = \"aB\"\ndim " ++ [0xE9] ++ Bytes.ofText " as z\n") := by
    decide +kernel
  refine ⟨hsame, hcanonical, ?_⟩
  cases hleft : (first.compile ⟨false⟩).2 with
  | error fault => simp [hleft, Except.toOption] at houtput
  | ok left =>
    rw [hleft] at houtput
    cases hright : (second.compile ⟨false⟩).2 with
    | error fault =>
      obtain ⟨other, hother⟩ := hfails.2 ⟨fault, hright⟩
      rw [hleft] at hother
      cases hother
    | ok right =>
      exact ⟨left, right, rfl, rfl, Option.some.inj houtput, (hresults left right hleft hright).1⟩

end Source

end LegacyBasic
