import LegacyBasic.Text.Latin
import LegacyBasic.Token.Basic

/-!
The written forms of names, numbers and texts.  Main statement: a name and its small form are the
same keyword or both no keyword, although keywords are looked up by characters of UTF-8 and names
are made of single bytes.
-/

namespace LegacyBasic

namespace Latin

/-- A letter and the letters and digits after it. -/
def IsName (text : Bytes) : Prop :=
  ∃ b rest, text = b :: rest ∧ isLetter b = true ∧ ∀ c ∈ rest, isWordByte c = true

def IsDigits (text : Bytes) : Prop := text ≠ [] ∧ ∀ b ∈ text, isDigit b = true

/-- Digits, or digits on both sides of a dot. -/
def IsNumber (text : Bytes) : Prop :=
  IsDigits text ∨ ∃ whole fraction, IsDigits whole ∧ IsDigits fraction ∧
    text = whole ++ 0x2E :: fraction

/-- Two double quotes with none between them. -/
def IsQuoted (text : Bytes) : Prop :=
  ∃ inner : Bytes, (∀ b ∈ inner, b ≠ 0x22) ∧ text = 0x22 :: inner ++ [0x22]

theorem isWordByte_lowerByte (b : UInt8) : isWordByte (lowerByte b) = isWordByte b := by
  simp [isWordByte, isLetter_lowerByte, isDigit_lowerByte]

theorem isWordByte_of_isLetter {b : UInt8} (h : isLetter b = true) : isWordByte b = true := by
  simp [isWordByte, h]

theorem lowerByte_lt_iff (b : UInt8) : lowerByte b < 0x80 ↔ b < 0x80 := by
  revert b
  exact Bytes.forall_byte (by decide +kernel)

/-- A name is made of word bytes only. -/
theorem IsName.isWordByte {text : Bytes} (h : IsName text) : ∀ b ∈ text, isWordByte b = true := by
  obtain ⟨b, rest, rfl, hletter, hrest⟩ := h
  intro c hc
  rcases List.mem_cons.1 hc with rfl | hc
  · exact isWordByte_of_isLetter hletter
  · exact hrest c hc

theorem IsName.lower {text : Bytes} (h : IsName text) : IsName (lower text) := by
  obtain ⟨b, rest, rfl, hletter, hrest⟩ := h
  refine ⟨lowerByte b, Latin.lower rest, rfl, by rw [isLetter_lowerByte, hletter], ?_⟩
  intro c hc
  obtain ⟨d, hd, rfl⟩ := List.mem_map.1 hc
  rw [isWordByte_lowerByte, hrest d hd]

end Latin

namespace Word

/-- The texts of `count` bytes that can continue both a word and a character. -/
def tails : Nat → List Bytes
  | 0 => [[]]
  | count + 1 => [0xAA, 0xB5, 0xBA].flatMap fun b => (tails count).map (b :: ·)

theorem mem_tails_of_forall {tail : Bytes}
    (h : ∀ b ∈ tail, Latin.isWordByte b = true ∧ Utf8.isTail b = true) :
    tail ∈ tails tail.length := by
  induction tail with
  | nil => simp [tails]
  | cons b tail ih =>
    have hbyte : ∀ b : UInt8, Latin.isWordByte b = true ∧ Utf8.isTail b = true →
        b ∈ [0xAA, 0xB5, 0xBA] := Bytes.forall_byte (by decide +kernel)
    have htail := ih fun c hc => h c (List.mem_cons_of_mem _ hc)
    exact List.mem_flatMap.2 ⟨b, hbyte b (h b List.mem_cons_self),
      List.mem_map.2 ⟨tail, htail, rfl⟩⟩

/-- No character of several bytes that can stand in a word has an ASCII small form: the capital I
with a dot and the Kelvin sign both hold a byte that is no letter. -/
theorem asciiLower?_of_mem_tails : ∀ lead : UInt8, 0x80 ≤ lead →
    ∀ expected ∈ Utf8.expected lead, ∀ tail ∈ tails expected.1,
      ∀ found ∈ Utf8.front? lead tail, asciiLower? found.1 = none :=
  Bytes.forall_byte (by decide +kernel)

/-- Only the bytes that the leading byte asks for are looked at. -/
theorem front?_take {lead : UInt8} {expected : Nat × UInt8 × UInt8}
    (h : Utf8.expected lead = some expected) (rest : Bytes) :
    Utf8.front? lead (rest.take expected.1) = Utf8.front? lead rest := by
  simp [Utf8.front?, h, List.take_take]

theorem asciiLower?_of_front? {lead : UInt8} {rest : Bytes} {c : Char} {count : Nat}
    (hlead : 0x80 ≤ lead) (hrest : ∀ b ∈ rest, Latin.isWordByte b = true)
    (h : Utf8.front? lead rest = some (c, count)) : asciiLower? c = none := by
  cases hexpected : Utf8.expected lead with
  | none => simp [Utf8.front?, hexpected] at h
  | some expected =>
    have hfits : (rest.take expected.1).length = expected.1 ∧
        ∀ b ∈ rest.take expected.1, Utf8.isTail b = true := by
      simp only [Utf8.front?, hexpected] at h
      split at h
      · next hfits =>
        simp only [Bool.and_eq_true, beq_iff_eq, List.all_eq_true] at hfits
        exact hfits.1
      · simp at h
    have htail := mem_tails_of_forall fun b hb =>
      ⟨hrest b (List.mem_of_mem_take hb), hfits.2 b hb⟩
    rw [hfits.1] at htail
    rw [← front?_take hexpected] at h
    exact asciiLower?_of_mem_tails lead hlead expected hexpected _ htail _ h

/-- An ASCII byte is a character by itself. -/
theorem ascii_front? : ∀ b : UInt8, b < 0x80 →
    Utf8.front? b [] = some (Char.ofNat b.toNat, 0) ∧
      lowerItem? (.char (Char.ofNat b.toNat)) = some (Latin.lowerByte b) :=
  Bytes.forall_byte (by decide +kernel)

theorem asciiForm?_cons_of_lt {b : UInt8} (h : b < 0x80) (rest : Bytes) :
    asciiForm? (b :: rest) = (asciiForm? rest).map (Latin.lowerByte b :: ·) := by
  obtain ⟨hfront, hlower⟩ := ascii_front? b h
  have hexpected : Utf8.expected b = some (0, 0x80, 0xBF) := by simp [Utf8.expected, h]
  rw [← List.take_zero, front?_take hexpected rest] at hfront
  have hdecode : Utf8.decode (b :: rest) = .char (Char.ofNat b.toNat) :: Utf8.decode rest := by
    rw [Utf8.decode, hfront]
    rfl
  rw [asciiForm?, hdecode, List.mapM_cons, hlower, asciiForm?]
  cases (Utf8.decode rest).mapM lowerItem? <;> rfl

theorem asciiForm?_cons_of_le {b : UInt8} {rest : Bytes} (h : 0x80 ≤ b)
    (hrest : ∀ c ∈ rest, Latin.isWordByte c = true) : asciiForm? (b :: rest) = none := by
  cases hfront : Utf8.front? b rest with
  | none =>
    rw [asciiForm?, Utf8.decode, hfront]
    rfl
  | some found =>
    obtain ⟨c, count⟩ := found
    rw [asciiForm?, Utf8.decode, hfront]
    simp [List.mapM_cons, lowerItem?, asciiLower?_of_front? h hrest hfront]

/-- A word of single-byte letters and digits has an ASCII form when all its bytes are ASCII, and
then it is the small form of the word. -/
theorem asciiForm?_of_isWordByte {word : Bytes} (h : ∀ b ∈ word, Latin.isWordByte b = true) :
    asciiForm? word = if word.all (· < 0x80) then some (Latin.lower word) else none := by
  induction word with
  | nil => simp [asciiForm?, Utf8.decode]
  | cons b rest ih =>
    have hrest : ∀ c ∈ rest, Latin.isWordByte c = true :=
      fun c hc => h c (List.mem_cons_of_mem _ hc)
    by_cases hb : b < 0x80
    · rw [asciiForm?_cons_of_lt hb, ih hrest]
      simp only [List.all_cons, hb, decide_true, Bool.true_and]
      split <;> rfl
    · rw [asciiForm?_cons_of_le (UInt8.not_lt.1 hb) hrest]
      simp [hb]

/-- A word is an identifier or a keyword. -/
theorem kind_cases (word : Bytes) :
    kind word = .identifier ∨ ∃ keyword, kind word = .keyword keyword := by
  rw [kind]
  split
  · exact .inr ⟨_, rfl⟩
  · exact .inl rfl

/-- The case of letters decides nothing about a name being a keyword. -/
theorem kind_lower {name : Bytes} (h : Latin.IsName name) :
    kind (Latin.lower name) = kind name := by
  have hascii : (Latin.lower name).all (· < 0x80) = name.all (· < 0x80) := by
    simp [Latin.lower, Function.comp_def, Latin.lowerByte_lt_iff]
  simp only [kind, asciiForm?_of_isWordByte h.isWordByte,
    asciiForm?_of_isWordByte h.lower.isWordByte, hascii, Latin.lower_lower]

/-- A keyword is a name, and its written form is read as itself. -/
theorem keyword_lexeme (word : Keyword) :
    Latin.IsName word.lexeme ∧ kind word.lexeme = .keyword word := by
  constructor
  · cases word <;> exact ⟨_, _, rfl, by decide +kernel, by decide +kernel⟩
  · cases word <;> decide +kernel

end Word

/-- A token that a source can hold: its literal has the form of its kind, and a name is no
keyword. -/
def Token.IsLexical (token : Token) : Prop :=
  match token.kind with
  | .identifier => Latin.IsName token.literal ∧ Word.kind token.literal = .identifier
  | .number => Latin.IsNumber token.literal
  | .quoted => Latin.IsQuoted token.literal
  | .keyword _ | .symbol _ => True
  | .illegal | .unlisted _ _ => False

end LegacyBasic
