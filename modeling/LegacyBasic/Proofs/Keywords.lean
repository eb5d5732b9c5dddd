import Mathlib
import LegacyBasic.Proofs.Tiling

/-!
Keywords in any case.  A word is looked up by its characters, each in its small form; a name is
written in small letters byte by byte.  Main statement: on names the two agree, so that a name in
small letters is one token, of the kind that the name has.
-/

namespace LegacyBasic

namespace Utf8

theorem utf8EncodeChar_of_lt {c : Char} (h : c.toNat < 0x80) :
    String.utf8EncodeChar c = [c.toNat.toUInt8] := by
  have hval : c.val.toNat ≤ 0x7F := Nat.le_of_lt_succ h
  unfold String.utf8EncodeChar
  simp only [hval, ↓reduceIte]
  rfl

/-- A character outside ASCII begins with a byte outside ASCII. -/
theorem exists_utf8EncodeChar_of_le {c : Char} (h : 0x80 ≤ c.toNat) :
    ∃ b rest, String.utf8EncodeChar c = b :: rest ∧ 0x80 ≤ b := by
  have hval : ¬c.val.toNat ≤ 0x7F := Nat.not_le_of_lt h
  have hlead : ∀ n marker : Nat, 0x80 ≤ marker → n + marker < 0x100 →
      0x80 ≤ UInt8.ofNat (n + marker) := by
    intro n marker hmarker hsize
    rw [UInt8.le_iff_toNat_le, UInt8.toNat_ofNat_of_lt' hsize]
    exact Nat.le_add_left_of_le hmarker
  unfold String.utf8EncodeChar
  simp only [hval, ↓reduceIte]
  split
  · exact ⟨_, _, rfl, hlead _ 0xC0 (by decide) (by omega)⟩
  · split
    · exact ⟨_, _, rfl, hlead _ 0xE0 (by decide) (by omega)⟩
    · exact ⟨_, _, rfl, hlead _ 0xF0 (by decide) (by omega)⟩

end Utf8

namespace Word

/-- A map of characters to their small forms, as far as ASCII is concerned: a character whose small
form is in ASCII goes there, and no other does. -/
structure Lowers (lowerChar : Char → Char) : Prop where
  of_some : ∀ {c small : Char}, asciiLower? c = some small → lowerChar c = small
  of_none : ∀ {c : Char}, asciiLower? c = none → 0x80 ≤ (lowerChar c).toNat

/-- The small form of an item; a stray byte becomes the replacement character. -/
def lowerItem (lowerChar : Char → Char) : Utf8.Item → Char
  | .char c => lowerChar c
  | .stray _ => Char.ofNat 0xFFFD

/-- The word with all its characters in small form. -/
def lowered (lowerChar : Char → Char) (word : Bytes) : Bytes :=
  Utf8.encode ((Utf8.decode word).map (lowerItem lowerChar))

theorem asciiLower?_lt {c small : Char} (h : asciiLower? c = some small) : small.toNat < 0x80 := by
  unfold asciiLower? at h
  split at h
  · next hascii =>
    obtain rfl := Option.some.inj h
    have hall : ∀ n < 0x80, (Char.ofNat n).toLower.toNat < 0x80 := by decide +kernel
    simpa using hall c.toNat hascii
  · split at h
    · cases h
      decide
    · split at h
      · cases h
        decide
      · cases h

section Lowered

variable {lowerChar : Char → Char} (hlower : Lowers lowerChar)

include hlower

theorem utf8EncodeChar_of_lowerItem? {item : Utf8.Item} {small : UInt8}
    (h : lowerItem? item = some small) :
    String.utf8EncodeChar (lowerItem lowerChar item) = [small] := by
  cases item with
  | stray b => cases h
  | char c =>
    obtain ⟨form, hform, rfl⟩ := Option.map_eq_some_iff.1 h
    rw [lowerItem, hlower.of_some hform]
    exact Utf8.utf8EncodeChar_of_lt (asciiLower?_lt hform)

theorem le_toNat_lowerItem {item : Utf8.Item} (h : lowerItem? item = none) :
    0x80 ≤ (lowerItem lowerChar item).toNat := by
  cases item with
  | stray b =>
    show 0x80 ≤ (Char.ofNat 0xFFFD).toNat
    decide
  | char c =>
    apply hlower.of_none
    exact Option.map_eq_none_iff.1 h

/-- An ASCII text is the small form of a word exactly when every character of the word has its small
form in ASCII, and these make up the text. -/
theorem encode_map_lowerItem_iff (items : List Utf8.Item) {text : Bytes}
    (htext : ∀ b ∈ text, b < 0x80) :
    Utf8.encode (items.map (lowerItem lowerChar)) = text ↔
      items.mapM lowerItem? = some text := by
  induction items generalizing text with
  | nil => simp [Utf8.encode, eq_comm]
  | cons item items ih =>
    rw [List.map_cons, List.mapM_cons]
    show String.utf8EncodeChar (lowerItem lowerChar item) ++
      Utf8.encode (items.map (lowerItem lowerChar)) = text ↔ _
    cases hitem : lowerItem? item with
    | none =>
      obtain ⟨b, rest, hencode, hb⟩ :=
        Utf8.exists_utf8EncodeChar_of_le (le_toNat_lowerItem hlower hitem)
      rw [hencode]
      constructor
      · rintro rfl
        exact absurd (htext b (by simp)) (UInt8.not_lt.2 hb)
      · intro h
        cases h
    | some small =>
      rw [utf8EncodeChar_of_lowerItem? hlower hitem]
      cases text with
      | nil => simp [Option.bind_eq_some_iff]
      | cons b text =>
        have hrest := ih fun c hc => htext c (List.mem_cons_of_mem b hc)
        simpa [Option.bind_eq_some_iff, hrest] using and_comm

end Lowered

theorem kind_eq_keyword_iff {word : Bytes} {keyword : Keyword} :
    kind word = .keyword keyword ↔ asciiForm? word = some keyword.lexeme := by
  rw [kind]
  constructor
  · intro h
    split at h
    · next found hfound =>
      obtain rfl := Kind.keyword.inj h
      obtain ⟨form, hform, hkeyword⟩ := Option.bind_eq_some_iff.1 hfound
      rw [hform, Keyword.lexeme_of_ofLexeme? hkeyword]
    · cases h
  · intro h
    rw [h, Option.bind_some, Keyword.ofLexeme?_lexeme]

/-- Keywords are written in ASCII, since looking one up finds an ASCII form. -/
theorem lexeme_ascii (keyword : Keyword) : ∀ b ∈ keyword.lexeme, b < 0x80 := by
  obtain ⟨hname, hkind⟩ := keyword_lexeme keyword
  rw [kind_eq_keyword_iff, asciiForm?_of_isWordByte hname.isWordByte] at hkind
  split at hkind
  · next hascii => simpa using hascii
  · cases hkind

/-- Looking a word up is comparing its small form with the keywords, whatever the small forms
outside ASCII are. -/
theorem lowered_eq_lexeme_iff {lowerChar : Char → Char} (hlower : Lowers lowerChar) {word : Bytes}
    {keyword : Keyword} :
    lowered lowerChar word = keyword.lexeme ↔ kind word = .keyword keyword := by
  rw [kind_eq_keyword_iff]
  exact encode_map_lowerItem_iff hlower (Utf8.decode word) (lexeme_ascii keyword)

theorem kind_eq_keyword_iff_lower {name : Bytes} (h : Latin.IsName name) {keyword : Keyword} :
    kind name = .keyword keyword ↔ Latin.lower name = keyword.lexeme := by
  rw [kind_eq_keyword_iff, asciiForm?_of_isWordByte h.isWordByte]
  by_cases hascii : name.all (· < 0x80) = true
  · rw [if_pos hascii, Option.some.injEq]
  · rw [if_neg hascii]
    constructor
    · intro hnone
      cases hnone
    · intro hlexeme
      apply absurd _ hascii
      apply List.all_eq_true.2
      intro b hb
      have hlower : Latin.lowerByte b ∈ keyword.lexeme := hlexeme ▸ List.mem_map_of_mem hb
      exact decide_eq_true ((Latin.lowerByte_lt_iff b).1 (lexeme_ascii keyword _ hlower))

theorem kind_eq_identifier_iff {name : Bytes} (h : Latin.IsName name) :
    kind name = .identifier ↔ ∀ keyword : Keyword, Latin.lower name ≠ keyword.lexeme := by
  constructor
  · intro hkind keyword hlower
    rw [← kind_eq_keyword_iff_lower h, hkind] at hlower
    cases hlower
  · intro hlower
    rcases kind_cases name with hkind | ⟨keyword, hkind⟩
    · exact hkind
    · exact absurd ((kind_eq_keyword_iff_lower h).1 hkind) (hlower keyword)

end Word

theorem Scan.exists_fills_name {name : Bytes} (h : Latin.IsName name) :
    ∃ (token : Token) (span : Span), ofSource name = ⟨[token], []⟩ ∧
      token.kind = Word.kind name ∧ span.text name = name ∧ token.Fills name span := by
  have hfront := front?_name h
  have hlength : 0 < name.length := by
    obtain ⟨b, rest, rfl, _⟩ := h
    exact Nat.succ_pos _
  let span : Span := ⟨0, name.length, hlength⟩
  have hfills : Token.Fills ⟨Word.kind name, if (Word.kind name).hasPayload then name else [],
      Position.start.after []⟩ ([] ++ name) span :=
    Piece.fills_of_front? hfront rfl rfl (Nat.zero_add _).symm
  refine ⟨_, span, ?_, rfl, List.take_length, hfills⟩
  rw [ofSource, scanFrom_of_some hfront, scanFrom_of_none Piece.front?_nil]
  rfl

namespace Word

/-- Looking up and writing in small letters agree on names.  A name is the keyword that its small
letters spell, in whatever way the small forms of characters outside ASCII are taken; in small
letters it has the same kind; and then it is scanned as one token of that kind, which fills all of
it.  So no identifier becomes a keyword or falls apart. -/
theorem lower_keeps_kind {name : Bytes} (h : Latin.IsName name) :
    (∀ keyword : Keyword, kind name = .keyword keyword ↔ Latin.lower name = keyword.lexeme) ∧
      (∀ lowerChar : Char → Char, Lowers lowerChar → ∀ keyword : Keyword,
        lowered lowerChar name = keyword.lexeme ↔ Latin.lower name = keyword.lexeme) ∧
      kind (Latin.lower name) = kind name ∧
      ∃ (token : Token) (span : Span), Scan.ofSource (Latin.lower name) = ⟨[token], []⟩ ∧
        token.kind = kind name ∧ span.text (Latin.lower name) = Latin.lower name ∧
        token.Fills (Latin.lower name) span := by
  have hkeyword : ∀ keyword : Keyword,
      kind name = .keyword keyword ↔ Latin.lower name = keyword.lexeme :=
    fun _ => kind_eq_keyword_iff_lower h
  refine ⟨hkeyword, ?_, kind_lower h, ?_⟩
  · intro lowerChar hlower keyword
    rw [lowered_eq_lexeme_iff hlower, hkeyword]
  · have hfills := Scan.exists_fills_name h.lower
    rwa [kind_lower h] at hfills

/-- `dIm` is looked up as `dim`.  The bytes of `D`, a letter of two bytes and `M` are four letters
when they are made small one by one, and no keyword either way. -/
theorem lower_keeps_kind_two_bytes :
    let lowerChar (c : Char) : Char := (asciiLower? c).getD c
    let name : Bytes := [0x44, 0xC4, 0xAA, 0x4D]
    Lowers lowerChar ∧ Latin.IsName "dIm" ∧ lowered lowerChar "dIm" = Keyword.lexeme .dimWord ∧
      Latin.IsName name ∧ Latin.lower name = [0x64, 0xE4, 0xAA, 0x6D] ∧
      (∀ keyword : Keyword, lowered lowerChar name ≠ keyword.lexeme) ∧
      kind (Latin.lower name) = .identifier ∧
      ∃ token : Token, Scan.ofSource (Latin.lower name) = ⟨[token], []⟩ ∧
        token.kind = .identifier := by
  intro lowerChar name
  have hlower : Lowers lowerChar := by
    constructor
    · intro c small h
      simp [lowerChar, h]
    · intro c h
      have hascii : ¬c.toNat < 0x80 := by
        intro hlt
        simp [asciiLower?, hlt] at h
      simpa [lowerChar, h] using hascii
  have hdim : Latin.IsName "dIm" := ⟨_, _, rfl, by decide +kernel, by decide +kernel⟩
  have hname : Latin.IsName name := ⟨_, _, rfl, by decide +kernel, by decide +kernel⟩
  have hkind : kind name = .identifier := by decide +kernel
  obtain ⟨_, hdimLowered, _⟩ := lower_keeps_kind hdim
  obtain ⟨hkeyword, hlowered, hkindLower, token, span, hscan, htoken, _⟩ := lower_keeps_kind hname
  refine ⟨hlower, hdim, (hdimLowered lowerChar hlower .dimWord).2 (by decide +kernel), hname,
    by decide +kernel, ?_, hkindLower.trans hkind, token, hscan, htoken.trans hkind⟩
  intro keyword hlexeme
  rw [hlowered lowerChar hlower, ← hkeyword, hkind] at hlexeme
  cases hlexeme

end Word

end LegacyBasic
