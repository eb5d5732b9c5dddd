import LegacyBasic.Proofs.Lexemes
import LegacyBasic.Token.Scan

/-!
Scanning piece by piece.  Where two texts cannot run into each other, scanning them together yields
the tokens of the first and then those of the second.  Main statements: that law, the scan of every
lexeme by itself, and the forms of the tokens that scanning yields.
-/

namespace LegacyBasic

def Token.withoutPlace (token : Token) : Token := { token with position := {} }

namespace Latin

/-- Whether no word, number or symbol goes on past the front of a text. -/
def breaks (text : Bytes) : Bool :=
  text.head?.all fun b => !isWordByte b && b != 0x2E && b != 0x3D

/-- Whether the last byte of a text is a blank. -/
def endsBlank (text : Bytes) : Bool := text.getLast?.any isSpace

/-- Two texts that cannot run into each other. -/
def Apart (text rest : Bytes) : Prop := breaks rest = true ∨ endsBlank text = true

theorem not_isSpace_of_isWordByte : ∀ b : UInt8, isWordByte b = true → isSpace b = false :=
  Bytes.forall_byte (by decide +kernel)

@[simp]
theorem apart_nil {rest : Bytes} : Apart [] rest ↔ breaks rest = true := by
  simp [Apart, endsBlank]

theorem endsBlank_append {front text : Bytes} :
    endsBlank (front ++ text) = if text = [] then endsBlank front else endsBlank text := by
  cases text with
  | nil => simp
  | cons b text => simp [endsBlank, List.getLast?_append, List.getLast?_cons]

/-- Cutting a front part that does not end in a blank keeps the texts apart. -/
theorem Apart.of_append {front text rest : Bytes} (h : Apart (front ++ text) rest)
    (hfront : endsBlank front = false) : Apart text rest := by
  rcases h with h | h
  · exact .inl h
  · rw [endsBlank_append, hfront] at h
    split at h
    · simp at h
    · exact .inr h

theorem Apart.of_append_of_ne_nil {front text rest : Bytes} (h : Apart (front ++ text) rest)
    (htext : text ≠ []) : Apart text rest := by
  simpa [Apart, endsBlank_append, htext] using h

theorem endsBlank_of_isWordByte {text : Bytes} (h : ∀ b ∈ text, isWordByte b = true) :
    endsBlank text = false := by
  simp only [endsBlank, Option.any_eq_false]
  intro b hb
  simp [not_isSpace_of_isWordByte b (h b (List.mem_of_getLast? hb))]

/-- A run of word bytes ends in the first of two texts that are apart. -/
theorem Apart.run {p : UInt8 → Bool} (hp : ∀ b, p b = true → isWordByte b = true)
    {text rest : Bytes} (h : Apart text rest) :
    (text ++ rest).takeWhile p = text.takeWhile p ∧
      (text ++ rest).dropWhile p = text.dropWhile p ++ rest := by
  induction text with
  | nil =>
    rw [apart_nil] at h
    cases rest with
    | nil => simp
    | cons b rest =>
      simp only [breaks, List.head?_cons, Option.all_some, Bool.and_eq_true, Bool.not_eq_true'] at h
      have hb : p b = false := by
        cases hpb : p b with
        | false => rfl
        | true => simp [hp b hpb] at h
      simp [hb]
  | cons b text ih =>
    cases hb : p b with
    | false => simp [hb]
    | true =>
      have hapart : Apart text rest :=
        Apart.of_append (show Apart ([b] ++ text) rest from h)
          (endsBlank_of_isWordByte (by simpa using hp b hb))
      simpa [hb] using ih hapart

theorem classes_of_isLetter : ∀ b : UInt8, isLetter b = true →
    isSpace b = false ∧ isDigit b = false ∧ b ≠ 0x22 := Bytes.forall_byte (by decide +kernel)

theorem classes_of_isDigit : ∀ b : UInt8, isDigit b = true →
    isSpace b = false ∧ isLetter b = false ∧ b ≠ 0x22 := Bytes.forall_byte (by decide +kernel)

end Latin

/-- A symbol of two bytes is one of the two that begin with an angle and end in an equals sign. -/
theorem Symbol.ofLexeme?_pair_eq_none {b c : UInt8}
    (h : ¬((b = 0x3C ∨ b = 0x3E) ∧ c = 0x3D)) : ofLexeme? [b, c] = none := by
  have htwo : ∀ sign : Symbol, sign.lexeme.length = 2 →
      sign.lexeme = [0x3C, 0x3D] ∨ sign.lexeme = [0x3E, 0x3D] := by
    intro sign
    cases sign <;> decide +kernel
  cases hsign : ofLexeme? [b, c] with
  | none => rfl
  | some sign =>
    have hlexeme := lexeme_of_ofLexeme? hsign
    have hform := htwo sign (by rw [hlexeme]; rfl)
    rw [hlexeme] at hform
    rcases hform with hform | hform
    · obtain ⟨rfl, rfl⟩ : b = 0x3C ∧ c = 0x3D := by simpa using hform
      exact absurd ⟨.inl rfl, rfl⟩ h
    · obtain ⟨rfl, rfl⟩ : b = 0x3E ∧ c = 0x3D := by simpa using hform
      exact absurd ⟨.inr rfl, rfl⟩ h

theorem Symbol.classes_of_ofLexeme? : ∀ b : UInt8, (ofLexeme? [b]).isSome = true →
    Latin.isSpace b = false ∧ Latin.isLetter b = false ∧ Latin.isDigit b = false ∧ b ≠ 0x22 :=
  Bytes.forall_byte (by decide +kernel)

namespace Piece

variable {b : UInt8} {text rest : Bytes} {piece : Piece}

/-! The first byte decides which scanner finds the piece. -/

@[simp]
theorem front?_nil : front? [] = none := rfl

theorem front?_of_isSpace (h : Latin.isSpace b = true) :
    front? (b :: rest) =
      some ⟨none, b :: rest.takeWhile Latin.isSpace, rest.dropWhile Latin.isSpace⟩ := by
  simp [front?, scanners, blanks?, h]

theorem front?_of_isLetter (h : Latin.isLetter b = true) :
    front? (b :: rest) =
      some ⟨some (Word.kind (b :: rest.takeWhile Latin.isWordByte)),
        b :: rest.takeWhile Latin.isWordByte, rest.dropWhile Latin.isWordByte⟩ := by
  obtain ⟨hspace, _, _⟩ := Latin.classes_of_isLetter b h
  simp [front?, scanners, blanks?, word?, h, hspace]

theorem front?_of_isDigit (h : Latin.isDigit b = true) :
    front? (b :: rest) =
      match fraction? (rest.dropWhile Latin.isDigit) with
      | none =>
        some ⟨some .number, b :: rest.takeWhile Latin.isDigit, rest.dropWhile Latin.isDigit⟩
      | some (fraction, after) =>
        some ⟨some .number, b :: rest.takeWhile Latin.isDigit ++ fraction, after⟩ := by
  obtain ⟨hspace, hletter, _⟩ := Latin.classes_of_isDigit b h
  cases hfraction : fraction? (rest.dropWhile Latin.isDigit) <;>
    simp [front?, scanners, blanks?, word?, number?, h, hspace, hletter, hfraction]

theorem front?_quote : front? (0x22 :: rest) = quoted? (0x22 :: rest) := by
  have hsymbol : symbol? (0x22 :: rest) = none := by
    cases rest with
    | nil => decide +kernel
    | cons c rest =>
      have hpair : Symbol.ofLexeme? [0x22, c] = none := Symbol.ofLexeme?_pair_eq_none (by simp)
      have hsingle : Symbol.ofLexeme? [0x22] = none := by decide +kernel
      simp [symbol?, hpair, hsingle]
  have hletter : Latin.isLetter 0x22 = false := by decide
  have hspace : Latin.isSpace 0x22 = false := by decide
  have hdigit : Latin.isDigit 0x22 = false := by decide
  cases hquoted : quoted? (0x22 :: rest) <;>
    simp [front?, scanners, blanks?, word?, number?, hspace, hletter, hdigit, hsymbol, hquoted]

theorem front?_of_other (hspace : Latin.isSpace b = false) (hletter : Latin.isLetter b = false)
    (hdigit : Latin.isDigit b = false) (hquote : b ≠ 0x22) :
    front? (b :: rest) = symbol? (b :: rest) := by
  simp [front?, scanners, blanks?, word?, number?, quoted?, hspace, hletter, hdigit, hquote]

/-- A symbol that no other symbol begins with is cut off alone. -/
theorem front?_of_symbol {sign : Symbol} (h : Symbol.ofLexeme? [b] = some sign) (hless : b ≠ 0x3C)
    (hgreater : b ≠ 0x3E) : front? (b :: rest) = some ⟨some (.symbol sign), [b], rest⟩ := by
  obtain ⟨hspace, hletter, hdigit, hquote⟩ := Symbol.classes_of_ofLexeme? b (by simp [h])
  rw [front?_of_other hspace hletter hdigit hquote]
  cases rest with
  | nil => simp [symbol?, h]
  | cons c rest =>
    have hpair : Symbol.ofLexeme? [b, c] = none :=
      Symbol.ofLexeme?_pair_eq_none (by simp [hless, hgreater])
    simp [symbol?, hpair, h]

/-- The text of a piece has the form of its kind. -/
def HasForm (piece : Piece) : Prop :=
  match piece.kind with
  | none => ∀ b ∈ piece.text, Latin.isSpace b = true
  | some .identifier => Latin.IsName piece.text ∧ Word.kind piece.text = .identifier
  | some .number => Latin.IsNumber piece.text
  | some .quoted => Latin.IsQuoted piece.text
  | some (.keyword word) => Latin.IsName piece.text ∧ Word.kind piece.text = .keyword word
  | some (.symbol sign) => piece.text = sign.lexeme
  | some .illegal | some (.unlisted _ _) => False

theorem all_of_takeWhile_eq {p : UInt8 → Bool} (h : rest.takeWhile p = text) :
    ∀ b ∈ text, p b = true :=
  h ▸ List.all_eq_true.1 List.all_takeWhile

theorem isDigits_of_takeWhile_eq {digits : Bytes}
    (h : rest.takeWhile Latin.isDigit = b :: digits) : Latin.IsDigits (b :: digits) :=
  ⟨by simp, all_of_takeWhile_eq h⟩

theorem blanks?_hasForm (h : blanks? text = some piece) : piece.HasForm := by
  unfold blanks? at h
  split at h
  · simp at h
  · next b blanks hblanks =>
    obtain rfl := Option.some.inj h
    exact all_of_takeWhile_eq hblanks

theorem word?_hasForm (h : word? text = some piece) : piece.HasForm := by
  cases text with
  | nil => simp [word?] at h
  | cons b rest =>
    simp only [word?] at h
    split at h
    · next hletter =>
      obtain rfl := Option.some.inj h
      have hname : Latin.IsName (b :: rest.takeWhile Latin.isWordByte) :=
        ⟨b, _, rfl, hletter, all_of_takeWhile_eq rfl⟩
      rcases Word.kind_cases (b :: rest.takeWhile Latin.isWordByte) with hkind | ⟨word, hkind⟩
      · simp [HasForm, hkind, hname]
      · simp [HasForm, hkind, hname]
    · simp at h

theorem number?_hasForm (h : number? text = some piece) : piece.HasForm := by
  unfold number? at h
  split at h
  · simp at h
  · next digit digits hdigits =>
    have hwhole := isDigits_of_takeWhile_eq hdigits
    split at h
    · obtain rfl := Option.some.inj h
      exact .inl hwhole
    · next fraction after hfraction =>
      obtain rfl := Option.some.inj h
      generalize text.dropWhile Latin.isDigit = tail at hfraction
      cases tail with
      | nil => simp [fraction?] at hfraction
      | cons b tail =>
        simp only [fraction?] at hfraction
        split at hfraction
        · next hdot =>
          split at hfraction
          · simp at hfraction
          · next first others hothers =>
            simp only [Option.some.injEq, Prod.mk.injEq] at hfraction
            rw [← hfraction.1, hdot]
            exact .inr ⟨_, _, hwhole, isDigits_of_takeWhile_eq hothers, rfl⟩
        · simp at hfraction

theorem quoted?_hasForm (h : quoted? text = some piece) : piece.HasForm := by
  cases text with
  | nil => simp [quoted?] at h
  | cons b rest =>
    simp only [quoted?] at h
    split at h
    · next hquote =>
      split at h
      · simp at h
      · next closing after hafter =>
        obtain rfl := Option.some.inj h
        have hclosing := List.head?_dropWhile_not (· != 0x22) rest
        rw [hafter] at hclosing
        have hinner : ∀ c ∈ rest.takeWhile (· != 0x22), c ≠ 0x22 := by
          intro c hc
          simpa using all_of_takeWhile_eq rfl c hc
        obtain rfl : closing = 0x22 := by simpa using hclosing
        exact ⟨_, hinner, by rw [hquote]⟩
    · simp at h

theorem symbol?_hasForm (h : symbol? text = some piece) : piece.HasForm := by
  unfold symbol? at h
  split at h
  · simp at h
  · obtain ⟨sign, hsign, rfl⟩ := Option.map_eq_some_iff.1 h
    exact (Symbol.lexeme_of_ofLexeme? hsign).symm
  · split at h
    · next sign hsign =>
      obtain rfl := Option.some.inj h
      exact (Symbol.lexeme_of_ofLexeme? hsign).symm
    · obtain ⟨sign, hsign, rfl⟩ := Option.map_eq_some_iff.1 h
      exact (Symbol.lexeme_of_ofLexeme? hsign).symm

/-- Every piece that scanning cuts off has the form of its kind. -/
theorem front?_hasForm (h : front? text = some piece) : piece.HasForm := by
  obtain ⟨scanner, hmem, hfound⟩ := List.exists_of_findSome?_eq_some h
  simp only [scanners, List.mem_cons, List.not_mem_nil, or_false] at hmem
  rcases hmem with rfl | rfl | rfl | rfl | rfl
  · exact blanks?_hasForm hfound
  · exact word?_hasForm hfound
  · exact number?_hasForm hfound
  · exact quoted?_hasForm hfound
  · exact symbol?_hasForm hfound

theorem isLexical_of_mem_tokens {position : Position} {token : Token}
    (h : front? text = some piece) (htoken : token ∈ piece.tokens position) :
    token.IsLexical := by
  have hform := front?_hasForm h
  cases hkind : piece.kind with
  | none => simp [tokens, hkind] at htoken
  | some kind =>
    simp only [tokens, hkind, List.mem_singleton] at htoken
    subst htoken
    cases kind <;> simp_all [HasForm, Token.IsLexical, Kind.hasPayload]

/-- What begins with no blank is a token. -/
theorem kind_ne_none (h : front? (b :: rest) = some piece) (hspace : ¬Latin.isSpace b = true) :
    piece.kind ≠ none := by
  intro hkind
  obtain ⟨hne, happend⟩ := front?_fronts h
  have hform := front?_hasForm h
  simp only [HasForm, hkind] at hform
  cases htext : piece.text with
  | nil => exact hne htext
  | cons c text =>
    rw [htext, List.cons_append, List.cons.injEq] at happend
    exact hspace (happend.1 ▸ hform c (by simp [htext]))

/-- The same piece of a text that goes on. -/
def extend (piece : Piece) (more : Bytes) : Piece := { piece with rest := piece.rest ++ more }

theorem isWordByte_of_isDigit {b : UInt8} (h : Latin.isDigit b = true) :
    Latin.isWordByte b = true := by
  simp [Latin.isWordByte, h]

/-- A text that is apart adds no digits to a fraction. -/
theorem fraction?_append_of_apart {more : Bytes} (h : Latin.Apart text more) :
    fraction? (text ++ more) =
      (fraction? text).map fun found => (found.1, found.2 ++ more) := by
  cases text with
  | nil =>
    rw [Latin.apart_nil] at h
    cases more with
    | nil => rfl
    | cons c more =>
      have hc : c ≠ 0x2E := by
        rintro rfl
        simp [Latin.breaks] at h
      simp [fraction?, hc]
  | cons b text =>
    by_cases hb : b = 0x2E
    · subst hb
      have hrun := ((show Latin.Apart ([0x2E] ++ text) more from h).of_append (by decide)).run
        (fun _ => isWordByte_of_isDigit)
      simp only [List.cons_append, fraction?, hrun]
      cases text.takeWhile Latin.isDigit <;> simp
    · simp [fraction?, hb]

theorem front?_append_of_isLetter {more : Bytes} (hletter : Latin.isLetter b = true)
    (h : front? (b :: rest) = some piece) (hapart : Latin.Apart (b :: rest) more) :
    front? (b :: rest ++ more) = some (piece.extend more) := by
  have hword := Latin.isWordByte_of_isLetter hletter
  have hrun := hapart.run fun _ => id
  simp only [List.cons_append, List.takeWhile_cons, List.dropWhile_cons, hword, ite_true,
    List.cons.injEq, true_and] at hrun
  rw [front?_of_isLetter hletter, Option.some.injEq] at h
  rw [List.cons_append, front?_of_isLetter hletter, hrun.1, hrun.2, ← h]
  rfl

theorem front?_append_of_isDigit {more : Bytes} (hdigit : Latin.isDigit b = true)
    (h : front? (b :: rest) = some piece) (hapart : Latin.Apart (b :: rest) more) :
    front? (b :: rest ++ more) = some (piece.extend more) := by
  have hrun := hapart.run fun _ => isWordByte_of_isDigit
  simp only [List.cons_append, List.takeWhile_cons, List.dropWhile_cons, hdigit, ite_true,
    List.cons.injEq, true_and] at hrun
  have hafter : Latin.Apart (rest.dropWhile Latin.isDigit) more := by
    have hcut : b :: rest.takeWhile Latin.isDigit ++ rest.dropWhile Latin.isDigit = b :: rest := by
      rw [List.cons_append, List.takeWhile_append_dropWhile]
    refine Latin.Apart.of_append (hcut ▸ hapart) (Latin.endsBlank_of_isWordByte ?_)
    intro c hc
    rcases List.mem_cons.1 hc with rfl | hc
    · exact isWordByte_of_isDigit hdigit
    · exact isWordByte_of_isDigit (List.all_eq_true.1 List.all_takeWhile c hc)
  rw [front?_of_isDigit hdigit] at h
  rw [List.cons_append, front?_of_isDigit hdigit, hrun.1, hrun.2, fraction?_append_of_apart hafter]
  cases hfraction : fraction? (rest.dropWhile Latin.isDigit) with
  | none =>
    simp only [hfraction, Option.some.injEq] at h
    rw [← h]
    rfl
  | some found =>
    simp only [hfraction, Option.some.injEq] at h
    rw [← h]
    rfl

theorem front?_append_of_quote {more : Bytes} (h : front? (0x22 :: rest) = some piece) :
    front? (0x22 :: rest ++ more) = some (piece.extend more) := by
  rw [front?_quote] at h
  rw [List.cons_append, front?_quote]
  simp only [quoted?, ite_true] at h ⊢
  cases hclosing : rest.dropWhile (· != 0x22) with
  | nil => simp [hclosing] at h
  | cons closing after =>
    -- The closing quote stands in the first text, so both runs end there.
    have hdrop : (rest ++ more).dropWhile (· != 0x22) = closing :: after ++ more := by
      simp [List.dropWhile_append, hclosing]
    have htake : (rest ++ more).takeWhile (· != 0x22) = rest.takeWhile (· != 0x22) := by
      have hcut := List.takeWhile_append_dropWhile (p := (· != 0x22)) (l := rest)
      have hlength := congrArg List.length hcut
      rw [hclosing, List.length_append, List.length_cons] at hlength
      rw [List.takeWhile_append, if_neg (by omega)]
    rw [hclosing] at h
    simp only [Option.some.injEq] at h
    rw [hdrop, htake, ← h]
    rfl

/-- A text that is apart makes no longer symbol of the one before it. -/
theorem symbol?_append {more : Bytes} (h : symbol? (b :: rest) = some piece)
    (hspace : Latin.isSpace b = false) (hapart : Latin.Apart (b :: rest) more) :
    symbol? (b :: rest ++ more) = some (piece.extend more) := by
  cases rest with
  | nil =>
    have hbreaks := (show Latin.Apart ([b] ++ []) more from hapart).of_append
      (by simp [Latin.endsBlank, hspace])
    rw [Latin.apart_nil] at hbreaks
    obtain ⟨sign, hsign, rfl⟩ := Option.map_eq_some_iff.1 h
    cases more with
    | nil => simp [symbol?, hsign, extend]
    | cons c more =>
      have hpair : Symbol.ofLexeme? [b, c] = none := by
        apply Symbol.ofLexeme?_pair_eq_none
        rintro ⟨_, rfl⟩
        simp [Latin.breaks] at hbreaks
      simp [symbol?, hpair, hsign, extend]
  | cons c rest =>
    simp only [symbol?, List.cons_append] at h ⊢
    cases hpair : Symbol.ofLexeme? [b, c] with
    | some sign =>
      simp only [hpair, Option.some.injEq] at h
      rw [← h]
      rfl
    | none =>
      simp only [hpair] at h
      obtain ⟨sign, hsign, rfl⟩ := Option.map_eq_some_iff.1 h
      simp [hsign, extend]

/-- A token at the front of a text is still there when the text goes on apart from it. -/
theorem front?_append (h : front? text = some piece) (hkind : piece.kind ≠ none) {more : Bytes}
    (hapart : Latin.Apart text more) : front? (text ++ more) = some (piece.extend more) := by
  cases text with
  | nil => simp at h
  | cons b rest =>
    by_cases hspace : Latin.isSpace b = true
    · rw [front?_of_isSpace hspace, Option.some.injEq] at h
      exact absurd (by rw [← h]) hkind
    by_cases hletter : Latin.isLetter b = true
    · exact front?_append_of_isLetter hletter h hapart
    by_cases hdigit : Latin.isDigit b = true
    · exact front?_append_of_isDigit hdigit h hapart
    by_cases hquote : b = 0x22
    · subst hquote
      exact front?_append_of_quote h
    simp only [Bool.not_eq_true] at hspace hletter hdigit
    rw [front?_of_other hspace hletter hdigit hquote] at h
    rw [List.cons_append, front?_of_other hspace hletter hdigit hquote]
    exact symbol?_append h hspace hapart

end Piece

namespace Scan

def withoutPlaces (scan : Scan) : Scan := ⟨scan.tokens.map Token.withoutPlace, scan.rest⟩

/-- What a text is scanned as, wherever it stands. -/
def contents (text : Bytes) : Scan := (ofSource text).withoutPlaces

def prepend (tokens : List Token) (scan : Scan) : Scan := ⟨tokens ++ scan.tokens, scan.rest⟩

@[simp]
theorem prepend_nil (scan : Scan) : prepend [] scan = scan := rfl

@[simp]
theorem prepend_prepend (first second : List Token) (scan : Scan) :
    prepend first (prepend second scan) = prepend (first ++ second) scan := by
  simp [prepend]

theorem scanFrom_of_none {text : Bytes} (h : Piece.front? text = none) (position : Position) :
    scanFrom position text = ⟨[], text⟩ := by
  rw [scanFrom]
  split
  · rfl
  · simp_all

theorem scanFrom_of_some {text : Bytes} {piece : Piece} (h : Piece.front? text = some piece)
    (position : Position) :
    scanFrom position text =
      (scanFrom (position.after piece.text) piece.rest).prepend (piece.tokens position) := by
  rw [scanFrom]
  split
  · simp_all
  · next found hfound =>
    obtain rfl : found = piece := Option.some.inj (hfound.symm.trans h)
    rfl

theorem withoutPlaces_prepend_tokens (piece : Piece) (position : Position) (scan : Scan) :
    (scan.prepend (piece.tokens position)).withoutPlaces =
      scan.withoutPlaces.prepend (piece.tokens {}) := by
  cases hkind : piece.kind <;>
    simp [withoutPlaces, prepend, Piece.tokens, Token.withoutPlace, hkind]

/-- Where a text stands changes nothing but the places of its tokens. -/
theorem withoutPlaces_scanFrom (position : Position) (text : Bytes) :
    (scanFrom position text).withoutPlaces = contents text := by
  induction hlength : text.length using Nat.strongRecOn generalizing position text with
  | ind length ih =>
    cases h : Piece.front? text with
    | none => rw [contents, ofSource, scanFrom_of_none h, scanFrom_of_none h]
    | some piece =>
      have hrest := Piece.rest_length_lt h
      rw [contents, ofSource, scanFrom_of_some h, scanFrom_of_some h, withoutPlaces_prepend_tokens,
        withoutPlaces_prepend_tokens, ih _ (hlength ▸ hrest) _ _ rfl,
        ih _ (hlength ▸ hrest) _ _ rfl]

/-- Scanning stops where nothing can be cut off. -/
theorem contents_of_none {text : Bytes} (h : Piece.front? text = none) :
    contents text = ⟨[], text⟩ := by
  rw [contents, ofSource, scanFrom_of_none h]
  rfl

theorem contents_of_some {text : Bytes} {piece : Piece} (h : Piece.front? text = some piece) :
    contents text = (contents piece.rest).prepend (piece.tokens {}) := by
  rw [contents, ofSource, scanFrom_of_some h, withoutPlaces_prepend_tokens, withoutPlaces_scanFrom]

/-- Blanks at the front of a text change nothing but places. -/
theorem contents_dropWhile (text : Bytes) :
    contents (text.dropWhile Latin.isSpace) = contents text := by
  cases text with
  | nil => rfl
  | cons b rest =>
    by_cases hspace : Latin.isSpace b = true
    · rw [contents_of_some (Piece.front?_of_isSpace hspace), List.dropWhile_cons_of_pos hspace]
      rfl
    · rw [List.dropWhile_cons_of_neg hspace]

theorem contents_cons_of_isSpace {b : UInt8} (h : Latin.isSpace b = true) (rest : Bytes) :
    contents (b :: rest) = contents rest := by
  rw [← contents_dropWhile, List.dropWhile_cons_of_pos h, contents_dropWhile]

/-- Two texts that are apart are scanned one after the other. -/
theorem contents_append {text more : Bytes} {tokens : List Token}
    (h : contents text = ⟨tokens, []⟩) (hapart : Latin.Apart text more) :
    contents (text ++ more) = (contents more).prepend tokens := by
  induction hlength : text.length using Nat.strongRecOn generalizing text tokens with
  | ind length ih =>
    -- What follows the first piece is shorter, and when anything does, it ends as the text does.
    have hsuffix : ∀ {front rest : Bytes} {after : List Token}, front ≠ [] → front ++ rest = text →
        contents rest = ⟨after, []⟩ → contents (rest ++ more) = (contents more).prepend after := by
      rintro front rest after hfront rfl hrest
      by_cases hnil : rest = []
      · subst hnil
        rw [contents_of_none Piece.front?_nil, Scan.mk.injEq] at hrest
        rw [← hrest.1]
        rfl
      · have hshorter : rest.length < length := by
          have := List.length_pos_iff.2 hfront
          rw [← hlength, List.length_append]
          omega
        exact ih _ hshorter hrest (hapart.of_append_of_ne_nil hnil) rfl
    cases text with
    | nil =>
      rw [contents_of_none Piece.front?_nil, Scan.mk.injEq] at h
      rw [← h.1]
      rfl
    | cons b rest =>
      by_cases hspace : Latin.isSpace b = true
      · rw [contents_cons_of_isSpace hspace] at h
        rw [List.cons_append, contents_cons_of_isSpace hspace]
        exact hsuffix (List.cons_ne_nil b []) rfl h
      · cases hfront : Piece.front? (b :: rest) with
        | none =>
          rw [contents_of_none hfront] at h
          simp at h
        | some piece =>
          obtain ⟨hne, happend⟩ := Piece.front?_fronts hfront
          have hkind : piece.kind ≠ none := Piece.kind_ne_none hfront hspace
          rw [contents_of_some hfront] at h
          have hrest : contents piece.rest = ⟨(contents piece.rest).tokens, []⟩ := by
            have hrest : (contents piece.rest).rest = [] := congrArg Scan.rest h
            rw [← hrest]
          have htokens : piece.tokens {} ++ (contents piece.rest).tokens = tokens :=
            congrArg Scan.tokens h
          rw [contents_of_some (Piece.front?_append hfront hkind hapart), ← htokens]
          show prepend (piece.tokens {}) (contents (piece.rest ++ more)) = _
          rw [hsuffix hne happend hrest, prepend_prepend]

/-- A text that is one piece is scanned as the token of that piece. -/
theorem contents_of_piece {text : Bytes} {kind : Kind}
    (h : Piece.front? text = some ⟨some kind, text, []⟩) :
    contents text = ⟨[Token.unplaced kind text], []⟩ := by
  rw [contents_of_some h, contents_of_none Piece.front?_nil]
  rfl

theorem takeWhile_dropWhile_append {p : UInt8 → Bool} {run : Bytes} (rest : Bytes)
    (hrun : ∀ b ∈ run, p b = true) (hrest : ∀ b ∈ rest.head?, p b = false) :
    (run ++ rest).takeWhile p = run ∧ (run ++ rest).dropWhile p = rest := by
  rw [List.takeWhile_append_of_pos hrun, List.dropWhile_append_of_pos hrun]
  cases rest with
  | nil => simp
  | cons b rest => simp [hrest b rfl]

/-- A name is one piece. -/
theorem front?_name {text : Bytes} (h : Latin.IsName text) :
    Piece.front? text = some ⟨some (Word.kind text), text, []⟩ := by
  obtain ⟨b, rest, rfl, hletter, hrest⟩ := h
  have hrun := takeWhile_dropWhile_append [] hrest (by simp)
  rw [List.append_nil] at hrun
  rw [Piece.front?_of_isLetter hletter, hrun.1, hrun.2]

theorem contents_name {text : Bytes} (h : Latin.IsName text) :
    contents text = ⟨[Token.unplaced (Word.kind text) text], []⟩ :=
  contents_of_piece (front?_name h)

theorem contents_number {text : Bytes} (h : Latin.IsNumber text) :
    contents text = ⟨[Token.unplaced .number text], []⟩ := by
  apply contents_of_piece
  rcases h with ⟨hne, hdigits⟩ | ⟨whole, fraction, ⟨hne, hwhole⟩, ⟨hfne, hfraction⟩, rfl⟩
  · obtain ⟨b, digits, rfl⟩ := List.exists_cons_of_ne_nil hne
    obtain ⟨hb, hdigits⟩ := List.forall_mem_cons.1 hdigits
    have hrun := takeWhile_dropWhile_append [] hdigits (by simp)
    rw [List.append_nil] at hrun
    rw [Piece.front?_of_isDigit hb, hrun.1, hrun.2]
    rfl
  · obtain ⟨b, digits, rfl⟩ := List.exists_cons_of_ne_nil hne
    obtain ⟨c, decimals, rfl⟩ := List.exists_cons_of_ne_nil hfne
    obtain ⟨hb, hdigits⟩ := List.forall_mem_cons.1 hwhole
    have hrun := takeWhile_dropWhile_append (0x2E :: c :: decimals) hdigits (by rintro _ ⟨⟩; rfl)
    have hdecimals := takeWhile_dropWhile_append [] hfraction (by simp)
    rw [List.append_nil] at hdecimals
    rw [List.cons_append, Piece.front?_of_isDigit hb, hrun.1, hrun.2]
    simp [Piece.fraction?, hdecimals]

theorem contents_quoted {text : Bytes} (h : Latin.IsQuoted text) :
    contents text = ⟨[Token.unplaced .quoted text], []⟩ := by
  obtain ⟨inner, hinner, rfl⟩ := h
  have hrun := takeWhile_dropWhile_append (p := (· != 0x22)) [0x22] (by simpa using hinner)
    (by simp)
  apply contents_of_piece
  rw [List.cons_append, Piece.front?_quote]
  simp [Piece.quoted?, hrun]

theorem contents_symbol (sign : Symbol) :
    contents sign.lexeme = ⟨[Token.unplaced (.symbol sign) []], []⟩ := by
  cases sign <;> decide +kernel

/-- The canonical text of a token is scanned as that token. -/
theorem contents_lexeme {token : Token} (h : token.IsLexical) :
    contents token.lexeme = ⟨[Token.unplaced token.kind token.lexeme], []⟩ := by
  cases hkind : token.kind with
  | identifier =>
    simp only [Token.IsLexical, hkind] at h
    simpa [Token.lexeme, hkind, Kind.hasPayload, h.2] using contents_name h.1
  | number =>
    simp only [Token.IsLexical, hkind] at h
    simpa [Token.lexeme, hkind, Kind.hasPayload] using contents_number h
  | quoted =>
    simp only [Token.IsLexical, hkind] at h
    simpa [Token.lexeme, hkind, Kind.hasPayload] using contents_quoted h
  | keyword word =>
    obtain ⟨hname, hkeyword⟩ := Word.keyword_lexeme word
    simpa [Token.lexeme, hkind, Kind.hasPayload, Kind.lexeme, hkeyword] using contents_name hname
  | symbol sign =>
    simpa [Token.lexeme, hkind, Kind.hasPayload, Kind.lexeme, Token.unplaced] using
      contents_symbol sign
  | illegal => simp [Token.IsLexical, hkind] at h
  | unlisted code outside => simp [Token.IsLexical, hkind] at h

/-- Every token of a source has the form of its kind. -/
theorem isLexical_of_mem_tokens {position : Position} {text : Bytes} {token : Token}
    (h : token ∈ (scanFrom position text).tokens) : token.IsLexical := by
  induction hlength : text.length using Nat.strongRecOn generalizing position text with
  | ind length ih =>
    cases hfront : Piece.front? text with
    | none => simp [scanFrom_of_none hfront] at h
    | some piece =>
      rw [scanFrom_of_some hfront] at h
      rcases List.mem_append.1 h with h | h
      · exact Piece.isLexical_of_mem_tokens hfront h
      · exact ih _ (hlength ▸ Piece.rest_length_lt hfront) h rfl

end Scan

end LegacyBasic
