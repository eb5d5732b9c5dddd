import LegacyBasic.Proofs.ConcreteSyntax
import LegacyBasic.Proofs.Scanning
import LegacyBasic.Statement.Render

/-!
Printing and scanning.  The legacy form of a statement is scanned as its concrete form, whatever
follows it: every word ends where the writer puts a blank, a line feed or a symbol, and no name
turns into a keyword when it is made small.  In the first line of a callable the separator after the
last argument is cut off, and no other byte.
-/

namespace LegacyBasic

/-- The literal and the canonical text of a token are the same where a literal is kept. -/
theorem Token.unplaced_lexeme (token : Token) :
    unplaced token.kind token.lexeme = unplaced token.kind token.literal := by
  cases hpayload : token.kind.hasPayload <;> simp [unplaced, lexeme, hpayload]

/-- The token as it is scanned from its canonical text. -/
def Token.verbatim (token : Token) : Token := unplaced token.kind token.literal

/-- The keyword or symbol of this kind, at no place. -/
def Token.ofMark (kind : Kind) : Token := unplaced kind []

namespace Style

/-- A token as it is scanned from its written form: identifiers are small unless their case is
preserved, numbers and texts stay as they are, and keywords have no literal. -/
def printed (style : Style) (token : Token) : Token :=
  .unplaced token.kind <|
    if token.kind = .identifier ∧ style.preserveCase = false then Latin.lower token.literal
    else token.literal

/-- An optional token after its mark, as scanned. -/
def printedAfter (style : Style) (mark : Kind) : Option Token → List Token
  | none => []
  | some token => [.ofMark mark, style.printed token]

end Style

def Field.printed (style : Style) (field : Field) : List Token :=
  [style.printed field.name, .ofMark (.keyword .asWord), style.printed field.kind]

def Enumerator.printed (style : Style) (member : Enumerator) : List Token :=
  style.printed member.name :: style.printedAfter (.symbol .equals) member.value

/-- An argument as scanned, without a comma. -/
def Argument.printed (style : Style) (argument : Argument) : List Token :=
  argument.modifier.toList.map style.printed ++
    [style.printed argument.name, .ofMark (.keyword .asWord), style.printed argument.kind]

/-- The first line of a callable as scanned: one comma stands between neighbouring arguments and
none after the last. -/
def Style.printedSignature (style : Style) (scope : Token) (word : Keyword) (name : Token)
    (arguments : List Argument) : List Token :=
  [style.printed scope, .ofMark (.keyword word), style.printed name,
    .ofMark (.symbol .leftParen)] ++
  List.intercalate [.ofMark (.symbol .comma)] (arguments.map (Argument.printed style)) ++
  [.ofMark (.symbol .rightParen)]

namespace Statement

/-- The name that stands for a statement with no legacy form. -/
def placeholderToken : Token := .unplaced .identifier "__POLYFILL__"

def printedClosing (word : Keyword) : List Token :=
  [.ofMark (.keyword .endWord), .ofMark (.keyword word)]

mutual

/-- The concrete form of a statement as scanned from its legacy form.  The names of attributes keep
their case in every style. -/
def printed (style : Style) : Statement → List Token
  | .record name fields =>
    [.ofMark (.keyword .typeWord), style.printed name] ++ fields.flatMap (Field.printed style) ++
      printedClosing .typeWord
  | .field member => member.printed style
  | .enumeration scope name members =>
    scope.toList.map style.printed ++ [.ofMark (.keyword .enumWord), style.printed name] ++
      members.flatMap (Enumerator.printed style) ++ printedClosing .enumWord
  | .enumerator member => member.printed style
  | .variableDecl scope name kind =>
    [style.printed scope, style.printed name, .ofMark (.keyword .asWord), style.printed kind]
  | .constantDecl scope name kind length value =>
    [style.printed scope, .ofMark (.keyword .constWord), style.printed name] ++
      style.printedAfter (.keyword .asWord) kind ++
      style.printedAfter (.symbol .asterisk) length ++
      [.ofMark (.symbol .equals), style.printed value]
  | .subroutine scope name arguments body =>
    style.printedSignature scope .subWord name arguments ++ printedAll style body ++
      printedClosing .subWord
  | .function scope name arguments returns body =>
    style.printedSignature scope .functionWord name arguments ++
      style.printedAfter (.keyword .asWord) returns ++ printedAll style body ++
      printedClosing .functionWord
  | .argument parameter => parameter.printed style ++ [.ofMark (.symbol .comma)]
  | .exitLine block => [.ofMark (.keyword .exitWord), style.printed block]
  | .assignment left right =>
    [style.printed left, .ofMark (.symbol .equals), style.printed right]
  | .optionLine config value =>
    [.ofMark (.keyword .optionWord), style.printed config] ++ value.toList.map style.printed
  | .attributeLine name value =>
    [.ofMark (.keyword .attributeWord), name.verbatim, .ofMark (.symbol .equals),
      style.printed value]
  | .returnLine _ => [placeholderToken]
  | .absent => [placeholderToken]

def printedAll (style : Style) : List Statement → List Token
  | [] => []
  | statement :: rest => printed style statement ++ printedAll style rest

end

end Statement

namespace Scan

/-- A text that is scanned as these tokens, whatever follows it. -/
def Scans (text : Bytes) (tokens : List Token) : Prop :=
  ∀ rest, contents (text ++ rest) = (contents rest).prepend tokens

/-- A text that ends the word before it and is scanned as these tokens, whatever follows it. -/
structure Glue (text : Bytes) (tokens : List Token) : Prop where
  breaks : ∀ rest, Latin.breaks (text ++ rest) = true
  scans : Scans text tokens

variable {text more : Bytes} {tokens others : List Token} {style : Style}

theorem Scans.nil : Scans [] [] := fun _ => rfl

theorem Scans.append (h : Scans text tokens) (hmore : Scans more others) :
    Scans (text ++ more) (tokens ++ others) := by
  intro rest
  rw [List.append_assoc, h, hmore, prepend_prepend]

theorem Glue.append (h : Glue text tokens) (hmore : Scans more others) :
    Glue (text ++ more) (tokens ++ others) :=
  ⟨fun rest => by rw [List.append_assoc]; exact h.breaks _, h.scans.append hmore⟩

/-- The parts of a row are scanned one after the other. -/
theorem Scans.flatMap {α : Type} {items : List α} {write : α → Bytes} {read : α → List Token}
    (h : ∀ item ∈ items, Scans (write item) (read item)) :
    Scans (items.flatMap write) (items.flatMap read) := by
  induction items with
  | nil => exact .nil
  | cons item items ih =>
    obtain ⟨hitem, hitems⟩ := List.forall_mem_cons.1 h
    exact hitem.append (ih hitems)

/-- A text that ends in a blank runs into nothing. -/
theorem Scans.of_endsBlank (h : contents text = ⟨tokens, []⟩ ∧ Latin.endsBlank text = true) :
    Scans text tokens :=
  fun _ => contents_append h.1 (.inr h.2)

theorem Glue.of_endsBlank {b : UInt8} (hb : Latin.breaks [b] = true)
    (h : contents (b :: text) = ⟨tokens, []⟩ ∧ Latin.endsBlank (b :: text) = true) :
    Glue (b :: text) tokens :=
  ⟨fun _ => hb, .of_endsBlank h⟩

theorem glue_newline : Glue "\n" [] := .of_endsBlank (by decide) (by decide +kernel)

theorem glue_blank : Glue " " [] := .of_endsBlank (by decide) (by decide +kernel)

theorem glue_comma : Glue ", " [.ofMark (.symbol .comma)] :=
  .of_endsBlank (by decide) (by decide +kernel)

/-- A symbol that no other symbol begins with is read alone. -/
theorem glue_symbol {b : UInt8} {sign : Symbol} (hb : Latin.breaks [b] = true)
    (h : Symbol.ofLexeme? [b] = some sign) (hless : b ≠ 0x3C) (hgreater : b ≠ 0x3E) :
    Glue [b] [.ofMark (.symbol sign)] := by
  refine ⟨fun _ => hb, fun rest => ?_⟩
  rw [List.cons_append, contents_of_some (Piece.front?_of_symbol h hless hgreater)]
  rfl

theorem glue_rightParen : Glue ")" [.ofMark (.symbol .rightParen)] :=
  glue_symbol (by decide) (by decide +kernel) (by decide) (by decide)

theorem glue_leftParen : Glue "(" [.ofMark (.symbol .leftParen)] :=
  glue_symbol (by decide) (by decide +kernel) (by decide) (by decide)

/-- The written form of a token is scanned as that token. -/
theorem contents_word (style : Style) {token : Token} (h : token.IsLexical) :
    contents (style.word token) = ⟨[style.printed token], []⟩ := by
  by_cases hsmall : token.kind = .identifier ∧ style.preserveCase = false
  · have hword : style.word token = Latin.lower token.literal := if_pos hsmall
    simp only [Token.IsLexical, hsmall.1] at h
    rw [hword, contents_name h.1.lower, Word.kind_lower h.1, h.2, Style.printed, if_pos hsmall,
      hsmall.1]
  · have hword : style.word token = token.lexeme := if_neg hsmall
    rw [hword, contents_lexeme h, Style.printed, if_neg hsmall, Token.unplaced_lexeme]

/-- A word ends where the glue after it begins. -/
theorem scans_word (style : Style) {token : Token} (h : token.IsLexical)
    (hglue : Glue text tokens) :
    Scans (style.word token ++ text) (style.printed token :: tokens) := by
  intro rest
  rw [List.append_assoc, contents_append (contents_word style h) (.inl (hglue.breaks rest)),
    hglue.scans, prepend_prepend]
  rfl

/-- A keyword or a symbol between blanks. -/
theorem glue_mark (kind : Kind) (h : (Token.ofMark kind).IsLexical)
    (hpayload : kind.hasPayload = false) :
    Glue (Bytes.concat [" ", kind.lexeme, " "]) [.ofMark kind] := by
  have hword : ({} : Style).word (.ofMark kind) = kind.lexeme := by
    have hkind : kind ≠ .identifier := by
      rintro rfl
      simp [Kind.hasPayload] at hpayload
    simp [Style.word, Token.ofMark, Token.lexeme, hkind, hpayload]
  have hprinted : ({} : Style).printed (.ofMark kind) = .ofMark kind := by
    simp [Style.printed, Token.ofMark, Token.unplaced, hpayload]
  have hpart := glue_blank.append (scans_word {} h glue_blank)
  rw [hword, hprinted] at hpart
  simpa [Bytes.concat] using hpart

theorem glue_as : Glue " as " [.ofMark (.keyword .asWord)] :=
  glue_mark (.keyword .asWord) trivial rfl

theorem glue_const : Glue " const " [.ofMark (.keyword .constWord)] :=
  glue_mark (.keyword .constWord) trivial rfl

theorem glue_equals : Glue " = " [.ofMark (.symbol .equals)] :=
  glue_mark (.symbol .equals) trivial rfl

theorem glue_asterisk : Glue " * " [.ofMark (.symbol .asterisk)] :=
  glue_mark (.symbol .asterisk) trivial rfl

theorem scans_leading (style : Style) {token : Option Token}
    (h : ∀ word ∈ token, word.IsLexical) :
    Scans (style.leading token) (token.toList.map style.printed) := by
  cases token with
  | none => exact .nil
  | some word => exact scans_word style (h word rfl) glue_blank

/-- An optional part stands between two pieces of glue. -/
theorem glue_trailing (style : Style) {mark : Bytes} {kind : Kind} {token : Option Token}
    (h : ∀ word ∈ token, word.IsLexical) (hmark : Glue mark [.ofMark kind])
    (hglue : Glue text tokens) :
    Glue (style.trailing mark token ++ text) (style.printedAfter kind token ++ tokens) := by
  cases token with
  | none => exact hglue
  | some word =>
    have hpart := hmark.append (scans_word style (h word rfl) hglue)
    simpa [Style.trailing, Style.printedAfter] using hpart

theorem scans_field (style : Style) {field : Field}
    (h : ∀ token ∈ Slot.parts field.slots, token.IsLexical) :
    Scans (field.render style) (field.printed style) := by
  simp only [Field.slots, Slot.parts_part, Slot.parts_mark, Slot.parts_nil, List.forall_mem_cons]
    at h
  have hline := (scans_word style h.1 glue_as).append (scans_word style h.2.1 glue_newline)
  simpa [Field.render, Field.printed, Bytes.concat] using hline

theorem scans_enumerator (style : Style) {member : Enumerator}
    (h : ∀ token ∈ Slot.parts member.slots, token.IsLexical) :
    Scans (member.render style) (member.printed style) := by
  simp only [Enumerator.slots, Slot.parts_part, Slot.parts_following, List.forall_mem_cons,
    Option.mem_toList] at h
  have hline := scans_word style h.1 (glue_trailing style h.2 glue_equals glue_newline)
  simpa [Enumerator.render, Enumerator.printed, Bytes.concat] using hline

end Scan

/-- An argument without the separator after it. -/
def Argument.written (style : Style) (argument : Argument) : Bytes :=
  Bytes.concat [style.leading argument.modifier, style.word argument.name, " as ",
    style.word argument.kind]

theorem Argument.render_eq (style : Style) (argument : Argument) :
    argument.render style = argument.written style ++ ", " := by
  simp [Argument.render, Argument.written, Bytes.concat]

/-- The arguments of a callable with a separator after each are the joined ones with a separator
at the end. -/
theorem Argument.flatMap_render (style : Style) {arguments : List Argument}
    (h : arguments ≠ []) :
    arguments.flatMap (Argument.render style) =
      Bytes.join ", " (arguments.map (Argument.written style)) ++ ", " := by
  induction arguments with
  | nil => exact absurd rfl h
  | cons argument arguments ih =>
    cases arguments with
    | nil => simp [Argument.render_eq]
    | cons next arguments =>
      rw [List.flatMap_cons, ih (by simp), Argument.render_eq]
      simp [Bytes.join]

/-- Of the joined arguments all but the last are followed by their own separator. -/
theorem Argument.join_written (style : Style) (front : List Argument) (last : Argument) :
    Bytes.join ", " ((front ++ [last]).map (Argument.written style)) =
      front.flatMap (Argument.render style) ++ last.written style := by
  have hwhole := Argument.flatMap_render style (List.concat_ne_nil last front)
  rw [List.flatMap_append, List.flatMap_singleton, Argument.render_eq, ← List.append_assoc]
    at hwhole
  exact (List.append_cancel_right hwhole).symm

/-- The first line of a callable up to its arguments. -/
def Style.opening (style : Style) (scope : Token) (keyword : Bytes) (name : Token) : Bytes :=
  Bytes.concat [style.word scope, " ", keyword, " ", style.word name, "("]

/-- A separator is cut off by its length, whatever the text before it ends in. -/
theorem Bytes.take_before_separator (kept : Bytes) :
    (kept ++ ", ").take ((kept ++ ", ").length - 2) = kept := by
  have hlength : (", " : Bytes).length = 2 := rfl
  rw [List.length_append, hlength, Nat.add_sub_cancel, List.take_left]

/-- Cutting the last separator off leaves one between neighbouring arguments. -/
theorem Style.signature_eq (style : Style) (scope : Token) (keyword : Bytes) (name : Token)
    (arguments : List Argument) :
    style.signature scope keyword name arguments =
      style.opening scope keyword name ++
        Bytes.join ", " (arguments.map (Argument.written style)) ++ ")" := by
  cases arguments with
  | nil => simp [Style.signature, Style.opening, Bytes.concat]
  | cons argument arguments =>
    rw [Style.signature, Argument.flatMap_render style (List.cons_ne_nil argument arguments)]
    generalize Bytes.join ", " ((argument :: arguments).map (Argument.written style)) = joined
    have huncut : Bytes.concat [style.word scope, " ", keyword, " ", style.word name, "(",
        joined ++ ", "] = style.opening scope keyword name ++ joined ++ ", " := by
      simp [Style.opening, Bytes.concat]
    simp only [huncut, List.isEmpty_cons, Bool.false_eq_true, ite_false,
      Bytes.take_before_separator]

/-- The first line of a callable holds one separator between neighbouring arguments, whatever the
texts of their tokens are.  Of all that is written before the parenthesis is closed, the cut takes
the separator that belongs to the last argument; without arguments it takes nothing. -/
theorem Style.signature_drops_last_separator (style : Style) (scope : Token) (keyword : Bytes)
    (name : Token) (arguments : List Argument) :
    let opening := style.opening scope keyword name
    let uncut := opening ++ arguments.flatMap (Argument.render style)
    let signature := style.signature scope keyword name arguments
    signature =
        opening ++ List.intercalate (", " : Bytes) (arguments.map (Argument.written style)) ++ ")" ∧
      (arguments = [] ∧ signature = uncut ++ ")" ∨
        ∃ front last, arguments = front ++ [last] ∧
          let kept := opening ++ front.flatMap (Argument.render style) ++ last.written style
          uncut = kept ++ ", " ∧ signature = kept ++ ")") := by
  intro opening uncut signature
  have hjoined : signature =
      opening ++ Bytes.join ", " (arguments.map (Argument.written style)) ++ ")" :=
    Style.signature_eq style scope keyword name arguments
  refine ⟨by rw [hjoined, Bytes.join_eq_intercalate], ?_⟩
  -- The cut is at the end, so the list is opened there and not at its head.
  rcases List.eq_nil_or_concat arguments with rfl | ⟨front, last, hlast⟩
  · exact .inl ⟨rfl, hjoined⟩
  · rw [List.concat_eq_append] at hlast
    refine .inr ⟨front, last, hlast, ?_, ?_⟩
    · simp [uncut, hlast, Argument.render_eq]
    · rw [hjoined, hlast, Argument.join_written, ← List.append_assoc]

-- Tokens that were never read have no text, and texts that look like a separator stay whole.
example :
    ({} : Style).signature {} "sub" { kind := .identifier, literal := "S" }
        [⟨none, {}, { kind := .identifier, literal := "A, " }⟩,
          ⟨some {}, {}, { kind := .quoted, literal := ", " }⟩] =
      (" sub s( as a, ,   as , )" : Bytes) := by
  decide +kernel

namespace Scan

variable {text : Bytes} {tokens : List Token}

theorem scans_argument (style : Style) {argument : Argument}
    (h : ∀ token ∈ Slot.parts argument.slots, token.IsLexical) (hglue : Glue text tokens) :
    Scans (argument.written style ++ text) (argument.printed style ++ tokens) := by
  simp only [Argument.slots, Slot.parts_append, Slot.parts_optional, Slot.parts_part,
    Slot.parts_mark, Slot.parts_nil, List.forall_mem_append, List.forall_mem_cons,
    Option.mem_toList] at h
  have hpart := (scans_leading style h.1).append
    ((scans_word style h.2.1 glue_as).append (scans_word style h.2.2.1 hglue))
  simpa [Argument.written, Argument.printed, Bytes.concat] using hpart

theorem scans_arguments (style : Style) {arguments : List Argument}
    (h : ∀ argument ∈ arguments, ∀ token ∈ Slot.parts argument.slots, token.IsLexical) :
    Scans (Bytes.join ", " (arguments.map (Argument.written style)) ++ ")")
      (List.intercalate [.ofMark (.symbol .comma)] (arguments.map (Argument.printed style)) ++
        [.ofMark (.symbol .rightParen)]) := by
  induction arguments with
  | nil => exact glue_rightParen.scans
  | cons argument arguments ih =>
    obtain ⟨hargument, harguments⟩ := List.forall_mem_cons.1 h
    cases arguments with
    | nil => simpa using scans_argument style hargument glue_rightParen
    | cons next arguments =>
      have hpart := (scans_argument style hargument glue_comma).append (ih harguments)
      simpa [Bytes.join, List.intercalate_cons_cons] using hpart

theorem scans_signature (style : Style) {scope name : Token} {word : Keyword}
    {arguments : List Argument}
    (h : ∀ token ∈ Slot.parts (Slot.signature scope word name arguments), token.IsLexical) :
    Scans (style.signature scope word.lexeme name arguments)
      (style.printedSignature scope word name arguments) := by
  simp only [Slot.signature, Slot.parts_part, Slot.parts_mark, Slot.parts_append, Slot.parts_nil,
    List.append_nil, List.forall_mem_cons, Argument.slotsAll, Slot.mem_parts_flatMap] at h
  obtain ⟨hscope, hname, harguments⟩ := h
  have hline := (scans_word style hscope (glue_mark (.keyword word) trivial rfl)).append
    ((scans_word style hname glue_leftParen).append
      (scans_arguments style fun argument hmem token htoken =>
        harguments token ⟨argument, hmem, by simpa using htoken⟩))
  simpa [Style.signature_eq, Style.opening, Style.printedSignature, Bytes.concat, Kind.lexeme]
    using hline

end Scan

namespace Statement

open Scan

variable {style : Style}

def IsLexical (statement : Statement) : Prop :=
  ∀ token ∈ Slot.parts statement.slots, token.IsLexical

theorem scans_placeholder : Scans placeholder [placeholderToken] :=
  .of_endsBlank (by decide +kernel)

theorem scans_record (style : Style) {name : Token} {fields : List Field}
    (h : (record name fields).IsLexical) :
    Scans (render style (.record name fields)) (printed style (.record name fields)) := by
  simp only [IsLexical, slots, Slot.closing, Slot.parts_append, Slot.parts_part, Slot.parts_mark,
    Slot.parts_nil, List.append_nil, List.forall_mem_append, List.forall_mem_cons,
    Slot.mem_parts_flatMap] at h
  obtain ⟨⟨hname, _⟩, hfields⟩ := h
  have hopening : Scans "type " [.ofMark (.keyword .typeWord)] := .of_endsBlank (by decide +kernel)
  have hclosing : Scans "end type\n" (printedClosing .typeWord) := .of_endsBlank (by decide +kernel)
  have hlines : Scans (fields.flatMap (Field.render style))
      (fields.flatMap (Field.printed style)) :=
    .flatMap fun field hmem => scans_field style fun token htoken =>
      hfields token ⟨field, hmem, htoken⟩
  have hblock := hopening.append ((scans_word style hname glue_newline).append
    (hlines.append hclosing))
  simpa [render, printed, Bytes.concat] using hblock

theorem scans_enumeration (style : Style) {scope : Option Token} {name : Token}
    {members : List Enumerator} (h : (enumeration scope name members).IsLexical) :
    Scans (render style (.enumeration scope name members))
      (printed style (.enumeration scope name members)) := by
  simp only [IsLexical, slots, Slot.closing, Slot.parts_append, Slot.parts_part, Slot.parts_mark,
    Slot.parts_nil, Slot.parts_optional, List.append_nil, List.forall_mem_append,
    List.forall_mem_cons, Slot.mem_parts_flatMap, Option.mem_toList] at h
  obtain ⟨⟨hscope, hname, _⟩, hmembers⟩ := h
  have hopening : Scans "enum " [.ofMark (.keyword .enumWord)] := .of_endsBlank (by decide +kernel)
  have hclosing : Scans "end enum\n" (printedClosing .enumWord) := .of_endsBlank (by decide +kernel)
  have hlines : Scans (members.flatMap (Enumerator.render style))
      (members.flatMap (Enumerator.printed style)) :=
    .flatMap fun member hmem => scans_enumerator style fun token htoken =>
      hmembers token ⟨member, hmem, htoken⟩
  have hblock := (scans_leading style hscope).append (hopening.append
    ((scans_word style hname glue_newline).append (hlines.append hclosing)))
  simpa [render, printed, Bytes.concat] using hblock

theorem scans_variableDecl (style : Style) {scope name kind : Token}
    (h : (variableDecl scope name kind).IsLexical) :
    Scans (render style (.variableDecl scope name kind))
      (printed style (.variableDecl scope name kind)) := by
  simp only [IsLexical, slots, Slot.parts_part, Slot.parts_mark, Slot.parts_nil,
    List.forall_mem_cons] at h
  obtain ⟨hscope, hname, hkind, _⟩ := h
  have hline := (scans_word style hscope glue_blank).append
    ((scans_word style hname glue_as).append (scans_word style hkind glue_newline))
  simpa [render, printed, Bytes.concat] using hline

theorem scans_constantDecl (style : Style) {scope name value : Token} {kind length : Option Token}
    (h : (constantDecl scope name kind length value).IsLexical) :
    Scans (render style (.constantDecl scope name kind length value))
      (printed style (.constantDecl scope name kind length value)) := by
  simp only [IsLexical, slots, Slot.parts_append, Slot.parts_part, Slot.parts_mark, Slot.parts_nil,
    Slot.parts_following, List.forall_mem_append, List.forall_mem_cons, Option.mem_toList] at h
  obtain ⟨⟨⟨⟨hscope, hname, _⟩, hkind⟩, hlength⟩, hvalue, _⟩ := h
  -- Whatever optional parts there are, a blank follows the name.
  have hglue := glue_trailing style hkind glue_as
    (glue_trailing style hlength glue_asterisk glue_equals)
  have hline := (scans_word style hscope glue_const).append
    ((scans_word style hname hglue).append (scans_word style hvalue glue_newline))
  simpa [render, printed, Bytes.concat] using hline

theorem scans_exitLine (style : Style) {block : Token} (h : (exitLine block).IsLexical) :
    Scans (render style (.exitLine block)) (printed style (.exitLine block)) := by
  simp only [IsLexical, slots, Slot.parts_part, Slot.parts_mark, Slot.parts_nil,
    List.forall_mem_cons] at h
  have hopening : Scans "exit " [.ofMark (.keyword .exitWord)] := .of_endsBlank (by decide +kernel)
  have hline := hopening.append (scans_word style h.1 glue_newline)
  simpa [render, printed, Bytes.concat] using hline

theorem scans_assignment (style : Style) {left right : Token}
    (h : (assignment left right).IsLexical) :
    Scans (render style (.assignment left right)) (printed style (.assignment left right)) := by
  simp only [IsLexical, slots, Slot.parts_part, Slot.parts_mark, Slot.parts_nil,
    List.forall_mem_cons] at h
  have hline := (scans_word style h.1 glue_equals).append (scans_word style h.2.1 glue_newline)
  simpa [render, printed, Bytes.concat] using hline

theorem scans_optionLine (style : Style) {config : Token} {value : Option Token}
    (h : (optionLine config value).IsLexical) :
    Scans (render style (.optionLine config value)) (printed style (.optionLine config value)) := by
  simp only [IsLexical, slots, Slot.parts_append, Slot.parts_part, Slot.parts_mark, Slot.parts_nil,
    Slot.parts_optional, List.forall_mem_append, List.forall_mem_cons, Option.mem_toList] at h
  obtain ⟨⟨hconfig, _⟩, hvalue⟩ := h
  have hopening : Scans "option " [.ofMark (.keyword .optionWord)] :=
    .of_endsBlank (by decide +kernel)
  cases value with
  | none =>
    have hline := hopening.append (scans_word style hconfig glue_newline)
    simpa [render, printed, Bytes.concat, Style.trailing] using hline
  | some token =>
    have hline := hopening.append ((scans_word style hconfig glue_blank).append
      (scans_word style (hvalue token rfl) glue_newline))
    simpa [render, printed, Bytes.concat, Style.trailing] using hline

theorem scans_attributeLine (style : Style) {name value : Token}
    (h : (attributeLine name value).IsLexical) :
    Scans (render style (.attributeLine name value))
      (printed style (.attributeLine name value)) := by
  simp only [IsLexical, slots, Slot.parts_part, Slot.parts_mark, Slot.parts_nil,
    List.forall_mem_cons] at h
  have hopening : Scans "Attribute " [.ofMark (.keyword .attributeWord)] :=
    .of_endsBlank (by decide +kernel)
  -- The name is written as in the style that keeps case.
  have hname := scans_word ⟨true⟩ h.1 glue_equals
  have hword : (⟨true⟩ : Style).word name = name.lexeme := by simp [Style.word]
  have hprinted : (⟨true⟩ : Style).printed name = name.verbatim := by
    simp [Style.printed, Token.verbatim]
  rw [hword, hprinted] at hname
  have hline := hopening.append (hname.append (scans_word style h.2.1 glue_newline))
  simpa [render, printed, Bytes.concat] using hline

mutual

/-- The legacy form of a statement is scanned as its concrete form, whatever follows it. -/
theorem scans_render (style : Style) : ∀ (statement : Statement), statement.IsLexical →
    Scans (render style statement) (printed style statement)
  | .record _ _, h => scans_record style h
  | .field _, h => by simpa [render, printed] using scans_field style h
  | .enumeration _ _ _, h => scans_enumeration style h
  | .enumerator _, h => by simpa [render, printed] using scans_enumerator style h
  | .variableDecl _ _ _, h => scans_variableDecl style h
  | .constantDecl _ _ _ _ _, h => scans_constantDecl style h
  | .subroutine scope name arguments body, h => by
    simp only [IsLexical, slots, Slot.parts_append, List.forall_mem_append] at h
    obtain ⟨⟨hsignature, hbody⟩, _⟩ := h
    have hclosing : Scans "end sub\n" (printedClosing .subWord) := .of_endsBlank (by decide +kernel)
    have hblock := (scans_signature style hsignature).append (glue_newline.scans.append
      ((scans_renderAll style body hbody).append hclosing))
    simpa [render, printed, Bytes.concat, Keyword.lexeme, Keyword.spelling] using hblock
  | .function scope name arguments returns body, h => by
    simp only [IsLexical, slots, Slot.parts_append, Slot.parts_following, List.forall_mem_append,
      Option.mem_toList] at h
    obtain ⟨⟨⟨hsignature, hreturns⟩, hbody⟩, _⟩ := h
    have hclosing : Scans "end function\n" (printedClosing .functionWord) :=
      .of_endsBlank (by decide +kernel)
    have hblock := (scans_signature style hsignature).append
      ((glue_trailing style hreturns glue_as glue_newline).scans.append
        ((scans_renderAll style body hbody).append hclosing))
    simpa [render, printed, Bytes.concat, Keyword.lexeme, Keyword.spelling] using hblock
  | .argument parameter, h => by
    simpa [render, printed, Argument.render_eq] using scans_argument style h glue_comma
  | .exitLine _, h => scans_exitLine style h
  | .assignment _ _, h => scans_assignment style h
  | .optionLine _ _, h => scans_optionLine style h
  | .attributeLine _ _, h => scans_attributeLine style h
  | .returnLine _, _ => scans_placeholder
  | .absent, _ => scans_placeholder

theorem scans_renderAll (style : Style) : ∀ (statements : List Statement),
    (∀ token ∈ Slot.parts (slotsAll statements), token.IsLexical) →
    Scans (renderAll style statements) (printedAll style statements)
  | [], _ => .nil
  | statement :: rest, h => by
    simp only [slotsAll, Slot.parts_append, List.forall_mem_append] at h
    exact (scans_render style statement h.1).append (scans_renderAll style rest h.2)

end

theorem contents_renderAll (style : Style) {statements : List Statement}
    (h : ∀ statement ∈ statements, statement.IsLexical) :
    contents (renderAll style statements) = ⟨printedAll style statements, []⟩ := by
  have hparts : ∀ token ∈ Slot.parts (slotsAll statements), token.IsLexical := by
    simp only [slotsAll_eq_flatMap, Slot.mem_parts_flatMap]
    rintro token ⟨statement, hmem, htoken⟩
    exact h statement hmem token htoken
  have hscans := scans_renderAll style statements hparts []
  rw [List.append_nil, contents_of_none Piece.front?_nil] at hscans
  simpa [prepend] using hscans

/-- Statements made of tokens that a source can hold are written so that all of their legacy form
is scanned, as exactly their concrete form. -/
theorem scan_renderAll (style : Style) {statements : List Statement}
    (h : ∀ statement ∈ statements, statement.IsLexical) :
    (Scan.ofSource (renderAll style statements)).rest = [] ∧
      (Scan.ofSource (renderAll style statements)).tokens.map Token.withoutPlace =
        printedAll style statements := by
  have hcontents := contents_renderAll style h
  exact ⟨congrArg Scan.rest hcontents, congrArg Scan.tokens hcontents⟩

/-- `Attribute VB_Name = "A b"` keeps the case of its name; the names of
`Public Sub Add(ByVal X As Long, Y As Long)` are made small, and its `Return 1.5` is a
placeholder. -/
theorem scan_renderAll_subroutine :
    let word (keyword : Keyword) : Token := { kind := .keyword keyword }
    let name (text : String) : Token := { kind := .identifier, literal := text }
    let attributeValue : Token := { kind := .quoted, literal := "\"A b\"" }
    let number : Token := { kind := .number, literal := "1.5" }
    let statements : List Statement :=
      [.attributeLine (name "VB_Name") attributeValue,
        .subroutine (word .publicWord) (name "Add")
          [⟨some (word .byValWord), name "X", name "Long"⟩, ⟨none, name "Y", name "Long"⟩]
          [.returnLine (some number)]]
    (∀ statement ∈ statements, statement.IsLexical) ∧
      (Scan.ofSource (renderAll {} statements)).rest = [] ∧
      (Scan.ofSource (renderAll {} statements)).tokens.map Token.withoutPlace =
        [word .attributeWord, name "VB_Name", .ofMark (.symbol .equals), attributeValue,
          word .publicWord, word .subWord, name "add", .ofMark (.symbol .leftParen),
          word .byValWord, name "x", word .asWord, name "long", .ofMark (.symbol .comma),
          name "y", word .asWord, name "long", .ofMark (.symbol .rightParen),
          name "__POLYFILL__", word .endWord, word .subWord] := by
  intro word name attributeValue number statements
  have hname : ∀ text ∈ ["VB_Name", "Add", "X", "Y", "Long"], (name text).IsLexical := by
    simp only [List.forall_mem_cons]
    refine ⟨?_, ?_, ?_, ?_, ?_, by simp⟩ <;>
      exact ⟨⟨_, _, rfl, by decide +kernel, by decide +kernel⟩, by decide +kernel⟩
  have hquoted : attributeValue.IsLexical := ⟨"A b", by decide +kernel, rfl⟩
  have hnumber : number.IsLexical :=
    .inr ⟨"1", "5", ⟨by decide +kernel, by decide +kernel⟩,
      ⟨by decide +kernel, by decide +kernel⟩, rfl⟩
  have hword : ∀ keyword, (word keyword).IsLexical := fun _ => trivial
  have hlexical : ∀ statement ∈ statements, statement.IsLexical := by
    simp only [List.forall_mem_cons] at hname
    obtain ⟨hattribute, hadd, hx, hy, hlong, _⟩ := hname
    refine List.forall_mem_cons.2 ⟨?_, List.forall_mem_singleton.2 ?_⟩
    · show ∀ token ∈ [name "VB_Name", attributeValue], token.IsLexical
      simp [hattribute, hquoted]
    · show ∀ token ∈ [word .publicWord, name "Add", word .byValWord, name "X", name "Long",
        name "Y", name "Long", number], token.IsLexical
      simp [hword, hadd, hx, hlong, hy, hnumber]
  exact ⟨hlexical, scan_renderAll {} hlexical⟩

end Statement

end LegacyBasic
