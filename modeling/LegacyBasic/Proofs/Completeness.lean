import LegacyBasic.Proofs.Relabeling
import LegacyBasic.Proofs.Soundness

/-!
Completeness of the grammar: what spells a well-formed construct is read as that construct, whatever
follows.  The one exception is a return without a value right before an assignment, whose name it
takes for its value.  Main statement: tokens that spell well-formed statements are read as those
statements up to the first subroutine with such a return.
-/

namespace LegacyBasic

namespace Statement

/-- Somewhere a return without a value stands right before an assignment. -/
def ReturnTakesName (body : List Statement) : Prop :=
  ∃ before left right after,
    body = before ++ .returnLine none :: .assignment left right :: after

/-- A subroutine with such a place in its body. -/
def IsMisread : Statement → Prop
  | .subroutine _ _ _ body => ReturnTakesName body
  | _ => False

theorem ReturnTakesName.cons {body : List Statement} (h : ReturnTakesName body)
    (statement : Statement) : ReturnTakesName (statement :: body) := by
  obtain ⟨before, left, right, after, rfl⟩ := h
  exact ⟨statement :: before, left, right, after, rfl⟩

theorem returnTakesName_cons_iff {statement : Statement} {body : List Statement} :
    ReturnTakesName (statement :: body) ↔
      (statement = .returnLine none ∧ ∃ left right after, body = .assignment left right :: after) ∨
        ReturnTakesName body := by
  constructor
  · rintro ⟨before, left, right, after, h⟩
    cases before with
    | nil =>
      simp only [List.nil_append, List.cons.injEq] at h
      exact .inl ⟨h.1, left, right, after, h.2⟩
    | cons first before =>
      simp only [List.cons_append, List.cons.injEq] at h
      exact .inr ⟨before, left, right, after, h.2⟩
  · rintro (⟨rfl, left, right, after, rfl⟩ | h)
    · exact ⟨[], left, right, after, rfl⟩
    · exact h.cons statement

/-- There is a first such place. -/
theorem ReturnTakesName.exists_first {body : List Statement} (h : ReturnTakesName body) :
    ∃ before left right after,
      body = before ++ .returnLine none :: .assignment left right :: after ∧
        ¬ReturnTakesName before := by
  induction body with
  | nil =>
    obtain ⟨before, left, right, after, h⟩ := h
    simp at h
  | cons statement body ih =>
    by_cases hfirst : statement = .returnLine none ∧
        ∃ left right after, body = .assignment left right :: after
    · obtain ⟨rfl, left, right, after, rfl⟩ := hfirst
      refine ⟨[], left, right, after, rfl, ?_⟩
      rintro ⟨before, _, _, _, hnil⟩
      simp at hnil
    · obtain ⟨before, left, right, after, rfl, hbefore⟩ :=
        ih ((returnTakesName_cons_iff.1 h).resolve_left hfirst)
      refine ⟨statement :: before, left, right, after, rfl, ?_⟩
      intro hcons
      rcases returnTakesName_cons_iff.1 hcons with ⟨hstatement, l, r, others, rfl⟩ | hothers
      · exact hfirst ⟨hstatement, l, r, _, rfl⟩
      · exact hbefore hothers

end Statement

/-- The fault as it is met when `count` more tokens stand before it. -/
def Fault.shift (count : Nat) : Fault → Fault
  | .malformedArguments index found => .malformedArguments (index + count) found
  | other => other

namespace Grammar

variable {α β : Type}

/-- The next token, if there is one, is of none of these kinds. -/
def NextNot (kinds : List Kind) (tokens : List Token) : Prop :=
  ∀ token ∈ tokens.head?, token.kind ∉ kinds

theorem nextNot_cons {kinds : List Kind} {token : Token} {rest : List Token} :
    NextNot kinds (token :: rest) ↔ token.kind ∉ kinds := by
  simp [NextNot]

namespace Rule

/-- Before `rest`, the rule reads exactly `tokens` and yields `value`. -/
def Accepts (rule : Rule α) (kind : Kind) (tokens rest : List Token) (value : α) : Prop :=
  ∀ position, rule ⟨position, tokens ++ rest, kind⟩ =
    .matched value ⟨position + tokens.length, rest, kind⟩

/-- The rule gets stuck at the front of `tokens`. -/
def Rejects (rule : Rule α) (kind : Kind) (tokens : List Token) : Prop :=
  ∀ position, ∃ stop, rule ⟨position, tokens, kind⟩ = .stuck stop

/-- Before `rest`, repeating the rule reads `tokens` as `values` and then goes on. -/
def Repeats (rule : Rule α) (kind : Kind) (tokens rest : List Token) (values : List α) : Prop :=
  ∀ position, many rule ⟨position, tokens ++ rest, kind⟩ =
    (many rule ⟨position + tokens.length, rest, kind⟩).map (values ++ ·)

variable {kind : Kind} {tokens first second rest : List Token}

theorem accepts_pure (value : α) : Accepts (pure value) kind [] rest value := fun _ => rfl

theorem accepts_oneOf {kinds : List Kind} {token : Token} (h : token.kind ∈ kinds) :
    (oneOf kinds).Accepts kind [token] rest token := by
  intro position
  exact oneOf_eq_matched_iff.2 ⟨h, rfl, rfl, rfl⟩

theorem accepts_token {expected : Kind} {token : Token} (h : token.kind = expected) :
    (Rule.token expected).Accepts kind [token] rest token := accepts_oneOf (by simp [h])

theorem Accepts.bind {rule : Rule α} {next : α → Rule β} {value : α} {result : β}
    (hrule : rule.Accepts kind first (second ++ rest) value)
    (hnext : (next value).Accepts kind second rest result) :
    Accepts (rule >>= next) kind (first ++ second) rest result := by
  intro position
  rw [bind_run, List.append_assoc, hrule position, List.length_append, ← Nat.add_assoc]
  exact hnext (position + first.length)

theorem oneOf_of_nextNot {kinds : List Kind} (h : NextNot kinds tokens) (position : Nat) :
    oneOf kinds ⟨position, tokens, kind⟩ = .stuck ⟨position, tokens, kind⟩ := by
  cases tokens with
  | nil => rfl
  | cons token tokens => simp [oneOf, nextNot_cons.1 h]

theorem accepts_optional {kinds : List Kind} {value : Option Token}
    (hvalue : ∀ token ∈ value, token.kind ∈ kinds) (hnone : value = none → NextNot kinds rest)
    (hspells : Spells (Slot.optional value) tokens) :
    (optional kinds).Accepts kind tokens rest value := by
  intro position
  cases value with
  | none =>
    obtain rfl := Spells.nil_iff.1 hspells
    simp [optional, oneOf_of_nextNot (hnone rfl)]
  | some token =>
    obtain ⟨_, rfl, hnil⟩ := Spells.part_iff.1 hspells
    obtain rfl := Spells.nil_iff.1 hnil
    have h : oneOf kinds ⟨position, [token] ++ rest, kind⟩ = _ :=
      accepts_oneOf (hvalue token rfl) position
    simp only [optional, h]

theorem accepts_following {mark expected : Kind} {value : Option Token}
    (hvalue : ∀ token ∈ value, token.kind = expected) (hnone : value = none → NextNot [mark] rest)
    (hspells : Spells (Slot.following mark value) tokens) :
    (following mark (Rule.token expected)).Accepts kind tokens rest value := by
  cases value with
  | none =>
    obtain rfl := Spells.nil_iff.1 hspells
    have hfirst : (optional [mark]).Accepts kind [] ([] ++ rest) none :=
      accepts_optional (by simp) hnone .nil
    refine hfirst.bind ?_
    exact accepts_pure none
  | some token =>
    obtain ⟨sign, _, rfl, hsign, hpart⟩ := Spells.mark_iff.1 hspells
    obtain ⟨_, rfl, hnil⟩ := Spells.part_iff.1 hpart
    obtain rfl := Spells.nil_iff.1 hnil
    have hfirst : (optional [mark]).Accepts kind [sign] ([token] ++ rest) (some sign) :=
      accepts_optional (by simpa using hsign) (by simp) (.part sign .nil)
    refine hfirst.bind ?_
    exact (accepts_token (hvalue token rfl)).bind (accepts_pure (some token))

theorem accepts_notNext {expected : Kind} (h : NextNot [expected] rest) :
    (notNext expected).Accepts kind [] rest () := by
  intro position
  simp [notNext, oneOf_of_nextNot h]

theorem Accepts.inside {rule : Rule α} {inner : Kind} {value : α}
    (h : rule.Accepts inner tokens rest value) :
    (inside inner rule).Accepts kind tokens rest value := by
  intro position
  simp only [Rule.inside, h position]

theorem rejects_oneOf {kinds : List Kind} (h : NextNot kinds tokens) :
    (oneOf kinds).Rejects kind tokens := fun position => ⟨_, oneOf_of_nextNot h position⟩

theorem rejects_token {expected : Kind} (h : NextNot [expected] tokens) :
    (Rule.token expected).Rejects kind tokens := rejects_oneOf h

theorem rejects_notNext {expected : Kind} {token : Token} (h : token.kind = expected) :
    (notNext expected).Rejects kind (token :: rest) := by
  intro position
  exact ⟨⟨position, token :: rest, kind⟩, by simp [notNext, oneOf, h]⟩

theorem Rejects.bind {rule : Rule α} (h : rule.Rejects kind tokens) (next : α → Rule β) :
    Rejects (rule >>= next) kind tokens := by
  intro position
  obtain ⟨stop, hstop⟩ := h position
  exact ⟨stop, by rw [bind_run, hstop]⟩

theorem Accepts.bind_rejects {rule : Rule α} {next : α → Rule β} {value : α}
    (hrule : rule.Accepts kind first rest value) (hnext : (next value).Rejects kind rest) :
    Rejects (rule >>= next) kind (first ++ rest) := by
  intro position
  obtain ⟨stop, hstop⟩ := hnext (position + first.length)
  exact ⟨stop, by rw [bind_run, hrule position]; exact hstop⟩

/-- Whatever the first token is, the rule gets stuck when it does so at the second. -/
theorem rejects_oneOf_bind {kinds : List Kind} {next : Token → Rule β} {token : Token}
    (h : ∀ value, (next value).Rejects kind rest) :
    Rejects (oneOf kinds >>= next) kind (token :: rest) := by
  by_cases hmem : token.kind ∈ kinds
  · exact (accepts_oneOf hmem).bind_rejects (h token)
  · exact (rejects_oneOf (nextNot_cons.2 hmem)).bind next

/-- The rule gets stuck at the first token. -/
theorem rejects_first {kinds : List Kind} {next : Token → Rule β} {token : Token}
    (h : token.kind ∉ kinds) : Rejects (oneOf kinds >>= next) kind (token :: rest) :=
  (rejects_oneOf (nextNot_cons.2 h)).bind next

/-- The rule gets stuck at the second token, if not at the first. -/
theorem rejects_second {kinds others : List Kind} {next : Token → Token → Rule β}
    {token other : Token} (h : other.kind ∉ others) :
    Rejects (oneOf kinds >>= fun value => oneOf others >>= next value) kind
      (token :: other :: rest) :=
  rejects_oneOf_bind fun _ => rejects_first h

theorem rejects_choice {rules : List (Rule α)} (hforward : ∀ rule ∈ rules, rule.Forward)
    (h : ∀ rule ∈ rules, rule.Rejects kind tokens) : (choice rules).Rejects kind tokens := by
  intro position
  induction rules with
  | nil => exact ⟨_, rfl⟩
  | cons rule rules ih =>
    obtain ⟨stop, hstop⟩ := h rule List.mem_cons_self position
    obtain ⟨last, hlast⟩ := ih
      (fun other hother => hforward other (List.mem_cons_of_mem rule hother))
      (fun other hother => h other (List.mem_cons_of_mem rule hother))
    have hattempt := (hforward rule List.mem_cons_self).attempt_of_stuck hstop
    exact ⟨last, by simp only [choice, hattempt, hlast]⟩

/-- The first alternative that is not stuck decides. -/
theorem Accepts.choice {after : List (Rule α)} {rule : Rule α} {value : α}
    (h : rule.Accepts kind tokens rest value) (before : List (Rule α))
    (hforward : ∀ other ∈ before ++ rule :: after, other.Forward)
    (hrejects : ∀ other ∈ before, other.Rejects kind (tokens ++ rest)) :
    (choice (before ++ rule :: after)).Accepts kind tokens rest value := by
  intro position
  induction before with
  | nil => simp only [Rule.choice, List.nil_append, attempt_eq_matched_iff.2 (h position)]
  | cons other before ih =>
    obtain ⟨stop, hstop⟩ := hrejects other List.mem_cons_self position
    have hattempt := (hforward other List.mem_cons_self).attempt_of_stuck hstop
    simp only [Rule.choice, List.cons_append, hattempt]
    exact ih (fun rule hrule => hforward rule (List.mem_cons_of_mem other hrule))
      (fun rule hrule => hrejects rule (List.mem_cons_of_mem other hrule))

theorem repeats_nil (rule : Rule α) : rule.Repeats kind [] rest [] := by
  intro position
  cases h : many rule ⟨position, rest, kind⟩ <;> simp [h]

/-- One round of a repetition, and the rounds after it. -/
theorem Accepts.repeats {rule : Rule α} {value : α} {values : List α}
    (hfirst : rule.Accepts kind first (second ++ rest) value) (hne : first ≠ [])
    (hothers : rule.Repeats kind second rest values) :
    rule.Repeats kind (first ++ second) rest (value :: values) := by
  intro position
  have hpos := List.length_pos_iff.2 hne
  rw [List.append_assoc, many_of_matched (hfirst position) (by simp; omega),
    hothers (position + first.length), Outcome.map_map, List.length_append, Nat.add_assoc]
  rfl

theorem Repeats.append {rule : Rule α} {values others : List α}
    (hfirst : rule.Repeats kind first (second ++ rest) values)
    (hsecond : rule.Repeats kind second rest others) :
    rule.Repeats kind (first ++ second) rest (values ++ others) := by
  intro position
  rw [List.append_assoc, hfirst position, hsecond (position + first.length), Outcome.map_map,
    List.length_append, Nat.add_assoc]
  congr 1
  funext more
  simp

/-- A row of values is read value by value, when each begins in a way that the one before it can
stop at. -/
theorem repeats_of_accepts {rule : Rule α} {slots : α → List Slot} (Stop : List Token → Prop)
    {values : List α}
    (haccepts : ∀ value ∈ values, ∀ first after, Spells (slots value) first → Stop after →
      rule.Accepts kind first after value)
    (hstop : ∀ value ∈ values, ∀ first after, Spells (slots value) first →
      first ≠ [] ∧ Stop (first ++ after))
    (hspells : Spells (values.flatMap slots) tokens) (hrest : Stop rest) :
    rule.Repeats kind tokens rest values ∧ Stop (tokens ++ rest) := by
  induction values generalizing tokens with
  | nil =>
    obtain rfl := Spells.nil_iff.1 hspells
    exact ⟨repeats_nil rule, hrest⟩
  | cons value values ih =>
    obtain ⟨first, second, rfl, hfirst, hsecond⟩ := Spells.append_iff.1 hspells
    obtain ⟨hothers, hafter⟩ := ih
      (fun other hother => haccepts other (List.mem_cons_of_mem value hother))
      (fun other hother => hstop other (List.mem_cons_of_mem value hother)) hsecond
    obtain ⟨hne, hbefore⟩ := hstop value List.mem_cons_self first (second ++ rest) hfirst
    refine ⟨?_, by rwa [List.append_assoc]⟩
    exact (haccepts value List.mem_cons_self first _ hfirst hafter).repeats hne hothers

theorem Rejects.many {rule : Rule α} (h : rule.Rejects kind tokens) (hforward : rule.Forward)
    (position : Nat) :
    many rule ⟨position, tokens, kind⟩ = .matched [] ⟨position, tokens, kind⟩ := by
  obtain ⟨stop, hstop⟩ := h position
  exact many_of_stuck (hforward.attempt_of_stuck hstop)

theorem Repeats.accepts_many {rule : Rule α} {values : List α}
    (h : rule.Repeats kind tokens rest values) (hforward : rule.Forward)
    (hend : rule.Rejects kind rest) : (many rule).Accepts kind tokens rest values := by
  intro position
  rw [h position, hend.many hforward]
  simp

end Rule

section Constructs

open Rule

variable {kind : Kind} {tokens rest : List Token}

theorem accepts_field {member : Field} (h : member.WellFormed)
    (hspells : Spells member.slots tokens) : field.Accepts kind tokens rest member := by
  simp only [Field.slots, Spells.part_iff, Spells.mark_iff, Spells.nil_iff] at hspells
  obtain ⟨_, rfl, as, _, rfl, has, _, rfl, rfl⟩ := hspells
  exact (accepts_token h.1).bind ((accepts_token has).bind ((accepts_token h.2).bind
    (accepts_pure member)))

theorem accepts_record {name : Token} {fields : List Field}
    (h : (Statement.record name fields).InModule)
    (hspells : Spells (Statement.record name fields).slots tokens) :
    record.Accepts kind tokens rest (.record name fields) := by
  simp only [Statement.slots, Slot.closing, List.cons_append, List.nil_append, Spells.mark_iff,
    Spells.part_iff, Spells.append_iff, Spells.nil_iff] at hspells
  obtain ⟨type, _, rfl, htype, _, rfl, first, _, rfl, hfirst, close, _, rfl, hclose, word, _, rfl,
    hword, rfl⟩ := hspells
  have hend : field.Rejects kind (close :: word :: rest) :=
    (rejects_token (nextNot_cons.2 (by simp [hclose]))).bind _
  have hfields : field.Repeats kind first (close :: word :: rest) fields :=
    (repeats_of_accepts (fun _ => True)
      (fun member hmember _ _ hmemberSpells _ => accepts_field (h.2 member hmember) hmemberSpells)
      (fun member _ _ _ hmemberSpells => by
        obtain ⟨_, rfl, _⟩ := Spells.part_iff.1 hmemberSpells
        exact ⟨by simp, trivial⟩)
      hfirst trivial).1
  exact (accepts_token htype).bind ((accepts_token h.1).bind
    ((hfields.accepts_many field_forward hend).bind
      ((accepts_token hclose).bind ((accepts_token hword).bind (accepts_pure _)))))

theorem accepts_enumerator {member : Enumerator} (h : member.WellFormed)
    (hspells : Spells member.slots tokens) (hrest : NextNot [.symbol .equals] rest) :
    enumerator.Accepts kind tokens rest member := by
  obtain ⟨others, rfl, hothers⟩ := Spells.part_iff.1 hspells
  have hvalue : (following (.symbol .equals) (Rule.token .number)).Accepts kind others ([] ++ rest)
      member.value := accepts_following h.2 (fun _ => hrest) hothers
  have hrule : enumerator.Accepts kind ([member.name] ++ (others ++ [])) rest member :=
    (accepts_token h.1).bind (hvalue.bind (accepts_pure member))
  simpa using hrule

theorem accepts_enumeration {scope : Option Token} {name : Token} {members : List Enumerator}
    (h : (Statement.enumeration scope name members).InModule)
    (hspells : Spells (Statement.enumeration scope name members).slots tokens) :
    enumeration.Accepts kind tokens rest (.enumeration scope name members) := by
  obtain ⟨hscope, hname, hmembers⟩ := h
  simp only [Statement.slots, Slot.closing, List.append_assoc, List.cons_append, List.nil_append,
    Spells.mark_iff, Spells.part_iff, Spells.append_iff, Spells.nil_iff] at hspells
  obtain ⟨front, _, rfl, hfront, enum, _, rfl, henum, _, rfl, first, _, rfl, hfirst, close, _, rfl,
    hclose, word, _, rfl, hword, rfl⟩ := hspells
  have hend : enumerator.Rejects kind (close :: word :: rest) :=
    (rejects_token (nextNot_cons.2 (by simp [hclose]))).bind _
  have hrepeats : enumerator.Repeats kind first (close :: word :: rest) members :=
    (repeats_of_accepts (NextNot [.symbol .equals])
      (fun member hmember _ _ hmemberSpells hafter =>
        accepts_enumerator (hmembers member hmember) hmemberSpells hafter)
      (fun member hmember _ _ hmemberSpells => by
        obtain ⟨_, rfl, _⟩ := Spells.part_iff.1 hmemberSpells
        exact ⟨by simp, nextNot_cons.2 (by simp [(hmembers member hmember).1])⟩)
      hfirst (nextNot_cons.2 (by simp [hclose]))).1
  refine (accepts_optional hscope ?_ hfront).bind ((accepts_token henum).bind
    ((accepts_token hname).bind ((hrepeats.accepts_many enumerator_forward hend).bind
      ((accepts_token hclose).bind ((accepts_token hword).bind (accepts_pure _))))))
  intro _
  exact nextNot_cons.2 (by simp [henum, enumerationScopes])

theorem accepts_variableDecl {scope name type : Token}
    (h : (Statement.variableDecl scope name type).IsDeclaration)
    (hspells : Spells (Statement.variableDecl scope name type).slots tokens) :
    variableDecl.Accepts kind tokens rest (.variableDecl scope name type) := by
  obtain ⟨hscope, hname, htype⟩ := h
  simp only [Statement.slots, Spells.part_iff, Spells.mark_iff, Spells.nil_iff] at hspells
  obtain ⟨_, rfl, _, rfl, as, _, rfl, has, _, rfl, rfl⟩ := hspells
  exact (accepts_oneOf hscope).bind ((accepts_token hname).bind ((accepts_token has).bind
    ((accepts_token htype).bind (accepts_pure _))))

theorem accepts_constantDecl {scope name : Token} {type length : Option Token} {value : Token}
    (h : (Statement.constantDecl scope name type length value).IsDeclaration)
    (hspells : Spells (Statement.constantDecl scope name type length value).slots tokens) :
    constantDecl.Accepts kind tokens rest (.constantDecl scope name type length value) := by
  obtain ⟨hscope, hname, htype, hlength, hvalue⟩ := h
  simp only [Statement.slots, List.append_assoc, List.cons_append, List.nil_append,
    Spells.mark_iff, Spells.part_iff, Spells.append_iff, Spells.nil_iff] at hspells
  obtain ⟨_, rfl, const, _, rfl, hconst, _, rfl, first, _, rfl, hfirst, second, _, rfl, hsecond,
    sign, _, rfl, hsign, _, rfl, rfl⟩ := hspells
  refine (accepts_oneOf hscope).bind ((accepts_token hconst).bind ((accepts_token hname).bind
    ((accepts_following htype ?_ hfirst).bind ((accepts_following hlength ?_ hsecond).bind
      ((accepts_token hsign).bind ((accepts_oneOf hvalue).bind (accepts_pure _)))))))
  · -- Where no kind is written, the length or the equals sign comes next.
    intro _
    cases length with
    | none =>
      obtain rfl := Spells.nil_iff.1 hsecond
      exact nextNot_cons.2 (by simp [hsign])
    | some number =>
      obtain ⟨star, _, rfl, hstar, _⟩ := Spells.mark_iff.1 hsecond
      exact nextNot_cons.2 (by simp [hstar])
  · intro _
    exact nextNot_cons.2 (by simp [hsign])

theorem accepts_attributeLine {name value : Token}
    (h : (Statement.attributeLine name value).IsDeclaration)
    (hspells : Spells (Statement.attributeLine name value).slots tokens) :
    attributeLine.Accepts kind tokens rest (.attributeLine name value) := by
  simp only [Statement.slots, Spells.part_iff, Spells.mark_iff, Spells.nil_iff] at hspells
  obtain ⟨word, _, rfl, hword, _, rfl, sign, _, rfl, hsign, _, rfl, rfl⟩ := hspells
  exact (accepts_token hword).bind ((accepts_token h.1).bind ((accepts_token hsign).bind
    ((accepts_oneOf h.2).bind (accepts_pure _))))

theorem accepts_assignment {left right : Token}
    (h : (Statement.assignment left right).InBody kind)
    (hspells : Spells (Statement.assignment left right).slots tokens) :
    assignment.Accepts kind tokens rest (.assignment left right) := by
  simp only [Statement.slots, Spells.part_iff, Spells.mark_iff, Spells.nil_iff] at hspells
  obtain ⟨_, rfl, sign, _, rfl, hsign, _, rfl, rfl⟩ := hspells
  exact (accepts_token h.1).bind ((accepts_token hsign).bind ((accepts_oneOf h.2).bind
    (accepts_pure _)))

theorem accepts_exitLine {block : Token} (h : (Statement.exitLine block).InBody kind)
    (hspells : Spells (Statement.exitLine block).slots tokens) :
    exitLine.Accepts kind tokens rest (.exitLine block) := by
  simp only [Statement.slots, Spells.part_iff, Spells.mark_iff, Spells.nil_iff] at hspells
  obtain ⟨word, _, rfl, hword, _, rfl, rfl⟩ := hspells
  exact (accepts_token hword).bind ((accepts_oneOf h).bind (accepts_pure _))

/-- A return without a value needs something after it that is no value. -/
theorem accepts_returnLine {value : Option Token} (h : (Statement.returnLine value).InBody kind)
    (hspells : Spells (Statement.returnLine value).slots tokens)
    (hrest : value = none → NextNot valueKinds rest) :
    returnLine.Accepts kind tokens rest (.returnLine value) := by
  obtain ⟨word, others, rfl, hword, hothers⟩ := Spells.mark_iff.1 hspells
  have hvalue : (Rule.optional valueKinds).Accepts kind others ([] ++ rest) value :=
    accepts_optional h.1 hrest hothers
  have hguard : ¬(value = none ∧ kind = .keyword .functionWord) := by
    rintro ⟨hnone, hfunction⟩
    exact h.2 hfunction hnone
  have hrule : returnLine.Accepts kind ([word] ++ (others ++ [])) rest (.returnLine value) := by
    refine (accepts_token hword).bind (hvalue.bind ?_)
    intro position
    simp [bind_run, Rule.enclosing, hguard]
  simpa using hrule

theorem accepts_optionLine {config : Token} {value : Option Token}
    (h : (Statement.optionLine config value).InModule)
    (hspells : Spells (Statement.optionLine config value).slots tokens) :
    optionLine.Accepts kind tokens rest (.optionLine config value) := by
  simp only [Statement.slots, List.cons_append, List.nil_append, Spells.mark_iff,
    Spells.part_iff] at hspells
  obtain ⟨word, _, rfl, hword, others, rfl, hothers⟩ := hspells
  have hconfig : config.kind ∈ optionConfigs := by
    obtain ⟨hkind, _⟩ | ⟨_, _, ⟨hkind, _⟩ | ⟨hkind, _⟩ | ⟨hkind, _⟩⟩ := h <;>
      simp [hkind, optionConfigs]
  have hvalue : (optionValue config.kind).Accepts kind others ([] ++ rest) value := by
    obtain ⟨hkind, rfl⟩ | ⟨token, rfl, hcases⟩ := h
    · obtain rfl := Spells.nil_iff.1 hothers
      simpa [hkind, optionValue] using accepts_pure none
    · obtain ⟨_, rfl, hnil⟩ := Spells.part_iff.1 hothers
      obtain rfl := Spells.nil_iff.1 hnil
      obtain ⟨hkind, htoken⟩ | ⟨hkind, htoken⟩ | ⟨hkind, htoken⟩ := hcases <;>
        · rw [hkind]
          exact (accepts_token htoken).bind (accepts_pure (some token))
  have hrule : optionLine.Accepts kind ([word] ++ ([config] ++ (others ++ []))) rest
      (.optionLine config value) :=
    (accepts_token hword).bind ((accepts_oneOf hconfig).bind (hvalue.bind (accepts_pure _)))
  simpa using hrule

theorem accepts_argument {parameter : Argument} (h : parameter.WellFormed)
    (hspells : Spells parameter.slots tokens) :
    argument.Accepts kind tokens rest parameter := by
  simp only [Argument.slots, Spells.append_iff, Spells.part_iff, Spells.mark_iff,
    Spells.nil_iff] at hspells
  obtain ⟨front, _, rfl, hfront, _, rfl, as, _, rfl, has, _, rfl, rfl⟩ := hspells
  obtain ⟨hmodifier, hname, htype⟩ := h
  refine (accepts_optional hmodifier ?_ hfront).bind ((accepts_token hname).bind
    ((accepts_token has).bind ((accepts_token htype).bind (accepts_pure parameter))))
  intro _
  exact nextNot_cons.2 (by simp [hname, argumentModifiers])

/-- An argument begins with a modifier or a name. -/
theorem nextNot_of_spells_argument {parameter : Argument} {kinds : List Kind}
    (h : parameter.WellFormed) (hspells : Spells parameter.slots tokens)
    (hkinds : ∀ start ∈ .identifier :: argumentModifiers, start ∉ kinds) :
    tokens ≠ [] ∧ NextNot kinds (tokens ++ rest) := by
  obtain ⟨front, others, rfl, hfront, hothers⟩ := Spells.append_iff.1 hspells
  obtain ⟨hmodifier, hname, _⟩ := h
  cases hcase : parameter.modifier with
  | none =>
    rw [hcase] at hfront
    obtain rfl := Spells.nil_iff.1 hfront
    obtain ⟨_, rfl, _⟩ := Spells.part_iff.1 hothers
    exact ⟨by simp, nextNot_cons.2 (hkinds _ (by simp [hname]))⟩
  | some modifier =>
    rw [hcase] at hfront
    obtain ⟨_, rfl, _⟩ := Spells.part_iff.1 hfront
    exact ⟨by simp, nextNot_cons.2 (hkinds _ (List.mem_cons_of_mem _ (hmodifier modifier hcase)))⟩

theorem accepts_nextArgument {parameter : Argument} (h : parameter.WellFormed)
    (hspells : Spells (parameter.slots ++ [.comma]) tokens)
    (hrest : NextNot [.symbol .comma] rest) :
    nextArgument.Accepts kind tokens rest parameter := by
  obtain ⟨front, others, rfl, hfront, hothers⟩ := Spells.append_iff.1 hspells
  have hnext : (notNext (.symbol .rightParen)).Accepts kind [] (front ++ (others ++ rest)) () :=
    accepts_notNext (nextNot_of_spells_argument h hfront (by decide)).2
  have hargument : (argument.orFail fun stop =>
      .malformedArguments stop.position stop.rest.head?).Accepts kind front (others ++ rest)
        parameter := by
    intro position
    exact orFail_eq_matched_iff.2 (accepts_argument h hfront position)
  obtain ⟨comma, hcomma⟩ :
      ∃ comma, (Rule.optional [.symbol .comma]).Accepts kind others ([] ++ rest) comma := by
    obtain hnil | ⟨comma, _, rfl, hkind, hnil⟩ := Spells.comma_iff.1 hothers
    · exact ⟨none, accepts_optional (by simp) (fun _ => hrest) hnil⟩
    · exact ⟨some comma, accepts_optional (by simpa using hkind) (by simp) (.part comma hnil)⟩
  have hrule : nextArgument.Accepts kind ([] ++ (front ++ (others ++ []))) rest parameter := by
    refine Accepts.bind (by simpa using hnext) (Accepts.bind (by simpa using hargument)
      (hcomma.bind (accepts_pure parameter)))
  simpa using hrule

theorem accepts_arguments {parameters : List Argument}
    (h : ∀ parameter ∈ parameters, parameter.WellFormed)
    (hspells : Spells (Argument.slotsAll parameters ++ [.mark (.symbol .rightParen)]) tokens) :
    arguments.Accepts kind tokens rest parameters := by
  simp only [Spells.append_iff, Spells.mark_iff, Spells.nil_iff] at hspells
  obtain ⟨first, _, rfl, hfirst, close, _, rfl, hclose, rfl⟩ := hspells
  have hrepeats : nextArgument.Repeats kind first (close :: rest) parameters :=
    (repeats_of_accepts (NextNot [.symbol .comma])
      (fun parameter hparameter _ _ hspells hafter =>
        accepts_nextArgument (h parameter hparameter) hspells hafter)
      (fun parameter hparameter _ after hspells => by
        obtain ⟨front, others, rfl, hfront, _⟩ := Spells.append_iff.1 hspells
        obtain ⟨hne, hstart⟩ : front ≠ [] ∧ NextNot [.symbol .comma] (front ++ (others ++ after)) :=
          nextNot_of_spells_argument (h parameter hparameter) hfront (by decide)
        exact ⟨by simp [hne], by rwa [List.append_assoc]⟩)
      hfirst (nextNot_cons.2 (by simp [hclose]))).1
  have hend : nextArgument.Rejects kind (close :: rest) := (rejects_notNext hclose).bind _
  exact (hrepeats.accepts_many nextArgument_forward hend).bind ((accepts_token hclose).bind
    (accepts_pure parameters))

theorem accepts_bodyStatement {statement : Statement} (h : statement.InBody kind)
    (hspells : Spells statement.slots tokens)
    (hrest : statement = .returnLine none → NextNot valueKinds rest) :
    bodyStatement.Accepts kind tokens rest statement := by
  -- The first two tokens of a statement rule out every alternative before its own.
  cases statement with
  | variableDecl scope name type =>
    exact (accepts_variableDecl h hspells).choice [] bodyAlternatives_forward (by simp)
  | constantDecl scope name type length value =>
    refine (accepts_constantDecl h hspells).choice [variableDecl]
      bodyAlternatives_forward ?_
    obtain ⟨_, rfl, hothers⟩ := Spells.part_iff.1 hspells
    obtain ⟨const, others, rfl, hconst, _⟩ := Spells.mark_iff.1 hothers
    exact List.forall_mem_singleton.2 (rejects_second (by simp [hconst]))
  | assignment left right =>
    refine (accepts_assignment h hspells).choice [variableDecl, constantDecl]
      bodyAlternatives_forward ?_
    obtain ⟨others, rfl, _⟩ := Spells.part_iff.1 hspells
    simp only [List.forall_mem_cons]
    refine ⟨?_, ?_, List.forall_mem_nil _⟩ <;>
      exact rejects_first (by simp [h.1, variableScopes])
  | exitLine block =>
    refine (accepts_exitLine h hspells).choice [variableDecl, constantDecl, assignment]
      bodyAlternatives_forward ?_
    obtain ⟨word, others, rfl, hword, _⟩ := Spells.mark_iff.1 hspells
    simp only [List.forall_mem_cons]
    refine ⟨?_, ?_, ?_, List.forall_mem_nil _⟩ <;>
      exact rejects_first (by simp [hword, variableScopes])
  | returnLine value =>
    refine (accepts_returnLine h hspells fun hnone => hrest (by rw [hnone])).choice
      [variableDecl, constantDecl, assignment, exitLine] bodyAlternatives_forward ?_
    obtain ⟨word, others, rfl, hword, _⟩ := Spells.mark_iff.1 hspells
    simp only [List.forall_mem_cons]
    refine ⟨?_, ?_, ?_, ?_, List.forall_mem_nil _⟩ <;>
      exact rejects_first (by simp [hword, variableScopes])
  | attributeLine name value =>
    refine (accepts_attributeLine h hspells).choice
      [variableDecl, constantDecl, assignment, exitLine, returnLine]
      bodyAlternatives_forward ?_
    obtain ⟨word, others, rfl, hword, _⟩ := Spells.mark_iff.1 hspells
    simp only [List.forall_mem_cons]
    refine ⟨?_, ?_, ?_, ?_, ?_, List.forall_mem_nil _⟩ <;>
      exact rejects_first (by simp [hword, variableScopes])
  | _ => exact h.elim

/-- No statement of a body begins with a token of another kind than the opening ones. -/
theorem rejects_bodyStatement {token : Token} (h : token.kind ∉ Statement.bodyStarts) :
    bodyStatement.Rejects kind (token :: rest) := by
  simp only [Statement.bodyStarts, List.mem_append, List.mem_cons, List.not_mem_nil, or_false,
    not_or] at h
  obtain ⟨hscope, hname, hexit, hreturn, hattribute⟩ := h
  refine rejects_choice bodyAlternatives_forward ?_
  simp only [bodyAlternatives, List.forall_mem_cons]
  refine ⟨rejects_first hscope, rejects_first hscope, rejects_first ?_, rejects_first ?_,
    rejects_first ?_, rejects_first ?_, List.forall_mem_nil _⟩ <;> simpa

theorem repeats_bodyStatement {body : List Statement}
    (h : ∀ statement ∈ body, statement.InBody kind) (hbody : ¬Statement.ReturnTakesName body)
    (hspells : Spells (Statement.slotsAll body) tokens) (hrest : NextNot valueKinds rest) :
    bodyStatement.Repeats kind tokens rest body := by
  induction body generalizing tokens with
  | nil =>
    obtain rfl := Spells.nil_iff.1 hspells
    exact repeats_nil bodyStatement
  | cons statement body ih =>
    obtain ⟨first, second, rfl, hfirst, hsecond⟩ := Spells.append_iff.1 hspells
    have hothers : ∀ other ∈ body, other.InBody kind :=
      fun other hother => h other (List.mem_cons_of_mem statement hother)
    have hnext : statement = .returnLine none → NextNot valueKinds (second ++ rest) := by
      intro hstatement
      cases body with
      | nil =>
        obtain rfl := Spells.nil_iff.1 hsecond
        exact hrest
      | cons next body =>
        obtain ⟨front, back, rfl, hfront, _⟩ := Spells.append_iff.1 hsecond
        obtain ⟨token, others, rfl, hstart, hname⟩ :=
          (hothers next List.mem_cons_self).exists_cons hfront
        refine nextNot_cons.2 fun hvalue => hbody ?_
        have hidentifier : token.kind = .identifier := by
          simp only [valueKinds, Statement.bodyStarts, variableScopes, List.mem_cons,
            List.mem_append, List.not_mem_nil, or_false] at hvalue hstart
          rcases hvalue with hkind | hkind | hkind <;> simp_all
        obtain ⟨left, right, rfl⟩ := hname hidentifier
        exact ⟨[], left, right, body, by rw [hstatement]; rfl⟩
    obtain ⟨token, others, rfl, _⟩ := (h statement List.mem_cons_self).exists_cons hfirst
    exact (accepts_bodyStatement (h statement List.mem_cons_self) hfirst hnext).repeats (by simp)
      (ih hothers (fun hmisread => hbody (hmisread.cons statement)) hsecond)

theorem accepts_body {body : List Statement} {word : Keyword} {close last : Token}
    (h : ∀ statement ∈ body, statement.InBody (.keyword word))
    (hbody : ¬Statement.ReturnTakesName body) (hspells : Spells (Statement.slotsAll body) tokens)
    (hclose : close.kind = .keyword .endWord) :
    (inside (.keyword word) (many bodyStatement)).Accepts kind tokens (close :: last :: rest)
      body := by
  have hrepeats : bodyStatement.Repeats (.keyword word) tokens (close :: last :: rest) body :=
    repeats_bodyStatement h hbody hspells (nextNot_cons.2 (by simp [hclose, valueKinds]))
  have hend : bodyStatement.Rejects (.keyword word) (close :: last :: rest) :=
    rejects_bodyStatement (by simp [hclose, Statement.bodyStarts, variableScopes])
  exact (hrepeats.accepts_many bodyStatement_forward hend).inside

/-- The tokens of a callable: its first line up to the parenthesis, its arguments, what stands
between them and its end, and its end. -/
theorem exists_of_spells_callable {scope name : Token} {word : Keyword}
    {parameters : List Argument} {middle : List Slot}
    (hspells : Spells (Slot.signature scope word name parameters ++ middle ++ Slot.closing word)
      tokens) :
    ∃ mark opening arguments between close last,
      tokens = scope :: mark :: name :: opening :: (arguments ++ (between ++ [close, last])) ∧
        mark.kind = .keyword word ∧ opening.kind = .symbol .leftParen ∧
        Spells (Argument.slotsAll parameters ++ [.mark (.symbol .rightParen)]) arguments ∧
        Spells middle between ∧ close.kind = .keyword .endWord ∧ last.kind = .keyword word := by
  obtain ⟨_, closing, rfl, hfront, hclosing⟩ := Spells.append_iff.1 hspells
  obtain ⟨_, between, rfl, hsignature, hmiddle⟩ := Spells.append_iff.1 hfront
  simp only [Slot.signature, Slot.closing, Spells.part_iff, Spells.mark_iff, Spells.nil_iff]
    at hsignature hclosing
  obtain ⟨_, rfl, mark, _, rfl, hmark, _, rfl, opening, arguments, rfl, hopening, harguments⟩ :=
    hsignature
  obtain ⟨close, _, rfl, hclose, last, _, rfl, hlast, rfl⟩ := hclosing
  exact ⟨mark, opening, arguments, between, close, last, by simp, hmark, hopening, harguments,
    hmiddle, hclose, hlast⟩

theorem accepts_subroutine {scope name : Token} {parameters : List Argument}
    {body : List Statement} (h : (Statement.subroutine scope name parameters body).InModule)
    (hbody : ¬Statement.ReturnTakesName body)
    (hspells : Spells (Statement.subroutine scope name parameters body).slots tokens) :
    (subroutine bodyAlternatives).Accepts kind tokens rest
      (.subroutine scope name parameters body) := by
  obtain ⟨hscope, hname, hparameters, hstatements⟩ := h
  obtain ⟨mark, opening, arguments, between, close, last, rfl, hmark, hopening, harguments,
    hbetween, hclose, hlast⟩ := exists_of_spells_callable hspells
  exact (accepts_oneOf hscope).bind ((accepts_token hmark).bind ((accepts_token hname).bind
    ((accepts_token hopening).bind ((accepts_arguments hparameters harguments).bind
      ((accepts_body hstatements hbody hbetween hclose).bind ((accepts_token hclose).bind
        ((accepts_token hlast).bind (accepts_pure _))))))))

/-- A body of a function never misleads a return, for each of its returns carries a value. -/
theorem not_returnTakesName_of_function {body : List Statement}
    (h : ∀ statement ∈ body, statement.InBody (.keyword .functionWord)) :
    ¬Statement.ReturnTakesName body := by
  rintro ⟨before, left, right, after, rfl⟩
  exact (h (.returnLine none) (by simp)).2 rfl rfl

theorem accepts_function {scope name : Token} {parameters : List Argument}
    {returns : Option Token} {body : List Statement}
    (h : (Statement.function scope name parameters returns body).InModule)
    (hspells : Spells (Statement.function scope name parameters returns body).slots tokens) :
    (function bodyAlternatives).Accepts kind tokens rest
      (.function scope name parameters returns body) := by
  obtain ⟨hscope, hname, hparameters, hreturns, hstatements⟩ := h
  rw [Statement.slots, List.append_assoc (Slot.signature _ _ _ _)] at hspells
  obtain ⟨mark, opening, arguments, between, close, last, rfl, hmark, hopening, harguments,
    hbetween, hclose, hlast⟩ := exists_of_spells_callable hspells
  obtain ⟨front, statements, rfl, hfront, hback⟩ := Spells.append_iff.1 hbetween
  have hnext : returns = none →
      NextNot [.keyword .asWord] ((statements ++ [close, last]) ++ rest) := by
    intro _
    obtain ⟨token, others, htokens, hstart⟩ := Statement.exists_cons_of_spells_body
      hstatements ((hback.append (.mark hclose (.mark hlast .nil))).append Spells.nil)
    rw [List.append_nil] at htokens
    rw [htokens]
    refine nextNot_cons.2 fun hkind => ?_
    simp [List.mem_singleton.1 hkind, Statement.bodyStarts, variableScopes] at hstart
  rw [List.append_assoc front]
  exact (accepts_oneOf hscope).bind ((accepts_token hmark).bind ((accepts_token hname).bind
    ((accepts_token hopening).bind ((accepts_arguments hparameters harguments).bind
      ((accepts_following hreturns hnext hfront).bind
        ((accepts_body hstatements (not_returnTakesName_of_function hstatements) hback
          hclose).bind ((accepts_token hclose).bind ((accepts_token hlast).bind
            (accepts_pure _)))))))))

theorem rejects_enumeration {token other : Token} (htoken : token.kind ≠ .keyword .enumWord)
    (hother : other.kind ≠ .keyword .enumWord) :
    enumeration.Rejects kind (token :: other :: rest) := by
  by_cases hscope : token.kind ∈ enumerationScopes
  · have hoptional : (Rule.optional enumerationScopes).Accepts kind [token] (other :: rest)
        (some token) := accepts_optional (by simpa using hscope) (by simp) (.part token .nil)
    exact hoptional.bind_rejects (rejects_first (by simpa using hother))
  · have hoptional : (Rule.optional enumerationScopes).Accepts kind [] (token :: other :: rest)
        none := accepts_optional (by simp) (fun _ => nextNot_cons.2 hscope) .nil
    exact hoptional.bind_rejects (rejects_first (by simpa using htoken))

/-- No scope opens a record. -/
theorem scope_not_typeWord {token : Token} (h : token.kind ∈ variableScopes) :
    token.kind ∉ [.keyword .typeWord] := by
  intro hkind
  exact absurd h (by rw [List.mem_singleton.1 hkind]; decide)

theorem mem_variableScopes_of_callable {kind : Kind} (h : kind ∈ callableScopes) :
    kind ∈ variableScopes := by
  revert h
  simp only [callableScopes, variableScopes, List.mem_cons, List.not_mem_nil, or_false]
  rintro (h | h | h) <;> simp [h]

theorem mem_callableScopes_of_enumeration {kind : Kind} (h : kind ∈ enumerationScopes) :
    kind ∈ callableScopes := by
  revert h
  simp only [callableScopes, enumerationScopes, List.mem_cons, List.not_mem_nil, or_false]
  rintro (h | h) <;> simp [h]

theorem accepts_moduleStatement {statement : Statement} (h : statement.InModule)
    (hread : ¬statement.IsMisread) (hspells : Spells statement.slots tokens) :
    moduleStatement.Accepts kind tokens rest statement := by
  cases statement with
  | record name fields =>
    exact (accepts_record h hspells).choice [] moduleAlternatives_forward (by simp)
  | variableDecl scope name type =>
    refine (accepts_variableDecl h hspells).choice [record] moduleAlternatives_forward ?_
    obtain ⟨others, rfl, _⟩ := Spells.part_iff.1 hspells
    exact List.forall_mem_singleton.2 (rejects_first (scope_not_typeWord h.1))
  | constantDecl scope name type length value =>
    refine (accepts_constantDecl h hspells).choice [record, variableDecl]
      moduleAlternatives_forward ?_
    obtain ⟨_, rfl, hothers⟩ := Spells.part_iff.1 hspells
    obtain ⟨const, others, rfl, hconst, _⟩ := Spells.mark_iff.1 hothers
    simp only [List.forall_mem_cons]
    exact ⟨rejects_first (scope_not_typeWord h.1), rejects_second (by simp [hconst]),
      List.forall_mem_nil _⟩
  | subroutine scope name parameters body =>
    refine (accepts_subroutine h hread hspells).choice [record, variableDecl, constantDecl]
      moduleAlternatives_forward ?_
    obtain ⟨_, rfl, hothers⟩ := Spells.part_iff.1 hspells
    obtain ⟨sub, others, rfl, hsub, _⟩ := Spells.mark_iff.1 hothers
    simp only [List.forall_mem_cons]
    exact ⟨rejects_first (scope_not_typeWord (mem_variableScopes_of_callable h.1)),
      rejects_second (by simp [hsub]), rejects_second (by simp [hsub]), List.forall_mem_nil _⟩
  | function scope name parameters returns body =>
    refine (accepts_function h hspells).choice [record, variableDecl, constantDecl,
      subroutine bodyAlternatives] moduleAlternatives_forward ?_
    obtain ⟨_, rfl, hothers⟩ := Spells.part_iff.1 hspells
    obtain ⟨word, others, rfl, hword, _⟩ := Spells.mark_iff.1 hothers
    simp only [List.forall_mem_cons]
    exact ⟨rejects_first (scope_not_typeWord (mem_variableScopes_of_callable h.1)),
      rejects_second (by simp [hword]), rejects_second (by simp [hword]),
      rejects_second (by simp [hword]), List.forall_mem_nil _⟩
  | enumeration scope name members =>
    refine (accepts_enumeration h hspells).choice [record, variableDecl, constantDecl,
      subroutine bodyAlternatives, function bodyAlternatives] moduleAlternatives_forward ?_
    cases scope with
    | none =>
      obtain ⟨word, others, rfl, hword, _⟩ := Spells.mark_iff.1 hspells
      simp only [List.forall_mem_cons]
      refine ⟨?_, ?_, ?_, ?_, ?_, List.forall_mem_nil _⟩ <;>
        exact rejects_first (by simp [hword, variableScopes, callableScopes])
    | some scope =>
      have hscope := mem_callableScopes_of_enumeration (h.1 scope rfl)
      obtain ⟨_, rfl, hothers⟩ := Spells.part_iff.1 hspells
      obtain ⟨word, others, rfl, hword, _⟩ := Spells.mark_iff.1 hothers
      simp only [List.forall_mem_cons]
      exact ⟨rejects_first (scope_not_typeWord (mem_variableScopes_of_callable hscope)),
        rejects_second (by simp [hword]), rejects_second (by simp [hword]),
        rejects_second (by simp [hword]), rejects_second (by simp [hword]), List.forall_mem_nil _⟩
  | attributeLine name value =>
    refine (accepts_attributeLine h hspells).choice [record, variableDecl, constantDecl,
      subroutine bodyAlternatives, function bodyAlternatives, enumeration]
      moduleAlternatives_forward ?_
    obtain ⟨word, _, rfl, hword, hothers⟩ := Spells.mark_iff.1 hspells
    obtain ⟨others, rfl, _⟩ := Spells.part_iff.1 hothers
    simp only [List.forall_mem_cons]
    refine ⟨?_, ?_, ?_, ?_, ?_, rejects_enumeration (by simp [hword]) (by simp [h.1]),
      List.forall_mem_nil _⟩ <;>
      exact rejects_first (by simp [hword, variableScopes, callableScopes])
  | optionLine config value =>
    refine (accepts_optionLine h hspells).choice [record, variableDecl, constantDecl,
      subroutine bodyAlternatives, function bodyAlternatives, enumeration, attributeLine]
      moduleAlternatives_forward ?_
    obtain ⟨word, _, rfl, hword, hothers⟩ := Spells.mark_iff.1 hspells
    obtain ⟨others, rfl, _⟩ := Spells.part_iff.1 hothers
    have hconfig : config.kind ≠ .keyword .enumWord := by
      obtain ⟨hkind, _⟩ | ⟨_, _, ⟨hkind, _⟩ | ⟨hkind, _⟩ | ⟨hkind, _⟩⟩ := h <;> simp [hkind]
    simp only [List.forall_mem_cons]
    refine ⟨?_, ?_, ?_, ?_, ?_, rejects_enumeration (by simp [hword]) hconfig, ?_,
      List.forall_mem_nil _⟩ <;>
      exact rejects_first (by simp [hword, variableScopes, callableScopes])
  | _ => exact h.elim

/-- A subroutine whose body breaks off before its end is no statement of a module. -/
theorem rejects_moduleStatement_of_broken_body {scope mark name opening : Token}
    {parameters : List Argument} {arguments between : List Token} {body : List Statement}
    (hscope : scope.kind ∈ callableScopes) (hmark : mark.kind = .keyword .subWord)
    (hname : name.kind = .identifier) (hopening : opening.kind = .symbol .leftParen)
    (hparameters : ∀ parameter ∈ parameters, parameter.WellFormed)
    (harguments : Spells (Argument.slotsAll parameters ++ [.mark (.symbol .rightParen)]) arguments)
    (hbody : (many bodyStatement).Accepts (.keyword .subWord) between rest body)
    (hrest : NextNot [.keyword .endWord] rest) :
    moduleStatement.Rejects kind
      (scope :: mark :: name :: opening :: (arguments ++ (between ++ rest))) := by
  have hsubroutine : (subroutine bodyAlternatives).Rejects kind
      (scope :: mark :: name :: opening :: (arguments ++ (between ++ rest))) :=
    (accepts_oneOf hscope).bind_rejects ((accepts_token hmark).bind_rejects
      ((accepts_token hname).bind_rejects ((accepts_token hopening).bind_rejects
        ((accepts_arguments hparameters harguments).bind_rejects
          (hbody.inside.bind_rejects ((rejects_token hrest).bind _))))))
  refine rejects_choice moduleAlternatives_forward ?_
  simp only [moduleAlternatives, List.forall_mem_cons]
  have hkinds : scope.kind ≠ .keyword .enumWord ∧ scope.kind ≠ .keyword .attributeWord ∧
      scope.kind ≠ .keyword .optionWord := by
    refine ⟨?_, ?_, ?_⟩ <;>
      · intro hkind
        simp [hkind, callableScopes] at hscope
  exact ⟨rejects_first (scope_not_typeWord (mem_variableScopes_of_callable hscope)),
    rejects_second (by simp [hmark]), rejects_second (by simp [hmark]), hsubroutine,
    rejects_second (by simp [hmark]), rejects_enumeration hkinds.1 (by simp [hmark]),
    rejects_first (by simpa using hkinds.2.1), rejects_first (by simpa using hkinds.2.2),
    List.forall_mem_nil _⟩

/-- The return takes the name of the assignment for its value, and its body breaks off at the
equals sign. -/
theorem rejects_moduleStatement_of_isMisread {statement : Statement} (h : statement.InModule)
    (hmisread : statement.IsMisread) (hspells : Spells statement.slots tokens) :
    moduleStatement.Rejects kind (tokens ++ rest) := by
  cases statement with
  | subroutine scope name parameters body =>
    obtain ⟨hscope, hname, hparameters, hstatements⟩ := h
    obtain ⟨mark, opening, arguments, between, close, last, rfl, hmark, hopening, harguments,
      hbetween, hclose, hlast⟩ := exists_of_spells_callable hspells
    obtain ⟨before, left, right, after, rfl, hbefore⟩ := hmisread.exists_first
    rw [Statement.slotsAll_append] at hbetween
    obtain ⟨first, _, rfl, hfirst, hsecond⟩ := Spells.append_iff.1 hbetween
    obtain ⟨word, _, rfl, hword, hpart⟩ := Spells.mark_iff.1 hsecond
    obtain ⟨_, rfl, hmore⟩ := Spells.part_iff.1 hpart
    obtain ⟨sign, others, rfl, hsign, _⟩ := Spells.mark_iff.1 hmore
    have hleft : left.kind = .identifier := (hstatements (.assignment left right) (by simp)).1
    let more := sign :: (others ++ [close, last] ++ rest)
    have hrepeats : bodyStatement.Repeats (.keyword .subWord) first ([word, left] ++ more) before :=
      repeats_bodyStatement (fun statement hmem => hstatements statement (by simp [hmem])) hbefore
        hfirst (nextNot_cons.2 (by simp [hword, valueKinds]))
    have hreturn : bodyStatement.Accepts (.keyword .subWord) [word, left] more
        (.returnLine (some left)) :=
      accepts_bodyStatement ⟨by simp [hleft, valueKinds], by simp⟩
        (.mark hword (.part left .nil)) (by simp)
    have hend : bodyStatement.Rejects (.keyword .subWord) more :=
      rejects_bodyStatement (by simp [hsign, Statement.bodyStarts, variableScopes])
    have hbody := (hrepeats.append (hreturn.repeats (by simp) (repeats_nil _))).accepts_many
      bodyStatement_forward hend
    have hbroken : moduleStatement.Rejects kind _ := rejects_moduleStatement_of_broken_body hscope
      hmark hname hopening hparameters harguments hbody (nextNot_cons.2 (by simp [hsign]))
    simpa [more] using hbroken
  | _ => exact hmisread.elim

theorem ne_nil_of_spells_inModule {statement : Statement} (h : statement.InModule)
    (hspells : Spells statement.slots tokens) : tokens ≠ [] := by
  rintro rfl
  cases statement with
  | enumeration scope name members =>
    cases scope <;> cases hspells
  | field member => exact h.elim
  | enumerator member => exact h.elim
  | argument parameter => exact h.elim
  | absent => exact h.elim
  | _ => cases hspells

theorem repeats_moduleStatement {statements : List Statement}
    (h : ∀ statement ∈ statements, statement.InModule)
    (hread : ∀ statement ∈ statements, ¬statement.IsMisread)
    (hspells : Spells (Statement.slotsAll statements) tokens) :
    moduleStatement.Repeats kind tokens rest statements := by
  rw [Statement.slotsAll_eq_flatMap] at hspells
  exact (repeats_of_accepts (fun _ => True)
    (fun statement hmem _ _ hstatement _ =>
      accepts_moduleStatement (h statement hmem) (hread statement hmem) hstatement)
    (fun statement hmem _ _ hstatement =>
      ⟨ne_nil_of_spells_inModule (h statement hmem) hstatement, trivial⟩) hspells trivial).1

end Constructs

theorem parse_eq (tokens : List Token) :
    parse tokens =
      match Rule.many moduleStatement ⟨0, tokens, .illegal⟩ with
      | .matched statements after => .ok (statements, after.rest.length)
      | .stuck stop => .ok ([], stop.rest.length)
      | .failed fault _ => .error fault := by
  rw [parse_eq_map, State.parse_eq_many, State.ofTokens]
  cases Rule.many moduleStatement ⟨0, tokens, .illegal⟩ <;> rfl

def Relabeling.shift (count : Nat) : Relabeling := ⟨id, fun _ => rfl, count⟩

theorem Relabeling.statement_shift (count : Nat) : (shift count).statement = id := by
  funext statement
  exact statement.mapTokens_id

theorem Relabeling.fault_shift (count : Nat) (fault : Fault) :
    (shift count).fault fault = fault.shift count := by
  cases fault <;> simp [Relabeling.fault, shift, Fault.shift]

/-- Reading that begins later differs only in the positions. -/
theorem many_moduleStatement_shift (count : Nat) (rest : List Token) (kind : Kind) :
    Rule.many moduleStatement ⟨count, rest, kind⟩ =
      (Relabeling.shift count).outcome id (Rule.many moduleStatement ⟨0, rest, kind⟩) := by
  have h := (moduleStatement_relabels (.shift count)).many ⟨0, rest, kind⟩
  have hstate : (Relabeling.shift count).state ⟨0, rest, kind⟩ = ⟨count, rest, kind⟩ := by
    simp [Relabeling.state, Relabeling.shift]
  rw [hstate, Relabeling.statement_shift, List.map_id_fun] at h
  exact h

theorem parse_append_of_repeats {statements : List Statement} {tokens rest : List Token}
    (h : moduleStatement.Repeats .illegal tokens rest statements) :
    parse (tokens ++ rest) =
      match parse rest with
      | .ok (others, remaining) => .ok (statements ++ others, remaining)
      | .error fault => .error (fault.shift tokens.length) := by
  rw [parse_eq, parse_eq, h 0, Nat.zero_add, many_moduleStatement_shift]
  cases hmany : Rule.many moduleStatement ⟨0, rest, .illegal⟩ with
  | matched others after => simp [Relabeling.outcome, Relabeling.state]
  | stuck stop => exact absurd hmany (Rule.many_ne_stuck _ _ _)
  | failed fault stop => simp [Relabeling.outcome, Relabeling.fault_shift]

/-- A list that holds a misread subroutine holds a first one. -/
theorem exists_first_isMisread {statements : List Statement}
    (h : ∃ statement ∈ statements, statement.IsMisread) :
    ∃ before misread after, statements = before ++ misread :: after ∧
      (∀ statement ∈ before, ¬statement.IsMisread) ∧ misread.IsMisread := by
  induction statements with
  | nil => simp at h
  | cons first statements ih =>
    by_cases hfirst : first.IsMisread
    · exact ⟨[], first, statements, rfl, by simp, hfirst⟩
    · have hothers : ∃ statement ∈ statements, statement.IsMisread := by
        obtain ⟨statement, hmem, hmisread⟩ := h
        rcases List.mem_cons.1 hmem with rfl | hmem
        · exact absurd hmisread hfirst
        · exact ⟨statement, hmem, hmisread⟩
      obtain ⟨before, misread, after, rfl, hbefore, hmisread⟩ := ih hothers
      refine ⟨first :: before, misread, after, rfl, ?_, hmisread⟩
      exact List.forall_mem_cons.2 ⟨hfirst, hbefore⟩

/-- Tokens that spell well-formed statements are read as those statements, whatever follows: then
reading goes on as it would have begun there.  Where a subroutine among them is misread, reading
ends before the first such subroutine. -/
theorem parse_append_of_spells {statements : List Statement} {tokens : List Token}
    (h : ∀ statement ∈ statements, statement.InModule)
    (hspells : Spells (Statement.slotsAll statements) tokens) (rest : List Token) :
    ((∀ statement ∈ statements, ¬statement.IsMisread) →
      parse (tokens ++ rest) =
        match parse rest with
        | .ok (others, remaining) => .ok (statements ++ others, remaining)
        | .error fault => .error (fault.shift tokens.length)) ∧
      ((∃ statement ∈ statements, statement.IsMisread) →
        ∃ before misread after front back,
          statements = before ++ misread :: after ∧
            (∀ statement ∈ before, ¬statement.IsMisread) ∧ misread.IsMisread ∧
            tokens = front ++ back ∧ Spells (Statement.slotsAll before) front ∧
            Spells (Statement.slotsAll (misread :: after)) back ∧
            parse (tokens ++ rest) = .ok (before, (back ++ rest).length)) := by
  constructor
  · intro hread
    exact parse_append_of_repeats (repeats_moduleStatement h hread hspells)
  · intro hmisread
    obtain ⟨before, misread, after, rfl, hbefore, hmisread⟩ := exists_first_isMisread hmisread
    rw [Statement.slotsAll_append] at hspells
    obtain ⟨front, back, rfl, hfront, hback⟩ := Spells.append_iff.1 hspells
    refine ⟨before, misread, after, front, back, rfl, hbefore, hmisread, rfl, hfront, hback, ?_⟩
    obtain ⟨first, others, rfl, hfirst, _⟩ := Spells.append_iff.1 hback
    have hstuck : moduleStatement.Rejects .illegal ((first ++ others) ++ rest) := by
      rw [List.append_assoc]
      exact rejects_moduleStatement_of_isMisread (h misread (by simp)) hmisread hfirst
    have hnothing : parse ((first ++ others) ++ rest) =
        .ok ([], ((first ++ others) ++ rest).length) := by
      rw [parse_eq, hstuck.many moduleStatement_forward]
    have hrepeats : moduleStatement.Repeats .illegal front ((first ++ others) ++ rest) before :=
      repeats_moduleStatement (fun statement hmem => h statement (by simp [hmem])) hbefore hfront
    rw [List.append_assoc front, parse_append_of_repeats hrepeats, hnothing]
    simp

/-- `Dim x As x` before `Public Sub x(Dim`, whose fault is met four tokens later, and before
`Public Sub x() Return x = x End Sub`, at which reading ends. -/
theorem parse_append_of_spells_declaration :
    let word (keyword : Keyword) : Token := { kind := .keyword keyword }
    let sign (symbol : Symbol) : Token := { kind := .symbol symbol }
    let name : Token := { kind := .identifier, literal := [0x78] }
    let declaration : Statement := .variableDecl (word .dimWord) name name
    let misread : Statement := .subroutine (word .publicWord) name []
      [.returnLine none, .assignment name name]
    let first := [word .dimWord, name, word .asWord, name]
    let second := [word .publicWord, word .subWord, name, sign .leftParen, sign .rightParen,
      word .returnWord, name, sign .equals, name, word .endWord, word .subWord]
    let broken := [word .publicWord, word .subWord, name, sign .leftParen, word .dimWord]
    (Spells (Statement.slotsAll [declaration]) first ∧
      parse (first ++ broken) = .error (.malformedArguments 8 (some (word .dimWord)))) ∧
    (Spells (Statement.slotsAll [declaration, misread]) (first ++ second) ∧
      parse (first ++ second ++ broken) = .ok ([declaration], 16)) := by
  intro word sign name declaration misread first second broken
  have hdeclaration : declaration.InModule := ⟨by simp [word, variableScopes], rfl, rfl⟩
  have hmisread : misread.InModule := by
    refine ⟨by simp [word, callableScopes], rfl, by simp, ?_⟩
    simp [Statement.InBody, name, valueKinds]
  have hfirst : Spells (Statement.slotsAll [declaration]) first :=
    .part _ (.part _ (.mark rfl (.part _ .nil)))
  have hboth : Spells (Statement.slotsAll [declaration, misread]) (first ++ second) :=
    .part _ (.part _ (.mark rfl (.part _ (.part _ (.mark rfl (.part _ (.mark rfl (.mark rfl
      (.mark rfl (.part _ (.mark rfl (.part _ (.mark rfl (.mark rfl .nil))))))))))))))
  refine ⟨⟨hfirst, ?_⟩, hboth, ?_⟩
  · have hbroken : parse broken = .error (.malformedArguments 4 (some (word .dimWord))) := by cbv
    rw [(parse_append_of_spells (by simpa using hdeclaration) hfirst broken).1
      (by simp [declaration, Statement.IsMisread]), hbroken]
    rfl
  · obtain ⟨before, found, after, front, back, hsplit, _, hfound, htokens, hfront, _, hparse⟩ :=
      (parse_append_of_spells (by simp [hdeclaration, hmisread]) hboth broken).2
        ⟨misread, by simp, [], name, name, [], rfl⟩
    obtain rfl : before = [declaration] := by
      rcases before with _ | ⟨statement, _ | ⟨other, before⟩⟩
      · simp only [List.nil_append, List.cons.injEq] at hsplit
        rw [← hsplit.1] at hfound
        exact hfound.elim
      · simp only [List.cons_append, List.cons.injEq] at hsplit
        rw [hsplit.1]
      · simp at hsplit
    simp only [Statement.slotsAll, Statement.slots, declaration, List.append_nil, Spells.part_iff,
      Spells.mark_iff, Spells.nil_iff] at hfront
    obtain ⟨_, rfl, _, rfl, as, _, rfl, _, _, rfl, rfl⟩ := hfront
    obtain ⟨_, rfl⟩ : word .asWord = as ∧ second = back := by simpa [first] using htokens
    exact hparse

end Grammar

end LegacyBasic
