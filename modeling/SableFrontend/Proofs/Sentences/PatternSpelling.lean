import Mathlib.Data.List.Basic
import SableFrontend.Proofs.Sentences.Words
import SableFrontend.Proofs.Tree.Structure

/-!
Patterns as they are written. `Pattern.words` writes a pattern as an atom: with round brackets around a
constructor that has arguments, and with a minus sign in front of a number below zero. Where these words
stand, each bracket of fields right behind its constructor, the pattern is read from them
(`Pattern.atom_written`).
-/

namespace SableFrontend

open TokenStream

namespace Numeral

/-- A decimal digit is no letter: it announces no radix. -/
theorem of_isDigit {c : Char} (h : c.isDigit = true) :
    digitValue c = c.toNat - '0'.toNat ∧ Radix.ofLetter? c = none ∧ (c != '_') = true := by
  have hbounds : 48 ≤ c.toNat ∧ c.toNat ≤ 57 := by
    rw [Char.isDigit, Bool.and_eq_true, decide_eq_true_iff, decide_eq_true_iff] at h
    exact ⟨h.1, h.2⟩
  have hall : ∀ code < 10, digitValue (Char.ofNat (48 + code)) = (Char.ofNat (48 + code)).toNat - '0'.toNat ∧
      Radix.ofLetter? (Char.ofNat (48 + code)) = none ∧ (Char.ofNat (48 + code) != '_') = true := by decide
  have hcode := hall (c.toNat - 48) (by omega)
  rwa [Nat.add_sub_cancel' hbounds.1, Char.ofNat_toNat] at hcode

/-- A number, written with its decimal digits, is the number that they denote. -/
theorem integerValue_toString {number : Nat} (h : (toString number).length ≤ maxDecimalDigits) :
    integerValue (toString number).toList = .ok number := by
  have hwritten : (toString number).toList = Nat.toDigits 10 number := Nat.toList_repr
  rw [← String.length_toList, hwritten] at h
  rw [hwritten]
  have hdigit : ∀ c ∈ Nat.toDigits 10 number, c.isDigit = true := fun c hmem =>
    Nat.isDigit_of_mem_toDigits (by decide) (by decide) hmem
  have hnumber : ofDigits 10 (Nat.toDigits 10 number) = number := by
    refine Eq.trans ?_ Nat.ofDigitChars_ten_toDigits
    rw [Nat.ofDigitChars_eq_foldl, ofDigits]
    refine List.foldl_ext _ _ _ fun value c hmem => ?_
    rw [(of_isDigit (hdigit c hmem)).1, Nat.mul_comm]
  have hdecimal : integerValue.decimalValue (Nat.toDigits 10 number) = .ok number := by
    rw [integerValue.decimalValue, if_pos h, hnumber]
  have hplain : digitsOf (Nat.toDigits 10 number) = Nat.toDigits 10 number :=
    List.filter_eq_self.2 fun c hmem => (of_isDigit (hdigit c hmem)).2.2
  rw [integerValue, hplain]
  split
  · next letter body hdigits =>
    rw [(of_isDigit (hdigit letter (by rw [hdigits]; simp))).2.1, ← hdigits]
    exact hdecimal
  · exact hdecimal

end Numeral

/-- The digits of a number denote it as a literal. -/
theorem Literal.ofToken_integer {value : Int} {token : Token} (hkind : token.kind = .literal .integer)
    (hvalue : token.value = toString value.natAbs)
    (hlength : (toString value.natAbs).length ≤ Numeral.maxDecimalDigits) :
    Literal.ofToken token = .ok (.integer value.natAbs token.span) := by
  rw [Literal.ofToken, hkind, hvalue]
  dsimp only
  rw [Numeral.integerValue_toString hlength]
  rfl

/-! ### Writing -/

/-- The words of a literal. A number below zero has a minus sign in front of it. Floats are not written: many
spellings have one value. -/
def Literal.words : Literal → List Word
  | .integer value _ =>
    let digits : Word := { kind := .literal .integer, value := toString value.natAbs }
    if value < 0 then [.sign "-", digits] else [digits]
  | .float _ _ => []
  | .text value _ => [{ kind := .literal .text, value := value }]
  | .character value _ => [{ kind := .literal .character, value := value }]

mutual

/-- The words of a pattern. -/
def Pattern.words : Pattern → List Word
  | .wildcard _ => [{ kind := .identifier, value := "_" }]
  | .binding name _ => [{ kind := .identifier, value := name }]
  | .literal value _ => value.words
  | .constructor name arguments none _ =>
    let head : Word := { kind := .typeIdentifier, value := name }
    if arguments.isEmpty then [head]
    else Word.enclosed .round (head :: arguments.flatMap fun argument => argument.words)
  | .constructor name _ (some fields) _ => { kind := .typeIdentifier, value := name } ::
    Word.enclosed .square (List.intercalate [Word.comma] (fields.map fun field => field.words))
  | .listCons head tail _ => Word.enclosed .curly (head.words ++ .sign "|" :: tail.words)
  | .list elements _ =>
    Word.enclosed .curly (List.intercalate [Word.comma] (elements.map fun element => element.words))
  | .tuple elements _ =>
    Word.enclosed .round (List.intercalate [Word.comma] (elements.map fun element => element.words))

def FieldPattern.words : FieldPattern → List Word
  | { name := name, pattern := none, span := _ } => [{ kind := .identifier, value := name }]
  | { name := name, pattern := some pattern, span := _ } =>
    { kind := .identifier, value := name } :: .sign "=" :: pattern.words

end

mutual

/-- How many levels the words of a pattern nest in others. -/
def Pattern.nesting : Pattern → Nat
  | .wildcard _ | .binding _ _ | .literal _ _ => 0
  | .constructor _ arguments none _ =>
    if arguments.isEmpty then 0
    else (arguments.map fun argument => argument.nesting).foldr max 0 + 1
  | .constructor _ _ (some fields) _ => (fields.map fun field => field.nesting).foldr max 0
  | .listCons head tail _ => max head.nesting tail.nesting + 1
  | .list elements _ | .tuple elements _ =>
    (elements.map fun element => element.nesting + 1).foldr max 0

def FieldPattern.nesting : FieldPattern → Nat
  | { name := _, pattern := none, span := _ } => 0
  | { name := _, pattern := some pattern, span := _ } => pattern.nesting + 1

end

namespace Pattern

/-- The patterns that can be written: no name is an underscore, no number has too many digits and none is a
float, a constructor has either arguments or at least one field, and no tuple has one element alone. -/
inductive Writable : Pattern → Prop
  | wildcard {span : Span} : Writable (.wildcard span)
  | binding {name : String} {span : Span} (hname : name ≠ "_") : Writable (.binding name span)
  | integer {value : Int} {place span : Span}
      (hlength : (toString value.natAbs).length ≤ Numeral.maxDecimalDigits) :
      Writable (.literal (.integer value place) span)
  | text {value : String} {place span : Span} : Writable (.literal (.text value place) span)
  | character {value : String} {place span : Span} : Writable (.literal (.character value place) span)
  | constructor {name : String} {arguments : List Pattern} {span : Span}
      (harguments : ∀ argument ∈ arguments, Writable argument) :
      Writable (.constructor name arguments none span)
  | record {name : String} {fields : List FieldPattern} {span : Span} (hsome : fields ≠ [])
      (hnames : ∀ field ∈ fields, field.name ≠ "_")
      (hpatterns : ∀ field ∈ fields, ∀ pattern, field.pattern = some pattern → Writable pattern) :
      Writable (.constructor name [] (some fields) span)
  | listCons {head tail : Pattern} {span : Span} (hhead : Writable head) (htail : Writable tail) :
      Writable (.listCons head tail span)
  | list {elements : List Pattern} {span : Span} (helements : ∀ element ∈ elements, Writable element) :
      Writable (.list elements span)
  | tuple {elements : List Pattern} {span : Span} (hlength : elements.length ≠ 1)
      (helements : ∀ element ∈ elements, Writable element) : Writable (.tuple elements span)

end Pattern

namespace TokenStream

variable {stream : TokenStream} {start stop : Nat}

/-- Each square bracket that opens behind the first token of a stretch touches the token in front of it. -/
def Joined (stream : TokenStream) (start stop : Nat) : Prop :=
  ∀ position, start ≤ position → position + 1 < stop → stream.kind (position + 1) = .opener .square →
    (stream.token position).touches (stream.token (position + 1)) = true

theorem Joined.mono {first last : Nat} (h : stream.Joined start stop) (hle : start ≤ first)
    (hle' : last ≤ stop) : stream.Joined first last :=
  fun position hposition hlt => h position (Nat.le_trans hle hposition) (Nat.lt_of_lt_of_le hlt hle')

/-- No square bracket touches the token in front of it. -/
def Detached (stream : TokenStream) (position : Nat) : Prop :=
  stream.kind position = .opener .square →
    (stream.token (position - 1)).touches (stream.token position) = false

end TokenStream

/-! ### Reading -/

namespace Parser

variable {stream : TokenStream} {inner : Parser Pattern} {start stop : Nat} {value : Pattern}

/-- The kinds of tokens that patterns begin with, apart from the minus sign of a number. -/
def opensPattern : TokenKind → Bool
  | .literal _ | .identifier | .typeIdentifier | .opener .round | .opener .curly => true
  | _ => false

/-- The kinds of tokens that stand behind a pattern inside of another one. -/
def endsPattern : TokenKind → Bool
  | .comma | .pipe | .closer _ => true
  | _ => false

theorem consumes_startsPatternAtom (h : opensPattern (stream.kind start) = true) :
    stream.Consumes startsPatternAtom start true start := by
  refine .bind .current ?_
  change opensPattern (stream.token start).kind = true at h
  unfold opensPattern at h
  split at h <;> first | exact Bool.noConfusion h | exact .pure | (next hkind => rw [hkind]; exact .pure)

theorem consumes_not_startsPatternAtom (h : opensPattern (stream.kind start) = false)
    (hsign : stream.kind start ≠ .operator) : stream.Consumes startsPatternAtom start false start := by
  refine .bind .current ?_
  change opensPattern (stream.token start).kind = false at h
  have hother : (stream.token start).isOperator "-" = false := by
    rw [Token.isOperator, show ((stream.token start).kind == .operator) = false from
      beq_eq_false_iff_ne.2 hsign, Bool.false_and]
  split
  iterate 5 next hkind => rw [hkind] at h; cases h
  rw [hother]
  exact .bind .peek .pure

theorem consumes_startsPatternAtom_of_ends (h : endsPattern (stream.kind start) = true) :
    stream.Consumes startsPatternAtom start false start := by
  refine consumes_not_startsPatternAtom ?_ ?_ <;> revert h <;> cases stream.kind start <;>
    simp [endsPattern, opensPattern]

/-- The token that a pattern begins with is no other than those. -/
theorem kind_ne_of_startsPatternAtom (h : stream.Consumes startsPatternAtom start true start)
    {kind : TokenKind} (hkind : opensPattern kind = false) (hsign : kind ≠ .operator) :
    stream.kind start ≠ kind := by
  rintro rfl
  cases (h.unique (consumes_not_startsPatternAtom hkind hsign)).1

theorem consumes_literalOf {token : Token} {literal : Literal} (h : Literal.ofToken token = .ok literal) :
    stream.Consumes (literalOf token) start literal start := by
  rw [literalOf, h]
  exact .pure

theorem consumes_recordBracketFollows : stream.Consumes recordBracketFollows start
    (stream.kind (start + 1) == .opener .square && (stream.token start).touches (stream.token (start + 1)))
    start :=
  .bind .peek (.bind .current .pure)

/-- A constructor with no bracket behind it stands for itself, as an atom. -/
theorem consumes_constructor (hkind : stream.kind start = .typeIdentifier)
    (hbracket : (stream.kind (start + 1) == .opener .square &&
      (stream.token start).touches (stream.token (start + 1))) = false) :
    stream.Consumes (patternAtom inner) start
      (.constructor (stream.token start).value [] none (stream.token start).span) (start + 1) := by
  refine .bind .current ?_
  rw [show (stream.token start).kind = _ from hkind]
  exact .bind (.advance (by rw [hkind]; exact TokenKind.noConfusion)) (.bind .current
    (.ite_neg (Bool.eq_false_iff.1 hbracket) .pure))

/-- What is read as an atom is read as a pattern, where no argument can follow. -/
theorem exists_consumes_pattern (h : stream.Consumes (patternAtom inner) start value stop)
    (hends : endsPattern (stream.kind stop) = true) :
    ∃ value' : Pattern, value'.relocate .forget = value.relocate .forget ∧
      stream.Consumes (pattern inner) start value' stop := by
  by_cases hplain : ((stream.token start).kind == .typeIdentifier && !(stream.kind (start + 1) ==
      .opener .square && (stream.token start).touches (stream.token (start + 1)))) = true
  · obtain ⟨hkind, hbracket⟩ := Bool.and_eq_true_iff.1 hplain
    replace hkind : stream.kind start = .typeIdentifier := beq_iff_eq.1 hkind
    obtain ⟨rfl, rfl⟩ := h.unique (consumes_constructor hkind ((Bool.not_eq_true' _).mp hbracket))
    have hend : stream.kind start ≠ .endOfFile := by rw [hkind]; exact TokenKind.noConfusion
    refine ⟨_, ?_, .bind .current (.bind consumes_recordBracketFollows (.ite_pos hplain (.bind (.advance hend)
      (.bind ((@Repeated.none _ (fun _ _ _ => False) _).consumes nofun nofun
        (succ_lt_size_of_kind rfl hend) (consumes_startsPatternAtom_of_ends hends)) (.bind .spanFrom .pure)))))⟩
    rw [Pattern.relocate, Pattern.relocate, Span.relocate_forget _ (stream.token start).span]
  · exact ⟨value, rfl, .bind .current (.bind consumes_recordBracketFollows (.ite_neg hplain h))⟩

/-- A pattern begins at one place and is read as an atom up to another one, if no bracket touches it there. -/
structure IsAtom (stream : TokenStream) (budget start stop : Nat) (value : Pattern) : Prop where
  lt : start < stop
  starts : stream.Consumes startsPatternAtom start true start
  consumes : stream.Detached stop → stream.Consumes (patternAtom (patternAt budget)) start value stop

/-- A pattern begins at one place and is read up to another one, if one inside of brackets can end there. -/
structure IsInner (stream : TokenStream) (budget start stop : Nat) (value : Pattern) : Prop where
  lt : start < stop
  starts : stream.Consumes startsPatternAtom start true start
  consumes : endsPattern (stream.kind stop) = true → stream.Consumes (patternAt budget) start value stop

variable {budget middle : Nat}

theorem IsAtom.exists_inner (h : IsAtom stream budget start stop value) :
    ∃ value' : Pattern, value'.relocate .forget = value.relocate .forget ∧
      IsInner stream (budget + 1) start stop value' := by
  by_cases hends : endsPattern (stream.kind stop) = true
  · have hdetached : stream.Detached stop := fun hkind => by rw [hkind] at hends; cases hends
    obtain ⟨value', hvalue, hconsumes⟩ := exists_consumes_pattern (h.consumes hdetached) hends
    exact ⟨value', hvalue, h.lt, h.starts, fun _ => hconsumes⟩
  · exact ⟨value, rfl, h.lt, h.starts, fun hends' => absurd hends' hends⟩

/-- A bracket is not closed where a pattern begins. -/
theorem IsInner.isAt_closer (h : IsInner stream budget start stop value) (bracket : Bracket) :
    stream.Consumes (isAt (.closer bracket)) start false start :=
  .isAt_eq (beq_eq_false_iff_ne.2 (kind_ne_of_startsPatternAtom h.starts rfl TokenKind.noConfusion))

theorem IsInner.skipNewlines (h : IsInner stream budget start stop value) :
    stream.Consumes Parser.skipNewlines start () start :=
  .skipWhile (beq_eq_false_iff_ne.2 (kind_ne_of_startsPatternAtom h.starts rfl TokenKind.noConfusion))

theorem consumes_skipNewlines (h : endsPattern (stream.kind start) = true) :
    stream.Consumes skipNewlines start () start :=
  .skipWhile (beq_eq_false_iff_ne.2 fun hkind => by rw [hkind] at h; cases h)

theorem consumes_round (hopen : stream.kind start = .opener .round)
    (h : stream.Consumes (roundPattern inner) start value stop) :
    stream.Consumes (patternAtom inner) start value stop := by
  refine .bind .current ?_
  rw [show (stream.token start).kind = _ from hopen]
  exact h

theorem consumes_curly (hopen : stream.kind start = .opener .curly)
    (h : stream.Consumes (curlyPattern inner) start value stop) :
    stream.Consumes (patternAtom inner) start value stop := by
  refine .bind .current ?_
  rw [show (stream.token start).kind = _ from hopen]
  exact h

/-- A pattern in round brackets. -/
theorem IsInner.enclosed (h : IsInner stream budget (start + 1) middle value)
    (hopen : stream.kind start = .opener .round) (hclose : stream.kind middle = .closer .round) :
    stream.Consumes (patternAtom (patternAt budget)) start value (middle + 1) := by
  refine consumes_round hopen (.bind (.advance (by rw [hopen]; exact TokenKind.noConfusion)) ?_)
  refine .bind (h.isAt_closer .round) (.ite_neg Bool.false_ne_true ?_)
  refine .bind (h.consumes (by rw [hclose]; rfl)) (.bind (.isAt_eq (by rw [hclose])) (.ite_pos rfl ?_))
  exact .bind (.expect hclose TokenKind.noConfusion) .pure

variable {values : List Pattern}

/-- A tuple of no pattern, or of two at least. -/
theorem consumes_tuple (hopen : stream.kind start = .opener .round)
    (h : values = [] ∧ start + 1 = middle ∨ stream.Listed (IsInner stream budget) (start + 1) middle values)
    (hlength : values.length ≠ 1) (hclose : stream.kind middle = .closer .round) :
    stream.Consumes (patternAtom (patternAt budget)) start
      (.tuple values ((stream.token start).span.join (stream.token middle).span)) (middle + 1) := by
  have hfirst : stream.Consumes advance start (stream.token start) (start + 1) :=
    .advance (by rw [hopen]; exact TokenKind.noConfusion)
  rcases h with ⟨rfl, rfl⟩ | hlisted
  · refine consumes_round hopen (.bind hfirst (.bind (.isAt_eq (beq_iff_eq.2 hclose)) (.ite_pos rfl ?_)))
    exact .bind (.advance (by rw [hclose]; exact TokenKind.noConfusion)) (.bind .spanFrom .pure)
  · let follows (kind : TokenKind) : Prop := endsPattern kind = true
    have hbehind : ∀ {start stop answer}, stream.kind start = .comma →
        IsInner stream budget (start + 1) stop answer → follows (stream.kind stop) →
        stream.Consumes (advance >>= fun _ => patternAt budget) start answer stop :=
      fun hcomma hread hends => .bind (.advance (by rw [hcomma]; exact TokenKind.noConfusion))
        (hread.consumes hends)
    obtain ⟨head, more, next, rfl, hhead, hends, hplace, hmore⟩ := hlisted.exists_consumes
      (fun hread => hread.lt) hbehind
      (Nat.lt_of_succ_lt (succ_lt_size_of_kind hclose TokenKind.noConfusion)) rfl (by rw [hclose]; rfl)
      (by rw [hclose]; exact TokenKind.noConfusion)
    have hcomma : stream.kind next = .comma :=
      hplace.resolve_right fun ⟨_, hnone⟩ => hlength (by rw [hnone]; rfl)
    refine consumes_round hopen (.bind hfirst (.bind (hhead.isAt_closer .round) (.ite_neg
      Bool.false_ne_true (.bind (hhead.consumes hends) (.bind (.isAt_eq (beq_iff_eq.2 hcomma)) ?_)))))
    refine .ite_neg (by decide) (.bind hmore ?_)
    exact .bind (.expect hclose TokenKind.noConfusion) (.bind .spanFrom .pure)

/-- A list of patterns. -/
theorem consumes_list (hopen : stream.kind start = .opener .curly)
    (h : values = [] ∧ start + 1 = middle ∨ stream.Listed (IsInner stream budget) (start + 1) middle values)
    (hclose : stream.kind middle = .closer .curly) :
    stream.Consumes (patternAtom (patternAt budget)) start
      (.list values ((stream.token start).span.join (stream.token middle).span)) (middle + 1) := by
  have hfirst : stream.Consumes advance start (stream.token start) (start + 1) :=
    .advance (by rw [hopen]; exact TokenKind.noConfusion)
  rcases h with ⟨rfl, rfl⟩ | hlisted
  · refine consumes_curly hopen (.bind hfirst (.bind
      (consumes_skipNewlines (by rw [hclose]; rfl)) ?_))
    refine .bind (.isAt_eq (beq_iff_eq.2 hclose)) (.ite_pos rfl ?_)
    exact .bind (.advance (by rw [hclose]; exact TokenKind.noConfusion)) (.bind .spanFrom .pure)
  · let follows (kind : TokenKind) : Prop := endsPattern kind = true
    have hbehind : ∀ {start stop answer}, stream.kind start = .comma →
        IsInner stream budget (start + 1) stop answer → follows (stream.kind stop) →
        stream.Consumes (do
          let _ ← advance
          skipNewlines
          let element ← patternAt budget
          skipNewlines
          return element) start answer stop :=
      fun hcomma hread hends => .bind (.advance (by rw [hcomma]; exact TokenKind.noConfusion))
        (.bind hread.skipNewlines (.bind (hread.consumes hends) (.bind (consumes_skipNewlines hends) .pure)))
    obtain ⟨head, more, next, rfl, hhead, hends, -, hmore⟩ := hlisted.exists_consumes
      (fun hread => hread.lt) hbehind
      (Nat.lt_of_succ_lt (succ_lt_size_of_kind hclose TokenKind.noConfusion)) rfl (by rw [hclose]; rfl)
      (by rw [hclose]; exact TokenKind.noConfusion)
    refine consumes_curly hopen (.bind hfirst (.bind hhead.skipNewlines (.bind (hhead.isAt_closer .curly)
      (.ite_neg Bool.false_ne_true (.bind (hhead.consumes hends) ?_)))))
    refine .bind (consumes_skipNewlines hends) (.bind hmore ?_)
    refine .bind (.isAt_eq (by rw [hclose]; rfl)) (.ite_neg Bool.false_ne_true ?_)
    exact .bind (.expect hclose TokenKind.noConfusion) (.bind .spanFrom .pure)

/-- A first element and the rest of a list. -/
theorem consumes_listCons {tail : Pattern} {next : Nat} (hopen : stream.kind start = .opener .curly)
    (h : IsInner stream budget (start + 1) middle value) (hpipe : stream.kind middle = .pipe)
    (htail : IsInner stream budget (middle + 1) next tail) (hclose : stream.kind next = .closer .curly) :
    stream.Consumes (patternAtom (patternAt budget)) start
      (.listCons value tail ((stream.token start).span.join (stream.token next).span)) (next + 1) := by
  have hends : endsPattern (stream.kind middle) = true := by rw [hpipe]; rfl
  have hends' : endsPattern (stream.kind next) = true := by rw [hclose]; rfl
  have hend : stream.kind middle ≠ .endOfFile := by rw [hpipe]; exact TokenKind.noConfusion
  have hmore : stream.Consumes (collectWhile (isAt .comma) do
      let _ ← advance
      skipNewlines
      let element ← patternAt budget
      skipNewlines
      return element) middle [] middle :=
    (@Repeated.none _ (fun _ _ _ => False) _).consumes nofun nofun
      (Nat.lt_of_succ_lt (succ_lt_size_of_kind rfl hend)) (.isAt_eq (by rw [hpipe]; rfl))
  refine consumes_curly hopen (.bind (.advance (by rw [hopen]; exact TokenKind.noConfusion))
    (.bind h.skipNewlines (.bind (h.isAt_closer .curly) (.ite_neg Bool.false_ne_true
    (.bind (h.consumes hends) ?_)))))
  refine .bind (consumes_skipNewlines hends) (.bind hmore ?_)
  refine .bind (.isAt_eq (beq_iff_eq.2 hpipe)) (.ite_pos rfl (.bind (.advance hend) ?_))
  refine .bind htail.skipNewlines (.bind (htail.consumes hends') (.bind (consumes_skipNewlines hends') ?_))
  exact .bind (.expect hclose TokenKind.noConfusion) (.bind .spanFrom .pure)

/-- A constructor with arguments, inside of another pattern. -/
theorem isInner_application (hkind : stream.kind start = .typeIdentifier)
    (h : Repeated (IsAtom stream budget) (start + 1) stop values) (hsome : values ≠ []) :
    IsInner stream (budget + 1) start stop (.constructor (stream.token start).value values none
      ((stream.token start).span.join (stream.token (stop - 1)).span)) := by
  have hsquare : ∀ {start stop value}, IsAtom stream budget start stop value →
      stream.kind start ≠ .opener .square := fun hread =>
    kind_ne_of_startsPatternAtom hread.starts rfl TokenKind.noConfusion
  have hfirst : start + 1 < stop ∧ stream.kind (start + 1) ≠ .opener .square := by
    cases h with
    | none => exact absurd rfl hsome
    | more hread hrest => exact ⟨Nat.lt_of_lt_of_le hread.lt (hrest.le fun hread => hread.lt), hsquare hread⟩
  refine ⟨Nat.lt_of_succ_lt hfirst.1, consumes_startsPatternAtom (by rw [hkind]; rfl), fun hends => ?_⟩
  obtain ⟨-, hatoms⟩ := h.bordered hsquare
    fun hopen => by rw [hopen] at hends; cases hends
  have hdone : stream.Consumes startsPatternAtom stop false stop := consumes_startsPatternAtom_of_ends hends
  have hend : stream.kind stop ≠ .endOfFile := fun heq => by rw [heq] at hends; cases hends
  have hall : stream.Consumes (collectWhile startsPatternAtom (patternAtom (patternAt budget))) (start + 1)
      values stop :=
    hatoms.consumes (fun hread => hread.1.lt)
      (fun hread => ⟨hread.1.starts, hread.1.consumes fun hopen => absurd hopen hread.2⟩)
      (Nat.lt_of_succ_lt (succ_lt_size_of_kind rfl hend)) hdone
  refine .bind .current (.bind consumes_recordBracketFollows (.ite_pos ?_ (.bind (.advance ?_)
    (.bind hall (.bind .spanFrom .pure)))))
  · rw [show (stream.token start).kind = _ from hkind, beq_eq_false_iff_ne.2 hfirst.2]
    rfl
  · rw [hkind]
    exact TokenKind.noConfusion

/-- A field of a record is read up to a comma or the end of the record. -/
structure IsField (stream : TokenStream) (budget start stop : Nat) (value : FieldPattern) : Prop where
  lt : start < stop
  starts : stream.kind start = .identifier
  consumes : stream.kind stop = .comma ∨ stream.kind stop = .closer .square →
    stream.Consumes (recordPatternItem (patternAt budget)) start (.inl value) stop

/-- A field without a pattern. -/
theorem isField_pun (hkind : stream.kind start = .identifier) (hname : (stream.token start).value ≠ "_") :
    IsField stream budget start (start + 1)
      { name := (stream.token start).value, pattern := none, span := (stream.token start).span } := by
  refine ⟨Nat.lt_succ_self _, hkind, fun hstop => .bind .current (.ite_pos ?_ (.bind .peek ?_))⟩
  · rw [show (stream.token start).kind = _ from hkind, bne_iff_ne.2 hname]
    rfl
  · have hfirst : stream.Consumes advance start (stream.token start) (start + 1) :=
      .advance (by rw [hkind]; exact TokenKind.noConfusion)
    have hnext : (stream.token (start + 1)).kind = .comma ∨ (stream.token (start + 1)).kind = .closer .square :=
      hstop
    refine .ite_neg ?_ (.ite_pos ?_ (.bind hfirst .pure)) <;> rcases hnext with hnext | hnext <;>
      rw [hnext] <;> decide

theorem isField_assigned (hkind : stream.kind start = .identifier) (hname : (stream.token start).value ≠ "_")
    (hassign : stream.kind (start + 1) = .assign) (h : IsInner stream budget (start + 2) stop value) :
    IsField stream budget start stop
      { name := (stream.token start).value, pattern := some value
        span := (stream.token start).span.join (stream.token (stop - 1)).span } := by
  have hlt := h.lt
  refine ⟨by omega, hkind, fun hstop => .bind .current (.ite_pos ?_ (.bind .peek ?_))⟩
  · rw [show (stream.token start).kind = _ from hkind, bne_iff_ne.2 hname]
    rfl
  · have hends : endsPattern (stream.kind stop) = true := by rcases hstop with hstop | hstop <;> rw [hstop] <;> rfl
    refine .ite_pos (beq_iff_eq.2 hassign) (.bind (.advance (by rw [hkind]; exact TokenKind.noConfusion))
      (.bind (.advance (by rw [hassign]; exact TokenKind.noConfusion)) ?_))
    exact .bind h.skipNewlines (.bind (h.consumes hends) (.bind .spanFrom .pure))

/-- A constructor with fields in the brackets that touch it. -/
theorem consumes_record {fields : List FieldPattern} (hkind : stream.kind start = .typeIdentifier)
    (hopen : stream.kind (start + 1) = .opener .square)
    (htouches : (stream.token start).touches (stream.token (start + 1)) = true)
    (h : stream.Listed (IsField stream budget) (start + 2) middle fields)
    (hclose : stream.kind middle = .closer .square) :
    stream.Consumes (patternAtom (patternAt budget)) start (.constructor (stream.token start).value []
      (some fields) ((stream.token start).span.join (stream.token middle).span)) (middle + 1) := by
  have hitems : stream.Consumes (items (recordPatternItem (patternAt budget)) (.closer .square) true
      "field pattern") (start + 2) (fields.map .inl) middle :=
    h.map.consumes_items (fun ⟨_, hread, _⟩ => hread.lt)
      (fun ⟨_, hread, _⟩ => by rw [hread.starts]; exact ⟨TokenKind.noConfusion, TokenKind.noConfusion, rfl⟩)
      (fun ⟨_, hread, heq⟩ hstop => heq ▸ hread.consumes hstop) hclose TokenKind.noConfusion rfl
  refine .bind .current ?_
  rw [show (stream.token start).kind = _ from hkind]
  refine .bind (.advance (by rw [hkind]; exact TokenKind.noConfusion)) (.bind .current (.ite_pos ?_ ?_))
  · rw [show (stream.token (start + 1)).kind = _ from hopen, htouches]
    rfl
  · refine .bind (.advance (by rw [hopen]; exact TokenKind.noConfusion)) (.bind hitems
      (.bind (.expect hclose TokenKind.noConfusion) (.bind .spanFrom ?_)))
    have hleft : (fields.map Sum.inl).filterMap (Sum.getLeft? : FieldPattern ⊕ Pattern → _) = fields := by
      simp [List.filterMap_map, Function.comp_def]
    have hright : (fields.map Sum.inl).filterMap (Sum.getRight? : FieldPattern ⊕ Pattern → _) = [] := by
      simp [List.filterMap_map, Function.comp_def]
    dsimp only
    rw [hleft, hright]
    cases h <;> exact .pure

/-- A literal that is no number below zero. -/
theorem isAtom_literal {kind : LiteralKind} {literal : Literal} (hkind : stream.kind start = .literal kind)
    (h : Literal.ofToken (stream.token start) = .ok literal) :
    IsAtom stream budget start (start + 1) (.literal literal (stream.token start).span) := by
  refine ⟨Nat.lt_succ_self _, consumes_startsPatternAtom (by rw [hkind]; rfl), fun _ => .bind .current ?_⟩
  rw [show (stream.token start).kind = _ from hkind]
  exact .bind (.advance (by rw [hkind]; exact TokenKind.noConfusion)) (.bind (consumes_literalOf h) .pure)

/-- A minus sign and a number. -/
theorem isAtom_negative {kind : LiteralKind} {literal : Literal}
    (hsign : (stream.token start).isOperator "-" = true) (hkind : stream.kind (start + 1) = .literal kind)
    (hnumeric : (TokenKind.literal kind).isNumeric = true)
    (h : Literal.ofToken (stream.token (start + 1)) = .ok literal) :
    let span := (stream.token start).span.join (stream.token (start + 1)).span
    IsAtom stream budget start (start + 2) (.literal (literal.negate.withSpan span) span) := by
  have hoperator : (stream.token start).kind = .operator := (Token.isOperator_iff.1 hsign).1
  have hnumber : (stream.token (start + 1)).kind.isNumeric = true := by
    rw [show (stream.token (start + 1)).kind = _ from hkind, hnumeric]
  refine ⟨by omega, .bind .current ?_, fun _ => .bind .current ?_⟩
  · rw [hoperator, hsign]
    refine .bind .peek ?_
    rw [hnumber]
    exact .pure
  · rw [hoperator]
    refine .ite_pos hsign (.bind (.advance (kind_ne_of_isOperator hsign)) (.bind .current (.ite_neg ?_ ?_)))
    · rw [hnumber]
      decide
    · exact .bind (.advance (by rw [hkind]; exact TokenKind.noConfusion)) (.bind (consumes_literalOf h) .pure)

end Parser

namespace Pattern

open SableFrontend.Parser

variable {stream : TokenStream} {start stop budget : Nat} {pattern : Pattern}

/-- Wherever the words of a pattern stand, each bracket of fields right behind its constructor, the pattern
is read from them. -/
def Readable (pattern : Pattern) : Prop :=
  ∀ {stream : TokenStream} {start budget : Nat}, stream.Holds start pattern.words →
    stream.Joined start (start + pattern.words.length) → pattern.nesting ≤ budget →
    ∃ value : Pattern, value.relocate .forget = pattern.relocate .forget ∧
      IsAtom stream budget start (start + pattern.words.length) value

theorem Readable.exists_inner (h : pattern.Readable) (hholds : stream.Holds start pattern.words)
    (hjoined : stream.Joined start (start + pattern.words.length)) (hnesting : pattern.nesting + 1 ≤ budget) :
    ∃ value : Pattern, value.relocate .forget = pattern.relocate .forget ∧
      IsInner stream budget start (start + pattern.words.length) value := by
  obtain ⟨budget, rfl⟩ := Nat.exists_eq_succ_of_ne_zero (Nat.ne_of_gt (Nat.zero_lt_of_lt hnesting))
  obtain ⟨value, hvalue, hatom⟩ := h hholds hjoined (Nat.le_of_succ_le_succ hnesting)
  obtain ⟨value', hvalue', hinner⟩ := hatom.exists_inner
  exact ⟨value', hvalue'.trans hvalue, hinner⟩

/-- The words of patterns with commas between them are read as a list of these patterns. -/
theorem exists_elements {elements : List Pattern} (h : ∀ element ∈ elements, element.Readable)
    (hholds : stream.Holds start
      (List.intercalate [Word.comma] (elements.map fun element => element.words)))
    (hjoined : stream.Joined start
      (start + (List.intercalate [Word.comma] (elements.map fun element => element.words)).length))
    (hnesting : (elements.map fun element => element.nesting + 1).foldr max 0 ≤ budget) :
    ∃ values : List Pattern,
      (values.map fun value => value.relocate .forget) = elements.map (fun value => value.relocate .forget) ∧
      (values = [] ∧ start = start +
          (List.intercalate [Word.comma] (elements.map fun element => element.words)).length ∨
        stream.Listed (IsInner stream budget) start
          (start + (List.intercalate [Word.comma] (elements.map fun element => element.words)).length)
          values) := by
  by_cases hnone : elements = []
  · subst hnone
    exact ⟨[], rfl, Or.inl ⟨rfl, rfl⟩⟩
  · obtain ⟨values, hvalues, hlisted⟩ := hholds.listed hnone fun element hmem place hle hfits hwords =>
      Readable.exists_inner (h element hmem) hwords (hjoined.mono hle hfits)
        ((foldr_max_le_iff.1 hnesting).2 _ (List.mem_map_of_mem hmem))
    exact ⟨values, hvalues, Or.inr hlisted⟩

theorem exists_field {field : FieldPattern} (hname : field.name ≠ "_")
    (h : ∀ pattern, field.pattern = some pattern → pattern.Readable)
    (hholds : stream.Holds start field.words) (hjoined : stream.Joined start (start + field.words.length))
    (hnesting : field.nesting ≤ budget) :
    ∃ value : FieldPattern, value.relocate .forget = field.relocate .forget ∧
      IsField stream budget start (start + field.words.length) value := by
  obtain ⟨name, pattern, span⟩ := field
  have hvalue : (stream.token start).value = name := by
    cases pattern <;> rw [FieldPattern.words] at hholds <;> exact hholds.value
  cases pattern with
  | none =>
    rw [FieldPattern.words] at hholds ⊢
    refine ⟨_, ?_, isField_pun hholds.kind (by rwa [hvalue])⟩
    rw [FieldPattern.relocate, FieldPattern.relocate, hvalue, Span.relocate_forget _ span]
  | some pattern =>
    rw [FieldPattern.words] at hholds hjoined ⊢
    rw [FieldPattern.nesting] at hnesting
    obtain ⟨hkind, hassign, hwords⟩ := hholds
    rw [Word.length_cons, Word.length_cons] at hjoined ⊢
    obtain ⟨value, hsame, hinner⟩ := Readable.exists_inner (h pattern rfl) hwords
      (hjoined.mono (by omega) (Nat.le_refl _)) hnesting
    refine ⟨_, ?_, isField_assigned (congrArg Word.kind hkind) (by rwa [hvalue])
      (congrArg Word.kind hassign) hinner⟩
    rw [FieldPattern.relocate, FieldPattern.relocate, hvalue, Span.relocate_forget _ span, hsame]

theorem readable_of_writable (h : pattern.Writable) : pattern.Readable := by
  induction h with
  | @wildcard span =>
    intro stream start budget hholds _ _
    rw [words] at hholds ⊢
    have hkind : (stream.token start).kind = .identifier := hholds.kind
    have hvalue : (stream.token start).value = "_" := hholds.value
    refine ⟨.wildcard (stream.token start).span, ?_, Nat.lt_succ_self _,
      consumes_startsPatternAtom (by rw [hholds.kind]; rfl), fun _ => .bind .current ?_⟩
    · rw [relocate, relocate, Span.relocate_forget _ span]
    · rw [hkind]
      exact .bind (.advance (by rw [hholds.kind]; exact TokenKind.noConfusion))
        (.ite_pos (beq_iff_eq.2 hvalue) .pure)
  | @binding name span hname =>
    intro stream start budget hholds _ _
    rw [words] at hholds ⊢
    have hkind : (stream.token start).kind = .identifier := hholds.kind
    have hvalue : (stream.token start).value = name := hholds.value
    refine ⟨.binding (stream.token start).value (stream.token start).span, ?_, Nat.lt_succ_self _,
      consumes_startsPatternAtom (by rw [hholds.kind]; rfl), fun _ => .bind .current ?_⟩
    · rw [relocate, relocate, hvalue, Span.relocate_forget _ span]
    · rw [hkind]
      exact .bind (.advance (by rw [hholds.kind]; exact TokenKind.noConfusion))
        (.ite_neg (fun hat => hname (hvalue ▸ beq_iff_eq.1 hat)) .pure)
  | @integer value place span hlength =>
    intro stream start budget hholds _ _
    rw [words, Literal.words] at hholds ⊢
    by_cases hnegative : value < 0
    · rw [if_pos hnegative] at hholds ⊢
      obtain ⟨hsign, hdigits⟩ := hholds
      refine ⟨_, ?_, isAtom_negative (Token.isOperator_iff.2 ⟨congrArg Word.kind hsign, congrArg Word.value hsign⟩)
        hdigits.kind rfl (Literal.ofToken_integer hdigits.kind hdigits.value hlength)⟩
      rw [relocate, relocate, Literal.negate, Literal.withSpan, Literal.relocate, Literal.relocate,
        Span.relocate_forget _ span, Span.relocate_forget _ place, Int.ofNat_natAbs_of_nonpos (by omega),
        Int.neg_neg]
    · rw [if_neg hnegative] at hholds ⊢
      refine ⟨_, ?_, isAtom_literal hholds.kind (Literal.ofToken_integer hholds.kind hholds.value hlength)⟩
      rw [relocate, relocate, Literal.relocate, Literal.relocate, Span.relocate_forget _ span,
        Span.relocate_forget _ place, Int.natAbs_of_nonneg (by omega)]
  | @text value place span =>
    intro stream start budget hholds _ _
    rw [words, Literal.words] at hholds ⊢
    refine ⟨_, ?_, @isAtom_literal _ _ _ _ (.text value (stream.token start).span) hholds.kind ?_⟩
    · rw [relocate, relocate, Literal.relocate, Literal.relocate, Span.relocate_forget _ span,
        Span.relocate_forget _ place]
    · rw [Literal.ofToken, show (stream.token start).kind = _ from hholds.kind, hholds.value]
  | @character value place span =>
    intro stream start budget hholds _ _
    rw [words, Literal.words] at hholds ⊢
    refine ⟨_, ?_, @isAtom_literal _ _ _ _ (.character value (stream.token start).span) hholds.kind ?_⟩
    · rw [relocate, relocate, Literal.relocate, Literal.relocate, Span.relocate_forget _ span,
        Span.relocate_forget _ place]
    · rw [Literal.ofToken, show (stream.token start).kind = _ from hholds.kind, hholds.value]
  | @constructor name arguments span _ harguments =>
    intro stream start budget hholds hjoined hnesting
    rw [words] at hholds hjoined ⊢
    rw [nesting] at hnesting
    by_cases hnone : arguments.isEmpty = true
    · rw [if_pos hnone] at hholds ⊢
      refine ⟨_, ?_, Nat.lt_succ_self _, consumes_startsPatternAtom (by rw [hholds.kind]; rfl), fun hdetached =>
        consumes_constructor hholds.kind ?_⟩
      · rw [relocate, relocate, hholds.value, Span.relocate_forget _ span, List.isEmpty_iff.1 hnone]
      · rw [Bool.and_eq_false_iff, beq_eq_false_iff_ne]
        exact Classical.or_iff_not_imp_left.2 fun hopen => hdetached (Classical.not_not.1 hopen)
    · rw [if_neg hnone] at hholds hjoined hnesting ⊢
      obtain ⟨budget, rfl⟩ := Nat.exists_eq_succ_of_ne_zero (Nat.ne_of_gt (Nat.zero_lt_of_lt hnesting))
      replace hnesting := Nat.le_of_succ_le_succ hnesting
      rw [Word.length_enclosed, Word.length_cons] at hjoined ⊢
      obtain ⟨hopen, ⟨hkind, hinside⟩, hclose⟩ := hholds.enclosed
      rw [Word.length_cons] at hclose
      obtain ⟨values, hvalues, hrepeated⟩ := hinside.repeated fun argument hmem place hle hfits hwords =>
        harguments argument hmem hwords (hjoined.mono (by omega) (by omega))
          ((foldr_max_le_iff.1 hnesting).2 _ (List.mem_map_of_mem hmem))
      have hsome : values ≠ [] := fun hempty => by
        rw [hempty, List.map_nil, eq_comm, List.map_eq_nil_iff] at hvalues
        exact hnone (List.isEmpty_iff.2 hvalues)
      have hinner := isInner_application (congrArg Word.kind hkind) hrepeated hsome
      refine ⟨_, ?_, Nat.lt_succ_of_lt (Nat.lt_of_succ_lt hinner.lt), consumes_startsPatternAtom (by rw [hopen]; rfl),
        fun _ => hinner.enclosed hopen hclose⟩
      rw [relocate, relocate, Span.relocate_forget _ span, show (stream.token (start + 1)).value = name from
        congrArg Word.value hkind]
      exact congrArg (Pattern.constructor name · none _) hvalues
  | @record name fields span hsome hnames _ hpatterns =>
    intro stream start budget hholds hjoined hnesting
    rw [words] at hholds hjoined ⊢
    rw [nesting] at hnesting
    obtain ⟨hkind, hbracket⟩ := hholds
    obtain ⟨hopen, hinside, hclose⟩ := hbracket.enclosed
    rw [Word.length_cons, Word.length_enclosed] at hjoined ⊢
    obtain ⟨values, hvalues, hlisted⟩ := hinside.listed hsome fun field hmem place hle hfits hwords =>
      exists_field (hnames field hmem) (hpatterns field hmem) hwords (hjoined.mono (by omega) (by omega))
        ((foldr_max_le_iff.1 hnesting).2 _ (List.mem_map_of_mem hmem))
    have htouches := hjoined start (Nat.le_refl _) (by omega) hopen
    refine ⟨_, ?_, by omega, consumes_startsPatternAtom ?_, fun _ =>
      consumes_record (congrArg Word.kind hkind) hopen htouches hlisted hclose⟩
    · rw [relocate, relocate, Span.relocate_forget _ span, show (stream.token start).value = name from
        congrArg Word.value hkind]
      exact congrArg (fun fields => Pattern.constructor name [] (some fields) _) hvalues
    · rw [show stream.kind start = .typeIdentifier from congrArg Word.kind hkind]
      rfl
  | @listCons head tail span _ _ hhead htail =>
    intro stream start budget hholds hjoined hnesting
    rw [words] at hholds hjoined ⊢
    rw [nesting, Nat.succ_le_iff, Nat.max_lt] at hnesting
    obtain ⟨hopen, hinside, hclose⟩ := hholds.enclosed
    rw [Word.length_enclosed] at hjoined ⊢
    obtain ⟨hfirst, hpipe, hrest⟩ := holds_append.1 hinside
    rw [List.length_append, ← Nat.add_assoc, Word.length_cons] at hjoined hclose ⊢
    obtain ⟨value, hvalue, hinner⟩ := hhead.exists_inner hfirst (hjoined.mono (by omega) (by omega)) hnesting.1
    obtain ⟨rest, hsame, hinner'⟩ := htail.exists_inner hrest (hjoined.mono (by omega) (by omega)) hnesting.2
    refine ⟨_, ?_, by omega, consumes_startsPatternAtom (by rw [hopen]; rfl), fun _ =>
      consumes_listCons hopen hinner (congrArg Word.kind hpipe) hinner' hclose⟩
    rw [relocate, relocate, hvalue, hsame, Span.relocate_forget _ span]
  | @list elements span _ helements =>
    intro stream start budget hholds hjoined hnesting
    rw [words] at hholds hjoined ⊢
    rw [nesting] at hnesting
    obtain ⟨hopen, hinside, hclose⟩ := hholds.enclosed
    rw [Word.length_enclosed] at hjoined ⊢
    obtain ⟨values, hvalues, helements⟩ := exists_elements helements hinside
      (hjoined.mono (Nat.le_succ _) (Nat.le_succ _)) hnesting
    refine ⟨_, ?_, by omega, consumes_startsPatternAtom (by rw [hopen]; rfl), fun _ =>
      consumes_list hopen helements hclose⟩
    rw [relocate, relocate, Span.relocate_forget _ span]
    exact congrArg (Pattern.list · _) hvalues
  | @tuple elements span hlength _ helements =>
    intro stream start budget hholds hjoined hnesting
    rw [words] at hholds hjoined ⊢
    rw [nesting] at hnesting
    obtain ⟨hopen, hinside, hclose⟩ := hholds.enclosed
    rw [Word.length_enclosed] at hjoined ⊢
    obtain ⟨values, hvalues, helements⟩ := exists_elements helements hinside
      (hjoined.mono (Nat.le_succ _) (Nat.le_succ _)) hnesting
    have hcount : values.length ≠ 1 := by
      rwa [← @List.length_map _ _ values, hvalues, List.length_map]
    refine ⟨_, ?_, by omega, consumes_startsPatternAtom (by rw [hopen]; rfl), fun _ =>
      consumes_tuple hopen helements hcount hclose⟩
    rw [relocate, relocate, Span.relocate_forget _ span]
    exact congrArg (Pattern.tuple · _) hvalues

/-- Wherever the words of a pattern stand, each bracket of fields right behind its constructor, just these
words are read as the same pattern again, without a word, whatever has been reported before. Any token may
follow, except for a square bracket that touches the last one of them. -/
theorem atom_written (h : pattern.Writable) (hnesting : pattern.nesting ≤ budget)
    (hholds : stream.Holds start pattern.words)
    (hjoined : stream.Joined start (start + pattern.words.length))
    (hdetached : stream.Detached (start + pattern.words.length)) :
    ∃ value : Pattern, value.outline.sameStructure pattern.outline = true ∧
      ∀ log history, ∃ history', patternAtom (patternAt budget) stream
          { position := start, log := log, history := history } =
        (.ok value, { position := start + pattern.words.length, log := log, history := history' }) := by
  obtain ⟨value, hsame, hatom⟩ := readable_of_writable h hholds hjoined hnesting
  refine ⟨value, @Outline.sameStructure_of_relocate_eq .forget .forget _ _ ?_, hatom.consumes hdetached⟩
  rw [← outline_relocate, ← outline_relocate, hsame]

/-- A pattern of many forms in a text, with another token behind it. -/
theorem exists_atom_written :
    let pattern := Pattern.constructor "Node" [
      .literal (.integer (-12) default) default, .literal (.text "a" default) default,
      .listCons (.binding "x" default) (.wildcard default) default,
      .constructor "Leaf" [] (some [
        { name := "k", pattern := some (.tuple [] default), span := default },
        { name := "y", pattern := none, span := default }]) default,
      .list [.literal (.integer 1 default) default, .constructor "B" [] none default] default] none default
    pattern.Writable ∧ ∃ stream, TokenStream.ofText? "(Node -12 \"a\" \x7bx | _\x7d Leaf[k = (), y] \x7b1, B\x7d) z" "" = some stream ∧
      stream.1.Holds 0 pattern.words ∧ ∃ value : Pattern, value.outline.sameStructure pattern.outline = true ∧
        ∀ log history, ∃ history', patternAtom (patternAt 3) stream.1
            { position := 0, log := log, history := history } =
          (.ok value, { position := pattern.words.length, log := log, history := history' }) := by
  intro pattern
  have hleaf : Writable (.constructor "Leaf" [] (some [
      { name := "k", pattern := some (.tuple [] default), span := default },
      { name := "y", pattern := none, span := default }]) default) := by
    refine .record (List.cons_ne_nil _ _) (List.forall_mem_cons.2 ⟨by decide, List.forall_mem_singleton.2
      (by decide)⟩) (List.forall_mem_cons.2 ⟨fun pattern hpattern => ?_, List.forall_mem_singleton.2 nofun⟩)
    cases hpattern
    exact .tuple (by decide) nofun
  have hlist : Writable (.list [.literal (.integer 1 default) default, .constructor "B" [] none default] default) :=
    .list (List.forall_mem_cons.2 ⟨.integer (by decide), List.forall_mem_singleton.2 (.constructor nofun)⟩)
  have hwritable : pattern.Writable := .constructor (List.forall_mem_cons.2 ⟨.integer (by decide),
    List.forall_mem_cons.2 ⟨.text, List.forall_mem_cons.2 ⟨.listCons (.binding (by decide)) .wildcard,
    List.forall_mem_cons.2 ⟨hleaf, List.forall_mem_singleton.2 hlist⟩⟩⟩⟩)
  have hnesting : pattern.nesting ≤ 3 := by
    simp [pattern, nesting, FieldPattern.nesting]
  have htest : (TokenStream.ofText? "(Node -12 \"a\" \x7bx | _\x7d Leaf[k = (), y] \x7b1, B\x7d) z" "").any
      (fun stream => decide (stream.1.Holds 0 pattern.words ∧
        (∀ position < pattern.words.length, stream.1.kind (position + 1) = .opener .square →
          (stream.1.token position).touches (stream.1.token (position + 1)) = true) ∧
        stream.1.kind pattern.words.length ≠ .opener .square)) = true := by
    decide +kernel
  obtain ⟨stream, hstream, htest⟩ := (Option.any_eq_true ..).1 htest
  obtain ⟨hholds, hjoined, hdetached⟩ := of_decide_eq_true htest
  obtain ⟨value, hsame, hread⟩ := atom_written hwritable hnesting hholds
    (fun position _ hlt => hjoined position (by omega)) (fun hopen => by rw [Nat.zero_add] at hopen; exact absurd hopen hdetached)
  rw [Nat.zero_add] at hread
  exact ⟨hwritable, stream, hstream, hholds, value, hsame, hread⟩

end Pattern

end SableFrontend
