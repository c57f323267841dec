import Mathlib.Data.Nat.Digits.Lemmas
import SableFrontend.Proofs.Grammar.Outcome
import SableFrontend.Proofs.Token.LexedStream
import SableFrontend.Proofs.Token.NumeralReading

/-!
Integer literals and the numbers that they denote. A number is written in decimal or behind a prefix
that announces another radix: with any number of leading zeros, letters of either case for the digits
from ten on, and single underscores between digits. Each such text is one token that denotes the
number, and a token that is an integer is such a text (`integerLiteral_denotes`).
-/

namespace SableFrontend

namespace Numeral

/-! ### Writing integers -/

/-- A character writes a digit of a base: letters stand for ten and more, in either case. -/
structure WritesDigit (base value : Nat) (c : Char) : Prop where
  lt : value < base
  written : c = Nat.digitChar value ∨ c = (Nat.digitChar value).toUpper

/-- Characters write digits one after the other, with at most one underscore between two. -/
inductive WritesDigits (base : Nat) : List Nat → List Char → Prop
  | single {value : Nat} {c : Char} (hdigit : WritesDigit base value c) :
      WritesDigits base [value] [c]
  | next {value : Nat} {c : Char} {values : List Nat} {group : List Char}
      (hdigit : WritesDigit base value c) (hmore : WritesDigits base values group) :
      WritesDigits base (value :: values) (c :: group)
  | parted {value : Nat} {c : Char} {values : List Nat} {group : List Char}
      (hdigit : WritesDigit base value c) (hmore : WritesDigits base values group) :
      WritesDigits base (value :: values) (c :: '_' :: group)

/-- The letters that announce a radix behind a zero. -/
def Radix.letters : Radix → List Char
  | hexadecimal => ['x', 'X']
  | binary => ['b', 'B']
  | octal => ['o', 'O']

/-- The number of digits of a radix; without one, there are ten. -/
def baseOf : Option Radix → Nat
  | none => 10
  | some radix => radix.base

/-- A text writes a number in a radix or, without one, in decimal: its digits behind some zeros. -/
inductive WritesInteger : Option Radix → (zeros number : Nat) → List Char → Prop
  | decimal {zeros number : Nat} {group : List Char}
      (hdigits : WritesDigits 10 (List.replicate zeros 0 ++ (Nat.digits 10 number).reverse) group) :
      WritesInteger none zeros number group
  | prefixed {radix : Radix} {letter : Char} {zeros number : Nat} {group : List Char}
      (hletter : letter ∈ radix.letters)
      (hdigits : WritesDigits radix.base
        (List.replicate zeros 0 ++ (Nat.digits radix.base number).reverse) group) :
      WritesInteger (some radix) zeros number ('0' :: letter :: group)

/-! ### Digits as they are read -/

/-- The digits that are read in a radix or, without one, in decimal. -/
def isDigitOf : Option Radix → Char → Bool
  | none => Text.isAsciiDigit
  | some radix => radix.isDigit

section

variable {radix : Option Radix} {value : Nat} {values : List Nat} {c : Char} {group : List Char}

theorem one_lt_baseOf (radix : Option Radix) : 1 < baseOf radix := by
  rcases radix with _ | _ | _ | _ <;> decide

/-- A digit that is written is read with its value. -/
theorem WritesDigit.reads (h : WritesDigit (baseOf radix) value c) :
    isDigitOf radix c = true ∧ digitValue c = value ∧ c ≠ '_' := by
  have hall : ∀ value < baseOf radix, [Nat.digitChar value, (Nat.digitChar value).toUpper].all
      (fun c => isDigitOf radix c && digitValue c == value && c != '_') = true := by
    rcases radix with _ | _ | _ | _ <;> decide
  have hread := List.all_eq_true.1 (hall value h.lt) c (by simpa using h.written)
  simpa [and_assoc] using hread

theorem toNat_lt_of_isDigitOf (radix : Option Radix) (h : isDigitOf radix c = true) : c.toNat < 128 := by
  have hle : c ≤ 'f' := by
    rcases radix with _ | _ | _ | _ <;>
      simp only [isDigitOf, Radix.isDigit, Text.isAsciiDigit, Bool.and_eq_true, Bool.or_eq_true,
        decide_eq_true_eq, beq_iff_eq] at h
    · exact Char.le_trans h.2 (by decide)
    · rcases h with (h | h) | h
      · exact Char.le_trans h.2 (by decide)
      · exact h.2
      · exact Char.le_trans h.2 (by decide)
    · rcases h with rfl | rfl <;> decide
    · exact Char.le_trans h.2 (by decide)
  exact Nat.lt_of_le_of_lt (show c.toNat ≤ 'f'.toNat from hle) (by decide)

/-- A digit that is read writes its value. -/
theorem writesDigit_of_isDigitOf (h : isDigitOf radix c = true) :
    WritesDigit (baseOf radix) (digitValue c) c := by
  have hall : ∀ code < 128, isDigitOf radix (Char.ofNat code) = true →
      digitValue (Char.ofNat code) < baseOf radix ∧
        (Char.ofNat code = Nat.digitChar (digitValue (Char.ofNat code)) ∨
          Char.ofNat code = (Nat.digitChar (digitValue (Char.ofNat code))).toUpper) := by
    rcases radix with _ | _ | _ | _ <;> decide +kernel
  have hread := hall c.toNat (toNat_lt_of_isDigitOf radix h)
  rw [Char.ofNat_toNat] at hread
  exact ⟨(hread h).1, (hread h).2⟩

/-! ### Groups -/

theorem exists_cons_of_writesDigits (radix : Option Radix)
    (h : WritesDigits (baseOf radix) values group) :
    ∃ c rest, group = c :: rest ∧ isDigitOf radix c = true := by
  cases h with
  | single hdigit => exact ⟨_, _, rfl, hdigit.reads.1⟩
  | next hdigit => exact ⟨_, _, rfl, hdigit.reads.1⟩
  | parted hdigit => exact ⟨_, _, rfl, hdigit.reads.1⟩

/-- The underscores aside, the characters are the digits. -/
theorem digitValues_of_writesDigits (radix : Option Radix)
    (h : WritesDigits (baseOf radix) values group) :
    (digitsOf group).map digitValue = values := by
  have hkept : ∀ {value c}, WritesDigit (baseOf radix) value c → ∀ more,
      (digitsOf (c :: more)).map digitValue = value :: (digitsOf more).map digitValue := by
    intro value c hdigit more
    rw [digitsOf, List.filter_cons, if_pos (bne_iff_ne.2 hdigit.reads.2.2), List.map_cons,
      hdigit.reads.2.1, digitsOf]
  induction h with
  | single hdigit => exact hkept hdigit []
  | next hdigit _ ih => rw [hkept hdigit, ih]
  | parted hdigit _ ih =>
    rw [hkept hdigit, ← ih]
    rfl

theorem isMisgrouped_eq_false_iff {group : List Char} :
    isMisgrouped group = false ↔
      group.head? ≠ some '_' ∧ group.getLast? ≠ some '_' ∧ hasDoubleUnderscore group = false := by
  simp [isMisgrouped, and_assoc]

theorem hasDoubleUnderscore_cons (hc : c ≠ '_') (group : List Char) :
    hasDoubleUnderscore (c :: group) = hasDoubleUnderscore group := by
  rw [hasDoubleUnderscore]
  intro rest heq
  exact absurd heq hc

section

variable {isDigit : Char → Bool}

theorem isGroup_singleton (hdigit : isDigit c = true) (hc : c ≠ '_') : IsGroup isDigit [c] := by
  refine ⟨List.cons_ne_nil _ _, by simpa using Or.inl hdigit, ?_⟩
  rw [isMisgrouped_eq_false_iff, hasDoubleUnderscore_cons hc]
  exact ⟨by simpa using hc, by simpa using hc, rfl⟩

theorem IsGroup.cons (h : IsGroup isDigit group) (hdigit : isDigit c = true) (hc : c ≠ '_') :
    IsGroup isDigit (c :: group) := by
  obtain ⟨-, hlast, hdouble⟩ := isMisgrouped_eq_false_iff.1 h.grouped
  refine ⟨List.cons_ne_nil _ _, List.forall_mem_cons.2 ⟨Or.inl hdigit, h.members⟩, ?_⟩
  rw [isMisgrouped_eq_false_iff, hasDoubleUnderscore_cons hc]
  refine ⟨by simpa using hc, ?_, hdouble⟩
  rwa [List.getLast?_cons_of_ne_nil h.ne_nil]

theorem IsGroup.parted (h : IsGroup isDigit group) (hdigit : isDigit c = true) (hc : c ≠ '_') :
    IsGroup isDigit (c :: '_' :: group) := by
  obtain ⟨hhead, hlast, hdouble⟩ := isMisgrouped_eq_false_iff.1 h.grouped
  refine ⟨List.cons_ne_nil _ _, List.forall_mem_cons.2 ⟨Or.inl hdigit,
    List.forall_mem_cons.2 ⟨Or.inr rfl, h.members⟩⟩, ?_⟩
  rw [isMisgrouped_eq_false_iff, hasDoubleUnderscore_cons hc]
  refine ⟨by simpa using hc, ?_, ?_⟩
  · rwa [List.getLast?_cons_of_ne_nil (List.cons_ne_nil _ _), List.getLast?_cons_of_ne_nil h.ne_nil]
  · obtain ⟨first, rest, rfl⟩ := List.exists_cons_of_ne_nil h.ne_nil
    have hfirst : first ≠ '_' := by simpa using hhead
    rw [hasDoubleUnderscore, hdouble]
    intro more _ heq
    exact hfirst (List.cons.inj heq).1

/-- What is left of a group without its first digit, and without the underscore behind that. -/
theorem IsGroup.exists_first (h : IsGroup isDigit group) :
    ∃ c, isDigit c = true ∧ (group = [c] ∨ ∃ rest, IsGroup isDigit rest ∧
      (group = c :: rest ∨ group = c :: '_' :: rest)) := by
  obtain ⟨hne, hmembers, hgrouped⟩ := h
  obtain ⟨hhead, hlast, hdouble⟩ := isMisgrouped_eq_false_iff.1 hgrouped
  obtain ⟨c, rest, rfl⟩ := List.exists_cons_of_ne_nil hne
  obtain ⟨hfirst, hmembers⟩ := List.forall_mem_cons.1 hmembers
  have hc : c ≠ '_' := by simpa using hhead
  refine ⟨c, hfirst.resolve_right hc, ?_⟩
  rw [hasDoubleUnderscore_cons hc] at hdouble
  rcases rest with _ | ⟨d, rest⟩
  · exact Or.inl rfl
  refine Or.inr ?_
  rw [List.getLast?_cons_of_ne_nil (List.cons_ne_nil _ _)] at hlast
  by_cases hd : d = '_'
  · subst hd
    have hrest : rest ≠ [] := by
      rintro rfl
      exact hlast rfl
    obtain ⟨e, more, rfl⟩ := List.exists_cons_of_ne_nil hrest
    have he : e ≠ '_' := by
      rintro rfl
      cases hdouble
    rw [hasDoubleUnderscore] at hdouble
    · rw [List.getLast?_cons_of_ne_nil (List.cons_ne_nil _ _)] at hlast
      refine ⟨e :: more, ⟨List.cons_ne_nil _ _, (List.forall_mem_cons.1 hmembers).2, ?_⟩, Or.inr rfl⟩
      exact isMisgrouped_eq_false_iff.2 ⟨by simpa using he, hlast, hdouble⟩
    · intro rest _ heq
      exact he (List.cons.inj heq).1
  · exact ⟨d :: rest, ⟨List.cons_ne_nil _ _, hmembers,
      isMisgrouped_eq_false_iff.2 ⟨by simpa using hd, hlast, hdouble⟩⟩, Or.inl rfl⟩

end

/-- Digits that are written are a group as it is read. -/
theorem isGroup_of_writesDigits (radix : Option Radix)
    (h : WritesDigits (baseOf radix) values group) :
    IsGroup (isDigitOf radix) group := by
  induction h with
  | single hdigit => exact isGroup_singleton hdigit.reads.1 hdigit.reads.2.2
  | next hdigit _ ih => exact ih.cons hdigit.reads.1 hdigit.reads.2.2
  | parted hdigit _ ih => exact ih.parted hdigit.reads.1 hdigit.reads.2.2

/-- A group as it is read writes some digits. -/
theorem exists_writesDigits (radix : Option Radix) {group : List Char}
    (h : IsGroup (isDigitOf radix) group) :
    ∃ values, WritesDigits (baseOf radix) values group := by
  obtain ⟨c, hdigit, rfl | ⟨rest, hrest, hgroup⟩⟩ := h.exists_first
  · exact ⟨_, .single (writesDigit_of_isDigitOf hdigit)⟩
  have hshorter : rest.length < group.length := by
    rcases hgroup with rfl | rfl <;> simp only [List.length_cons] <;> omega
  obtain ⟨values, hvalues⟩ := exists_writesDigits radix hrest
  rcases hgroup with rfl | rfl
  · exact ⟨_, .next (writesDigit_of_isDigitOf hdigit) hvalues⟩
  · exact ⟨_, .parted (writesDigit_of_isDigitOf hdigit) hvalues⟩
termination_by group.length

/-! ### Values -/

theorem ofDigits_eq (base : Nat) (digits : List Char) :
    ofDigits base digits = Nat.ofDigits base (digits.map digitValue).reverse := by
  rw [Nat.ofDigits_eq_foldr, List.foldr_reverse, List.foldl_map, ofDigits]
  refine List.foldl_ext _ _ _ fun number c _ => ?_
  simp only [Nat.cast_id]
  rw [Nat.add_comm, Nat.mul_comm]

/-- Zeros in front of its digits do not change a number. -/
theorem ofDigits_zeros (base zeros number : Nat) :
    Nat.ofDigits base (List.replicate zeros 0 ++ (Nat.digits base number).reverse).reverse = number := by
  rw [List.reverse_append, List.reverse_reverse, List.reverse_replicate, Nat.ofDigits_append,
    Nat.ofDigits_digits, Nat.ofDigits_replicate_zero, Nat.mul_zero, Nat.add_zero]

/-- Every row of digits is the digits of a number behind some zeros. -/
theorem exists_zeros {base : Nat} (hbase : 1 < base) (hvalues : ∀ value ∈ values, value < base) :
    ∃ zeros number, values = List.replicate zeros 0 ++ (Nat.digits base number).reverse := by
  induction values with
  | nil => exact ⟨0, 0, by simp⟩
  | cons value values ih =>
    obtain ⟨hvalue, hvalues⟩ := List.forall_mem_cons.1 hvalues
    obtain ⟨zeros, number, heq⟩ := ih hvalues
    rcases Nat.eq_zero_or_pos value with rfl | hpos
    · exact ⟨zeros + 1, number, by rw [heq, List.replicate_succ, List.cons_append]⟩
    · have hall : ∀ digit ∈ value :: values, digit < base :=
        List.forall_mem_cons.2 ⟨hvalue, hvalues⟩
      refine ⟨0, Nat.ofDigits base (value :: values).reverse, ?_⟩
      rw [Nat.digits_ofDigits base hbase, List.reverse_reverse, List.replicate_zero, List.nil_append]
      · exact fun digit hmem => hall digit (List.mem_reverse.1 hmem)
      · intro hne
        rw [List.getLast_reverse]
        exact Nat.ne_of_gt hpos

theorem WritesDigits.forall_lt {base : Nat} (h : WritesDigits base values group) :
    ∀ value ∈ values, value < base := by
  induction h with
  | single hdigit => simpa using hdigit.lt
  | next hdigit _ ih | parted hdigit _ ih => exact List.forall_mem_cons.2 ⟨hdigit.lt, ih⟩

/-! ### Integers as they are read -/

theorem mem_letters_iff {radix : Radix} {letter : Char} :
    letter ∈ radix.letters ↔ Radix.ofLetter? letter = some radix := by
  unfold Radix.ofLetter?
  cases radix <;> simp only [Radix.letters, List.mem_cons, List.not_mem_nil, or_false] <;> grind

theorem integerValue_decimal (h : IsGroup Text.isAsciiDigit group) :
    integerValue group = integerValue.decimalValue (digitsOf group) := by
  unfold integerValue
  split
  · next letter body heq =>
    have hmem : letter ∈ digitsOf group := by
      rw [heq]
      simp
    rw [ofLetter?_eq_none (h.members letter (List.mem_filter.1 hmem).1), heq]
  · rfl

/-- A text that writes an integer is read as one over its whole length. -/
theorem WritesInteger.read_eq {radix : Option Radix} {zeros number : Nat} {text : List Char}
    (h : WritesInteger radix zeros number text) :
    read text = .ok { kind := .integer, length := text.length } := by
  have hwhole : ∀ {spelling : List Char}, Spells .integer spelling →
      read spelling = .ok { kind := .integer, length := spelling.length } := by
    intro spelling hspells
    have hread := @read_append spelling [] .integer hspells rfl fun _ => rfl
    rwa [List.append_nil] at hread
  cases h with
  | decimal hdigits => exact hwhole (.decimal (isGroup_of_writesDigits none hdigits))
  | @prefixed radix letter _ _ _ hletter hdigits =>
    exact hwhole (.radix (mem_letters_iff.1 hletter) (isGroup_of_writesDigits (some radix) hdigits))

/-- A text that writes an integer denotes it, if it is not a decimal one with too many digits. -/
theorem WritesInteger.integerValue_eq {radix : Option Radix} {zeros number : Nat} {text : List Char}
    (h : WritesInteger radix zeros number text)
    (hlength : radix = none → zeros + (Nat.digits 10 number).length ≤ maxDecimalDigits) :
    integerValue text = .ok number := by
  cases h with
  | @decimal _ _ group hdigits =>
    have hvalues := digitValues_of_writesDigits none hdigits
    have hcount := congrArg List.length hvalues
    rw [List.length_map, List.length_append, List.length_replicate, List.length_reverse] at hcount
    rw [integerValue_decimal (isGroup_of_writesDigits none hdigits), integerValue.decimalValue,
      if_pos (hcount ▸ hlength rfl), ofDigits_eq, hvalues, ofDigits_zeros]
  | @prefixed radix letter _ _ group hletter hdigits =>
    rw [integerValue_radix (mem_letters_iff.1 hletter), ofDigits_eq,
      digitValues_of_writesDigits (some radix) hdigits, ofDigits_zeros]

/-- What is spelled like an integer writes one. -/
theorem Spells.exists_writesInteger {text : List Char} (h : Spells .integer text) :
    ∃ radix zeros number, WritesInteger radix zeros number text := by
  cases h with
  | decimal hgroup =>
    obtain ⟨values, hvalues⟩ := exists_writesDigits none hgroup
    obtain ⟨zeros, number, rfl⟩ := exists_zeros (by decide) hvalues.forall_lt
    exact ⟨none, zeros, number, .decimal hvalues⟩
  | @radix letter radix hletter group hgroup =>
    obtain ⟨values, hvalues⟩ := exists_writesDigits (some radix) hgroup
    obtain ⟨zeros, number, rfl⟩ := exists_zeros (one_lt_baseOf (some radix)) hvalues.forall_lt
    exact ⟨some radix, zeros, number, .prefixed (mem_letters_iff.2 hletter) hvalues⟩

end

end Numeral

/-! ### Integers as tokens -/

/-- A text that is read as one integer is a single token. -/
theorem Token.ofText_integer {text : List Char} (file : String)
    (hread : Numeral.read text = .ok { kind := .integer, length := text.length })
    (hfirst : ∃ first rest, text = first :: rest ∧ Text.isAsciiDigit first = true) :
    ∃ span stop, Token.ofText (String.ofList text) file =
      .ok #[{ kind := .literal .integer, value := String.ofList text, span := span },
        .endAt file stop] := by
  obtain ⟨first, rest, rfl, hdigit⟩ := hfirst
  have hclasses : ∀ code < 128, Text.isAsciiDigit (Char.ofNat code) = true →
      (Char.ofNat code == '\n') = false ∧ Lexeme.isBlank (Char.ofNat code) = false ∧
        (Char.ofNat code == '#') = false ∧ (Char.ofNat code == '"') = false ∧
        (Char.ofNat code == '\'') = false ∧ Text.isDigit (Char.ofNat code) = true := by
    decide
  have hclass := hclasses first.toNat (Numeral.toNat_lt_of_isDigitOf none hdigit)
  rw [Char.ofNat_toNat] at hclass
  obtain ⟨hbreak, hblank, hcomment, htext, hcharacter, hnumber⟩ := hclass hdigit
  have hscan : Lexeme.scan first rest = .ok {
      lexeme := .token (.literal .integer) (String.ofList (first :: rest)), extra := rest.length } := by
    rw [Lexeme.scan, hbreak, hblank, hcomment, htext, hcharacter, hnumber]
    simp only [Bool.false_eq_true, if_false, if_true, Lexeme.scanNumber, hread]
    show Except.ok _ = _
    rw [List.take_length, List.length_cons, Nat.add_sub_cancel]
  exact Token.ofText_of_scan file hscan

theorem Numeral.WritesInteger.exists_first {radix : Option Numeral.Radix} {zeros number : Nat}
    {text : List Char} (h : Numeral.WritesInteger radix zeros number text) :
    ∃ first rest, text = first :: rest ∧ Text.isAsciiDigit first = true := by
  cases h with
  | decimal hdigits => exact Numeral.exists_cons_of_writesDigits none hdigits
  | prefixed => exact ⟨_, _, rfl, rfl⟩

/-- A token that is read of a text and is a number is spelled like one, whether or not a fault comes
later. -/
theorem LexRun.spells_of_mem {text file : String} {token : Token}
    (hmem : token ∈ (LexRun.ofText text file).tokens) {kind : LiteralKind}
    (hkind : token.kind = .literal kind) (hnumeric : token.kind.isNumeric = true) :
    Numeral.Spells kind token.value.toList := by
  obtain ⟨count, last, left, hturns, hends⟩ := LexRun.ofText_ends text file
  have hread : token.ReadFrom text.toList := by
    generalize LexRun.ofText text file = run at hmem hends
    cases hends with
    | settled =>
      rcases Array.mem_push.1 hmem with hold | rfl
      · exact hturns.reads.tokens token hold
      · cases hkind
    | unclosed | fault => exact hturns.reads.tokens token hmem
  refine (hread.spells kind hkind).resolve_left fun hquoted => ?_
  rw [hkind] at hquoted hnumeric
  cases kind with
  | integer | float => cases hquoted
  | text | character => cases hnumeric

/-- A text that writes an integer is one token, with that text, and denotes the integer, or with a
minus sign its opposite. Every token that is an integer has a text that writes one, and every token
that is a float is spelled with a fraction or an exponent. -/
theorem integerLiteral_denotes (file : String) :
    (∀ radix zeros number text, Numeral.WritesInteger radix zeros number text →
      (radix = none → zeros + (Nat.digits 10 number).length ≤ Numeral.maxDecimalDigits) →
      ∃ token stop, Token.ofText (String.ofList text) file = .ok #[token, .endAt file stop] ∧
        token.kind = .literal .integer ∧ token.value = String.ofList text ∧
        Literal.ofToken token = .ok (.integer number token.span) ∧
        (Literal.ofToken token).map Literal.negate = .ok (.integer (-number) token.span)) ∧
      ∀ text, ∀ token ∈ (LexRun.ofText text file).tokens,
        (token.kind = .literal .integer →
          ∃ radix zeros number, Numeral.WritesInteger radix zeros number token.value.toList) ∧
        (token.kind = .literal .float → Numeral.Spells .float token.value.toList) := by
  refine ⟨fun radix zeros number text hwrites hlength => ?_, fun text token hmem => ⟨fun hkind => ?_,
    fun hkind => LexRun.spells_of_mem hmem hkind (by rw [hkind]; rfl)⟩⟩
  · obtain ⟨span, stop, htokens⟩ := Token.ofText_integer file hwrites.read_eq hwrites.exists_first
    have hliteral : Literal.ofToken
        { kind := .literal .integer, value := String.ofList text, span := span } =
        .ok (.integer number span) := by
      simp only [Literal.ofToken, String.toList_ofList, hwrites.integerValue_eq hlength]
      rfl
    exact ⟨_, stop, htokens, rfl, rfl, hliteral, by rw [hliteral]; rfl⟩
  · exact (LexRun.spells_of_mem hmem hkind (by rw [hkind]; rfl)).exists_writesInteger

theorem exists_integerLiteral_denotes :
    (∃ token stop, Token.ofText (String.ofList ['0', '0', '_', '7', '2']) "f" =
        .ok #[token, .endAt "f" stop] ∧ Literal.ofToken token = .ok (.integer 72 token.span)) ∧
      (∃ token stop, Token.ofText (String.ofList ['0', 'X', '0', '_', 'f', 'F']) "f" =
        .ok #[token, .endAt "f" stop] ∧
        (Literal.ofToken token).map Literal.negate = .ok (.integer (-255) token.span)) ∧
      (∃ token ∈ (LexRun.ofText "0b1_0 '" "f").tokens, token.kind = .literal .integer ∧
        ∃ radix zeros number, Numeral.WritesInteger radix zeros number token.value.toList) ∧
      ∃ token ∈ (LexRun.ofText "1.5e-3" "f").tokens, token.kind = .literal .float ∧
        Numeral.Spells .float token.value.toList := by
  have hzero : Numeral.WritesDigit 10 0 '0' := ⟨by decide, by decide⟩
  have hdecimal : Numeral.WritesInteger none 2 72 ['0', '0', '_', '7', '2'] := by
    refine .decimal (.next hzero (.parted hzero ?_))
    exact .next ⟨by decide, by decide⟩ (.single ⟨by decide, by decide⟩)
  have hradix : Numeral.WritesInteger (some .hexadecimal) 1 255 ['0', 'X', '0', '_', 'f', 'F'] := by
    refine .prefixed (by decide) (.parted ⟨by decide, by decide⟩ ?_)
    exact .next ⟨by decide, by decide⟩ (.single ⟨by decide, by decide⟩)
  have hcount : 2 + (Nat.digits 10 72).length ≤ Numeral.maxDecimalDigits := by decide
  have hfirst : ∀ text kind, ((LexRun.ofText text "f").tokens[0]?).any (·.kind == kind) = true →
      ∃ token ∈ (LexRun.ofText text "f").tokens, token.kind = kind := by
    intro text kind hany
    obtain ⟨token, hget, hkind⟩ := (Option.any_eq_true _ _).1 hany
    exact ⟨token, Array.mem_of_getElem? hget, by simpa using hkind⟩
  obtain ⟨token, stop, htokens, -, -, hvalue, -⟩ :=
    (integerLiteral_denotes "f").1 none 2 72 _ hdecimal fun _ => hcount
  obtain ⟨token', stop', htokens', -, -, -, hvalue'⟩ :=
    (integerLiteral_denotes "f").1 (some .hexadecimal) 1 255 _ hradix nofun
  refine ⟨⟨token, stop, htokens, hvalue⟩, ⟨token', stop', htokens', hvalue'⟩, ?_, ?_⟩
  · obtain ⟨token, hmem, hkind⟩ := hfirst "0b1_0 '" (.literal .integer) (by decide +kernel)
    exact ⟨token, hmem, hkind, ((integerLiteral_denotes "f").2 _ token hmem).1 hkind⟩
  · obtain ⟨token, hmem, hkind⟩ := hfirst "1.5e-3" (.literal .float) (by decide +kernel)
    exact ⟨token, hmem, hkind, ((integerLiteral_denotes "f").2 _ token hmem).2 hkind⟩

end SableFrontend
