import SableFrontend.Highlight.Stretch
import SableFrontend.Proofs.Highlight.Shade
import SableFrontend.Proofs.Token.LexemeShape
import SableFrontend.Proofs.Token.NumeralReading

/-!
What the rules of highlighting take, outside of string literals. The rules for comments and for
quoted literals need a mark to begin with and those for reserved words need a reserved word; where
neither stands, every other rule takes a stretch in which nothing begins (`rootRules_keep`), so the
order of the rules matters at marks and at reserved words only.
-/

namespace SableFrontend.Highlight

open Shade

/-- How a category shows its text. -/
def Category.shade (category : Category) : Shade :=
  if category.isComment then .comment
  else if category.isQuoted then .quoted
  else if category.isReserved then .reserved
  else .plain

theorem Category.shade_eq_comment_iff {category : Category} :
    category.shade = .comment ↔ category.isComment = true := by
  cases category <;> decide

theorem Category.shade_eq_quoted_iff {category : Category} :
    category.shade = .quoted ↔ category.isQuoted = true := by
  cases category <;> decide

theorem Category.shade_eq_reserved_iff {category : Category} :
    category.shade = .reserved ↔ category.isReserved = true := by
  cases category <;> decide

variable {isFirst isMore : Char → Bool} {before : Option Char} {c : Char} {text rest : List Char}
  {length : Nat}

/-! ### Runs -/

theorem run?_eq_some (h : run? isFirst isMore text = some length) :
    ∃ c rest, text = c :: rest ∧ isFirst c = true ∧
      length = (rest.takeWhile isMore).length + 1 := by
  unfold run? at h
  split at h
  · cases h
  · next c rest =>
    split at h
    · cases h
      exact ⟨c, rest, rfl, ‹_›, rfl⟩
    · cases h

/-! ### Where a recogniser does not apply -/

theorem run?_eq_none (h : isFirst c = false) : run? isFirst isMore (c :: rest) = none := by
  simp [run?, h]

theorem literal?_eq_none {spelling : String} {mark : Char} {more : List Char}
    (hspelling : spelling.toList = mark :: more) (h : c ≠ mark) :
    literal? spelling (c :: rest) = none := by
  simp [literal?, hspelling, h.symm]

theorem blockComment?_eq_none (h : c ≠ '#') : blockComment? (c :: rest) = none := by
  unfold blockComment?
  split
  · next heq => cases heq; exact absurd rfl h
  · rfl

theorem character?_eq_none (h : c ≠ '\'') : character? (c :: rest) = none := by
  unfold character?
  split
  · next heq => cases heq; exact absurd rfl h
  · rfl

theorem radix?_eq_none {letter : Char} {radix : Numeral.Radix} (h : c ≠ '0') :
    radix? letter radix (c :: rest) = none := by
  unfold radix?
  split
  · next heq => cases heq; exact absurd rfl h
  · rfl

theorem digits?_eq_none (h : Text.isAsciiDigit c = false) : digits? (c :: rest) = none :=
  run?_eq_none h

theorem scientific?_eq_none (h : Text.isAsciiDigit c = false) : scientific? (c :: rest) = none := by
  rw [scientific?, digits?_eq_none h]
  rfl

theorem decimal?_eq_none (h : Text.isAsciiDigit c = false) : decimal? (c :: rest) = none := by
  rw [decimal?, digits?_eq_none h]
  rfl

/-! ### Stretches in which nothing begins -/

/-- Nothing begins in the first characters of a text. -/
def PlainTo (before : Option Char) (text : List Char) (count : Nat) : Prop :=
  Plainly before (text.take count) (text.drop count)

namespace PlainTo

theorem add {count more : Nat} (h : PlainTo before text count)
    (hmore : PlainTo ((text.take count).getLast?.or before) (text.drop count) more) :
    PlainTo before text (count + more) := by
  unfold PlainTo at *
  rw [List.take_add]
  rw [List.drop_drop] at hmore
  refine Plainly.append ?_ hmore
  rwa [← List.drop_drop, List.take_append_drop]

theorem cons {count : Nat} (hmark : isMark c = false)
    (hword : reservedAt? before (c :: rest) = none) (hmore : PlainTo (some c) rest count) :
    PlainTo before (c :: rest) (count + 1) := by
  refine Plainly.cons hmark ?_ hmore
  rwa [List.drop_succ_cons, List.take_append_drop]

theorem run {count : Nat} (hmark : isMark c = false)
    (hword : reservedAt? before (c :: rest) = none)
    (hmore : ∀ d ∈ rest.take count, isMark d = false ∧ Text.isWordChar d = false) :
    PlainTo before (c :: rest) (count + 1) :=
  .cons hmark hword (.of_not_isWordChar (fun d hd => (hmore d hd).1) fun d hd => (hmore d hd).2)

theorem word {count : Nat} (hmark : isMark c = false)
    (hword : reservedAt? before (c :: rest) = none) (hc : Text.isWordChar c = true)
    (hmore : ∀ d ∈ rest.take count, Text.isWordChar d = true) :
    PlainTo before (c :: rest) (count + 1) :=
  .cons hmark hword (.of_isWordChar hc hmore)

end PlainTo

theorem of_mem_takeWhile (h : c ∈ rest.takeWhile isMore) : isMore c = true :=
  List.all_eq_true.1 List.all_takeWhile c h

/-! ### Characters of names and operators -/

theorem isNameChar_of_isStart (h : (Text.isAsciiLower c || c == '_') = true) :
    isNameChar c = true := by
  rw [Bool.or_eq_true] at h
  rcases h with h | h <;> simp [isNameChar, h]

theorem isWordChar_of_isNameChar (h : isNameChar c = true) : Text.isWordChar c = true := by
  have hascii : Text.isAscii c = true := by
    simp only [isNameChar, Bool.or_eq_true, beq_iff_eq] at h
    rcases h with ((h | h) | h) | rfl
    · exact Text.isAscii_of_isAsciiUpper h
    · exact Text.isAscii_of_isAsciiLower h
    · exact Text.isAscii_of_isAsciiDigit h
    · decide
  rw [Text.isWordChar_of_isAscii hascii]
  exact h

theorem isNameChar_of_radixDigit {radix : Numeral.Radix} (h : radix.isDigit c = true) :
    isNameChar c = true := by
  rw [isNameChar, Numeral.Radix.isAsciiLetterOrDigit h]
  rfl

theorem solid_of_isOperatorChar (h : Lexeme.isOperatorChar c = true) :
    isMark c = false ∧ Text.isWordChar c = false := by
  have hall : ("+-*/%<>=!&|^~$?".toList.all fun d => !isMark d && !Text.isWordChar d) = true := by
    decide +kernel
  have hc := List.all_eq_true.1 hall c (by simpa [Lexeme.isOperatorChar] using h)
  simpa using hc

/-! ### Numerals -/

theorem pos_of_digits? (h : digits? text = some length) : 0 < length := by
  obtain ⟨c, rest, -, -, rfl⟩ := run?_eq_some h
  exact Nat.succ_pos _

/-- A part of a numeral that can stand anywhere: nothing begins in it, and it ends in a character
of words. -/
structure IsDigits (text : List Char) (count : Nat) : Prop where
  plain : ∀ before, PlainTo before text count
  ends : ∀ before, ((text.take count).getLast?.or before).any Text.isWordChar = true

theorem any_getLast?_or {shown : List Char} (hbefore : before.any Text.isWordChar = true)
    (h : ∀ c ∈ shown, Text.isWordChar c = true) :
    (shown.getLast?.or before).any Text.isWordChar = true := by
  cases hlast : shown.getLast? with
  | none => exact hbefore
  | some c => exact h c (List.mem_of_getLast? hlast)

theorem isDigits_of_digits? (h : digits? text = some length) : IsDigits text length := by
  obtain ⟨c, rest, rfl, hdigit, rfl⟩ := run?_eq_some h
  have hword : ∀ d ∈ rest.take (rest.takeWhile fun c => Text.isAsciiDigit c || c == '_').length,
      Text.isWordChar d = true := by
    intro d hd
    rw [Lexeme.take_takeWhile_length] at hd
    have hmember := of_mem_takeWhile hd
    rw [Bool.or_eq_true, beq_iff_eq] at hmember
    rcases hmember with hdigit | rfl
    · exact isWordChar_of_isNameChar (by simp [isNameChar, hdigit])
    · decide
  have hc : Text.isWordChar c = true := isWordChar_of_isNameChar (by simp [isNameChar, hdigit])
  refine ⟨fun before => .word (isMark_of_isWordChar hc)
    (reservedAt?_of_first (Text.isAsciiLower_of_isAsciiDigit hdigit)) hc hword, fun before => ?_⟩
  rw [List.take_succ_cons, getLast?_cons_or]
  exact any_getLast?_or hc hword

theorem isDigits_of_fraction? (h : fraction? text = some length) : IsDigits text length := by
  unfold fraction? at h
  split at h
  · obtain ⟨count, hdigits, rfl⟩ := Option.map_eq_some_iff.1 h
    have hmore := isDigits_of_digits? hdigits
    refine ⟨fun before => .cons (by decide) (reservedAt?_of_not_isWordChar (by decide))
      (hmore.plain _), fun before => ?_⟩
    rw [List.take_succ_cons, getLast?_cons_or]
    exact hmore.ends _
  · cases h

/-- Digits with a fraction if there is one. -/
theorem IsDigits.fraction {count : Nat} (h : IsDigits text count) :
    IsDigits text (count + (fraction? (text.drop count)).getD 0) := by
  cases hfraction : fraction? (text.drop count) with
  | none => exact h
  | some more =>
    have hmore := isDigits_of_fraction? hfraction
    refine ⟨fun before => (h.plain before).add (hmore.plain _), fun before => ?_⟩
    rw [Option.getD_some, List.take_add, List.getLast?_append, Option.or_assoc]
    exact hmore.ends _

theorem plainTo_of_exponent? (hbefore : before.any Text.isWordChar = true)
    (h : exponent? text = some length) : PlainTo before text length := by
  unfold exponent? at h
  split at h
  · next c rest =>
    split at h
    · next hletter =>
      obtain ⟨count, hdigits, rfl⟩ := Option.map_eq_some_iff.1 h
      have hmore := isDigits_of_digits? hdigits
      have hmark : isMark c = false := by
        rw [Bool.or_eq_true, beq_iff_eq, beq_iff_eq] at hletter
        rcases hletter with rfl | rfl <;> decide
      rw [← Nat.add_assoc]
      refine .cons hmark (reservedAt?_of_before hbefore) ?_
      by_cases hsign : (rest.head? == some '+' || rest.head? == some '-') = true
      · rw [if_pos hsign, Nat.add_comm]
        rw [if_pos hsign] at hmore
        cases rest with
        | nil => cases hsign
        | cons sign more =>
          simp only [List.head?_cons, Bool.or_eq_true, beq_iff_eq, Option.some.injEq] at hsign
          refine PlainTo.add (.run ?_ (reservedAt?_of_not_isWordChar ?_) ?_) (hmore.plain _)
          · rcases hsign with rfl | rfl <;> decide
          · rcases hsign with rfl | rfl <;> decide
          · simp
      · rw [if_neg hsign]
        rw [if_neg hsign] at hmore
        exact hmore.plain _
    · cases h
  · cases h

/-! ### The rules -/

/-- Where no mark and no reserved word stands, a rule takes a stretch in which nothing begins, and
shows it plainly. -/
def Rule.Keeps (rule : Rule) : Prop :=
  ∀ {before : Option Char} {c : Char} {rest : List Char} {length : Nat}, isMark c = false →
    reservedAt? before (c :: rest) = none → rule.recognize before (c :: rest) = some length →
    rule.category.shade = .plain ∧ rule.next = .root ∧ 0 < length ∧
      PlainTo before (c :: rest) length

theorem keeps_of {recognize : List Char → Option Nat} {category : Category}
    (hshade : category.shade = .plain)
    (h : ∀ {before : Option Char} {c : Char} {rest : List Char} {length : Nat},
      isMark c = false → reservedAt? before (c :: rest) = none →
        recognize (c :: rest) = some length → 0 < length ∧ PlainTo before (c :: rest) length) :
    (Rule.plain recognize category .root).Keeps :=
  fun hmark hword hfound => ⟨hshade, rfl, h hmark hword hfound⟩

/-- A rule that needs a mark to begin with. -/
theorem keeps_of_mark {recognize : List Char → Option Nat} {category : Category} {state : State}
    {mark : Char} (hmark : isMark mark = true)
    (hnone : ∀ {c rest}, c ≠ mark → recognize (c :: rest) = none) :
    (Rule.plain recognize category state).Keeps := by
  intro before c rest length hc _ h
  refine absurd (h.symm.trans (hnone fun heq => ?_)) (by simp)
  rw [heq, hmark] at hc
  cases hc

theorem keeps_run {category : Category} (hshade : category.shade = .plain)
    (hmore : ∀ {c}, isMore c = true → isMark c = false ∧ Text.isWordChar c = false) :
    (Rule.plain (run? isFirst isMore) category .root).Keeps := by
  refine keeps_of hshade fun {before c rest length} hc hword h => ?_
  obtain ⟨_, _, heq, -, rfl⟩ := run?_eq_some h
  cases heq
  refine ⟨Nat.succ_pos _, .run hc hword fun d hd => hmore ?_⟩
  rw [Lexeme.take_takeWhile_length] at hd
  exact of_mem_takeWhile hd

/-- A name is plain from its first character on. -/
theorem plainTo_of_name {isFirst : Char → Bool} (hc : isMark c = false)
    (hword : reservedAt? before (c :: rest) = none)
    (hfirst : ∀ {c}, isFirst c = true → isNameChar c = true)
    (h : run? isFirst isNameChar (c :: rest) = some length) :
    0 < length ∧ PlainTo before (c :: rest) length := by
  obtain ⟨_, _, heq, hmember, rfl⟩ := run?_eq_some h
  cases heq
  refine ⟨Nat.succ_pos _,
    .word hc hword (isWordChar_of_isNameChar (hfirst hmember)) fun d hd => ?_⟩
  rw [Lexeme.take_takeWhile_length] at hd
  exact isWordChar_of_isNameChar (of_mem_takeWhile hd)

theorem keeps_literal {spelling : String} {category : Category} (hshade : category.shade = .plain)
    (hspelling : 0 < spelling.length)
    (hmore : (spelling.toList.all fun c => !isMark c && !Text.isWordChar c) = true) :
    (Rule.plain (literal? spelling) category .root).Keeps := by
  refine keeps_of hshade fun {before c rest length} _ _ h => ?_
  unfold literal? at h
  split at h
  · next hprefix =>
    cases h
    refine ⟨hspelling, ?_⟩
    have htake : (c :: rest).take spelling.length = spelling.toList :=
      (List.prefix_iff_eq_take.1 (List.isPrefixOf_iff_prefix.1 hprefix)).symm
    have hsolid := List.all_eq_true.1 hmore
    simp only [Bool.and_eq_true, Bool.not_eq_true'] at hsolid
    rw [PlainTo, htake]
    exact .of_not_isWordChar (fun d hd => (hsolid d hd).1) fun d hd => (hsolid d hd).2
  · cases h

theorem keeps_radix {letter : Char} {radix : Numeral.Radix} {category : Category}
    (hshade : category.shade = .plain) (hletter : Text.isWordChar letter = true)
    (hupper : Text.isWordChar letter.toUpper = true) :
    (Rule.plain (radix? letter radix) category .root).Keeps := by
  refine keeps_of hshade fun {before c rest length} hc hword h => ?_
  unfold radix? at h
  split at h
  · next mark rest heq =>
    cases heq
    split at h
    · next hmark =>
      obtain ⟨count, hrun, rfl⟩ := Option.map_eq_some_iff.1 h
      obtain ⟨first, more, rfl, hfirst, rfl⟩ := run?_eq_some hrun
      refine ⟨Nat.succ_pos _, .word hc hword (by decide) fun d hd => ?_⟩
      rw [List.take_succ_cons, List.take_succ_cons, Lexeme.take_takeWhile_length] at hd
      rcases List.mem_cons.1 hd with rfl | hd
      · rw [Bool.or_eq_true, beq_iff_eq, beq_iff_eq] at hmark
        rcases hmark with rfl | rfl
        · exact hletter
        · exact hupper
      · rcases List.mem_cons.1 hd with rfl | hd
        · exact isWordChar_of_isNameChar (isNameChar_of_radixDigit hfirst)
        · have hmember := of_mem_takeWhile hd
          rw [Bool.or_eq_true, beq_iff_eq] at hmember
          rcases hmember with hmember | rfl
          · exact isWordChar_of_isNameChar (isNameChar_of_radixDigit hmember)
          · decide
    · cases h
  · cases h

theorem keeps_scientific : (Rule.plain scientific? .float .root).Keeps := by
  refine keeps_of rfl fun {before c rest length} _ _ h => ?_
  obtain ⟨whole, hwhole, h⟩ := Option.bind_eq_some_iff.1 h
  obtain ⟨exponent, hexponent, h⟩ := Option.bind_eq_some_iff.1 h
  cases h
  have hdigits := (isDigits_of_digits? hwhole).fraction
  have hpositive := pos_of_digits? hwhole
  exact ⟨by omega,
    (hdigits.plain before).add (plainTo_of_exponent? (hdigits.ends before) hexponent)⟩

theorem keeps_decimal : (Rule.plain decimal? .float .root).Keeps := by
  refine keeps_of rfl fun {before c rest length} _ _ h => ?_
  obtain ⟨whole, hwhole, h⟩ := Option.bind_eq_some_iff.1 h
  obtain ⟨fraction, hfraction, h⟩ := Option.bind_eq_some_iff.1 h
  cases h
  have hpositive := pos_of_digits? hwhole
  exact ⟨by omega, ((isDigits_of_digits? hwhole).plain before).add
    ((isDigits_of_fraction? hfraction).plain _)⟩

theorem keeps_digits : (Rule.plain digits? .integer .root).Keeps :=
  keeps_of rfl fun _ _ h => ⟨pos_of_digits? h, (isDigits_of_digits? h).plain _⟩

/-- The rules of reserved words take reserved words. -/
theorem reserved?_eq_some {isMember : Keyword → Bool}
    (h : reserved? isMember before text = some length) :
    ∃ word, isMember word = true ∧ reservedAt? before text = some word ∧
      length = word.spelling.length := by
  unfold reserved? at h
  split at h
  · cases h
  next hbefore =>
  obtain ⟨word, hfind, rfl⟩ := Option.map_eq_some_iff.1 h
  have hfound := List.find?_some hfind
  simp only [Bool.and_eq_true, Bool.not_eq_true'] at hfound
  obtain ⟨⟨hmember, hprefix⟩, hleft⟩ := hfound
  obtain ⟨left, rfl⟩ := List.isPrefixOf_iff_prefix.1 hprefix
  refine ⟨word, hmember, reservedAt?_eq_some_iff.2 ⟨Bool.eq_false_iff.2 hbefore, left, rfl, ?_⟩, rfl⟩
  rwa [← String.length_toList, List.drop_left] at hleft

theorem keeps_reserved {isMember : Keyword → Bool} {category : Category} {state : State} :
    (Rule.mk (reserved? isMember) category state).Keeps := by
  intro before c rest length _ hword h
  obtain ⟨word, -, hsome, -⟩ := reserved?_eq_some h
  rw [hword] at hsome
  cases hsome

theorem keeps_longOperator : (Rule.plain longOperator? .operator .root).Keeps := by
  refine keeps_of rfl fun {before c rest length} _ _ h => ?_
  obtain ⟨hlong, h⟩ := Option.ite_none_right_eq_some.1 (h : ite _ _ _ = _)
  cases h
  refine ⟨Nat.lt_of_lt_of_le (by decide) hlong, ?_⟩
  rw [PlainTo, Lexeme.take_takeWhile_length]
  exact .of_not_isWordChar (fun d hd => (solid_of_isOperatorChar (of_mem_takeWhile hd)).1)
    fun d hd => (solid_of_isOperatorChar (of_mem_takeWhile hd)).2

theorem rootRules_keep : ∀ rule ∈ rootRules, rule.Keeps := by
  simp only [rootRules, List.forall_mem_cons]
  refine ⟨keeps_run rfl fun h => ⟨isMark_of_isSpace h, Text.isWordChar_of_isSpace h⟩,
    keeps_of_mark rfl blockComment?_eq_none,
    keeps_of_mark rfl fun h => run?_eq_none (beq_false_of_ne h),
    keeps_of_mark rfl (literal?_eq_none rfl), keeps_of_mark rfl character?_eq_none,
    keeps_radix rfl rfl rfl, keeps_radix rfl rfl rfl, keeps_radix rfl rfl rfl,
    keeps_scientific, keeps_decimal, keeps_digits, keeps_reserved, keeps_reserved,
    keeps_literal rfl (by decide) (by decide), keeps_literal rfl (by decide) (by decide),
    keeps_longOperator, ?_, ?_, ?_, ?_, ?_, nofun⟩
  · exact keeps_run rfl (by simp)
  · exact keeps_of rfl fun hc hword => plainTo_of_name hc hword fun h => by simp [isNameChar, h]
  · refine keeps_of rfl fun hc hword h => ?_
    exact plainTo_of_name hc hword isNameChar_of_isStart (Option.filter_eq_some_iff.1 h).1
  · exact keeps_of rfl fun hc hword => plainTo_of_name hc hword isNameChar_of_isStart
  · exact keeps_run rfl (by simp)

end SableFrontend.Highlight
