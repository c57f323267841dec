import SableFrontend.Proofs.Highlight.Halts
import SableFrontend.Proofs.Token.SignToken

/-!
What the rules of highlighting take where neither a comment, a quoted literal nor a reserved word begins.
A sign and a character in front of it that is none come together in one stretch only as the exponent of a
numeral (`Takes.exists_exponent`), and behind a stretch that ends in a letter or a digit of ASCII a digit
begins another one only if the stretch has been a numeral in a smaller radix (`Takes.exists_radix`).
-/

namespace SableFrontend.Highlight

open Shade

variable {isFirst isMore : Char → Bool} {before : Option Char} {c : Char} {text rest left : List Char}
  {length : Nat}

/-! ### Runs of digits -/

/-- The characters of a run of digits. -/
def isDigitOrLine (c : Char) : Bool := Text.isAsciiDigit c || c == '_'

theorem isNameChar_of_isAsciiDigit (h : Text.isAsciiDigit c = true) : isNameChar c = true := by
  simp [isNameChar, h]

theorem isDigitOrLine_of_isAsciiDigit (h : Text.isAsciiDigit c = true) : isDigitOrLine c = true := by
  rw [isDigitOrLine, h]
  rfl

theorem isNameChar_of_isDigitOrLine (h : isDigitOrLine c = true) : isNameChar c = true := by
  rw [isDigitOrLine, Bool.or_eq_true, beq_iff_eq] at h
  rcases h with hdigit | rfl
  · exact isNameChar_of_isAsciiDigit hdigit
  · rfl

/-- Digits and underscores that begin with a digit. -/
structure IsDigitRun (run : List Char) : Prop where
  starts : run.head?.any Text.isAsciiDigit = true
  members : ∀ c ∈ run, isDigitOrLine c = true

namespace IsDigitRun

variable {run : List Char}

theorem exists_cons (h : IsDigitRun run) :
    ∃ first more, run = first :: more ∧ Text.isAsciiDigit first = true ∧
      ∀ c ∈ more, isDigitOrLine c = true := by
  cases run with
  | nil => exact absurd h.starts Bool.false_ne_true
  | cons first more => exact ⟨first, more, rfl, h.starts, (List.forall_mem_cons.1 h.members).2⟩

theorem isNameChar (h : IsDigitRun run) : ∀ c ∈ run, isNameChar c = true :=
  fun c hc => isNameChar_of_isDigitOrLine (h.members c hc)

end IsDigitRun

theorem exists_of_run? (h : run? isFirst isMore text = some length) :
    ∃ first more left, text = first :: (more ++ left) ∧ isFirst first = true ∧
      (∀ c ∈ more, isMore c = true) ∧ left.head?.any isMore = false ∧ length = more.length + 1 := by
  obtain ⟨first, rest, rfl, hfirst, rfl⟩ := run?_eq_some h
  refine ⟨first, rest.takeWhile isMore, rest.dropWhile isMore, ?_, hfirst, fun c => of_mem_takeWhile,
    ?_, rfl⟩
  · rw [List.takeWhile_append_dropWhile]
  · cases hleft : rest.dropWhile isMore with
    | nil => rfl
    | cons c more =>
      have hstop := List.head?_dropWhile_not isMore rest
      rw [hleft] at hstop
      simpa using hstop

theorem exists_of_digits? (h : digits? text = some length) :
    ∃ run left, text = run ++ left ∧ IsDigitRun run ∧ left.head?.any isDigitOrLine = false ∧
      length = run.length := by
  obtain ⟨first, more, left, rfl, hfirst, hmore, hleft, rfl⟩ := exists_of_run? h
  refine ⟨first :: more, left, rfl, ⟨hfirst, List.forall_mem_cons.2 ⟨?_, hmore⟩⟩, hleft, rfl⟩
  rw [isDigitOrLine, hfirst]
  rfl

theorem digits?_append {run : List Char} (h : IsDigitRun run)
    (hleft : left.head?.any isDigitOrLine = false) : digits? (run ++ left) = some run.length := by
  obtain ⟨first, more, rfl, hfirst, hmore⟩ := h.exists_cons
  have hend : left.takeWhile isDigitOrLine = [] := by
    cases left with
    | nil => rfl
    | cons c left => exact List.takeWhile_cons_of_neg (by simpa using hleft)
  have hrun : (more ++ left).takeWhile isDigitOrLine = more := by
    rw [List.takeWhile_append_of_pos hmore, hend, List.append_nil]
  rw [List.cons_append, digits?, run?, if_pos hfirst]
  exact congrArg (fun run => some (run.length + 1)) hrun

/-- A part of a numeral behind a point. -/
def IsPointed (fraction : List Char) : Prop := ∃ run, fraction = '.' :: run ∧ IsDigitRun run

theorem exists_of_fraction? (h : fraction? text = some length) :
    ∃ fraction left, text = fraction ++ left ∧ IsPointed fraction ∧
      left.head?.any isDigitOrLine = false ∧ length = fraction.length := by
  unfold fraction? at h
  split at h
  · obtain ⟨count, hdigits, rfl⟩ := Option.map_eq_some_iff.1 h
    obtain ⟨run, left, rfl, hrun, hleft, rfl⟩ := exists_of_digits? hdigits
    exact ⟨'.' :: run, left, rfl, ⟨run, rfl, hrun⟩, hleft, rfl⟩
  · cases h

/-- The sign of an exponent, if there is one. -/
def IsSignOrNone (sign : List Char) : Prop := sign = [] ∨ sign = ['+'] ∨ sign = ['-']

theorem exists_of_exponent? (h : exponent? text = some length) :
    ∃ letter sign run left, text = letter :: (sign ++ run) ++ left ∧ (letter = 'e' ∨ letter = 'E') ∧
      IsSignOrNone sign ∧ IsDigitRun run ∧ left.head?.any isDigitOrLine = false ∧
      length = (letter :: (sign ++ run)).length := by
  unfold exponent? at h
  split at h
  · next letter rest =>
    split at h
    · next hletter =>
      rw [Bool.or_eq_true, beq_iff_eq, beq_iff_eq] at hletter
      obtain ⟨count, hdigits, rfl⟩ := Option.map_eq_some_iff.1 h
      by_cases hsign : (rest.head? == some '+' || rest.head? == some '-') = true
      · rw [if_pos hsign] at hdigits ⊢
        rw [Bool.or_eq_true, beq_iff_eq, beq_iff_eq] at hsign
        have hcons : ∃ sign more, rest = sign :: more ∧ IsSignOrNone [sign] := by
          rcases hsign with hsign | hsign <;> obtain ⟨more, rfl⟩ := List.head?_eq_some_iff.1 hsign
          · exact ⟨_, more, rfl, Or.inr (Or.inl rfl)⟩
          · exact ⟨_, more, rfl, Or.inr (Or.inr rfl)⟩
        clear hsign
        obtain ⟨sign, more, rfl, hsign⟩ := hcons
        obtain ⟨run, left, hmore, hrun, hleft, rfl⟩ := exists_of_digits? hdigits
        refine ⟨letter, [sign], run, left, ?_, hletter, hsign, hrun, hleft, rfl⟩
        rw [List.cons_append, List.append_assoc, ← hmore]
        rfl
      · rw [if_neg hsign] at hdigits ⊢
        obtain ⟨run, left, hmore, hrun, hleft, rfl⟩ := exists_of_digits? hdigits
        refine ⟨letter, [], run, left, ?_, hletter, Or.inl rfl, hrun, hleft, rfl⟩
        rw [List.cons_append, List.append_assoc, ← hmore]
        rfl
    · cases h
  · cases h

/-- A numeral with an exponent: its whole part, its fraction and the parts of its exponent. -/
structure IsScientific (whole fraction : List Char) (letter : Char) (sign run : List Char) : Prop where
  whole : IsDigitRun whole
  fraction : fraction = [] ∨ IsPointed fraction
  letter : letter = 'e' ∨ letter = 'E'
  sign : IsSignOrNone sign
  run : IsDigitRun run

theorem exists_of_scientific? (h : scientific? text = some length) :
    ∃ whole fraction letter sign run left,
      text = whole ++ fraction ++ letter :: (sign ++ run) ++ left ∧
      IsScientific whole fraction letter sign run ∧ left.head?.any isDigitOrLine = false ∧
      length = (whole ++ fraction ++ letter :: (sign ++ run)).length := by
  obtain ⟨count, hwhole, h⟩ := Option.bind_eq_some_iff.1 h
  obtain ⟨whole, behind, rfl, hdigits, -, rfl⟩ := exists_of_digits? hwhole
  obtain ⟨exponent, hexponent, h⟩ := Option.bind_eq_some_iff.1 h
  cases h
  have hfraction : ∃ fraction left, behind = fraction ++ left ∧
      (fraction = [] ∨ IsPointed fraction) ∧ (fraction? behind).getD 0 = fraction.length := by
    cases hfound : fraction? behind with
    | none => exact ⟨[], behind, rfl, Or.inl rfl, rfl⟩
    | some length =>
      obtain ⟨fraction, left, rfl, hpointed, -, rfl⟩ := exists_of_fraction? hfound
      exact ⟨fraction, left, rfl, Or.inr hpointed, rfl⟩
  rw [List.drop_left] at hexponent ⊢
  obtain ⟨fraction, left, rfl, hpointed, hlength⟩ := hfraction
  rw [hlength, ← List.drop_drop, List.drop_left, List.drop_left] at hexponent
  obtain ⟨letter, sign, run, left, rfl, hletter, hsign, hrun, hleft, rfl⟩ := exists_of_exponent? hexponent
  refine ⟨whole, fraction, letter, sign, run, left, ?_, ⟨hdigits, hpointed, hletter, hsign, hrun⟩, hleft, ?_⟩
  · rw [List.append_assoc, List.append_assoc]
  · rw [hlength, List.length_append, List.length_append]

/-! ### Numerals with a radix prefix -/

/-- A numeral with a radix prefix that goes on for as long as it can. -/
structure IsRadixRun (radix : Numeral.Radix) (taken left : List Char) : Prop where
  exists_eq : ∃ letter group, taken = '0' :: letter :: group ∧
    Numeral.Radix.ofLetter? letter = some radix ∧ group.head?.any radix.isDigit = true ∧
    ∀ c ∈ group, (radix.isDigit c || c == '_') = true
  stops : left.head?.any (fun c => radix.isDigit c || c == '_') = false

theorem IsRadixRun.isNameChar {radix : Numeral.Radix} {taken : List Char}
    (h : IsRadixRun radix taken left) : ∀ c ∈ taken, isNameChar c = true := by
  obtain ⟨letter, group, rfl, hletter, -, hgroup⟩ := h.exists_eq
  refine List.forall_mem_cons.2 ⟨rfl, List.forall_mem_cons.2
    ⟨Numeral.isNameChar_of_ofLetter? hletter, fun c hc => ?_⟩⟩
  have hmember := hgroup c hc
  rw [Bool.or_eq_true, beq_iff_eq] at hmember
  rcases hmember with hdigit | rfl
  · exact isNameChar_of_radixDigit hdigit
  · rfl

theorem exists_of_radix? {letter : Char} {radix : Numeral.Radix}
    (hlower : Numeral.Radix.ofLetter? letter = some radix)
    (hupper : Numeral.Radix.ofLetter? letter.toUpper = some radix)
    (h : radix? letter radix text = some length) :
    ∃ taken left, text = taken ++ left ∧ IsRadixRun radix taken left ∧ length = taken.length := by
  unfold radix? at h
  split at h
  · next c rest =>
    split at h
    · next hletter =>
      obtain ⟨count, hrun, rfl⟩ := Option.map_eq_some_iff.1 h
      obtain ⟨first, more, left, rfl, hfirst, hmore, hleft, rfl⟩ := exists_of_run? hrun
      refine ⟨'0' :: c :: first :: more, left, rfl, ⟨⟨c, first :: more, rfl, ?_, hfirst, ?_⟩, hleft⟩, rfl⟩
      · rw [Bool.or_eq_true, beq_iff_eq, beq_iff_eq] at hletter
        rcases hletter with rfl | rfl
        · exact hlower
        · exact hupper
      · refine List.forall_mem_cons.2 ⟨?_, hmore⟩
        rw [hfirst]
        rfl
    · cases h
  · cases h

theorem isTextChar_of_isWordChar (h : Text.isWordChar c = true) : isTextChar c = true := by
  have hne : ∀ {d : Char}, Text.isWordChar d = false → (c != d) = true := by
    rintro d hd
    refine bne_iff_ne.2 ?_
    rintro rfl
    rw [h] at hd
    cases hd
  rw [isTextChar, hne (by decide), hne (by decide), hne (by decide)]
  rfl

/-! ### What the rules take -/

/-- What is taken of a text where neither a comment, a quoted literal nor a reserved word begins, with
what is left behind it. -/
inductive Takes : List Char → List Char → Prop
  | single {c : Char} (left : List Char) (hc : isNameChar c = false) : Takes [c] left
  | spaces {taken : List Char} (left : List Char) (hall : ∀ c ∈ taken, Text.isSpace c = true) :
      Takes taken left
  | signs {taken : List Char} (left : List Char)
      (hall : ∀ c ∈ taken, Lexeme.isOperatorChar c = true) : Takes taken left
  | run {taken left : List Char} (hall : ∀ c ∈ taken, isNameChar c = true ∨ c = '.')
      (hleft : left.head?.any Text.isAsciiDigit = false) : Takes taken left
  | radix {radix : Numeral.Radix} {taken left : List Char} (hsmall : radix ≠ .hexadecimal)
      (h : IsRadixRun radix taken left) : Takes taken left
  | scientific {whole fraction : List Char} {letter : Char} {sign run left : List Char}
      (h : IsScientific whole fraction letter sign run)
      (hleft : left.head?.any isDigitOrLine = false) :
      Takes (whole ++ fraction ++ letter :: (sign ++ run)) left

/-- A recogniser takes a first part of a text so. -/
def TakesOf (text : List Char) (length : Nat) : Prop :=
  ∃ taken left, text = taken ++ left ∧ taken ≠ [] ∧ length = taken.length ∧ Takes taken left

theorem not_isAsciiDigit_of_isMore (hmore : ∀ {c}, Text.isAsciiDigit c = true → isMore c = true)
    (hleft : left.head?.any isMore = false) : left.head?.any Text.isAsciiDigit = false :=
  Bool.eq_false_iff.2 fun hdigit => by
    obtain ⟨c, hc, hdigit⟩ := (Option.any_eq_true _ _).1 hdigit
    rw [hc, Option.any_some, hmore hdigit] at hleft
    cases hleft

theorem takesOf_run (hmembers : ∀ {c}, isFirst c = true ∨ isMore c = true → isNameChar c = true)
    (hmore : ∀ {c}, Text.isAsciiDigit c = true → isMore c = true)
    (h : run? isFirst isMore text = some length) : TakesOf text length := by
  obtain ⟨first, more, left, rfl, hfirst, hall, hleft, rfl⟩ := exists_of_run? h
  refine ⟨first :: more, left, rfl, List.cons_ne_nil _ _, rfl,
    .run (List.forall_mem_cons.2 ⟨Or.inl (hmembers (Or.inl hfirst)), fun c hc =>
      Or.inl (hmembers (Or.inr (hall c hc)))⟩) (not_isAsciiDigit_of_isMore hmore hleft)⟩

theorem takesOf_name (h : name? text = some length) : TakesOf text length := by
  refine takesOf_run ?_ isNameChar_of_isAsciiDigit h
  rintro c (hstart | hmember)
  · exact isNameChar_of_isStart hstart
  · exact hmember

theorem takesOf_single (hfirst : ∀ {c}, isFirst c = true → isNameChar c = false)
    (h : run? isFirst (fun _ => false) text = some length) : TakesOf text length := by
  obtain ⟨first, more, left, rfl, hc, hall, -, rfl⟩ := exists_of_run? h
  obtain rfl : more = [] := List.eq_nil_iff_forall_not_mem.2 fun c hc => Bool.false_ne_true (hall c hc)
  exact ⟨[first], left, rfl, List.cons_ne_nil _ _, rfl, .single left (hfirst hc)⟩

theorem takesOf_radix {letter : Char} {radix : Numeral.Radix}
    (hlower : Numeral.Radix.ofLetter? letter = some radix)
    (hupper : Numeral.Radix.ofLetter? letter.toUpper = some radix)
    (h : radix? letter radix text = some length) : TakesOf text length := by
  obtain ⟨taken, left, rfl, hrun, rfl⟩ := exists_of_radix? hlower hupper h
  refine ⟨taken, left, rfl, ?_, rfl, ?_⟩
  · obtain ⟨letter, group, rfl, -⟩ := hrun.exists_eq
    exact List.cons_ne_nil _ _
  by_cases hsmall : radix = .hexadecimal
  · subst hsmall
    refine .run (fun c hc => Or.inl (hrun.isNameChar c hc))
      (not_isAsciiDigit_of_isMore (fun hdigit => ?_) hrun.stops)
    simp [Numeral.Radix.isDigit, hdigit]
  · exact .radix hsmall hrun

theorem takesOf_scientific (h : scientific? text = some length) : TakesOf text length := by
  obtain ⟨whole, fraction, letter, sign, run, left, rfl, hscientific, hleft, rfl⟩ :=
    exists_of_scientific? h
  exact ⟨_, left, rfl, List.append_ne_nil_of_right_ne_nil _ (List.cons_ne_nil _ _), rfl,
    .scientific hscientific hleft⟩

theorem takesOf_decimal (h : decimal? text = some length) : TakesOf text length := by
  obtain ⟨count, hwhole, h⟩ := Option.bind_eq_some_iff.1 h
  obtain ⟨whole, behind, rfl, hdigits, -, rfl⟩ := exists_of_digits? hwhole
  obtain ⟨fraction, hfraction, h⟩ := Option.bind_eq_some_iff.1 h
  cases h
  rw [List.drop_left] at hfraction
  obtain ⟨fraction, left, rfl, ⟨run, rfl, hrun⟩, hleft, rfl⟩ := exists_of_fraction? hfraction
  refine ⟨whole ++ '.' :: run, left, (List.append_assoc ..).symm,
    List.append_ne_nil_of_right_ne_nil _ (List.cons_ne_nil _ _), (List.length_append ..).symm, .run ?_
      (not_isAsciiDigit_of_isMore isDigitOrLine_of_isAsciiDigit hleft)⟩
  intro c hc
  rcases List.mem_append.1 hc with hc | hc
  · exact Or.inl (hdigits.isNameChar c hc)
  · rcases List.mem_cons.1 hc with rfl | hc
    · exact Or.inr rfl
    · exact Or.inl (hrun.isNameChar c hc)

theorem exists_of_literal? {spelling : String} (h : literal? spelling text = some length) :
    ∃ left, text = spelling.toList ++ left ∧ length = spelling.toList.length := by
  obtain ⟨hstarts, hlength⟩ := Option.ite_none_right_eq_some.1 (h : ite _ _ _ = _)
  cases hlength
  obtain ⟨left, rfl⟩ := List.isPrefixOf_iff_prefix.1 hstarts
  exact ⟨left, rfl, String.length_toList.symm⟩

theorem takesOf_longOperator (h : longOperator? text = some length) : TakesOf text length := by
  obtain ⟨hlong, h⟩ := Option.ite_none_right_eq_some.1 (h : ite _ _ _ = _)
  cases h
  refine ⟨_, text.dropWhile Lexeme.isOperatorChar, List.takeWhile_append_dropWhile.symm, ?_, rfl,
    .signs _ fun c => of_mem_takeWhile⟩
  exact List.ne_nil_of_length_pos (Nat.lt_of_lt_of_le Nat.two_pos hlong)

theorem not_isNameChar_of_isWordChar (h : Text.isWordChar c = false) : isNameChar c = false :=
  Bool.eq_false_iff.2 fun hname => by
    rw [isWordChar_of_isNameChar hname] at h
    cases h

/-- A rule that shows what it takes plainly. -/
def Rule.TakesPlainly (rule : Rule) : Prop :=
  rule.category.shade = .plain → rule.next = .root ∧ ∀ {before : Option Char} {text : List Char}
    {length : Nat}, rule.recognize before text = some length → TakesOf text length

theorem takesPlainly_of {recognize : List Char → Option Nat} {category : Category}
    (h : ∀ {text length}, recognize text = some length → TakesOf text length) :
    (Rule.plain recognize category .root).TakesPlainly := fun _ => ⟨rfl, h⟩

theorem takesPlainly_of_ne {rule : Rule} (h : rule.category.shade ≠ .plain) : rule.TakesPlainly :=
  fun hplain => absurd hplain h

theorem rootRules_take : ∀ rule ∈ rootRules, rule.TakesPlainly := by
  simp only [rootRules, List.forall_mem_cons]
  refine ⟨takesPlainly_of fun h => ?_, takesPlainly_of_ne (by decide), takesPlainly_of_ne (by decide),
    takesPlainly_of_ne (by decide), takesPlainly_of_ne (by decide), takesPlainly_of (takesOf_radix rfl rfl),
    takesPlainly_of (takesOf_radix rfl rfl), takesPlainly_of (takesOf_radix rfl rfl),
    takesPlainly_of takesOf_scientific, takesPlainly_of takesOf_decimal,
    takesPlainly_of (takesOf_run ?_ ?_), takesPlainly_of_ne (by decide), takesPlainly_of_ne (by decide),
    takesPlainly_of fun h => ?_, takesPlainly_of fun h => ?_, takesPlainly_of takesOf_longOperator,
    takesPlainly_of (takesOf_single ?_), takesPlainly_of (takesOf_run ?_ ?_),
    takesPlainly_of fun h => ?_, takesPlainly_of ?_, takesPlainly_of (takesOf_single ?_),
    List.forall_mem_nil _⟩
  · obtain ⟨first, more, left, rfl, hfirst, hmore, -, rfl⟩ := exists_of_run? h
    exact ⟨first :: more, left, rfl, List.cons_ne_nil _ _, rfl,
      .spaces left (List.forall_mem_cons.2 ⟨hfirst, hmore⟩)⟩
  · rintro c (hdigit | hmember)
    · exact isNameChar_of_isAsciiDigit hdigit
    · exact isNameChar_of_isDigitOrLine hmember
  · exact isDigitOrLine_of_isAsciiDigit
  · obtain ⟨left, rfl, rfl⟩ := exists_of_literal? h
    exact ⟨['@'], left, rfl, List.cons_ne_nil _ _, rfl, .single left rfl⟩
  · obtain ⟨left, rfl, rfl⟩ := exists_of_literal? h
    exact ⟨['=', '!'], left, rfl, List.cons_ne_nil _ _, rfl,
      .signs left (List.all_eq_true.1 rfl)⟩
  · intro c hc
    rw [Bool.and_eq_true] at hc
    exact not_isNameChar_of_isWordChar (solid_of_isOperatorChar hc.1).2
  · rintro c (hupper | hmember)
    · simp [isNameChar, hupper]
    · exact hmember
  · exact isNameChar_of_isAsciiDigit
  · exact takesOf_name (Option.filter_eq_some_iff.1 h).1
  · exact takesOf_name
  · intro c hc
    have hall : ("(),;.[]\x7b\x7d:|".toList.all fun c => !isNameChar c) = true := by decide +kernel
    simpa using List.all_eq_true.1 hall c (by simpa using hc)

/-- Where no rule applies, no name begins. -/
theorem not_isNameChar_of_firstMatch? {state : State}
    (h : firstMatch? state.rules before (c :: rest) = none) : isNameChar c = false := by
  have hnone : ∀ rule ∈ state.rules, rule.recognize before (c :: rest) = none := fun rule hrule =>
    Option.map_eq_none_iff.1 (List.findSome?_eq_none_iff.1 h rule hrule)
  refine Bool.eq_false_iff.2 fun hname => ?_
  have hrun : ∀ {isFirst isMore : Char → Bool}, isFirst c = true →
      run? isFirst isMore (c :: rest) ≠ none := fun hfirst => by
    rw [run?, if_pos hfirst]
    exact Option.some_ne_none _
  cases state with
  | root =>
    simp only [State.rules, rootRules, List.forall_mem_cons, Rule.plain] at hnone
    obtain ⟨-, -, -, -, -, -, -, -, -, -, hdigits, -, -, -, -, -, -, hclass, -, hlower, -⟩ := hnone
    simp only [isNameChar, Bool.or_eq_true] at hname
    rcases hname with ((hname | hname) | hname) | hname
    · exact hrun hname hclass
    · exact hrun (by rw [hname]; rfl) hlower
    · exact hrun hname hdigits
    · exact hrun (by rw [hname, Bool.or_true]) hlower
  | string =>
    simp only [State.rules, stringRules, List.forall_mem_cons, Rule.plain] at hnone
    exact hrun (isTextChar_of_isWordChar (isWordChar_of_isNameChar hname)) hnone.2.2.1

/-- What is shown plainly is taken so, and outside of a string literal nothing changes with it. -/
theorem matchAt_takes {state : State} {first : Char}
    (h : (matchAt state before first rest).category.shade = .plain) :
    Takes ((matchAt state before first rest).taken first rest)
        (rest.drop ((matchAt state before first rest).length - 1)) ∧
      (state = .root → (matchAt state before first rest).next = .root) := by
  cases hfound : firstMatch? state.rules before (first :: rest) with
  | some found =>
    rw [matchAt_eq hfound] at h ⊢
    obtain ⟨rule, hrule, hrecognize, hcategory, hnext⟩ := firstMatch?_eq_some hfound
    rw [hcategory] at h
    cases state with
    | root =>
      obtain ⟨hroot, htakes⟩ := rootRules_take rule hrule h
      obtain ⟨taken, left, htext, hne, hlength, htaken⟩ := htakes hrecognize
      obtain ⟨c, more, rfl⟩ := List.exists_cons_of_ne_nil hne
      rw [List.cons_append] at htext
      obtain ⟨rfl, rfl⟩ := List.cons.inj htext
      refine ⟨?_, fun _ => hnext.trans hroot⟩
      rwa [Match.taken, hlength, List.length_cons, Nat.add_sub_cancel, List.take_left, List.drop_left]
    | string =>
      have hquoted : ∀ rule ∈ stringRules, rule.category.shade = .quoted := by
        simp only [stringRules, List.forall_mem_cons]
        exact ⟨rfl, rfl, rfl, rfl, List.forall_mem_nil _⟩
      rw [hquoted rule hrule] at h
      cases h
  | none =>
    have hsingle := Takes.single rest (not_isNameChar_of_firstMatch? hfound)
    unfold matchAt
    rw [hfound]
    dsimp only
    split
    · exact ⟨hsingle, fun _ => rfl⟩
    · exact ⟨hsingle, id⟩

/-! ### What is not taken together -/

theorem not_isSpace_of_isOperatorChar (h : Lexeme.isOperatorChar c = true) : Text.isSpace c = false := by
  have hall : ("+-*/%<>=!&|^~$?".toList.all fun d => !Text.isSpace d) = true := by decide +kernel
  have hc := List.all_eq_true.1 hall c (by simpa [Lexeme.isOperatorChar] using h)
  simpa using hc

theorem isTextChar_of_isOperatorChar (h : Lexeme.isOperatorChar c = true) : isTextChar c = true := by
  have hall : ("+-*/%<>=!&|^~$?".toList.all isTextChar) = true := by decide +kernel
  exact List.all_eq_true.1 hall c (by simpa [Lexeme.isOperatorChar] using h)

theorem not_isOperatorChar_of_isNameChar (h : isNameChar c = true) : Lexeme.isOperatorChar c = false :=
  Text.isOperatorChar_of_isWordChar (isWordChar_of_isNameChar h)

namespace IsScientific

variable {whole fraction sign run : List Char} {letter : Char}

/-- Letters, digits, underscores and points stand in front of the sign. -/
theorem front_members (h : IsScientific whole fraction letter sign run) :
    ∀ c ∈ whole ++ fraction ++ [letter], isNameChar c = true ∨ c = '.' := by
  intro c hc
  rcases List.mem_append.1 hc with hc | hc
  · rcases List.mem_append.1 hc with hc | hc
    · exact Or.inl (h.whole.isNameChar c hc)
    · rcases h.fraction with rfl | ⟨run, rfl, hrun⟩
      · cases hc
      · rcases List.mem_cons.1 hc with rfl | hc
        · exact Or.inr rfl
        · exact Or.inl (hrun.isNameChar c hc)
  · rw [List.mem_singleton.1 hc]
    rcases h.letter with rfl | rfl <;> exact Or.inl rfl

end IsScientific

namespace Takes

variable {taken : List Char}

/-- A sign and a character in front of it that is none are taken together only as the exponent of a
numeral. -/
theorem exists_exponent {front more : List Char} {sign : Char}
    (h : Takes (front ++ sign :: more) left) (hne : front ≠ [])
    (hfront : front.getLast?.any Lexeme.isOperatorChar = false)
    (hsign : Lexeme.isOperatorChar sign = true) :
    ∃ whole fraction letter, front = whole ++ fraction ++ [letter] ∧
      IsScientific whole fraction letter [sign] more := by
  have hnot : ∀ {c}, isNameChar c = true ∨ c = '.' → c ≠ sign := by
    rintro c hc rfl
    rcases hc with hname | rfl
    · rw [not_isOperatorChar_of_isNameChar hname] at hsign
      cases hsign
    · exact absurd hsign (by decide)
  have hmem : sign ∈ front ++ sign :: more := List.mem_append_right _ List.mem_cons_self
  generalize htaken : front ++ sign :: more = taken at h hmem
  cases h with
  | single =>
    have hlength := congrArg List.length htaken
    rw [List.length_append, List.length_cons, List.length_singleton] at hlength
    exact absurd (List.length_eq_zero_iff.1 (by omega)) hne
  | spaces _ hall =>
    have hspace := hall sign hmem
    rw [not_isSpace_of_isOperatorChar hsign] at hspace
    cases hspace
  | signs _ hall =>
    obtain ⟨init, last, rfl⟩ := (List.eq_nil_or_concat' front).resolve_left hne
    rw [List.getLast?_concat, Option.any_some, hall last (by rw [← htaken]; simp)] at hfront
    cases hfront
  | run hall => exact absurd rfl (hnot (hall sign hmem))
  | radix _ hrun => exact absurd rfl (hnot (Or.inl (hrun.isNameChar sign hmem)))
  | @scientific whole fraction letter mark run left hscientific =>
    have hrun : sign ∉ run := fun hmem =>
      hnot (Or.inl (hscientific.run.isNameChar sign hmem)) rfl
    have hbefore : sign ∉ whole ++ fraction ++ [letter] := fun hmem =>
      hnot (hscientific.front_members sign hmem) rfl
    rw [List.append_cons (whole ++ fraction)] at htaken hmem
    have hmark : ∃ c, mark = [c] := by
      rcases hscientific.sign with rfl | rfl | rfl
      · exact absurd hmem (List.not_mem_append hbefore (List.not_mem_append List.not_mem_nil hrun))
      · exact ⟨_, rfl⟩
      · exact ⟨_, rfl⟩
    obtain ⟨c, rfl⟩ := hmark
    obtain ⟨rfl, rfl, rfl⟩ := (List.append_cons_inj_of_notMem hbefore hrun).1 htaken.symm
    exact ⟨whole, fraction, letter, rfl, hscientific⟩

/-- Behind a letter or a digit that ends what is taken, a digit is left only by a numeral in a smaller
radix. -/
theorem exists_radix {c d : Char} (h : Takes taken (d :: left)) (hlast : taken.getLast? = some c)
    (hname : isNameChar c = true) (hdigit : Text.isAsciiDigit d = true) :
    ∃ radix, radix ≠ .hexadecimal ∧ IsRadixRun radix taken (d :: left) := by
  have hmem := List.mem_of_getLast? hlast
  cases h with
  | single _ hc =>
    rw [List.mem_singleton.1 hmem, hc] at hname
    cases hname
  | spaces _ hall =>
    rw [not_isNameChar_of_isWordChar (Text.isWordChar_of_isSpace (hall c hmem))] at hname
    cases hname
  | signs _ hall =>
    rw [not_isNameChar_of_isWordChar (Text.isWordChar_of_isOperatorChar (hall c hmem))] at hname
    cases hname
  | run _ hleft =>
    rw [List.head?_cons, Option.any_some, hdigit] at hleft
    cases hleft
  | radix hsmall hrun => exact ⟨_, hsmall, hrun⟩
  | scientific _ hleft =>
    rw [List.head?_cons, Option.any_some, isDigitOrLine_of_isAsciiDigit hdigit] at hleft
    cases hleft

/-- A letter beyond ASCII is taken by itself. -/
theorem eq_singleton {c : Char} (h : Takes taken left) (hmem : c ∈ taken)
    (hword : Text.isWordChar c = true) (hname : isNameChar c = false) : taken = [c] := by
  have hnot : ∀ {d}, d = c → ¬(isNameChar d = true ∨ d = '.') := by
    rintro d rfl (hd | rfl)
    · rw [hname] at hd
      cases hd
    · exact absurd hword (by decide)
  cases h with
  | single => rw [List.mem_singleton.1 hmem]
  | spaces _ hall =>
    rw [Text.isWordChar_of_isSpace (hall c hmem)] at hword
    cases hword
  | signs _ hall =>
    rw [Text.isWordChar_of_isOperatorChar (hall c hmem)] at hword
    cases hword
  | run hall => exact absurd (hall c hmem) (hnot rfl)
  | radix _ hrun => exact absurd (Or.inl (hrun.isNameChar c hmem)) (hnot rfl)
  | @scientific whole fraction letter sign run left hscientific =>
    rw [List.append_cons] at hmem
    rcases List.mem_append.1 hmem with hmem | hmem
    · exact absurd (hscientific.front_members c hmem) (hnot rfl)
    rcases List.mem_append.1 hmem with hmem | hmem
    · rcases hscientific.sign with rfl | rfl | rfl
      · cases hmem
      · rw [List.mem_singleton.1 hmem] at hword
        exact absurd hword (by decide)
      · rw [List.mem_singleton.1 hmem] at hword
        exact absurd hword (by decide)
    · exact absurd (Or.inl (hscientific.run.isNameChar c hmem)) (hnot rfl)

end Takes

end SableFrontend.Highlight
