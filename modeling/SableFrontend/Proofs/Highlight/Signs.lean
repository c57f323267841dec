import SableFrontend.Proofs.Highlight.Takes

/-!
What the rules of highlighting take where an operator or a digit begins: the whole operator, unless it is a
longer one with the sign of a bind in front (`matchAt_sign`), and a numeral in a smaller radix or with an
exponent, as far as it goes.
-/

namespace SableFrontend.Highlight

open Shade

variable {before : Option Char} {c first : Char} {text rest left more : List Char} {state : State}

/-! ### Matches at operators and numerals -/

/-- A longer operator that begins with the sign of a bind. -/
def IsLongBind (sign : List Char) : Prop := ∃ c more, sign = '=' :: '!' :: c :: more

theorem reserved?_of_not_isWordChar (isMember : Keyword → Bool) (h : Text.isWordChar c = false) :
    reserved? isMember before (c :: rest) = none :=
  Option.eq_none_iff_forall_ne_some.2 fun length hsome => by
    obtain ⟨word, -, hword, -⟩ := reserved?_eq_some hsome
    rw [reservedAt?_of_not_isWordChar h] at hword
    cases hword

/-- The rules that an operator comes to. -/
theorem firstMatch?_of_isOperatorChar (h : Lexeme.isOperatorChar c = true) :
    firstMatch? State.root.rules before (c :: rest) =
      firstMatch? (rootRules.drop 14) before (c :: rest) := by
  have hword := (solid_of_isOperatorChar h).2
  have hdigit : Text.isAsciiDigit c = false := Bool.eq_false_iff.2 fun hdigit => by
    rw [not_isOperatorChar_of_isNameChar (isNameChar_of_isAsciiDigit hdigit)] at h
    cases h
  have hannotation : c ≠ '@' := by
    rintro rfl
    cases h
  rw [firstMatch?_of_not_isMark (not_isSpace_of_isOperatorChar h) (solid_of_isOperatorChar h).1,
    firstMatch?_of_not_digit hdigit]
  simp only [rootRules, List.drop_succ_cons, List.drop_zero]
  rw [firstMatch?_cons_of_none (reserved?_of_not_isWordChar _ hword),
    firstMatch?_cons_of_none (reserved?_of_not_isWordChar _ hword),
    firstMatch?_cons_of_none (literal?_eq_none rfl hannotation)]

theorem run?_single {isFirst : Char → Bool} (h : isFirst c = true) :
    run? isFirst (fun _ => false) (c :: rest) = some 1 := by
  have hnone : rest.takeWhile (fun _ => false) = [] := by
    cases rest with
    | nil => rfl
    | cons d rest => rfl
  rw [run?, if_pos h, hnone]
  rfl

theorem longOperator?_of_sign (hall : ∀ c ∈ first :: more, Lexeme.isOperatorChar c = true)
    (hleft : left.head?.any Lexeme.isOperatorChar = false) :
    longOperator? (first :: (more ++ left)) =
      if 2 ≤ (first :: more).length then some (first :: more).length else none := by
  have hrun : (first :: (more ++ left)).takeWhile Lexeme.isOperatorChar = first :: more := by
    rw [← List.cons_append, List.takeWhile_append_of_pos hall]
    cases left with
    | nil => rw [List.takeWhile_nil, List.append_nil]
    | cons c left =>
      rw [List.takeWhile_cons_of_neg (by simpa using hleft), List.append_nil]
  rw [longOperator?, hrun]

/-- An operator in front of which the rules find no sign of a bind is taken whole. -/
theorem firstMatch?_sign (before : Option Char)
    (hall : ∀ c ∈ first :: more, Lexeme.isOperatorChar c = true)
    (hleft : left.head?.any Lexeme.isOperatorChar = false) :
    ∃ category : Category, category ≠ .pseudoKeyword ∧
      firstMatch? (rootRules.drop 15) before (first :: (more ++ left)) =
        some { category := category, length := (first :: more).length, next := .root } := by
  have hlong := longOperator?_of_sign hall hleft
  simp only [rootRules, List.drop_succ_cons, List.drop_zero]
  by_cases htwo : 2 ≤ (first :: more).length
  · rw [if_pos htwo] at hlong
    exact ⟨.operator, by decide, firstMatch?_cons_of_some hlong⟩
  rw [if_neg htwo] at hlong
  obtain rfl : more = [] := List.length_eq_zero_iff.1 (by rw [List.length_cons] at htwo; omega)
  rw [List.nil_append] at hlong ⊢
  by_cases hpipe : first = '|'
  · subst hpipe
    have hshort : shortOperator? ('|' :: left) = none := rfl
    have hclass : className? ('|' :: left) = none := rfl
    have hhead : clauseHead? ('|' :: left) = none := rfl
    have hname : name? ('|' :: left) = none := rfl
    have hmark : punctuation? ('|' :: left) = some 1 := run?_single (by decide)
    refine ⟨.punctuation, by decide, (firstMatch?_cons_of_none hlong).trans ?_⟩
    simp [firstMatch?, Rule.plain, hshort, hclass, hhead, hname, hmark]
  · refine ⟨.operator, by decide, (firstMatch?_cons_of_none hlong).trans (firstMatch?_cons_of_some ?_)⟩
    refine @run?_single _ _ (fun c => Lexeme.isOperatorChar c && c != '|') ?_
    rw [hall first List.mem_cons_self, Bool.true_and, bne_iff_ne]
    exact hpipe

/-- What is taken where an operator begins: the sign of a bind, or the whole operator. -/
theorem matchAt_sign (before : Option Char)
    (hall : ∀ c ∈ first :: more, Lexeme.isOperatorChar c = true)
    (hleft : left.head?.any Lexeme.isOperatorChar = false) :
    ((matchAt .root before first (more ++ left)).taken first (more ++ left) = first :: more ↔
        ¬IsLongBind (first :: more)) ∧
      (¬IsLongBind (first :: more) →
        ((matchAt .root before first (more ++ left)).category = .pseudoKeyword ↔
          first :: more = ['=', '!'])) := by
  have hrules : firstMatch? State.root.rules before (first :: (more ++ left)) = _ :=
    firstMatch?_of_isOperatorChar (hall first List.mem_cons_self)
  by_cases hbind : ∃ tail, first :: more = '=' :: '!' :: tail
  · obtain ⟨tail, heq⟩ := hbind
    obtain ⟨rfl, rfl⟩ := List.cons.inj heq
    have hfound : matchAt .root before '=' ('!' :: tail ++ left) =
        { category := .pseudoKeyword, length := 2, next := .root } :=
      matchAt_eq (hrules.trans rfl)
    rw [hfound]
    cases tail with
    | nil => exact ⟨iff_of_true rfl nofun, fun _ => iff_of_true rfl rfl⟩
    | cons c tail =>
      have hlong : IsLongBind ('=' :: '!' :: c :: tail) := ⟨c, tail, rfl⟩
      exact ⟨iff_of_false nofun (not_not_intro hlong), fun hno => absurd hlong hno⟩
  · have hnone : literal? "=!" (first :: (more ++ left)) = none := by
      refine Option.eq_none_iff_forall_ne_some.2 fun length hsome => hbind ?_
      obtain ⟨behind, htext, -⟩ := exists_of_literal? hsome
      change first :: (more ++ left) = '=' :: '!' :: behind at htext
      obtain ⟨rfl, hmore⟩ := List.cons.inj htext
      cases more with
      | nil =>
        rw [List.nil_append] at hmore
        rw [hmore] at hleft
        cases hleft
      | cons c more =>
        obtain ⟨rfl, -⟩ := List.cons.inj hmore
        exact ⟨more, rfl⟩
    obtain ⟨category, hcategory, hsign⟩ := firstMatch?_sign before hall hleft
    have hfound := matchAt_eq ((hrules.trans (firstMatch?_cons_of_none hnone)).trans hsign)
    refine ⟨iff_of_true ?_ ?_, fun _ => ?_⟩
    · rw [hfound, Match.taken, List.length_cons, Nat.add_sub_cancel, List.take_left]
    · rintro ⟨c, tail, heq⟩
      exact hbind ⟨c :: tail, heq⟩
    · rw [hfound]
      exact iff_of_false hcategory fun heq => hbind ⟨[], heq⟩

/-- The rules that a digit comes to. -/
theorem firstMatch?_of_isAsciiDigit (h : Text.isAsciiDigit c = true) :
    firstMatch? State.root.rules before (c :: rest) =
      firstMatch? (rootRules.drop 5) before (c :: rest) := by
  have hword := isWordChar_of_isNameChar (isNameChar_of_isAsciiDigit h)
  refine firstMatch?_of_not_isMark (Bool.eq_false_iff.2 fun hspace => ?_) (isMark_of_isWordChar hword)
  rw [Text.isWordChar_of_isSpace hspace] at hword
  cases hword

/-- No numeral with a prefix begins where the letter of another radix, or of none, stands. -/
theorem radix?_of_other {letter mark : Char} {radix : Numeral.Radix}
    (hlower : Numeral.Radix.ofLetter? letter = some radix)
    (hupper : Numeral.Radix.ofLetter? letter.toUpper = some radix)
    (hmark : Numeral.Radix.ofLetter? mark ≠ some radix) :
    radix? letter radix (c :: mark :: rest) = none := by
  unfold radix?
  split
  · next heq =>
    cases heq
    rw [if_neg]
    rw [Bool.or_eq_true, beq_iff_eq, beq_iff_eq]
    rintro (rfl | rfl)
    · exact hmark hlower
    · exact hmark hupper
  · rfl

theorem radix?_of_isRadixRun {letter : Char} {radix : Numeral.Radix} {taken : List Char}
    (hletter : ∀ mark, Numeral.Radix.ofLetter? mark = some radix →
      (mark == letter || mark == letter.toUpper) = true)
    (h : IsRadixRun radix taken left) : radix? letter radix (taken ++ left) = some taken.length := by
  obtain ⟨mark, group, rfl, hmark, hstart, hgroup⟩ := h.exists_eq
  obtain ⟨first, more, rfl⟩ := List.exists_cons_of_ne_nil (l := group) (by rintro rfl; cases hstart)
  have hend : left.takeWhile (fun c => radix.isDigit c || c == '_') = [] := by
    cases left with
    | nil => rfl
    | cons c left => exact List.takeWhile_cons_of_neg (by simpa using h.stops)
  have hrun : run? radix.isDigit (fun c => radix.isDigit c || c == '_') (first :: (more ++ left)) =
      some (more.length + 1) := by
    rw [run?, if_pos (by simpa using hstart),
      List.takeWhile_append_of_pos (List.forall_mem_cons.1 hgroup).2, hend, List.append_nil]
  simp only [List.cons_append, radix?, hletter mark hmark, if_true, hrun, Option.map_some,
    List.length_cons]

/-- A numeral in a smaller radix is taken for as long as it goes on. -/
theorem firstMatch?_radix (before : Option Char) {radix : Numeral.Radix} {taken : List Char}
    (hsmall : radix ≠ .hexadecimal) (h : IsRadixRun radix taken left) :
    ∃ category, firstMatch? State.root.rules before (taken ++ left) =
      some { category := category, length := taken.length, next := .root } := by
  obtain ⟨mark, group, htaken, hmark, -⟩ := h.exists_eq
  have hnone : ∀ {letter : Char} {other : Numeral.Radix}, other ≠ radix →
      Numeral.Radix.ofLetter? letter = some other →
      Numeral.Radix.ofLetter? letter.toUpper = some other →
      radix? letter other (taken ++ left) = none := by
    intro letter other hne hlower hupper
    rw [htaken]
    refine radix?_of_other hlower hupper fun hother => hne ?_
    rw [hmark] at hother
    exact (Option.some.inj hother).symm
  have hrules : firstMatch? State.root.rules before (taken ++ left) =
      firstMatch? (rootRules.drop 5) before (taken ++ left) := by
    rw [htaken]
    exact firstMatch?_of_isAsciiDigit rfl
  -- of the six letters, two are those of each radix
  have hletters : ∀ {letter : Char}, (['x', 'X', 'b', 'B', 'o', 'O'].all fun mark =>
      Numeral.Radix.ofLetter? mark != some radix || mark == letter || mark == letter.toUpper) = true →
      radix? letter radix (taken ++ left) = some taken.length := by
    intro letter hletters
    refine radix?_of_isRadixRun (fun mark hmark => ?_) h
    have hletter := List.all_eq_true.1 hletters mark (Numeral.mem_of_ofLetter? hmark)
    rwa [hmark, bne_self_eq_false, Bool.false_or] at hletter
  simp only [rootRules, List.drop_succ_cons, List.drop_zero] at hrules
  rw [firstMatch?_cons_of_none (hnone hsmall.symm rfl rfl)] at hrules
  cases radix with
  | hexadecimal => exact absurd rfl hsmall
  | binary => exact ⟨_, hrules.trans (firstMatch?_cons_of_some (hletters (by decide)))⟩
  | octal =>
    have hbinary : radix? 'b' .binary (taken ++ left) = none := hnone (by decide) rfl rfl
    rw [firstMatch?_cons_of_none hbinary] at hrules
    exact ⟨_, hrules.trans (firstMatch?_cons_of_some (hletters (by decide)))⟩

/-- Digits, the letter of an exponent, a sign and more digits are taken together. -/
theorem firstMatch?_exponent (before : Option Char) {run : List Char} {letter sign digit : Char}
    (left : List Char) (hrun : IsDigitRun run)
    (hletter : letter = 'e' ∨ letter = 'E') (hsign : sign = '+' ∨ sign = '-')
    (hdigit : Text.isAsciiDigit digit = true) :
    ∃ count, firstMatch? State.root.rules before (run ++ letter :: sign :: digit :: left) =
      some { category := .float, length := run.length + (count + 2), next := .root } := by
  obtain ⟨first, more, rfl, hfirst, hmore⟩ := hrun.exists_cons
  have hletterChar : isDigitOrLine letter = false ∧ fraction? (letter :: sign :: digit :: left) = none ∧
      Numeral.Radix.ofLetter? letter = none := by
    rcases hletter with rfl | rfl <;> exact ⟨rfl, rfl, rfl⟩
  have hnone : ∀ {mark : Char} {radix : Numeral.Radix},
      Numeral.Radix.ofLetter? mark = some radix → Numeral.Radix.ofLetter? mark.toUpper = some radix →
      radix? mark radix (first :: (more ++ letter :: sign :: digit :: left)) = none := by
    intro mark radix hlower hupper
    cases more with
    | nil => exact radix?_of_other hlower hupper (by rw [hletterChar.2.2]; nofun)
    | cons second more =>
      refine radix?_of_other hlower hupper ?_
      have hsecond := hmore second List.mem_cons_self
      rw [isDigitOrLine, Bool.or_eq_true, beq_iff_eq] at hsecond
      rw [Numeral.ofLetter?_eq_none hsecond]
      nofun
  have hwhole : digits? (first :: more ++ letter :: sign :: digit :: left) = some (first :: more).length :=
    digits?_append hrun hletterChar.1
  have hbehind : digits? (digit :: left) = some ((left.takeWhile isDigitOrLine).length + 1) :=
    if_pos hdigit
  have hexponent : exponent? (letter :: sign :: digit :: left) =
      some ((left.takeWhile isDigitOrLine).length + 1 + 2) := by
    rcases hletter with rfl | rfl <;> rcases hsign with rfl | rfl <;>
      exact congrArg (Option.map (· + 2)) hbehind
  have hscientific : scientific? (first :: (more ++ letter :: sign :: digit :: left)) =
      some ((first :: more).length + ((left.takeWhile isDigitOrLine).length + 1 + 2)) := by
    rw [scientific?, ← List.cons_append, hwhole]
    simp only [Option.bind_eq_bind, Option.bind_some, List.drop_left, hletterChar.2.1,
      Option.getD_none, Nat.add_zero, hexponent]
    rfl
  refine ⟨(left.takeWhile isDigitOrLine).length + 1, (firstMatch?_of_isAsciiDigit hfirst).trans ?_⟩
  simp only [rootRules, List.drop_succ_cons, List.drop_zero]
  rw [firstMatch?_cons_of_none (hnone rfl rfl), firstMatch?_cons_of_none (hnone rfl rfl),
    firstMatch?_cons_of_none (hnone rfl rfl)]
  exact firstMatch?_cons_of_some hscientific

end SableFrontend.Highlight
