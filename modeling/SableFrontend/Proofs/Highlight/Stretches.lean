import SableFrontend.Proofs.Highlight.Rules
import SableFrontend.Proofs.Token.LineBreaks
import SableFrontend.Proofs.Token.Lookahead

/-!
Highlighting shades a text as it is: wherever the quoted literals and comments of a text can be
scanned, the stretches outside string literals have the shades that `Shaded` says
(`shadesFrom_eq`). Highlighting cuts text otherwise than scanning does, and a string literal even
into several stretches, so the two are compared by the characters that they shade.
-/

namespace SableFrontend.Highlight

open Shade

/-- The shades of the characters of a stretch. -/
def Stretch.shades (stretch : Stretch) : List Shade :=
  List.replicate stretch.text.length stretch.category.shade

/-- The shades of a text that highlighting comes to in a state. -/
def shadesFrom (state : State) (before : Option Char) (text : List Char) : List Shade :=
  (stretchesFrom 0 state before text).flatMap Stretch.shades

variable {state : State} {before : Option Char} {first c : Char} {rest more text : List Char}
  {length : Nat}

theorem stretchesFrom_cons (offset : Nat) (state : State) (before : Option Char) (first : Char)
    (rest : List Char) :
    stretchesFrom offset state before (first :: rest) =
      { offset := offset, category := (matchAt state before first rest).category,
        text := first :: rest.take ((matchAt state before first rest).length - 1) } ::
        stretchesFrom
          (offset + (first :: rest.take ((matchAt state before first rest).length - 1)).length)
          (matchAt state before first rest).next
          (first :: rest.take ((matchAt state before first rest).length - 1)).getLast?
          (rest.drop ((matchAt state before first rest).length - 1)) := by
  rw [stretchesFrom]

/-- The shades do not depend on where the text stands. -/
theorem shades_stretchesFrom (offset : Nat) (state : State) (before : Option Char)
    (text : List Char) :
    (stretchesFrom offset state before text).flatMap Stretch.shades =
      shadesFrom state before text := by
  unfold shadesFrom
  generalize 0 = other
  fun_induction stretchesFrom offset state before text generalizing other with
  | case1 => rw [stretchesFrom]
  | case2 offset state before first rest found more covered ih =>
    rw [stretchesFrom_cons, List.flatMap_cons, List.flatMap_cons, ih]
    rfl

/-- The first match shades what it covers. -/
theorem shadesFrom_cons {found : Match} (hfound : matchAt state before first rest = found)
    {extra : Nat} (hextra : found.length = extra + 1) :
    shadesFrom state before (first :: rest) =
      List.replicate (first :: rest.take extra).length found.category.shade ++
        shadesFrom found.next (first :: rest.take extra).getLast? (rest.drop extra) := by
  subst hfound
  rw [shadesFrom, stretchesFrom_cons, List.flatMap_cons, shades_stretchesFrom, Stretch.shades,
    hextra, Nat.add_sub_cancel]

/-! ### The first match -/

theorem firstMatch?_cons_of_none {rule : Rule} {rules : List Rule}
    (h : rule.recognize before text = none) :
    firstMatch? (rule :: rules) before text = firstMatch? rules before text := by
  simp [firstMatch?, h]

theorem firstMatch?_cons_of_some {rule : Rule} {rules : List Rule}
    (h : rule.recognize before text = some length) :
    firstMatch? (rule :: rules) before text =
      some { category := rule.category, length := length, next := rule.next } := by
  simp [firstMatch?, h]

theorem firstMatch?_eq_some {rules : List Rule} {found : Match}
    (h : firstMatch? rules before text = some found) :
    ∃ rule ∈ rules, rule.recognize before text = some found.length ∧
      found.category = rule.category ∧ found.next = rule.next := by
  obtain ⟨rule, hrule, h⟩ := List.exists_of_findSome?_eq_some h
  obtain ⟨length, hlength, rfl⟩ := Option.map_eq_some_iff.1 h
  exact ⟨rule, hrule, hlength, rfl, rfl⟩

theorem matchAt_eq {found : Match} (h : firstMatch? state.rules before (first :: rest) = some found) :
    matchAt state before first rest = found := by
  rw [matchAt, h]

/-- Comments and quoted literals begin with marks. -/
theorem firstMatch?_of_not_isMark (hspace : Text.isSpace c = false) (hmark : isMark c = false) :
    firstMatch? State.root.rules before (c :: rest) =
      firstMatch? (rootRules.drop 5) before (c :: rest) := by
  have hne : ∀ {mark : Char}, isMark mark = true → c ≠ mark := by
    rintro mark hsome rfl
    rw [hmark] at hsome
    cases hsome
  unfold State.rules rootRules
  rw [firstMatch?_cons_of_none (run?_eq_none hspace),
    firstMatch?_cons_of_none (blockComment?_eq_none (hne rfl)),
    firstMatch?_cons_of_none (run?_eq_none (beq_false_of_ne (hne rfl))),
    firstMatch?_cons_of_none (literal?_eq_none rfl (hne rfl)),
    firstMatch?_cons_of_none (character?_eq_none (hne rfl))]
  rfl

/-- Numerals begin with digits. -/
theorem firstMatch?_of_not_digit (hdigit : Text.isAsciiDigit c = false) :
    firstMatch? (rootRules.drop 5) before (c :: rest) =
      firstMatch? (rootRules.drop 11) before (c :: rest) := by
  have hzero : c ≠ '0' := by
    rintro rfl
    cases hdigit
  unfold rootRules
  rw [List.drop_succ_cons, List.drop_succ_cons, List.drop_succ_cons, List.drop_succ_cons,
    List.drop_succ_cons, List.drop_zero, firstMatch?_cons_of_none (radix?_eq_none hzero),
    firstMatch?_cons_of_none (radix?_eq_none hzero),
    firstMatch?_cons_of_none (radix?_eq_none hzero),
    firstMatch?_cons_of_none (scientific?_eq_none hdigit),
    firstMatch?_cons_of_none (decimal?_eq_none hdigit),
    firstMatch?_cons_of_none (digits?_eq_none hdigit)]
  rfl

/-- Where no mark and no reserved word stands, the match is plain. -/
theorem matchAt_plain (hmark : isMark first = false)
    (hword : reservedAt? before (first :: rest) = none) :
    (matchAt .root before first rest).category.shade = .plain ∧
      (matchAt .root before first rest).next = .root ∧
      0 < (matchAt .root before first rest).length ∧
      PlainTo before (first :: rest) (matchAt .root before first rest).length := by
  unfold matchAt
  split
  · next found hfound =>
    obtain ⟨rule, hrule, hrecognize, hcategory, hnext⟩ := firstMatch?_eq_some hfound
    rw [hcategory, hnext]
    exact rootRules_keep rule hrule hmark hword hrecognize
  · have hsingle : PlainTo before (first :: rest) 1 := .cons hmark hword (.nil _ _)
    split
    · exact ⟨rfl, rfl, Nat.one_pos, hsingle⟩
    · exact ⟨rfl, rfl, Nat.one_pos, hsingle⟩

/-! ### Reserved words -/

theorem reserved?_of_reservedAt? (isMember : Keyword → Bool) {word : Keyword}
    (h : reservedAt? before text = some word) :
    reserved? isMember before text = if isMember word then some word.spelling.length else none := by
  obtain ⟨hbefore, left, htext, hleft⟩ := reservedAt?_eq_some_iff.1 h
  cases hfound : reserved? isMember before text with
  | some length =>
    obtain ⟨other, hmember, hother, rfl⟩ := reserved?_eq_some hfound
    rw [h] at hother
    cases hother
    rw [if_pos hmember]
  | none =>
    rw [if_neg]
    intro hmember
    rw [reserved?, if_neg (by simp [hbefore]), Option.map_eq_none_iff, List.find?_eq_none] at hfound
    refine hfound word (Keyword.mem_all word) ?_
    rw [htext, ← String.length_toList, List.drop_left, hleft, hmember,
      List.isPrefixOf_iff_prefix.2 (List.prefix_append _ _)]
    rfl

theorem matchAt_reserved {word : Keyword} (h : reservedAt? before (first :: rest) = some word) :
    (matchAt .root before first rest).category.shade = .reserved ∧
      (matchAt .root before first rest).next = .root ∧
      (matchAt .root before first rest).length = word.spelling.length := by
  obtain ⟨-, left, htext, -⟩ := reservedAt?_eq_some_iff.1 h
  obtain ⟨letter, tail, hspelling, hlower, hmark⟩ := spelling_eq_cons word
  rw [hspelling, List.cons_append] at htext
  obtain ⟨rfl, rfl⟩ := List.cons.inj htext
  have hspace : Text.isSpace first = false := by
    refine Bool.eq_false_iff.2 fun hspace => ?_
    have hname : isNameChar first = true := by simp [isNameChar, hlower]
    exact absurd ((isWordChar_of_isNameChar hname).symm.trans (Text.isWordChar_of_isSpace hspace))
      (by decide)
  have hdigit : Text.isAsciiDigit first = false := by
    refine Bool.eq_false_iff.2 fun hdigit => ?_
    rw [Text.isAsciiLower_of_isAsciiDigit hdigit] at hlower
    cases hlower
  have hskipped : firstMatch? State.root.rules before (first :: (tail ++ left)) = _ :=
    (firstMatch?_of_not_isMark hspace hmark).trans (firstMatch?_of_not_digit hdigit)
  -- the words are divided between two rules, one behind the other
  by_cases hdeclaration : isDeclarationWord word = true
  · have hfound := reserved?_of_reservedAt? isDeclarationWord h
    rw [if_pos hdeclaration] at hfound
    rw [matchAt_eq (hskipped.trans (firstMatch?_cons_of_some hfound))]
    exact ⟨rfl, rfl, rfl⟩
  · have hpassed := reserved?_of_reservedAt? isDeclarationWord h
    rw [if_neg hdeclaration] at hpassed
    have hfound := reserved?_of_reservedAt? (!isDeclarationWord ·) h
    rw [if_pos (by simp [hdeclaration])] at hfound
    rw [matchAt_eq (hskipped.trans ((firstMatch?_cons_of_none hpassed).trans
      (firstMatch?_cons_of_some hfound)))]
    exact ⟨rfl, rfl, rfl⟩

/-! ### Comments -/

theorem matchAt_comment {scanned : ScannedLexeme} (h : Lexeme.scanComment rest = .ok scanned) :
    (matchAt .root before '#' rest).category.shade = .comment ∧
      (matchAt .root before '#' rest).next = .root ∧
      (matchAt .root before '#' rest).length = scanned.extra + 1 := by
  have hspace : run? Text.isSpace Text.isSpace ('#' :: rest) = none := run?_eq_none (by decide)
  have hblock : blockComment? ('#' :: rest) =
      if Lexeme.opensBlock rest then (Lexeme.closeOfBlock? (rest.drop 2)).map (· + 3) else none :=
    rfl
  unfold Lexeme.scanComment at h
  split at h
  · next hopens =>
    rw [if_pos hopens] at hblock
    split at h
    · next length hclose =>
      cases h
      rw [hclose, Option.map_some] at hblock
      have hfound : firstMatch? State.root.rules before ('#' :: rest) = some
          { category := .multilineComment, length := length + 3, next := .root } := by
        simp [firstMatch?, State.rules, rootRules, Rule.plain, hspace, hblock]
      rw [matchAt_eq hfound]
      exact ⟨rfl, rfl, rfl⟩
    · cases h
  · next hopens =>
    cases h
    rw [if_neg hopens] at hblock
    have hline : lineComment? ('#' :: rest) =
      some ((rest.takeWhile (· != '\n')).length + 1) := rfl
    have hfound : firstMatch? State.root.rules before ('#' :: rest) = some
        { category := .lineComment, length := (rest.takeWhile (· != '\n')).length + 1,
          next := .root } := by
      simp [firstMatch?, State.rules, rootRules, Rule.plain, hspace, hblock, hline]
    rw [matchAt_eq hfound]
    exact ⟨rfl, rfl, rfl⟩

/-! ### Escapes -/

theorem codePointEscape?_of_scan {start count : Nat} {denoted : Char}
    (h : Lexeme.scanCodePoint start rest = .ok (denoted, count)) :
    codePointEscape? ('\\' :: 'u' :: '\x7b' :: rest) = some (count + 3) := by
  unfold Lexeme.scanCodePoint at h
  dsimp only at h
  split at h
  · cases h
  next hshape =>
  split at h
  · cases h
    simp only [Bool.or_eq_true, decide_eq_true_eq, not_or, Nat.not_lt, bne_iff_ne, ne_eq,
      Decidable.not_not] at hshape
    obtain ⟨⟨hclose, hlow⟩, hhigh⟩ := hshape
    have htake : (rest.take 6).takeWhile Lexeme.isHexDigit = rest.takeWhile Lexeme.isHexDigit := by
      rw [← List.take_takeWhile, List.take_of_length_le hhigh]
    simp only [codePointEscape?, htake, hclose]
    rw [if_pos (by simpa using Nat.lt_of_succ_le hlow)]
  · cases h

/-- Both readers know the same escapes. -/
theorem escape_of_scan {start count : Nat} {denoted : Char}
    (h : Lexeme.scanEscape start rest = .ok (denoted, count)) :
    (codePointEscape? ('\\' :: rest)).or (letterEscape? ('\\' :: rest)) = some (count + 1) := by
  unfold Lexeme.scanEscape at h
  split at h
  · cases h
  next c more =>
  split at h
  · cases h
  split at h
  · next denoted hsimple =>
    cases h
    have hletter : letterEscape? ('\\' :: c :: more) = some 2 := by simp [letterEscape?, hsimple]
    have hpoint : codePointEscape? ('\\' :: c :: more) = none := by
      unfold codePointEscape?
      split
      · next heq =>
        cases heq
        cases hsimple
      · rfl
    rw [hpoint, hletter]
    rfl
  · split at h
    · next hbrace =>
      obtain ⟨⟨denoted, length⟩, hscan, heq⟩ := exists_of_map_eq_ok h
      cases heq
      rw [Bool.and_eq_true, beq_iff_eq, beq_iff_eq] at hbrace
      obtain ⟨rfl, hbrace⟩ := hbrace
      obtain ⟨tail, rfl⟩ := List.head?_eq_some_iff.1 hbrace
      have hpoint : codePointEscape? ('\\' :: 'u' :: '\x7b' :: tail) = some (length + 3) :=
        codePointEscape?_of_scan hscan
      rw [hpoint]
      rfl
    · cases h

/-! ### Character literals -/

theorem matchAt_character {scanned : ScannedLexeme} (h : Lexeme.scanCharacter rest = .ok scanned) :
    (matchAt .root before '\'' rest).category.shade = .quoted ∧
      (matchAt .root before '\'' rest).next = .root ∧
      (matchAt .root before '\'' rest).length = scanned.extra + 1 := by
  have hcharacter : character? ('\'' :: rest) = some (scanned.extra + 1) := by
    unfold Lexeme.scanCharacter at h
    split at h
    · cases h
    next c more =>
    split at h
    · cases h
    split at h
    · cases h
    next hquote =>
    split at h
    · next hbackslash =>
      obtain rfl := eq_of_beq hbackslash
      obtain ⟨⟨denoted, length⟩, hescape, h⟩ := exists_of_bind_eq_ok h
      obtain ⟨hextra, hclose⟩ := Lexeme.closeCharacter_eq_ok h
      simp only [character?, escape_of_scan hescape, Option.bind_some, List.drop_succ_cons, hclose,
        hextra]
      rfl
    · next hbackslash =>
      obtain ⟨hextra, hclose⟩ := Lexeme.closeCharacter_eq_ok h
      unfold character?
      split
      · next heq =>
        cases heq
        split
        · next heq =>
          cases heq
          exact absurd rfl hbackslash
        · next heq =>
          cases heq
          simp [hquote, hextra, List.head?_eq_getElem?.symm.trans hclose]
        · next heq => cases heq
      · next hnot => exact absurd rfl (hnot _)
  have hfound : firstMatch? State.root.rules before ('\'' :: rest) = some
      { category := .character, length := scanned.extra + 1, next := .root } := by
    have hspace : run? Text.isSpace Text.isSpace ('\'' :: rest) = none := run?_eq_none (by decide)
    have hblock : blockComment? ('\'' :: rest) = none := blockComment?_eq_none (by decide)
    have hline : lineComment? ('\'' :: rest) = none := run?_eq_none (by decide)
    have htext : literal? "\"" ('\'' :: rest) = none := literal?_eq_none rfl (by decide)
    simp [firstMatch?, State.rules, rootRules, Rule.plain, hspace, hblock, hline, htext, hcharacter]
  rw [matchAt_eq hfound]
  exact ⟨rfl, rfl, rfl⟩

/-! ### String literals -/

/-- A character that stands for itself in a string literal. -/
def isTextChar (c : Char) : Bool := c != '"' && c != '\\' && c != '\n'

theorem matchAt_quote :
    matchAt .root before '"' rest = { category := .string, length := 1, next := .string } := by
  refine matchAt_eq ?_
  have hspace : run? Text.isSpace Text.isSpace ('"' :: rest) = none := run?_eq_none (by decide)
  have hblock : blockComment? ('"' :: rest) = none := blockComment?_eq_none (by decide)
  have hline : lineComment? ('"' :: rest) = none := run?_eq_none (by decide)
  have hquote : literal? "\"" ('"' :: rest) = some 1 := rfl
  simp [firstMatch?, State.rules, rootRules, Rule.plain, hspace, hblock, hline, hquote]

theorem matchAt_closingQuote :
    matchAt .string before '"' rest = { category := .string, length := 1, next := .root } := by
  refine matchAt_eq ?_
  have hquote : literal? "\"" ('"' :: rest) = some 1 := rfl
  simp [firstMatch?, State.rules, stringRules, Rule.plain, codePointEscape?, letterEscape?, run?,
    hquote]

theorem matchAt_escape (h : (codePointEscape? ('\\' :: rest)).or (letterEscape? ('\\' :: rest)) =
      some length) :
    matchAt .string before '\\' rest =
      { category := .stringEscape, length := length, next := .string } := by
  refine matchAt_eq ?_
  cases hpoint : codePointEscape? ('\\' :: rest) with
  | some found =>
    rw [hpoint] at h
    cases h
    simp [firstMatch?, State.rules, stringRules, Rule.plain, hpoint]
  | none =>
    rw [hpoint] at h
    simp [firstMatch?, State.rules, stringRules, Rule.plain, hpoint, show letterEscape? _ = _ from h]

theorem matchAt_textChar (h : isTextChar c = true) :
    matchAt .string before c rest =
      { category := .string, length := (rest.takeWhile isTextChar).length + 1, next := .string } := by
  refine matchAt_eq ?_
  have hrun : run? (fun c => c != '"' && c != '\\' && c != '\n')
      (fun c => c != '"' && c != '\\' && c != '\n') (c :: rest) =
      some ((rest.takeWhile isTextChar).length + 1) := if_pos h
  have hbackslash : c ≠ '\\' := by
    rintro rfl
    cases h
  have hpoint : codePointEscape? (c :: rest) = none := by
    unfold codePointEscape?
    split
    · next heq => cases heq; exact absurd rfl hbackslash
    · rfl
  have hletter : letterEscape? (c :: rest) = none := by
    unfold letterEscape?
    split
    · next heq => cases heq; exact absurd rfl hbackslash
    · rfl
  simp [firstMatch?, State.rules, stringRules, Rule.plain, hpoint, hletter, hrun]

/-- Characters that stand for themselves are scanned one by one. -/
theorem scanTextFrom_run {run left denoted : List Char} {read whole : Nat}
    (hrun : ∀ c ∈ run, isTextChar c = true)
    (h : Lexeme.scanTextFrom read (run ++ left) = .ok (denoted, whole)) :
    ∃ denoted, Lexeme.scanTextFrom (read + run.length) left = .ok (denoted, whole) := by
  induction run generalizing read denoted with
  | nil => exact ⟨denoted, h⟩
  | cons c run ih =>
    obtain ⟨hc, hrun⟩ := List.forall_mem_cons.1 hrun
    simp only [isTextChar, Bool.and_eq_true, bne_iff_ne] at hc
    obtain ⟨⟨hquote, hbackslash⟩, hbreak⟩ := hc
    rw [List.cons_append, Lexeme.scanTextFrom, if_neg (by simpa using hbreak),
      if_neg (by simpa using hquote), if_neg (by simpa using hbackslash)] at h
    obtain ⟨⟨more, whole⟩, hscan, h⟩ := exists_of_bind_eq_ok h
    cases h
    have hmore := ih hrun hscan
    rwa [Nat.add_right_comm] at hmore

/-- The rest of a string literal is shaded as quoted, up to the quote that ends it. -/
theorem shadesFrom_text {rest denoted : List Char} {read whole : Nat}
    (h : Lexeme.scanTextFrom read rest = .ok (denoted, whole)) (before : Option Char) :
    ∃ shown left, rest = shown ++ left ∧ whole = read + shown.length ∧
      shown.getLast? = some '"' ∧
      shadesFrom .string before rest =
        List.replicate shown.length .quoted ++ shadesFrom .root (some '"') left := by
  match rest with
  | [] =>
    rw [Lexeme.scanTextFrom] at h
    cases h
  | c :: more =>
    have hstep := h
    rw [Lexeme.scanTextFrom] at hstep
    split at hstep
    · cases hstep
    next hbreak =>
    split at hstep
    · next hquote =>
      cases hstep
      obtain rfl := eq_of_beq hquote
      refine ⟨['"'], more, rfl, rfl, rfl, ?_⟩
      rw [shadesFrom_cons matchAt_closingQuote rfl]
      rfl
    next hquote =>
    split at hstep
    · next hbackslash =>
      obtain rfl := eq_of_beq hbackslash
      obtain ⟨⟨letter, length⟩, hescape, hstep⟩ := exists_of_bind_eq_ok hstep
      obtain ⟨⟨text, whole⟩, hscan, hstep⟩ := exists_of_bind_eq_ok hstep
      cases hstep
      obtain ⟨shown, left, hmore, hwhole, hlast, hshades⟩ :=
        shadesFrom_text hscan ('\\' :: more.take length).getLast?
      have hlength : (more.take length).length = length := by
        obtain ⟨escape, after, rfl, rfl, -⟩ := Lexeme.scanEscape_takes hescape
        rw [List.take_left]
      refine ⟨'\\' :: more.take length ++ shown, left, ?_, ?_, ?_, ?_⟩
      · rw [List.append_assoc, ← hmore, List.cons_append, List.take_append_drop]
      · simp only [hwhole, List.length_append, List.length_cons, hlength]
        omega
      · rw [List.getLast?_append, hlast]
        rfl
      · rw [shadesFrom_cons (matchAt_escape (escape_of_scan hescape)) rfl, hshades,
          List.length_append, ← List.replicate_append_replicate, List.append_assoc]
        rfl
    · next hbackslash =>
      clear hstep
      have hc : isTextChar c = true := by
        simp only [beq_iff_eq] at hbreak hquote hbackslash
        simp [isTextChar, hbreak, hquote, hbackslash]
      have hrun : ∀ d ∈ c :: more.takeWhile isTextChar, isTextChar d = true :=
        List.forall_mem_cons.2 ⟨hc, fun d hd => of_mem_takeWhile hd⟩
      have hsplit : c :: more = (c :: more.takeWhile isTextChar) ++
          more.drop (more.takeWhile isTextChar).length :=
        congrArg (c :: ·) (List.prefix_iff_eq_append.1 (List.takeWhile_prefix isTextChar)).symm
      rw [hsplit] at h
      obtain ⟨denoted, hscan⟩ := scanTextFrom_run hrun h
      obtain ⟨shown, left, hmore, hwhole, hlast, hshades⟩ :=
        shadesFrom_text hscan (c :: more.takeWhile isTextChar).getLast?
      refine ⟨c :: more.takeWhile isTextChar ++ shown, left, ?_, ?_, ?_, ?_⟩
      · rw [List.append_assoc, ← hmore, ← hsplit]
      · rw [hwhole, List.length_append, Nat.add_assoc]
      · rw [List.getLast?_append, hlast]
        rfl
      · rw [shadesFrom_cons (matchAt_textChar hc) rfl, Lexeme.take_takeWhile_length, hshades,
          List.length_append, ← List.replicate_append_replicate, List.append_assoc]
        rfl
termination_by rest.length
decreasing_by
  all_goals
    simp only [List.length_cons, List.length_drop]
    omega

/-! ### Whole texts -/

/-- A stretch that is shown as `Shaded` says leaves the rest to be shown. -/
theorem shadesFrom_of_match {found : Match} {shade : Shade} {extra : Nat} {shades : List Shade}
    (hfound : matchAt .root before first rest = found) (hshade : found.category.shade = shade)
    (hnext : found.next = .root) (hextra : found.length = extra + 1)
    (hmore : shadesFrom .root (first :: rest.take extra).getLast? (rest.drop extra) = shades) :
    shadesFrom .root before (first :: rest) =
      List.replicate (first :: rest.take extra).length shade ++ shades := by
  rw [shadesFrom_cons hfound hextra, hshade, hnext, hmore]

/-- Highlighting shades a marked stretch as it scans it. -/
theorem shadesFrom_marked {scanned : ScannedLexeme} {shades : List Shade}
    (hmark : isMark first = true) (hscan : Lexeme.scan first rest = .ok scanned)
    (hmore : shadesFrom .root (first :: rest.take scanned.extra).getLast? (rest.drop scanned.extra) =
      shades) :
    shadesFrom .root before (first :: rest) =
      List.replicate (first :: rest.take scanned.extra).length (ofMark first) ++ shades := by
  rcases eq_of_isMark hmark with rfl | rfl | rfl
  · have hscan : Lexeme.scanComment rest = .ok scanned := hscan
    obtain ⟨hshade, hnext, hlength⟩ := @matchAt_comment before _ _ hscan
    exact shadesFrom_of_match rfl hshade hnext hlength hmore
  · have hscan : Lexeme.scanText rest = .ok scanned := hscan
    obtain ⟨⟨denoted, whole⟩, hread, heq⟩ := exists_of_bind_eq_ok hscan
    cases heq
    obtain ⟨shown, left, rfl, rfl, hlast, hshades⟩ := shadesFrom_text hread (some '"')
    rw [Nat.add_sub_cancel_left, List.take_left, List.drop_left, List.getLast?_cons, hlast] at hmore
    rw [Nat.add_sub_cancel_left, List.take_left]
    calc shadesFrom .root before ('"' :: (shown ++ left))
        = .quoted :: shadesFrom .string (some '"') (shown ++ left) := shadesFrom_cons matchAt_quote rfl
      _ = .quoted :: (List.replicate shown.length .quoted ++ shades) :=
          congrArg _ (hshades.trans (congrArg _ hmore))
  · have hscan : Lexeme.scanCharacter rest = .ok scanned := hscan
    obtain ⟨hshade, hnext, hlength⟩ := @matchAt_character before _ _ hscan
    exact shadesFrom_of_match rfl hshade hnext hlength hmore

/-- Outside string literals, highlighting shades a text as it is. -/
theorem shadesFrom_eq {shades : List Shade} (h : Shaded before text shades) :
    shadesFrom .root before text = shades := by
  induction hcount : text.length using Nat.strongRecOn generalizing before text shades with
  | ind count ih =>
  subst hcount
  cases h with
  | nil => rw [shadesFrom, stretchesFrom]; rfl
  | marked hmark hscan hmore =>
    refine shadesFrom_marked hmark hscan (ih _ ?_ hmore rfl)
    rw [List.length_drop, List.length_cons]
    omega
  | @reserved _ _ left word shades hword htext hmore =>
    obtain ⟨first, tail, hspelling, -⟩ := spelling_eq_cons word
    rw [hspelling] at htext hmore ⊢
    rw [List.cons_append] at htext
    subst htext
    obtain ⟨hshade, hnext, hlength⟩ := matchAt_reserved hword
    rw [← String.length_toList, hspelling] at hlength
    have hrest : shadesFrom .root (first :: (tail ++ left).take tail.length).getLast?
        ((tail ++ left).drop tail.length) = shades := by
      rw [List.take_left, List.drop_left]
      refine ih _ ?_ hmore rfl
      rw [List.length_cons, List.length_append]
      omega
    have hmatch := shadesFrom_of_match rfl hshade hnext hlength hrest
    rwa [List.take_left] at hmatch
  | @plain _ c rest shades hmark hword hmore =>
    obtain ⟨hshade, hnext, hpositive, hplain⟩ := matchAt_plain hmark hword
    obtain ⟨extra, hextra⟩ := Nat.exists_eq_succ_of_ne_zero (Nat.ne_of_gt hpositive)
    rw [hextra] at hplain
    have hwhole : Shaded before ((c :: rest.take extra) ++ rest.drop extra) (.plain :: shades) := by
      rw [List.cons_append, List.take_append_drop]
      exact .plain hmark hword hmore
    obtain ⟨more, hshades, hrest⟩ := hwhole.of_plainly hplain
    rw [hshades]
    refine shadesFrom_of_match rfl hshade hnext hextra (ih _ ?_ ?_ rfl)
    · rw [List.length_drop, List.length_cons]
      omega
    · rw [List.getLast?_cons] at hrest ⊢
      exact hrest

/-! ### Places -/

/-- What stands at a place behind an offset: the first shade for as long as it is repeated, and the
others behind it. -/
theorem getElem?_replicate_append_iff {count offset place : Nat} {first shade : Shade}
    {more : List Shade} :
    (offset ≤ place ∧ (List.replicate count first ++ more)[place - offset]? = some shade) ↔
      (first = shade ∧ offset ≤ place ∧ place < offset + count) ∨
        (offset + count ≤ place ∧ more[place - (offset + count)]? = some shade) := by
  by_cases hle : offset ≤ place
  · by_cases hlt : place - offset < count
    · rw [List.getElem?_append_left (by simpa using hlt), List.getElem?_replicate_of_lt hlt]
      have hbound : place < offset + count := by omega
      simp [hle, hbound, Nat.not_le_of_lt hbound]
    · rw [List.getElem?_append_right (by simpa using Nat.le_of_not_lt hlt), List.length_replicate,
        Nat.sub_sub]
      have hbound : offset + count ≤ place := by omega
      simp [hle, hbound, Nat.not_lt_of_le hbound]
  · simp [hle, show ¬offset + count ≤ place by omega]

/-- A stretch takes up a place of its source. -/
def Stretch.Covers (stretch : Stretch) (place : Nat) : Prop :=
  stretch.offset ≤ place ∧ place < stretch.offset + stretch.text.length

/-- The stretches lie one behind the other, so a place has the shade that stands there. -/
theorem exists_covers_stretchesFrom_iff (offset : Nat) (state : State) (before : Option Char)
    (text : List Char) (shade : Shade) (place : Nat) :
    (∃ stretch ∈ stretchesFrom offset state before text, stretch.category.shade = shade ∧
        stretch.Covers place) ↔
      offset ≤ place ∧ (shadesFrom state before text)[place - offset]? = some shade := by
  rw [← shades_stretchesFrom offset]
  fun_induction stretchesFrom offset state before text with
  | case1 => simp
  | case2 offset state before first rest found more covered ih =>
    rw [List.flatMap_cons, Stretch.shades, getElem?_replicate_append_iff, ← ih]
    simp only [List.mem_cons, exists_eq_or_imp]
    rfl

end SableFrontend.Highlight
