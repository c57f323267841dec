import SableFrontend.Proofs.Highlight.Signs

/-!
Signs that highlighting takes for those of exponents. It knows names in ASCII only, so it comes upon digits
in a word behind another letter, takes them for a numeral, and the letter of an exponent with which the word
ends and an operator behind it may then belong to the numeral. `ReadsAsExponent` says where this is so by the
text alone: of a sign that is taken so by `Halts.readsAsExponent`, and of no other by
`exists_halts_of_readsAsExponent`.
-/

namespace SableFrontend

open Highlight Shade

theorem Text.isWordStart_of_isAsciiDigit {c : Char} (h : isAsciiDigit c = true) :
    isWordStart c = false := by
  have hdigit := h
  simp only [isAsciiDigit, Bool.and_eq_true, decide_eq_true_eq] at h
  have hupper : isAsciiUpper c = false := Bool.eq_false_iff.2 fun hupper => by
    simp only [isAsciiUpper, Bool.and_eq_true, decide_eq_true_eq] at hupper
    exact absurd (Char.le_trans hupper.1 h.2) (by decide)
  have hline : (c == '_') = false := beq_false_of_ne fun heq => by
    rw [heq] at hdigit
    cases hdigit
  rw [isWordStart, isLetter, if_pos (isAscii_of_isAsciiDigit hdigit), hupper,
    isAsciiLower_of_isAsciiDigit hdigit, hline]
  rfl

theorem Shade.isNameChar_spelling (word : Keyword) :
    (word.spelling.toList.all isNameChar) = true := by
  cases word <;> decide

/-! ### Lexemes that end in the letter of an exponent -/

namespace Lexeme

variable {lexeme : Lexeme} {before shown left tail : List Char} {letter : Char}

/-- A lexeme that the letter of an exponent is the last of: a word, or a numeral in hexadecimal. No numeral
that highlighting knows begins where it does, with no more than the letter behind its digits. -/
structure EndsInExponent (lexeme : Lexeme) (shown : List Char) : Prop where
  members : ∀ c ∈ shown, Text.isWordChar c = true
  not_digits : ∀ run, IsDigitRun run → ∀ letter, letter = 'e' ∨ letter = 'E' → shown ≠ run ++ [letter]
  not_radix : ∀ radix taken left more, radix ≠ .hexadecimal → IsRadixRun radix taken left →
    shown ≠ taken ++ more
  shade_eq : ∀ c ∈ shown, isNameChar c = false → lexeme.shade = .plain

theorem endsInExponent_of_word (hlexeme : lexeme = .token (wordKind shown) (String.ofList shown))
    (hstart : ∀ c, shown.head? = some c → Text.isWordStart c = true)
    (hshown : ∀ c ∈ shown, Text.isWordChar c = true) : lexeme.EndsInExponent shown := by
  have hdigit : ∀ c more, Text.isAsciiDigit c = true → shown ≠ c :: more := by
    rintro c more hdigit rfl
    have hc := hstart c rfl
    rw [Text.isWordStart_of_isAsciiDigit hdigit] at hc
    cases hc
  refine ⟨hshown, fun run hrun letter _ => ?_, fun radix taken left more _ hrun => ?_,
    fun c hc hname => ?_⟩
  · obtain ⟨first, more, rfl, hfirst, -⟩ := hrun.exists_cons
    exact hdigit first _ hfirst
  · obtain ⟨mark, group, rfl, -⟩ := hrun.exists_eq
    exact hdigit '0' _ rfl
  · cases hreserved : Keyword.ofSpelling? (String.ofList shown) with
    | none =>
      rw [hlexeme, shade, wordKind, hreserved]
      dsimp only
      split <;> rfl
    | some word =>
      have hspelling := congrArg String.toList (eq_spelling_of_ofSpelling? hreserved)
      rw [String.toList_ofList] at hspelling
      have hall := List.all_eq_true.1 (isNameChar_spelling word) c (by rwa [hspelling])
      rw [hname] at hall
      cases hall

theorem endsInExponent_of_hexadecimal {mark : Char} {group : List Char}
    (hmark : Numeral.Radix.ofLetter? mark = some .hexadecimal)
    (hgroup : Numeral.IsGroup Numeral.Radix.hexadecimal.isDigit group) :
    lexeme.EndsInExponent ('0' :: mark :: group) := by
  have hname : ∀ c ∈ '0' :: mark :: group, isNameChar c = true :=
    List.forall_mem_cons.2 ⟨rfl, List.forall_mem_cons.2
      ⟨Numeral.isNameChar_of_ofLetter? hmark, Numeral.isNameChar_of_isGroup hgroup⟩⟩
  refine ⟨fun c hc => isWordChar_of_isNameChar (hname c hc), fun run hrun letter hletter heq => ?_,
    fun radix taken left more hsmall hrun heq => ?_, fun c hc hno => ?_⟩
  · obtain ⟨first, more, rfl, -, hmore⟩ := hrun.exists_cons
    have hnext : Numeral.Radix.ofLetter? mark = none := by
      cases more with
      | nil =>
        obtain ⟨-, heq⟩ := List.cons.inj heq
        obtain ⟨rfl, -⟩ := List.cons.inj heq
        rcases hletter with rfl | rfl <;> rfl
      | cons c more =>
        obtain ⟨-, heq⟩ := List.cons.inj heq
        obtain ⟨rfl, -⟩ := List.cons.inj heq
        refine Numeral.ofLetter?_eq_none ?_
        have hmember := hmore mark List.mem_cons_self
        rwa [isDigitOrLine, Bool.or_eq_true, beq_iff_eq] at hmember
    rw [hmark] at hnext
    cases hnext
  · obtain ⟨other, digits, rfl, hother, -⟩ := hrun.exists_eq
    obtain ⟨-, heq⟩ := List.cons.inj heq
    obtain ⟨rfl, -⟩ := List.cons.inj heq
    rw [hmark] at hother
    exact hsmall (Option.some.inj hother).symm
  · rw [hname c hc] at hno
    cases hno

/-- In front of an operator, only words and numerals in hexadecimal end in such a letter. -/
theorem Ends.endsInExponent (h : lexeme.Ends shown left) (hlast : shown.getLast? = some letter)
    (hletter : letter = 'e' ∨ letter = 'E') (hleft : left.head?.any isOperatorChar = true) :
    lexeme.EndsInExponent shown := by
  have hword : Text.isWordChar letter = true := by rcases hletter with rfl | rfl <;> decide
  cases h with
  | mark _ c hc hno =>
    rw [hlast] at hc
    rw [Option.some.inj hc, hno] at hword
    cases hword
  | line _ hbreak =>
    obtain ⟨c, hc, hsign⟩ := (Option.any_eq_true _ _).1 hleft
    rw [hbreak c hc] at hsign
    exact absurd hsign (by decide)
  | number _ kind hspells =>
    obtain ⟨group, isDigit, hgroup, hsame, hdigit⟩ := hspells.exists_last
    have hmember := hgroup.members letter (List.mem_of_getLast? (hsame.symm.trans hlast))
    rcases hdigit with rfl | ⟨mark, radix, hmark, rfl, rfl⟩
    · rcases hletter with rfl | rfl <;> exact absurd hmember (by decide)
    · cases radix with
      | hexadecimal => exact endsInExponent_of_hexadecimal hmark hgroup
      | binary => rcases hletter with rfl | rfl <;> exact absurd hmember (by decide)
      | octal => rcases hletter with rfl | rfl <;> exact absurd hmember (by decide)
  | word hlexeme hstart hshown => exact endsInExponent_of_word hlexeme hstart hshown
  | sign _ hshown =>
    rw [Text.isWordChar_of_isOperatorChar (hshown letter (List.mem_of_getLast? hlast))] at hword
    cases hword

/-- Letters and digits at the end of a text do not begin in front of the lexeme that they end in. -/
theorem Apart.exists_suffix {front : List Char} (h : Apart before shown)
    (hmembers : ∀ c ∈ shown, Text.isWordChar c = true) (hne : shown ≠ [])
    (heq : before ++ shown = front ++ tail) (htail : ∀ c ∈ tail, Text.isWordChar c = true) :
    ∃ inner, shown = inner ++ tail ∧ front = before ++ inner := by
  rcases List.append_eq_append_iff.1 heq with ⟨inner, hfront, hshown⟩ | ⟨inner, hbefore, hsame⟩
  · exact ⟨inner, hshown, hfront⟩
  · rcases List.eq_nil_or_concat' inner with rfl | ⟨init, c, rfl⟩
    · rw [List.append_nil] at hbefore
      exact ⟨[], hsame.symm, by rw [hbefore, List.append_nil]⟩
    · have hc := htail c (by rw [hsame]; simp)
      have hhead := h (by rw [hbefore, ← List.append_assoc, List.getLast?_concat]; exact hc)
      obtain ⟨d, more, rfl⟩ := List.exists_cons_of_ne_nil hne
      rw [List.head?_cons, Option.any_some, hmembers d List.mem_cons_self] at hhead
      cases hhead

end Lexeme

/-! ### Where highlighting halts -/

namespace Highlight

variable {text shown before rest taken left : List Char} {state : State} {first : Char} {place : Nat}

namespace Halts

theorem covers_first : (stretch shown state first rest).Covers shown.length :=
  ⟨Nat.le_refl _, Nat.lt_add_of_pos_right (Nat.succ_pos _)⟩

/-- What is shown plainly where highlighting halts. -/
theorem takes (h : Halts text shown state (first :: rest))
    (hplain : (shadesFrom .root none text)[place]? = some .plain)
    (hcovers : (stretch shown state first rest).Covers place) :
    Takes (stretch shown state first rest).text
        (rest.drop ((matchAt state shown.getLast? first rest).length - 1)) ∧
      (state = .root → (matchAt state shown.getLast? first rest).next = .root) :=
  matchAt_takes (h.shade_eq hplain hcovers)

/-- What is shown plainly is outside of string literals, whatever could stand in one. -/
theorem eq_root (h : Halts text shown state (first :: rest))
    (hplain : (shadesFrom .root none text)[shown.length]? = some .plain)
    (hfirst : isTextChar first = true) : state = .root := by
  cases state with
  | root => rfl
  | string =>
    have hshade := h.shade_eq hplain covers_first
    rw [stretch, matchAt_textChar hfirst] at hshade
    cases hshade

/-- The places of a stretch are shown alike. -/
theorem getElem?_eq_of_covers (h : Halts text shown state (first :: rest)) {other : Nat} {shade : Shade}
    (hshade : (shadesFrom .root none text)[place]? = some shade)
    (hcovers : (stretch shown state first rest).Covers place)
    (hother : (stretch shown state first rest).Covers other) :
    (shadesFrom .root none text)[other]? = some shade :=
  ((exists_covers_stretchesFrom_iff 0 .root none text shade other).1
    ⟨_, h.mem_stretches, h.shade_eq hshade hcovers, hother⟩).2

theorem of_firstMatch? {category : Category} {next : State} (h : Halts text shown state (taken ++ left))
    (hne : taken ≠ []) (hfound : firstMatch? state.rules shown.getLast? (taken ++ left) =
      some { category := category, length := taken.length, next := next }) :
    Halts text (shown ++ taken) next left := by
  obtain ⟨first, more, rfl⟩ := List.exists_cons_of_ne_nil hne
  rw [List.cons_append] at h hfound
  have hnext := h.next (matchAt_eq hfound)
  rwa [Match.taken, List.length_cons, Nat.add_sub_cancel, List.take_left, List.drop_left] at hnext

/-- Behind a letter or a digit, highlighting halts in front of a digit only where a numeral in a smaller
radix ends. -/
theorem exists_radix {c digit : Char} (h : Halts text shown state (digit :: rest))
    (hlast : shown.getLast? = some c) (hname : isNameChar c = true)
    (hdigit : Text.isAsciiDigit digit = true)
    (hplain : (shadesFrom .root none text)[shown.length - 1]? = some .plain) :
    ∃ before radix taken other, shown = before ++ taken ∧ radix ≠ .hexadecimal ∧
      IsRadixRun radix taken (digit :: rest) ∧ Halts text before other (taken ++ digit :: rest) := by
  generalize hleft : digit :: rest = left at h ⊢
  cases h with
  | start => cases hlast
  | @next before other first behind found h hfound =>
    subst hfound
    have hcovers : (stretch before other first behind).Covers
        ((before ++ (stretch before other first behind).text).length - 1) := by
      rw [List.length_append]
      refine ⟨?_, ?_⟩
      · exact Nat.le_sub_one_of_lt (Nat.lt_add_of_pos_right (Nat.succ_pos _))
      · exact Nat.sub_lt (Nat.add_pos_right _ (Nat.succ_pos _)) Nat.one_pos
    obtain ⟨htakes, -⟩ := h.takes hplain hcovers
    rw [← hleft] at htakes ⊢
    have hend : (stretch before other first behind).text.getLast? = some c := by
      rw [← hlast, List.getLast?_append, Option.or_of_isSome]
      · rfl
      · exact List.getLast?_isSome.2 (List.cons_ne_nil _ _)
    obtain ⟨radix, hsmall, hrun⟩ := htakes.exists_radix hend hname hdigit
    have hwhole : (stretch before other first behind).text ++ digit :: rest = first :: behind := by
      rw [hleft]
      exact congrArg (first :: ·) (List.take_append_drop _ _)
    exact ⟨before, radix, _, other, rfl, hsmall, hrun, hwhole ▸ h⟩

end Halts

end Highlight

/-- The lexeme in front of an operator, if the letter of an exponent is the last of it. -/
theorem LexState.Behind.exists_endsInExponent {state : LexState} {before left : List Char} {letter : Char}
    (h : state.Behind before left) (hlast : before.getLast? = some letter)
    (hletter : letter = 'e' ∨ letter = 'E') (hleft : left.head?.any Lexeme.isOperatorChar = true) :
    ∃ front shown lexeme, before = front ++ shown ∧ shown ≠ [] ∧ Lexeme.Apart front shown ∧
      Lexeme.EndsInExponent lexeme shown ∧ ∀ place, front.length ≤ place →
        place < front.length + shown.length → state.Shows lexeme.shade place := by
  cases h with
  | start => cases hlast
  | @lexeme front shown left lexeme hne hends hapart hshows =>
    rw [List.getLast?_append, Option.or_of_isSome (List.getLast?_isSome.2 hne)] at hlast
    exact ⟨front, shown, lexeme, rfl, hne, hapart, hends.endsInExponent hlast hletter hleft, hshows⟩

namespace Highlight

/-! ### Signs that are shown in a numeral -/

/-- An operator that is read in front of a digit, and behind which highlighting sees a numeral with an
exponent: it is a sign, and in front of it stand, behind a letter or a digit beyond ASCII, digits and the
letter of an exponent, or these behind a numeral in a smaller radix. -/
structure ReadsAsExponent (before sign behind : List Char) : Prop where
  sign_eq : sign = ['+'] ∨ sign = ['-']
  starts : behind.head?.any Text.isAsciiDigit = true
  ends : ∃ front c lead run letter, before = front ++ c :: (lead ++ (run ++ [letter])) ∧
    Text.isWordChar c = true ∧ isNameChar c = false ∧ IsDigitRun run ∧ (letter = 'e' ∨ letter = 'E') ∧
      (lead = [] ∨ ∃ radix, radix ≠ .hexadecimal ∧ IsRadixRun radix lead run)

variable {text shown before sign behind rest taken left front word inner tail : List Char}
  {state : State} {first c digit letter : Char} {place : Nat} {lexeme : Lexeme} {read : LexState}

/-- What highlighting has passed in a word where it comes to a digit: a letter beyond ASCII, and a numeral in
a smaller radix if there is one. -/
theorem Halts.exists_lead (h : Halts text (front ++ inner) state (digit :: rest))
    (hdigit : Text.isAsciiDigit digit = true) (hinner : inner ≠ [])
    (hapart : Lexeme.Apart front (inner ++ tail)) (hends : lexeme.EndsInExponent (inner ++ tail))
    (hplain : ∀ place, front.length ≤ place → place < front.length + (inner ++ tail).length →
      (shadesFrom .root none text)[place]? = some .plain) :
    ∃ init c lead, inner = init ++ c :: lead ∧ Text.isWordChar c = true ∧ isNameChar c = false ∧
      (lead = [] ∨ ∃ radix, radix ≠ .hexadecimal ∧ IsRadixRun radix lead (digit :: rest)) := by
  -- the last character of a part of the word is one of words, and shown plainly
  have hlast : ∀ init c more, inner ++ tail = (init ++ [c]) ++ more → Text.isWordChar c = true ∧
      (front ++ (init ++ [c])).getLast? = some c ∧
      (shadesFrom .root none text)[(front ++ (init ++ [c])).length - 1]? = some .plain := by
    intro init c more heq
    refine ⟨hends.members c (by rw [heq]; simp), ?_, hplain _ ?_ ?_⟩
    · rw [← List.append_assoc, List.getLast?_concat]
    · simp only [List.length_append, List.length_singleton]
      omega
    · simp only [heq, List.length_append, List.length_singleton]
      omega
  obtain ⟨init, c, rfl⟩ := (List.eq_nil_or_concat' inner).resolve_left hinner
  obtain ⟨hword, hend, hplace⟩ := hlast init c tail rfl
  by_cases hname : isNameChar c = true
  · obtain ⟨start, radix, taken, other, heq, hsmall, hrun, hstart⟩ :=
      h.exists_radix hend hname hdigit hplace
    have htail : ∀ d ∈ taken ++ tail, Text.isWordChar d = true := by
      intro d hd
      rcases List.mem_append.1 hd with hd | hd
      · exact isWordChar_of_isNameChar (hrun.isNameChar d hd)
      · exact hends.members d (List.mem_append_right _ hd)
    have hwhole : front ++ (init ++ [c] ++ tail) = start ++ (taken ++ tail) := by
      rw [← List.append_assoc, heq, List.append_assoc]
    obtain ⟨passed, hpassed, rfl⟩ := hapart.exists_suffix hends.members (by simp) hwhole htail
    rw [← List.append_assoc] at hpassed
    have hinit := List.append_cancel_right hpassed
    rw [hinit]
    rcases List.eq_nil_or_concat' passed with rfl | ⟨init, c, rfl⟩
    · exact absurd hpassed (hends.not_radix radix taken _ tail hsmall hrun)
    obtain ⟨hword, hend, hplace⟩ := hlast init c (taken ++ tail) (by rw [hpassed, List.append_assoc])
    by_cases hname : isNameChar c = true
    · -- a numeral in a radix does not stop in front of a zero
      obtain ⟨mark, group, rfl, -⟩ := hrun.exists_eq
      obtain ⟨_, radix, _, _, -, -, hzero, -⟩ := hstart.exists_radix hend hname rfl hplace
      have hstops := hzero.stops
      cases radix <;> cases hstops
    · exact ⟨init, c, taken, by rw [List.append_assoc]; rfl, hword, Bool.eq_false_iff.2 hname,
        Or.inr ⟨radix, hsmall, hrun⟩⟩
  · exact ⟨init, c, [], rfl, hword, Bool.eq_false_iff.2 hname, Or.inl rfl⟩

/-- A sign that is taken with what stands in front of it reads as that of an exponent. -/
theorem Halts.readsAsExponent {whole fraction run : List Char} {sign : Char}
    (h : Halts text shown state (whole ++ fraction ++ letter :: sign :: behind))
    (hscientific : IsScientific whole fraction letter [sign] run)
    (hstarts : behind.head?.any Text.isAsciiDigit = true)
    (hsign : Lexeme.isOperatorChar sign = true)
    (hbehind : read.Behind (shown ++ (whole ++ fraction ++ [letter])) (sign :: behind))
    (hshows : ∀ shade place, read.Shows shade place →
      (shadesFrom .root none text)[place]? = some shade)
    (hplain : (shadesFrom .root none text)[(shown ++ (whole ++ fraction ++ [letter])).length - 1]? =
      some .plain) :
    ReadsAsExponent (shown ++ (whole ++ fraction ++ [letter])) [sign] behind := by
  have hend : (shown ++ (whole ++ fraction ++ [letter])).getLast? = some letter := by
    rw [← List.append_assoc, List.getLast?_concat]
  obtain ⟨front, word, lexeme, heq, hne, hapart, hends, hplaces⟩ :=
    hbehind.exists_endsInExponent hend hscientific.letter hsign
  -- the lexeme is plain where its last letter is, so it is plain
  have hpositive := List.length_pos_iff.2 hne
  have hplace := hshows _ _ (hplaces ((front ++ word).length - 1)
    (by rw [List.length_append]; omega) (by rw [List.length_append]; omega))
  rw [← heq, hplain] at hplace
  rw [← Option.some.inj hplace] at hplaces
  have hletter : Text.isWordChar letter = true := by
    rcases hscientific.letter with rfl | rfl <;> decide
  have hrunWord : ∀ {run : List Char}, IsDigitRun run → ∀ c ∈ run ++ [letter], Text.isWordChar c = true := by
    intro run hrun c hc
    rcases List.mem_append.1 hc with hc | hc
    · exact isWordChar_of_isNameChar (hrun.isNameChar c hc)
    · rwa [List.mem_singleton.1 hc]
  have hpoint : ∀ {c : Char}, c ∈ word → c ≠ '.' := by
    rintro c hc rfl
    exact absurd (hends.members _ hc) (by decide)
  -- no fraction stands in front of the letter
  obtain rfl : fraction = [] := by
    rcases hscientific.fraction with hnone | ⟨run, rfl, hrun⟩
    · exact hnone
    have hwhole : front ++ word = (shown ++ whole ++ ['.']) ++ (run ++ [letter]) := by
      rw [← heq]
      simp only [List.append_assoc, List.cons_append, List.nil_append]
    obtain ⟨inner, hword, hfront⟩ := hapart.exists_suffix hends.members hne hwhole (hrunWord hrun)
    rcases List.eq_nil_or_concat' inner with rfl | ⟨init, c, rfl⟩
    · exact absurd hword (hends.not_digits run hrun letter hscientific.letter)
    · rw [← List.append_assoc] at hfront
      obtain ⟨-, hc⟩ := List.append_inj' hfront rfl
      exact absurd (List.singleton_inj.1 hc).symm (hpoint (by rw [hword]; simp))
  rw [List.append_nil] at h heq ⊢
  rw [← List.append_assoc] at heq ⊢
  obtain ⟨inner, rfl, rfl⟩ := hapart.exists_suffix hends.members hne
    (heq.symm.trans (List.append_assoc ..)) (hrunWord hscientific.whole)
  have hinner : inner ≠ [] := by
    rintro rfl
    exact hends.not_digits whole hscientific.whole letter hscientific.letter rfl
  obtain ⟨digit, more, rfl, hdigit, -⟩ := hscientific.whole.exists_cons
  rw [List.cons_append] at h
  obtain ⟨init, c, lead, rfl, hword, hname, hlead⟩ := h.exists_lead hdigit hinner hapart hends
    fun place hle hlt => hshows _ _ (hplaces place hle hlt)
  refine ⟨?_, hstarts, front ++ init, c, lead, digit :: more, letter, ?_, hword, hname,
    hscientific.whole, hscientific.letter, ?_⟩
  · exact hscientific.sign.resolve_left (List.cons_ne_nil _ _)
  · simp only [List.append_assoc, List.cons_append]
  · exact hlead.imp_right fun ⟨radix, hsmall, hrun⟩ => ⟨radix, hsmall, hrun.exists_eq, hrun.stops⟩

/-- Highlighting halts behind a letter beyond ASCII that is shown plainly. -/
theorem halts_behind
    (hplain : (shadesFrom .root none (front ++ c :: rest))[front.length]? = some .plain)
    (hword : Text.isWordChar c = true) (hname : isNameChar c = false) :
    Halts (front ++ c :: rest) (front ++ [c]) .root rest := by
  have hplace : front.length < (front ++ c :: rest).length := by
    rw [List.length_append, List.length_cons]
    omega
  obtain ⟨shown, state, first, behind, h, hcovers⟩ := exists_halts hplace
  obtain ⟨htakes, hnext⟩ := h.takes hplain hcovers
  have hwhole : (Halts.stretch shown state first behind).text ++
      behind.drop ((matchAt state shown.getLast? first behind).length - 1) = first :: behind :=
    congrArg (first :: ·) (List.take_append_drop _ _)
  have hmem : c ∈ (Halts.stretch shown state first behind).text := by
    have hget : (front ++ c :: rest)[front.length]? = some c := by
      rw [List.getElem?_append_right (Nat.le_refl _), Nat.sub_self]
      rfl
    have hbound : front.length - shown.length < (Halts.stretch shown state first behind).text.length :=
      Nat.sub_lt_left_of_lt_add hcovers.1 hcovers.2
    rw [← h.append_eq, ← hwhole, List.getElem?_append_right hcovers.1,
      List.getElem?_append_left hbound] at hget
    exact List.mem_of_getElem? hget
  have hsingle := htakes.eq_singleton hmem hword hname
  -- so the stretch is the letter alone, and it begins where the letter stands
  have hlength : shown.length = front.length := by
    have hlast := hcovers.2
    rw [hsingle, List.length_singleton] at hlast
    exact Nat.le_antisymm hcovers.1 (Nat.le_of_lt_succ hlast)
  obtain ⟨rfl, hsame⟩ := List.append_inj h.append_eq hlength
  obtain ⟨rfl, rfl⟩ := List.cons.inj hsame
  obtain rfl := h.eq_root hplain (isTextChar_of_isWordChar hword)
  have hhalt := h.next rfl
  have htaken : (matchAt .root shown.getLast? first behind).taken first behind = [first] := hsingle
  have hnone : behind.take ((matchAt .root shown.getLast? first behind).length - 1) = [] :=
    (List.cons.inj htaken).2
  have hdrop := List.take_append_drop ((matchAt .root shown.getLast? first behind).length - 1) behind
  rw [hnone, List.nil_append] at hdrop
  rwa [htaken, hnext rfl, hdrop] at hhalt

/-- A sign that reads as that of an exponent is taken with what stands in front of it. -/
theorem exists_halts_of_readsAsExponent (htext : text = before ++ (sign ++ behind))
    (hbehind : read.Behind before (sign ++ behind))
    (hshows : ∀ shade place, read.Shows shade place →
      (shadesFrom .root none text)[place]? = some shade)
    (h : ReadsAsExponent before sign behind) :
    ∃ shown state first rest, Halts text shown state (first :: rest) ∧ shown.length < before.length ∧
      (Halts.stretch shown state first rest).Covers before.length := by
  obtain ⟨hsign, hstarts, front, c, lead, run, letter, rfl, hword, hname, hrun, hletter, hlead⟩ := h
  have hoperator : (sign ++ behind).head?.any Lexeme.isOperatorChar = true := by
    rcases hsign with rfl | rfl <;> rfl
  have hend : (front ++ c :: (lead ++ (run ++ [letter]))).getLast? = some letter := by
    rw [← List.cons_append, ← List.append_assoc, ← List.append_assoc, List.getLast?_concat]
  obtain ⟨start, word, lexeme, heq, hne, hapart, hends, hplaces⟩ :=
    hbehind.exists_endsInExponent hend hletter hoperator
  have htail : ∀ d ∈ c :: (lead ++ (run ++ [letter])), Text.isWordChar d = true := by
    refine List.forall_mem_cons.2 ⟨hword, fun d hd => isWordChar_of_isNameChar ?_⟩
    rcases List.mem_append.1 hd with hd | hd
    · rcases hlead with rfl | ⟨radix, -, hradix⟩
      · cases hd
      · exact hradix.isNameChar d hd
    · rcases List.mem_append.1 hd with hd | hd
      · exact hrun.isNameChar d hd
      · rw [List.mem_singleton.1 hd]
        rcases hletter with rfl | rfl <;> rfl
  obtain ⟨inner, rfl, rfl⟩ := hapart.exists_suffix hends.members hne heq.symm htail
  have hshade := hends.shade_eq c (by simp) hname
  have hplain := hshows _ _ (hplaces (start ++ inner).length (by rw [List.length_append]; omega)
    (by rw [List.length_append, List.length_append, List.length_cons]; omega))
  obtain ⟨digit, hhead, hdigit⟩ := (Option.any_eq_true _ _).1 hstarts
  obtain ⟨more, rfl⟩ := List.head?_eq_some_iff.1 hhead
  obtain ⟨mark, rfl, hmark⟩ : ∃ mark, sign = [mark] ∧ (mark = '+' ∨ mark = '-') := by
    rcases hsign with rfl | rfl
    · exact ⟨_, rfl, Or.inl rfl⟩
    · exact ⟨_, rfl, Or.inr rfl⟩
  have hwhole : text =
      (start ++ inner) ++ c :: (lead ++ (run ++ letter :: mark :: digit :: more)) := by
    rw [htext]
    simp only [List.append_assoc, List.cons_append, List.nil_append]
  rw [hshade, hwhole] at hplain
  have hletterHalt := halts_behind hplain hword hname
  rw [← hwhole] at hletterHalt
  obtain ⟨first, tail, rfl, -⟩ := hrun.exists_cons
  have hrunHalt : Halts text (start ++ inner ++ [c] ++ lead) .root
      (first :: tail ++ letter :: mark :: digit :: more) := by
    rcases hlead with rfl | ⟨radix, hsmall, hradix⟩
    · rwa [List.append_nil]
    · obtain ⟨category, hfound⟩ := firstMatch?_radix (start ++ inner ++ [c]).getLast? hsmall
        (show IsRadixRun radix lead (first :: tail ++ letter :: mark :: digit :: more) from
          ⟨hradix.exists_eq, hradix.stops⟩)
      refine hletterHalt.of_firstMatch? ?_ hfound
      obtain ⟨letter, group, rfl, -⟩ := hradix.exists_eq
      exact List.cons_ne_nil _ _
  obtain ⟨count, hfound⟩ := firstMatch?_exponent (start ++ inner ++ [c] ++ lead).getLast? more hrun
    hletter hmark hdigit
  rw [List.cons_append] at hrunHalt hfound
  refine ⟨_, .root, first, tail ++ letter :: mark :: digit :: more, hrunHalt, ?_, ?_, ?_⟩
  · simp only [List.length_append, List.length_cons]
    omega
  · simp only [Halts.stretch, List.length_append, List.length_cons]
    omega
  · have hmatch := matchAt_eq hfound
    simp only [Halts.stretch, hmatch, Match.taken, List.length_append, List.length_cons,
      List.length_take, List.length_nil]
    omega

end Highlight

end SableFrontend
