import SableFrontend.Proofs.Token.NumeralShape
import SableFrontend.Token.Lexeme

/-!
A shading of a text says of every character whether it belongs to a comment, to a quoted literal or
to a reserved word. It goes on one character at a time where none of these begins, so that readers
who divide the text between them in other ways can be compared with it: `Shaded` is determined by
the text, and a stretch in which nothing begins is shaded plainly however it is cut
(`Shaded.of_plainly`).
-/

namespace SableFrontend

namespace Text

variable {c : Char}

/-- The white space above ASCII, in runs. -/
def spaceCodes : List Nat :=
  [0x85, 0xA0, 0x1680] ++ List.range' 0x2000 11 ++ [0x2028, 0x2029, 0x202F, 0x205F, 0x3000]

theorem spaceCodes_not_in_tables :
    (spaceCodes.all fun code => !inTable letterRuns code && !inTable numericRuns code) = true := by
  decide +kernel

theorem isAsciiLower_of_isAsciiDigit (h : isAsciiDigit c = true) : isAsciiLower c = false := by
  simp only [isAsciiDigit, Bool.and_eq_true, decide_eq_true_eq] at h
  refine Bool.eq_false_iff.2 fun hlower => ?_
  simp only [isAsciiLower, Bool.and_eq_true, decide_eq_true_eq] at hlower
  exact absurd (Char.le_trans hlower.1 h.2) (by decide)

/-- White space is never part of a word. -/
theorem isWordChar_of_isSpace (h : isSpace c = true) : isWordChar c = false := by
  have hcode : c.toNat < 128 ∧ c.toNat ≤ 32 ∨ ¬c.toNat < 128 ∧ c.toNat ∈ spaceCodes := by
    simp only [isSpace, Bool.or_eq_true, Bool.and_eq_true, decide_eq_true_eq, beq_iff_eq] at h
    simp only [spaceCodes, List.mem_append, List.mem_cons, List.mem_range'_1, List.not_mem_nil]
    omega
  rcases hcode with ⟨hascii, hlow⟩ | ⟨hascii, hmem⟩
  · rw [isWordChar_of_isAscii (decide_eq_true hascii)]
    have hbelow : ∀ d : Char, 32 < d.toNat → ¬d ≤ c := fun d hd hle =>
      Nat.not_le_of_lt (Nat.lt_of_le_of_lt hlow hd) hle
    have hunderscore : c ≠ '_' := fun heq => absurd (heq ▸ hlow) (by decide)
    simp [isAsciiUpper, isAsciiLower, isAsciiDigit, hbelow 'A' (by decide),
      hbelow 'a' (by decide), hbelow '0' (by decide), hunderscore]
  · have htables := List.all_eq_true.1 spaceCodes_not_in_tables _ hmem
    rw [Bool.and_eq_true, Bool.not_eq_true', Bool.not_eq_true'] at htables
    have hnonascii : isAscii c = false := decide_eq_false hascii
    have hunderscore : c ≠ '_' := fun heq => absurd (heq ▸ hascii) (by decide)
    simp [isWordChar, isAlphanumeric, isLetter, hnonascii, htables, hunderscore]

end Text

/-- How a character is shown, as far as a reader of programs tells it from others. -/
inductive Shade where
  | plain
  | comment
  | quoted
  | reserved
  deriving DecidableEq, Repr

namespace Shade

/-- The characters that begin comments and quoted literals. -/
def isMark (c : Char) : Bool := c == '#' || c == '"' || c == '\''

/-- What a mark begins. -/
def ofMark (mark : Char) : Shade := if mark == '#' then .comment else .quoted

/-- The reserved word that begins a text, as a word of its own. -/
def reservedAt? (before : Option Char) (text : List Char) : Option Keyword :=
  if before.any Text.isWordChar then none
  else Keyword.ofSpelling? (String.ofList (text.takeWhile Text.isWordChar))

end Shade

open Shade

/-- The shades of a text that stands behind a given character. -/
inductive Shaded : Option Char → List Char → List Shade → Prop
  | nil (before : Option Char) : Shaded before [] []
  | marked {before : Option Char} {first : Char} {rest : List Char} {scanned : ScannedLexeme}
      {shades : List Shade} (hmark : isMark first = true)
      (hscan : Lexeme.scan first rest = .ok scanned)
      (hmore : Shaded (first :: rest.take scanned.extra).getLast? (rest.drop scanned.extra) shades) :
      Shaded before (first :: rest)
        (List.replicate (first :: rest.take scanned.extra).length (ofMark first) ++ shades)
  | reserved {before : Option Char} {text left : List Char} {word : Keyword} {shades : List Shade}
      (hword : reservedAt? before text = some word) (htext : text = word.spelling.toList ++ left)
      (hmore : Shaded word.spelling.toList.getLast? left shades) :
      Shaded before text (List.replicate word.spelling.toList.length .reserved ++ shades)
  | plain {before : Option Char} {c : Char} {rest : List Char} {shades : List Shade}
      (hmark : isMark c = false) (hword : reservedAt? before (c :: rest) = none)
      (hmore : Shaded (some c) rest shades) : Shaded before (c :: rest) (.plain :: shades)

/-- Nothing begins in the first part of a text. -/
inductive Plainly : Option Char → List Char → List Char → Prop
  | nil (before : Option Char) (left : List Char) : Plainly before [] left
  | cons {before : Option Char} {c : Char} {shown left : List Char} (hmark : isMark c = false)
      (hword : reservedAt? before (c :: (shown ++ left)) = none)
      (hmore : Plainly (some c) shown left) : Plainly before (c :: shown) left

namespace Shade

variable {before : Option Char} {c : Char} {text : List Char}

theorem reservedAt?_of_before (h : before.any Text.isWordChar = true) :
    reservedAt? before text = none := if_pos h

theorem eq_of_isMark (h : isMark c = true) : c = '#' ∨ c = '"' ∨ c = '\'' := by
  simpa [isMark, or_assoc] using h

theorem isMark_of_isWordChar (h : Text.isWordChar c = true) : isMark c = false := by
  refine Bool.eq_false_iff.2 fun hmark => ?_
  rcases eq_of_isMark hmark with rfl | rfl | rfl <;> exact absurd h (by decide)

theorem isMark_of_isSpace (h : Text.isSpace c = true) : isMark c = false := by
  refine Bool.eq_false_iff.2 fun hmark => ?_
  rcases eq_of_isMark hmark with rfl | rfl | rfl <;> exact absurd h (by decide)

theorem eq_spelling_of_ofSpelling? {spelling : String} {word : Keyword}
    (h : Keyword.ofSpelling? spelling = some word) : word.spelling = spelling := by
  have hfound := List.find?_some h
  simpa using hfound

theorem spelling_eq_cons (word : Keyword) :
    ∃ first more, word.spelling.toList = first :: more ∧ Text.isAsciiLower first = true ∧
      isMark first = false := by
  cases word <;> exact ⟨_, _, rfl, by decide, by decide⟩

theorem all_isWordChar_spelling (word : Keyword) :
    (word.spelling.toList.all Text.isWordChar) = true := by
  cases word <;> decide

/-- A reserved word begins a text exactly if it stands there, with no more of a word around it. -/
theorem reservedAt?_eq_some_iff {word : Keyword} :
    reservedAt? before text = some word ↔ before.any Text.isWordChar = false ∧
      ∃ left, text = word.spelling.toList ++ left ∧ left.head?.any Text.isWordChar = false := by
  constructor
  · intro h
    rw [reservedAt?] at h
    split at h
    · cases h
    next hbefore =>
    refine ⟨Bool.eq_false_iff.2 hbefore, text.dropWhile Text.isWordChar, ?_, ?_⟩
    · have hspelling := congrArg String.toList (eq_spelling_of_ofSpelling? h)
      rw [String.toList_ofList] at hspelling
      rw [hspelling, List.takeWhile_append_dropWhile]
    · cases hleft : text.dropWhile Text.isWordChar with
      | nil => rfl
      | cons c more =>
        have hstop := List.head?_dropWhile_not Text.isWordChar text
        rw [hleft] at hstop
        simpa using hstop
  · rintro ⟨hbefore, left, rfl, hleft⟩
    have hword : (word.spelling.toList ++ left).takeWhile Text.isWordChar =
        word.spelling.toList := by
      rw [List.takeWhile_append_of_pos (List.all_eq_true.1 (all_isWordChar_spelling word))]
      cases left with
      | nil => simp
      | cons c more => rw [List.takeWhile_cons_of_neg (by simpa using hleft), List.append_nil]
    rw [reservedAt?, if_neg (by simp [hbefore]), hword, String.ofList_toList,
      Keyword.ofSpelling?_spelling]

/-- A reserved word begins with a small letter. -/
theorem reservedAt?_of_first (h : Text.isAsciiLower c = false) :
    reservedAt? before (c :: text) = none := by
  refine Option.eq_none_iff_forall_ne_some.2 fun word hword => ?_
  obtain ⟨-, left, htext, -⟩ := reservedAt?_eq_some_iff.1 hword
  obtain ⟨first, more, hspelling, hlower, -⟩ := spelling_eq_cons word
  rw [hspelling, List.cons_append] at htext
  cases htext
  rw [hlower] at h
  cases h

theorem reservedAt?_of_not_isWordChar (h : Text.isWordChar c = false) :
    reservedAt? before (c :: text) = none := by
  refine reservedAt?_of_first (Bool.eq_false_iff.2 fun hlower => ?_)
  rw [Text.isWordChar_of_isAscii (Text.isAscii_of_isAsciiLower hlower), hlower] at h
  simp at h

end Shade

/-! ### Where nothing begins -/

theorem getLast?_cons_or (c : Char) (shown : List Char) (before : Option Char) :
    (c :: shown).getLast?.or before = shown.getLast?.or (some c) := by
  rw [List.getLast?_cons]
  cases shown.getLast? <;> rfl

namespace Plainly

variable {before : Option Char} {first : Char} {shown more left : List Char}

theorem of_not_isWordChar (hmark : ∀ c ∈ shown, isMark c = false)
    (hword : ∀ c ∈ shown, Text.isWordChar c = false) : Plainly before shown left := by
  induction shown generalizing before with
  | nil => exact .nil before left
  | cons c shown ih =>
    obtain ⟨hc, hmore⟩ := List.forall_mem_cons.1 hmark
    obtain ⟨hcword, hword⟩ := List.forall_mem_cons.1 hword
    exact .cons hc (reservedAt?_of_not_isWordChar hcword) (ih hmore hword)

theorem of_isWordChar (hbefore : before.any Text.isWordChar = true)
    (hword : ∀ c ∈ shown, Text.isWordChar c = true) : Plainly before shown left := by
  induction shown generalizing before with
  | nil => exact .nil before left
  | cons c shown ih =>
    obtain ⟨hcword, hmore⟩ := List.forall_mem_cons.1 hword
    exact .cons (isMark_of_isWordChar hcword) (reservedAt?_of_before hbefore) (ih hcword hmore)

theorem append (h : Plainly before shown (more ++ left))
    (hmore : Plainly (shown.getLast?.or before) more left) : Plainly before (shown ++ more) left := by
  induction shown generalizing before with
  | nil => exact hmore
  | cons c shown ih =>
    cases h with
    | cons hmark hword hrest =>
      rw [getLast?_cons_or] at hmore
      exact .cons hmark ((List.append_assoc ..).symm ▸ hword) (ih hrest hmore)

end Plainly

namespace Shaded

variable {before : Option Char} {shown left : List Char} {shades : List Shade}

theorem plainly_append (hplain : Plainly before shown left)
    (h : Shaded (shown.getLast?.or before) left shades) :
    Shaded before (shown ++ left) (List.replicate shown.length .plain ++ shades) := by
  induction hplain with
  | nil => exact h
  | cons hmark hword _ ih =>
    rw [getLast?_cons_or] at h
    exact .plain hmark hword (ih h)

/-- The shades of a part in which nothing begins are plain. -/
theorem of_plainly (h : Shaded before (shown ++ left) shades) (hplain : Plainly before shown left) :
    ∃ more, shades = List.replicate shown.length .plain ++ more ∧
      Shaded (shown.getLast?.or before) left more := by
  induction hplain generalizing shades with
  | nil before left => exact ⟨shades, rfl, h⟩
  | @cons before c shown left hmark hword hmore ih =>
    cases h with
    | marked hmark' => rw [hmark] at hmark'; cases hmark'
    | reserved hword' => exact absurd (hword.symm.trans hword') (by simp)
    | plain _ _ hrest =>
      obtain ⟨more, rfl, hleft⟩ := ih hrest
      rw [getLast?_cons_or]
      exact ⟨more, rfl, hleft⟩

end Shaded

end SableFrontend
