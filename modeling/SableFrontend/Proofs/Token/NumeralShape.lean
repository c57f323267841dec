import SableFrontend.Proofs.Result
import SableFrontend.Token.Numeral

/-!
What a numeral looks like that has been read. Reading looks ahead for digits of any script but
takes in only those of ASCII, so at every place where it expects digits it could find one of the
others and take in nothing. `read_spells` says that this never goes unnoticed: a numeral that is
accepted is not empty, and each of its groups has a digit.
-/

namespace SableFrontend

namespace Text

/-! ### Characters of ASCII -/

section

variable {c : Char}

theorem isWordChar_of_isAscii (h : isAscii c = true) :
    isWordChar c = (isAsciiUpper c || isAsciiLower c || isAsciiDigit c || c == '_') := by
  simp [isWordChar, isAlphanumeric, isLetter, h]

theorem isAscii_of_le (h : c ≤ 'z') : isAscii c = true :=
  decide_eq_true (Nat.lt_of_le_of_lt (show c.toNat ≤ 122 from h) (by decide))

theorem isAscii_of_isAsciiLower (h : isAsciiLower c = true) : isAscii c = true := by
  simp only [isAsciiLower, Bool.and_eq_true, decide_eq_true_eq] at h
  exact isAscii_of_le h.2

theorem isAscii_of_isAsciiUpper (h : isAsciiUpper c = true) : isAscii c = true := by
  simp only [isAsciiUpper, Bool.and_eq_true, decide_eq_true_eq] at h
  exact isAscii_of_le (Char.le_trans h.2 (by decide))

theorem isAscii_of_isAsciiDigit (h : isAsciiDigit c = true) : isAscii c = true := by
  simp only [isAsciiDigit, Bool.and_eq_true, decide_eq_true_eq] at h
  exact isAscii_of_le (Char.le_trans h.2 (by decide))

end

/-! ### Digits are word characters -/

/-- Whether every code point of a run lies in another one. -/
def CodeRun.covers (wide run : CodeRun) : Bool :=
  decide (wide.first ≤ run.first) && decide (run.last ≤ wide.last) && wide.stride == 1

theorem CodeRun.contains_of_covers {wide run : CodeRun} {code : Nat}
    (hcovers : wide.covers run = true) (h : run.contains code = true) :
    wide.contains code = true := by
  simp only [covers, contains, Bool.and_eq_true, decide_eq_true_eq, beq_iff_eq] at hcovers h ⊢
  obtain ⟨⟨hfirst, hlast⟩, hstride⟩ := hcovers
  obtain ⟨⟨hlow, hhigh⟩, -⟩ := h
  rw [hstride, Nat.mod_one]
  omega

theorem numericRuns_cover_digitRuns :
    (digitRuns.all fun run => numericRuns.any fun wide => wide.covers run) = true := by
  decide +kernel

theorem inTable_numericRuns {code : Nat} (h : inTable digitRuns code = true) :
    inTable numericRuns code = true := by
  obtain ⟨run, hrun, hcode⟩ := List.any_eq_true.1 h
  obtain ⟨wide, hwide, hcovers⟩ :=
    List.any_eq_true.1 (List.all_eq_true.1 numericRuns_cover_digitRuns run hrun)
  exact List.any_eq_true.2 ⟨wide, hwide, CodeRun.contains_of_covers hcovers hcode⟩

theorem isWordChar_of_isDigit {c : Char} (h : isDigit c = true) : isWordChar c = true := by
  have halphanumeric : isAlphanumeric c = true := by
    simp only [isDigit, isAlphanumeric, Bool.or_eq_true] at h ⊢
    right
    split at h
    · rwa [if_pos ‹_›]
    · rw [if_neg ‹_›]
      exact inTable_numericRuns h
  simp [isWordChar, halphanumeric]

end Text

namespace Numeral

/-! ### The shapes of numerals -/

/-- A group of digits: there is one, and underscores stand between digits only, one at a time. -/
structure IsGroup (isDigit : Char → Bool) (group : List Char) : Prop where
  ne_nil : group ≠ []
  members : ∀ c ∈ group, isDigit c = true ∨ c = '_'
  grouped : isMisgrouped group = false

/-- A point with digits after it. -/
inductive IsFraction : List Char → Prop
  | point {group : List Char} (hgroup : IsGroup Text.isAsciiDigit group) :
      IsFraction ('.' :: group)

/-- A letter that announces an exponent, a sign if there is one, and digits. -/
inductive IsExponent : List Char → Prop
  | plain {letter : Char} (hletter : letter = 'e' ∨ letter = 'E') {group : List Char}
      (hgroup : IsGroup Text.isAsciiDigit group) : IsExponent (letter :: group)
  | signed {letter sign : Char} (hletter : letter = 'e' ∨ letter = 'E')
      (hsign : sign = '+' ∨ sign = '-') {group : List Char}
      (hgroup : IsGroup Text.isAsciiDigit group) : IsExponent (letter :: sign :: group)

/-- What a literal of each kind of number is spelled like. -/
inductive Spells : LiteralKind → List Char → Prop
  | decimal {group : List Char} (hgroup : IsGroup Text.isAsciiDigit group) : Spells .integer group
  | radix {letter : Char} {radix : Radix} (hletter : Radix.ofLetter? letter = some radix)
      {group : List Char} (hgroup : IsGroup radix.isDigit group) :
      Spells .integer ('0' :: letter :: group)
  | fraction {whole fraction : List Char} (hwhole : IsGroup Text.isAsciiDigit whole)
      (hfraction : IsFraction fraction) : Spells .float (whole ++ fraction)
  | exponent {whole exponent : List Char} (hwhole : IsGroup Text.isAsciiDigit whole)
      (hexponent : IsExponent exponent) : Spells .float (whole ++ exponent)
  | both {whole fraction exponent : List Char} (hwhole : IsGroup Text.isAsciiDigit whole)
      (hfraction : IsFraction fraction) (hexponent : IsExponent exponent) :
      Spells .float (whole ++ fraction ++ exponent)

theorem Spells.ne_nil {kind : LiteralKind} {text : List Char} (h : Spells kind text) :
    text ≠ [] := by
  cases h with
  | decimal hgroup => exact hgroup.ne_nil
  | radix => exact List.cons_ne_nil _ _
  | fraction hwhole => exact List.append_ne_nil_of_left_ne_nil hwhole.ne_nil _
  | exponent hwhole => exact List.append_ne_nil_of_left_ne_nil hwhole.ne_nil _
  | both hwhole =>
    rw [List.append_assoc]
    exact List.append_ne_nil_of_left_ne_nil hwhole.ne_nil _

/-! ### Groups -/

theorem groupOf_append_drop (isDigit : Char → Bool) (text : List Char) :
    groupOf isDigit text ++ text.drop (groupOf isDigit text).length = text :=
  List.prefix_iff_eq_append.1 (List.takeWhile_prefix _)

theorem mem_groupOf {isDigit : Char → Bool} {text : List Char} {c : Char}
    (h : c ∈ groupOf isDigit text) : isDigit c = true ∨ c = '_' := by
  have hall := List.all_takeWhile (l := text) (p := fun c => isDigit c || c == '_')
  simpa using List.all_eq_true.1 hall c h

theorem isGroup_groupOf {isDigit : Char → Bool} {text : List Char}
    (hne : groupOf isDigit text ≠ []) (hgrouped : isMisgrouped (groupOf isDigit text) = false) :
    IsGroup isDigit (groupOf isDigit text) :=
  ⟨hne, fun _ => mem_groupOf, hgrouped⟩

theorem checkGroup_eq_ok {group rest : List Char} {length : Nat} {u : Unit}
    (h : checkGroup group length rest = .ok u) : isMisgrouped group = false := by
  unfold checkGroup at h
  split at h
  · cases h
  · exact Bool.eq_false_iff.2 ‹_›

theorem checkEnd_eq_ok {rest : List Char} {length : Nat} {u : Unit}
    (h : checkEnd length rest = .ok u) : rest.head?.any Text.isWordChar = false := by
  unfold checkEnd at h
  split at h
  · cases h
  · exact Bool.eq_false_iff.2 ‹_›

/-! ### Digits that are not taken in -/

/-- A text that begins with a digit of which a group takes nothing in. -/
structure IsForeignDigit (text : List Char) : Prop where
  head : text.head?.any Text.isDigit = true
  group : groupOf Text.isAsciiDigit text = []

namespace IsForeignDigit

variable {text : List Char}

theorem exists_cons (h : IsForeignDigit text) :
    ∃ c rest, text = c :: rest ∧ Text.isDigit c = true ∧ Text.isAscii c = false := by
  cases text with
  | nil => cases h.head
  | cons c rest =>
    have hdigit : Text.isDigit c = true := by simpa using h.head
    refine ⟨c, rest, rfl, hdigit, Bool.eq_false_iff.2 fun hascii => ?_⟩
    have hasciiDigit : Text.isAsciiDigit c = true := by
      rwa [Text.isDigit, if_pos hascii] at hdigit
    have hgroup := h.group
    rw [groupOf, List.takeWhile_cons_of_pos (by simp [hasciiDigit])] at hgroup
    exact List.cons_ne_nil _ _ hgroup

theorem fraction?_eq (h : IsForeignDigit text) : fraction? text = none := by
  obtain ⟨c, rest, rfl, -, hascii⟩ := h.exists_cons
  unfold fraction?
  split
  · next heq =>
    cases heq
    exact absurd hascii (by decide)
  · rfl

theorem exponentMark?_eq (h : IsForeignDigit text) : exponentMark? text = none := by
  obtain ⟨c, rest, rfl, -, hascii⟩ := h.exists_cons
  have hlower : c ≠ 'e' := fun heq => absurd (heq ▸ hascii) (by decide)
  have hupper : c ≠ 'E' := fun heq => absurd (heq ▸ hascii) (by decide)
  simp [exponentMark?, hlower, hupper]

theorem checkEnd_ne_ok (h : IsForeignDigit text) (length : Nat) (u : Unit) :
    checkEnd length text ≠ .ok u := by
  intro hok
  obtain ⟨c, rest, rfl, hdigit, -⟩ := h.exists_cons
  have hend := checkEnd_eq_ok hok
  simp [Text.isWordChar_of_isDigit hdigit] at hend

end IsForeignDigit

/-! ### Numerals with a radix -/

theorem readRadix_eq_ok {radix : Radix} {body : List Char} {shape : Shape}
    (h : readRadix radix body = .ok shape) :
    IsGroup radix.isDigit (groupOf radix.isDigit body) ∧
      shape = { kind := .integer, length := (groupOf radix.isDigit body).length + 2 } := by
  unfold readRadix at h
  by_cases hempty : (groupOf radix.isDigit body).all (· == '_') = true
  · simp only [hempty, if_true] at h
    cases h
  · simp only [hempty, Bool.false_eq_true, if_false] at h
    obtain ⟨u, hgroup, h⟩ := exists_of_bind_eq_ok h
    obtain ⟨v, -, h⟩ := exists_of_bind_eq_ok h
    cases h
    refine ⟨isGroup_groupOf (fun hnil => ?_) (checkGroup_eq_ok hgroup), rfl⟩
    rw [hnil] at hempty
    exact hempty rfl

/-! ### Decimal numerals -/

theorem readFraction_eq_ok {length : Nat} {text : List Char} {shape : Shape}
    (h : readFraction length text = .ok shape) :
    (shape = { kind := .integer, length := length } ∧ fraction? text = none) ∨
      ∃ group, fraction? text = some group ∧ isMisgrouped group = false ∧
        shape = { kind := .float, length := length + 1 + group.length } := by
  unfold readFraction at h
  split at h
  · cases h
    exact Or.inl ⟨rfl, ‹_›⟩
  · next group hgroup =>
    obtain ⟨u, hcheck, h⟩ := exists_of_bind_eq_ok h
    cases h
    exact Or.inr ⟨group, hgroup, checkGroup_eq_ok hcheck, rfl⟩

theorem fraction?_eq_some {text group : List Char} (h : fraction? text = some group) :
    ∃ rest, text = '.' :: rest ∧ rest.head?.any Text.isDigit = true ∧
      group = groupOf Text.isAsciiDigit rest := by
  unfold fraction? at h
  split at h
  · next rest =>
    split at h
    · cases h
      exact ⟨rest, rfl, ‹_›, rfl⟩
    · cases h
  · cases h

theorem readExponent_eq_ok {soFar : Shape} {text : List Char} {shape : Shape}
    (h : readExponent soFar text = .ok shape) :
    (shape = soFar ∧ exponentMark? text = none) ∨
      ∃ mark, exponentMark? text = some mark ∧
        (text.drop mark).head?.any Text.isDigit = true ∧
        isMisgrouped (groupOf Text.isAsciiDigit (text.drop mark)) = false ∧
        shape = { kind := .float, length := soFar.length + mark +
          (groupOf Text.isAsciiDigit (text.drop mark)).length } := by
  unfold readExponent at h
  split at h
  · cases h
    exact Or.inl ⟨rfl, ‹_›⟩
  · next mark hmark =>
    by_cases hdigit : (text.drop mark).head?.any Text.isDigit = true
    · simp only [hdigit, Bool.not_true, Bool.false_eq_true, if_false] at h
      obtain ⟨u, hcheck, h⟩ := exists_of_bind_eq_ok h
      cases h
      exact Or.inr ⟨mark, hmark, hdigit, checkGroup_eq_ok hcheck, rfl⟩
    · simp only [hdigit, Bool.not_false, if_true] at h
      cases h

theorem exponentMark?_eq_some {text : List Char} {mark : Nat}
    (h : exponentMark? text = some mark) {group : List Char}
    (hgroup : IsGroup Text.isAsciiDigit group) : IsExponent (text.take mark ++ group) := by
  unfold exponentMark? at h
  split at h
  · next c rest =>
    split at h
    · next hletter =>
      have hletter : c = 'e' ∨ c = 'E' := by simpa using hletter
      split at h
      · next hsign =>
        cases h
        cases rest with
        | nil => simp at hsign
        | cons sign rest =>
          have hsign : sign = '+' ∨ sign = '-' := by simpa using hsign
          exact .signed hletter hsign hgroup
      · cases h
        exact .plain hletter hgroup
    · cases h
  · cases h

/-- A digit of which nothing is taken in ends no numeral. -/
theorem IsForeignDigit.not_end {soFar shape : Shape} {text tail : List Char} {u : Unit}
    (hforeign : IsForeignDigit tail) (htail : text.drop soFar.length = tail)
    (hexponent : readExponent soFar (text.drop soFar.length) = .ok shape)
    (hend : checkEnd shape.length (text.drop shape.length) = .ok u) : False := by
  rw [htail] at hexponent
  rcases readExponent_eq_ok hexponent with ⟨rfl, -⟩ | ⟨mark, hmark, -⟩
  · rw [htail] at hend
    exact hforeign.checkEnd_ne_ok _ _ hend
  · rw [hforeign.exponentMark?_eq] at hmark
    cases hmark

/-- The whole part of a decimal numeral, and its fraction if it has one. -/
theorem readFraction_spells {text : List Char} {soFar shape : Shape} {u : Unit}
    (hdigit : text.head?.any Text.isDigit = true)
    (hgrouped : isMisgrouped (groupOf Text.isAsciiDigit text) = false)
    (hfraction : readFraction (groupOf Text.isAsciiDigit text).length
      (text.drop (groupOf Text.isAsciiDigit text).length) = .ok soFar)
    (hexponent : readExponent soFar (text.drop soFar.length) = .ok shape)
    (hend : checkEnd shape.length (text.drop shape.length) = .ok u) :
    ∃ whole fraction, text = whole ++ fraction ++ text.drop soFar.length ∧
      (whole ++ fraction).length = soFar.length ∧ IsGroup Text.isAsciiDigit whole ∧
      (soFar.kind = .integer ∧ fraction = [] ∨ soFar.kind = .float ∧ IsFraction fraction) := by
  have hsplit := groupOf_append_drop Text.isAsciiDigit text
  -- a group that takes nothing in stands in front of a foreign digit, and no numeral ends there
  have hwhole : groupOf Text.isAsciiDigit text ≠ [] := by
    intro hnil
    have hforeign : IsForeignDigit text := ⟨hdigit, hnil⟩
    simp only [hnil, List.length_nil, List.drop_zero] at hfraction
    rcases readFraction_eq_ok hfraction with ⟨rfl, -⟩ | ⟨group, hgroup, -⟩
    · exact hforeign.not_end rfl hexponent hend
    · rw [hforeign.fraction?_eq] at hgroup
      cases hgroup
  rcases readFraction_eq_ok hfraction with ⟨rfl, -⟩ | ⟨group, hgroup, hfractionGrouped, rfl⟩
  · refine ⟨groupOf Text.isAsciiDigit text, [], ?_, ?_, isGroup_groupOf hwhole hgrouped,
      Or.inl ⟨rfl, rfl⟩⟩
    · rw [List.append_nil, hsplit]
    · rw [List.append_nil]
  · obtain ⟨rest, hrest, hfirst, rfl⟩ := fraction?_eq_some hgroup
    have hafter := groupOf_append_drop Text.isAsciiDigit rest
    have hdrop : ∀ count, text.drop ((groupOf Text.isAsciiDigit text).length + 1 + count) =
        rest.drop count := by
      intro count
      rw [Nat.add_assoc, ← List.drop_drop, hrest, Nat.add_comm 1, List.drop_succ_cons]
    have hne : groupOf Text.isAsciiDigit rest ≠ [] := by
      intro hnil
      have hforeign : IsForeignDigit rest := ⟨hfirst, hnil⟩
      refine hforeign.not_end ?_ hexponent hend
      rw [hdrop, hnil, List.length_nil, List.drop_zero]
    refine ⟨groupOf Text.isAsciiDigit text, '.' :: groupOf Text.isAsciiDigit rest, ?_, ?_,
      isGroup_groupOf hwhole hgrouped, Or.inr ⟨rfl, .point (isGroup_groupOf hne hfractionGrouped)⟩⟩
    · rw [hdrop, List.append_assoc, List.cons_append, hafter, ← hrest, hsplit]
    · simp only [List.length_append, List.length_cons]
      omega

/-- A decimal numeral that has been read is spelled like one, over its whole length. -/
theorem readDecimal_spells {text : List Char} {shape : Shape}
    (hdigit : text.head?.any Text.isDigit = true) (h : readDecimal text = .ok shape) :
    ∃ spelling rest, text = spelling ++ rest ∧ spelling.length = shape.length ∧
      Spells shape.kind spelling := by
  obtain ⟨u, hgrouped, h⟩ := exists_of_bind_eq_ok h
  obtain ⟨soFar, hfraction, h⟩ := exists_of_bind_eq_ok h
  obtain ⟨final, hexponent, h⟩ := exists_of_bind_eq_ok h
  obtain ⟨v, hend, h⟩ := exists_of_bind_eq_ok h
  cases h
  obtain ⟨whole, fraction, htext, hlength, hwhole, hkind⟩ :=
    readFraction_spells hdigit (checkGroup_eq_ok hgrouped) hfraction hexponent hend
  rcases readExponent_eq_ok hexponent with ⟨rfl, -⟩ | ⟨mark, hmark, hfirst, hexpGrouped, rfl⟩
  · refine ⟨whole ++ fraction, _, htext, hlength, ?_⟩
    rcases hkind with ⟨hinteger, rfl⟩ | ⟨hfloat, hpoint⟩
    · rw [hinteger, List.append_nil]
      exact .decimal hwhole
    · rw [hfloat]
      exact .fraction hwhole hpoint
  · have hdrop : ∀ count, text.drop (soFar.length + mark + count) =
        ((text.drop soFar.length).drop mark).drop count := by
      intro count
      rw [List.drop_drop, List.drop_drop, Nat.add_assoc]
    have hne : groupOf Text.isAsciiDigit ((text.drop soFar.length).drop mark) ≠ [] := by
      intro hnil
      have hforeign : IsForeignDigit ((text.drop soFar.length).drop mark) := ⟨hfirst, hnil⟩
      simp only [hnil, List.length_nil, hdrop, List.drop_zero] at hend
      exact hforeign.checkEnd_ne_ok _ _ hend
    -- from here on only the part behind the whole digits and the fraction matters
    generalize htail : text.drop soFar.length = tail at *
    have hsplit := groupOf_append_drop Text.isAsciiDigit (tail.drop mark)
    have hmarkLength : (tail.take mark).length = mark := by
      rw [List.length_take, Nat.min_eq_left]
      refine Nat.le_of_lt (Nat.lt_of_not_le fun hle => ?_)
      rw [List.drop_eq_nil_of_le hle] at hfirst
      cases hfirst
    have hexp : IsExponent (tail.take mark ++ groupOf Text.isAsciiDigit (tail.drop mark)) :=
      exponentMark?_eq_some hmark (isGroup_groupOf hne hexpGrouped)
    refine ⟨whole ++ fraction ++
      (tail.take mark ++ groupOf Text.isAsciiDigit (tail.drop mark)),
      (tail.drop mark).drop (groupOf Text.isAsciiDigit (tail.drop mark)).length, ?_, ?_, ?_⟩
    · rw [List.append_assoc, List.append_assoc (tail.take mark), hsplit,
        List.take_append_drop, ← htext]
    · rw [List.length_append, @List.length_append _ (tail.take mark), hlength, hmarkLength,
        Nat.add_assoc]
    · rcases hkind with ⟨-, rfl⟩ | ⟨-, hpoint⟩
      · rw [List.append_nil]
        exact .exponent hwhole hexp
      · exact .both hwhole hpoint hexp

/-- A numeral that has been read is spelled like one, over its whole length. -/
theorem read_spells {text : List Char} {shape : Shape}
    (hdigit : text.head?.any Text.isDigit = true) (h : read text = .ok shape) :
    ∃ spelling rest, text = spelling ++ rest ∧ spelling.length = shape.length ∧
      Spells shape.kind spelling := by
  unfold read at h
  split at h
  · next letter body =>
    split at h
    · next radix hletter =>
      obtain ⟨hgroup, rfl⟩ := readRadix_eq_ok h
      refine ⟨'0' :: letter :: groupOf radix.isDigit body,
        body.drop (groupOf radix.isDigit body).length, ?_, rfl, .radix hletter hgroup⟩
      rw [List.cons_append, List.cons_append, groupOf_append_drop]
    · exact readDecimal_spells hdigit h
  · exact readDecimal_spells hdigit h

end Numeral

end SableFrontend
