import SableFrontend.Proofs.Token.NumeralShape

/-!
Where a numeral ends, and that nothing else settles how it is read. Behind a numeral that has been
read no word goes on (`read_end`), and behind one of decimal digits alone no fraction
(`fraction?_of_read`). Conversely, what is spelled like a numeral is read as that numeral in front of
every text of which this is true (`read_append`).
-/

namespace SableFrontend.Numeral

/-! ### Where a numeral ends -/

theorem readDecimal_end {text : List Char} {shape : Shape} (h : readDecimal text = .ok shape) :
    (text.drop shape.length).head?.any Text.isWordChar = false := by
  obtain ⟨_, -, h⟩ := exists_of_bind_eq_ok h
  obtain ⟨_, -, h⟩ := exists_of_bind_eq_ok h
  obtain ⟨final, -, h⟩ := exists_of_bind_eq_ok h
  obtain ⟨_, hend, h⟩ := exists_of_bind_eq_ok h
  cases h
  exact checkEnd_eq_ok hend

theorem readRadix_end {radix : Radix} {body : List Char} {shape : Shape}
    (h : readRadix radix body = .ok shape) :
    ∃ count, shape.length = count + 2 ∧ (body.drop count).head?.any Text.isWordChar = false := by
  unfold readRadix at h
  by_cases hempty : (groupOf radix.isDigit body).all (· == '_') = true
  · simp only [hempty, if_true] at h
    cases h
  · simp only [hempty, Bool.false_eq_true, if_false] at h
    obtain ⟨_, -, h⟩ := exists_of_bind_eq_ok h
    obtain ⟨_, hend, h⟩ := exists_of_bind_eq_ok h
    cases h
    exact ⟨_, rfl, checkEnd_eq_ok hend⟩

/-- No word goes on behind a numeral. -/
theorem read_end {text : List Char} {shape : Shape} (h : read text = .ok shape) :
    (text.drop shape.length).head?.any Text.isWordChar = false := by
  unfold read at h
  split at h
  · split at h
    · obtain ⟨count, hlength, hend⟩ := readRadix_end h
      rw [hlength]
      exact hend
    · exact readDecimal_end h
  · exact readDecimal_end h

/-! ### What is spelled like a numeral is read -/

section

variable {c : Char} {radix : Radix}

theorem isDigit_of_isAsciiDigit (h : Text.isAsciiDigit c = true) : Text.isDigit c = true := by
  rw [Text.isDigit, if_pos (Text.isAscii_of_isAsciiDigit h), h]

theorem Radix.isAsciiLetterOrDigit (h : radix.isDigit c = true) :
    (Text.isAsciiUpper c || Text.isAsciiLower c || Text.isAsciiDigit c) = true := by
  cases radix with
  | hexadecimal =>
    simp only [isDigit, Bool.or_eq_true, Bool.and_eq_true, decide_eq_true_eq] at h
    rcases h with (hdigit | ⟨hlow, hhigh⟩) | ⟨hlow, hhigh⟩
    · simp [hdigit]
    · simp [Text.isAsciiLower, hlow, Char.le_trans hhigh (by decide : 'f' ≤ 'z')]
    · simp [Text.isAsciiUpper, hlow, Char.le_trans hhigh (by decide : 'F' ≤ 'Z')]
  | binary =>
    simp only [isDigit, Bool.or_eq_true, beq_iff_eq] at h
    rcases h with rfl | rfl <;> decide
  | octal =>
    simp only [isDigit, Bool.and_eq_true, decide_eq_true_eq] at h
    simp [Text.isAsciiDigit, h.1, Char.le_trans h.2 (by decide : '7' ≤ '9')]

theorem Radix.isWordChar (h : radix.isDigit c = true) : Text.isWordChar c = true := by
  have hsome := isAsciiLetterOrDigit h
  have hascii : Text.isAscii c = true := by
    rw [Bool.or_eq_true, Bool.or_eq_true] at hsome
    rcases hsome with (hupper | hlower) | hdigit
    · exact Text.isAscii_of_isAsciiUpper hupper
    · exact Text.isAscii_of_isAsciiLower hlower
    · exact Text.isAscii_of_isAsciiDigit hdigit
  rw [Text.isWordChar_of_isAscii hascii, hsome]
  rfl

theorem mem_of_ofLetter? (h : Radix.ofLetter? c = some radix) :
    c ∈ ['x', 'X', 'b', 'B', 'o', 'O'] := by
  refine Decidable.byContradiction fun hnot => ?_
  simp only [List.mem_cons, List.not_mem_nil, or_false, not_or] at hnot
  simp [Radix.ofLetter?, hnot] at h

/-- The letters of a radix are no decimal digits. -/
theorem ofLetter?_eq_none (h : Text.isAsciiDigit c = true ∨ c = '_') : Radix.ofLetter? c = none := by
  cases hradix : Radix.ofLetter? c with
  | none => rfl
  | some radix =>
    have hall : ['x', 'X', 'b', 'B', 'o', 'O'].all
        (fun letter => !Text.isAsciiDigit letter && letter != '_') = true := by decide
    have hletter := List.all_eq_true.1 hall c (mem_of_ofLetter? hradix)
    rw [Bool.and_eq_true, Bool.not_eq_true', bne_iff_ne] at hletter
    obtain ⟨hdigit, hc⟩ := hletter
    rcases h with h | h
    · rw [h] at hdigit
      cases hdigit
    · exact absurd h hc

end

section

variable {isDigit : Char → Bool} {group spelling other : List Char} {kind : LiteralKind}

theorem IsGroup.exists_cons (h : IsGroup isDigit group) :
    ∃ c rest, group = c :: rest ∧ isDigit c = true := by
  obtain ⟨c, rest, rfl⟩ := List.exists_cons_of_ne_nil h.ne_nil
  refine ⟨c, rest, rfl, (h.members c List.mem_cons_self).resolve_right ?_⟩
  rintro rfl
  cases h.grouped

/-- A group ends where none of its characters follows. -/
theorem groupOf_append (h : IsGroup isDigit group)
    (hother : other.head?.any (fun c => isDigit c || c == '_') = false) :
    groupOf isDigit (group ++ other) = group := by
  have hall : ∀ c ∈ group, (isDigit c || c == '_') = true := fun c hmem => by
    simpa using h.members c hmem
  have hnil : other.takeWhile (fun c => isDigit c || c == '_') = [] := by
    cases other with
    | nil => rfl
    | cons c rest =>
      exact List.takeWhile_cons_of_neg (show ¬_ from Bool.eq_false_iff.1 hother)
  rw [groupOf, List.takeWhile_append_of_pos hall, hnil, List.append_nil]

/-- Where no word goes on, no group does. -/
theorem not_group_of_end (hdigit : ∀ c, isDigit c = true → Text.isWordChar c = true)
    (hother : other.head?.any Text.isWordChar = false) :
    other.head?.any (fun c => isDigit c || c == '_') = false := by
  cases other with
  | nil => rfl
  | cons c rest =>
    replace hother : Text.isWordChar c = false := hother
    refine Bool.eq_false_iff.2 fun hmember => ?_
    replace hmember : (isDigit c || c == '_') = true := hmember
    rw [Bool.or_eq_true, beq_iff_eq] at hmember
    rcases hmember with hmember | rfl
    · rw [hdigit c hmember] at hother
      cases hother
    · cases hother

theorem isWordChar_of_isAsciiDigit (c : Char) (h : Text.isAsciiDigit c = true) :
    Text.isWordChar c = true :=
  Text.isWordChar_of_isDigit (isDigit_of_isAsciiDigit h)

theorem checkGroup_of_isGroup (h : IsGroup isDigit group) (length : Nat) (rest : List Char) :
    checkGroup group length rest = .ok () := by
  rw [checkGroup, h.grouped]
  rfl

theorem checkEnd_of_end (h : other.head?.any Text.isWordChar = false) (length : Nat) :
    checkEnd length other = .ok () := by
  rw [checkEnd, h]
  rfl

theorem readRadix_append {radix : Radix} (h : IsGroup radix.isDigit group)
    (hend : other.head?.any Text.isWordChar = false) :
    readRadix radix (group ++ other) = .ok { kind := .integer, length := group.length + 2 } := by
  obtain ⟨c, rest, hgroup, hdigit⟩ := h.exists_cons
  have hunder : group.all (· == '_') = false := by
    have hc : c ≠ '_' := by
      rintro rfl
      cases radix <;> cases hdigit
    rw [hgroup, List.all_cons, beq_eq_false_iff_ne.2 hc]
    rfl
  unfold readRadix
  rw [groupOf_append h (not_group_of_end (fun _ => Radix.isWordChar) hend)]
  dsimp only
  rw [hunder, checkGroup_of_isGroup h, List.drop_left, checkEnd_of_end hend]
  rfl

theorem readFraction_append {fraction : List Char} (h : IsFraction fraction) (length : Nat)
    (hother : other.head?.any (fun c => Text.isAsciiDigit c || c == '_') = false) :
    readFraction length (fraction ++ other) =
      .ok { kind := .float, length := length + fraction.length } := by
  cases h with
  | @point group hgroup =>
    obtain ⟨c, rest, hcons, hdigit⟩ := hgroup.exists_cons
    have hfirst : (group ++ other).head?.any Text.isDigit = true := by
      rw [hcons]
      exact isDigit_of_isAsciiDigit hdigit
    have hfraction : fraction? ('.' :: group ++ other) = some group := by
      rw [List.cons_append, fraction?, hfirst, groupOf_append hgroup hother]
      rfl
    unfold readFraction
    rw [hfraction]
    dsimp only
    rw [checkGroup_of_isGroup hgroup, List.length_cons, Nat.add_assoc, Nat.add_comm 1]
    rfl

theorem readExponent_append {exponent : List Char} (h : IsExponent exponent) (soFar : Shape)
    (hother : other.head?.any (fun c => Text.isAsciiDigit c || c == '_') = false) :
    readExponent soFar (exponent ++ other) =
      .ok { kind := .float, length := soFar.length + exponent.length } := by
  -- the digits stand behind the letter, or behind the letter and the sign
  have hreads : ∀ {mark : Nat} {front group : List Char}, IsGroup Text.isAsciiDigit group →
      front.length = mark → exponentMark? (front ++ group ++ other) = some mark →
        readExponent soFar (front ++ group ++ other) =
          .ok { kind := .float, length := soFar.length + (front ++ group).length } := by
    rintro _ front group hgroup rfl hmark
    obtain ⟨c, rest, hcons, hdigit⟩ := hgroup.exists_cons
    have hfirst : (group ++ other).head?.any Text.isDigit = true := by
      rw [hcons]
      exact isDigit_of_isAsciiDigit hdigit
    unfold readExponent
    rw [hmark]
    dsimp only
    rw [List.append_assoc, List.drop_left, hfirst, groupOf_append hgroup hother,
      checkGroup_of_isGroup hgroup, List.length_append, Nat.add_assoc]
    rfl
  cases h with
  | @plain letter hletter group hgroup =>
    refine @hreads 1 [letter] group hgroup rfl ?_
    obtain ⟨c, rest, rfl, hdigit⟩ := hgroup.exists_cons
    have hsign : (some c == some '+' || some c == some '-') = false := by
      refine Bool.eq_false_iff.2 fun hsign => ?_
      have hsign : c = '+' ∨ c = '-' := by simpa using hsign
      rcases hsign with rfl | rfl <;> cases hdigit
    have hmark : (letter == 'e' || letter == 'E') = true := by simpa using hletter
    show exponentMark? (letter :: c :: (rest ++ other)) = some 1
    rw [exponentMark?, hmark, List.head?_cons, hsign]
    rfl
  | @signed letter sign hletter hsign group hgroup =>
    refine @hreads 2 [letter, sign] group hgroup rfl ?_
    have hsign : (some sign == some '+' || some sign == some '-') = true := by simpa using hsign
    have hmark : (letter == 'e' || letter == 'E') = true := by simpa using hletter
    show exponentMark? (letter :: sign :: (group ++ other)) = some 2
    rw [exponentMark?, hmark, List.head?_cons, hsign]
    rfl

theorem readFraction_of_none (h : fraction? other = none) (length : Nat) :
    readFraction length other = .ok { kind := .integer, length := length } := by
  rw [readFraction, h]

theorem readExponent_of_end (h : other.head?.any Text.isWordChar = false) (soFar : Shape) :
    readExponent soFar other = .ok soFar := by
  have hnone : exponentMark? other = none := by
    cases other with
    | nil => rfl
    | cons c rest =>
      have hletter : (c == 'e' || c == 'E') = false := by
        refine Bool.eq_false_iff.2 fun hletter => ?_
        have hletter : c = 'e' ∨ c = 'E' := by simpa using hletter
        rcases hletter with rfl | rfl <;> cases h
      rw [exponentMark?, hletter]
      rfl
  rw [readExponent, hnone]

theorem ofLetter?_eq_none_of_end (h : other.head?.any Text.isWordChar = false) :
    ∀ c ∈ other.head?, Radix.ofLetter? c = none := by
  intro c hc
  cases hradix : Radix.ofLetter? c with
  | none => rfl
  | some radix =>
    have hall : ['x', 'X', 'b', 'B', 'o', 'O'].all Text.isWordChar = true := by decide
    rw [Option.mem_def.1 hc] at h
    exact absurd (List.all_eq_true.1 hall c (mem_of_ofLetter? hradix)) (Bool.eq_false_iff.1 h)

/-- Neither digits nor a radix begin where a fraction or an exponent does. -/
theorem IsFraction.head {fraction : List Char} (h : IsFraction fraction) (other : List Char) :
    (fraction ++ other).head?.any (fun c => Text.isAsciiDigit c || c == '_') = false ∧
      ∀ c ∈ (fraction ++ other).head?, Radix.ofLetter? c = none := by
  cases h
  exact ⟨rfl, fun c hc => by cases hc; rfl⟩

theorem IsExponent.head {exponent : List Char} (h : IsExponent exponent) (other : List Char) :
    (exponent ++ other).head?.any (fun c => Text.isAsciiDigit c || c == '_') = false ∧
      (∀ c ∈ (exponent ++ other).head?, Radix.ofLetter? c = none) ∧
      fraction? (exponent ++ other) = none := by
  cases h with
  | plain hletter | signed hletter =>
    rcases hletter with rfl | rfl <;> exact ⟨rfl, fun c hc => by cases hc; rfl, rfl⟩

/-- The whole part of a numeral without a radix is read first. -/
theorem read_of_isGroup (h : IsGroup Text.isAsciiDigit group)
    (hother : other.head?.any (fun c => Text.isAsciiDigit c || c == '_') = false)
    (hletter : ∀ c ∈ other.head?, Radix.ofLetter? c = none) :
    read (group ++ other) = (do
      let upToFraction ← readFraction group.length other
      let shape ← readExponent upToFraction ((group ++ other).drop upToFraction.length)
      checkEnd shape.length ((group ++ other).drop shape.length)
      return shape) := by
  have hread : read (group ++ other) = readDecimal (group ++ other) := by
    unfold read
    split
    · next letter body heq =>
      have hnone : Radix.ofLetter? letter = none := by
        match group, h with
        | [], h => exact absurd rfl h.ne_nil
        | [c], _ =>
          obtain ⟨-, rfl⟩ := List.cons.inj heq
          exact hletter letter rfl
        | c :: d :: rest, h =>
          obtain ⟨-, heq⟩ := List.cons.inj heq
          obtain ⟨rfl, -⟩ := List.cons.inj heq
          exact ofLetter?_eq_none (h.members d (by simp))
      rw [hnone]
    · rfl
  rw [hread, readDecimal, groupOf_append h hother, checkGroup_of_isGroup h, List.drop_left]
  rfl

/-- What is spelled like a numeral is read as one where neither a word nor, behind decimal digits, a
fraction goes on. -/
theorem read_append (h : Spells kind spelling) (hend : other.head?.any Text.isWordChar = false)
    (hpoint : IsGroup Text.isAsciiDigit spelling → fraction? other = none) :
    read (spelling ++ other) = .ok { kind := kind, length := spelling.length } := by
  have hdigits := not_group_of_end isWordChar_of_isAsciiDigit hend
  cases h with
  | decimal hgroup =>
    rw [read_of_isGroup hgroup hdigits (ofLetter?_eq_none_of_end hend),
      readFraction_of_none (hpoint hgroup)]
    show (readExponent { kind := .integer, length := spelling.length } _ >>= _) = _
    rw [List.drop_left, readExponent_of_end hend]
    show (checkEnd spelling.length _ >>= _) = _
    rw [List.drop_left, checkEnd_of_end hend]
    rfl
  | @radix letter radix hradix group hgroup =>
    show read ('0' :: letter :: (group ++ other)) = _
    rw [read, hradix]
    exact readRadix_append hgroup hend
  | @fraction whole fraction hwhole hfraction =>
    obtain ⟨hpart, hletter⟩ := hfraction.head other
    rw [List.append_assoc, read_of_isGroup hwhole hpart hletter,
      readFraction_append hfraction _ hdigits, ← List.append_assoc, ← List.length_append]
    show (readExponent { kind := .float, length := (whole ++ fraction).length } _ >>= _) = _
    rw [List.drop_left, readExponent_of_end hend]
    show (checkEnd (whole ++ fraction).length _ >>= _) = _
    rw [List.drop_left, checkEnd_of_end hend]
    rfl
  | @exponent whole exponent hwhole hexponent =>
    obtain ⟨hpart, hletter, hnone⟩ := hexponent.head other
    rw [List.append_assoc, read_of_isGroup hwhole hpart hletter, readFraction_of_none hnone]
    show (readExponent { kind := .integer, length := whole.length } _ >>= _) = _
    rw [List.drop_left, readExponent_append hexponent _ hdigits, ← List.append_assoc]
    show (checkEnd (whole.length + exponent.length) _ >>= _) = _
    rw [← List.length_append, List.drop_left, checkEnd_of_end hend]
    rfl
  | @both whole fraction exponent hwhole hfraction hexponent =>
    obtain ⟨hpart, hletter⟩ := hfraction.head (exponent ++ other)
    obtain ⟨hpart', -, -⟩ := hexponent.head other
    rw [List.append_assoc, List.append_assoc, read_of_isGroup hwhole hpart hletter,
      readFraction_append hfraction _ hpart', ← List.append_assoc, ← List.length_append]
    show (readExponent { kind := .float, length := (whole ++ fraction).length } _ >>= _) = _
    rw [List.drop_left, readExponent_append hexponent _ hdigits, ← List.append_assoc]
    show (checkEnd ((whole ++ fraction).length + exponent.length) _ >>= _) = _
    rw [← List.length_append, List.drop_left, checkEnd_of_end hend]
    rfl

/-- Behind decimal digits that are a whole numeral no fraction goes on. -/
theorem fraction?_of_read {shape : Shape} (h : IsGroup Text.isAsciiDigit group)
    (hread : read (group ++ other) = .ok shape) (hlength : group.length = shape.length) :
    fraction? other = none := by
  have hend : other.head?.any Text.isWordChar = false := by
    have hend := read_end hread
    rwa [← hlength, List.drop_left] at hend
  rw [read_of_isGroup h (not_group_of_end isWordChar_of_isAsciiDigit hend)
    (ofLetter?_eq_none_of_end hend)] at hread
  obtain ⟨soFar, hfraction, hread⟩ := exists_of_bind_eq_ok hread
  obtain ⟨final, hexponent, hread⟩ := exists_of_bind_eq_ok hread
  obtain ⟨_, -, hread⟩ := exists_of_bind_eq_ok hread
  cases hread
  rcases readFraction_eq_ok hfraction with ⟨-, hnone⟩ | ⟨digits, -, -, rfl⟩
  · exact hnone
  · -- with a fraction the numeral would be longer
    rcases readExponent_eq_ok hexponent with ⟨rfl, -⟩ | ⟨mark, -, -, -, rfl⟩ <;>
    · dsimp only at hlength
      omega

end

end SableFrontend.Numeral
