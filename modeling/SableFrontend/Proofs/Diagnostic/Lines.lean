import SableFrontend.Text.Lines

/-!
Two ways to divide a text into lines. Places are counted in newline characters, so a line is what
stands between two of these, and a carriage return in front of one belongs to the line end
(`Text.newlineLine?`). The lines that people are shown end at every character that an editor may show
as a line break (`Text.lines`). The first lines of a text are the same by both if and only if no other
line break stands in one of them (`Text.lines_agree_iff`).
-/

namespace SableFrontend.Text

/-! ### Lines by newline characters -/

/-- A line without the carriage return at its end. -/
def withoutReturn (line : List Char) : List Char :=
  if line.getLast? = some '\r' then line.dropLast else line

/-- The line of a number, counted from 0, if the text has it: the text between two newline
characters, without the carriage return in front of the second one. -/
def newlineLine? (text : List Char) (number : Nat) : Option (List Char) :=
  (text.splitOn '\n')[number]?.map withoutReturn

/-- The first lines of a text have no line break within them. -/
def UnbrokenLines (text : List Char) (count : Nat) : Prop :=
  ∀ line ∈ (text.splitOn '\n').take count, (withoutReturn line).any isLineBreak = false

theorem withoutReturn_concat (line : List Char) : withoutReturn (line ++ ['\r']) = line := by
  rw [withoutReturn, if_pos (by simp), List.dropLast_concat]

/-- A line is what is left of it, and perhaps a carriage return. -/
theorem withoutReturn_append (line : List Char) :
    withoutReturn line = line ∧ line.getLast? ≠ some '\r' ∨ line = withoutReturn line ++ ['\r'] := by
  by_cases hreturn : line.getLast? = some '\r'
  · right
    obtain ⟨init, rfl⟩ := List.getLast?_eq_some_iff.1 hreturn
    rw [withoutReturn_concat]
  · exact Or.inl ⟨if_neg hreturn, hreturn⟩

/-- What is left of the end of a line. -/
theorem length_withoutReturn_append (front line : List Char) :
    (withoutReturn (front ++ line)).length - front.length = (withoutReturn line).length := by
  rcases withoutReturn_append line with ⟨hsame, hlast⟩ | hreturn
  · rw [hsame]
    rcases withoutReturn_append (front ++ line) with ⟨hsame', -⟩ | hreturn
    · rw [hsame', List.length_append]
      omega
    · -- the carriage return is in front of the line, which is empty
      cases hcases : line.getLast? with
      | none =>
        obtain rfl := List.getLast?_eq_none_iff.1 hcases
        rw [List.append_nil] at hreturn ⊢
        have hlength := congrArg List.length hreturn
        rw [List.length_append] at hlength
        simp only [List.length_nil]
        omega
      | some c =>
        have hend := congrArg List.getLast? hreturn
        rw [List.getLast?_append, hcases, List.getLast?_concat] at hend
        exact absurd (hcases.trans hend) hlast
  · generalize withoutReturn line = shown at hreturn ⊢
    subst hreturn
    rw [← List.append_assoc, withoutReturn_concat, List.length_append]
    omega

theorem takeWhile_take {text : List Char} {count : Nat} (h : '\n' ∈ text.take count) :
    (text.take count).takeWhile (· != '\n') = text.takeWhile (· != '\n') := by
  induction text generalizing count with
  | nil => rw [List.take_nil]
  | cons c rest ih =>
    cases count with
    | zero => cases h
    | succ count =>
      rw [List.take_succ_cons] at h ⊢
      by_cases hbreak : c = '\n'
      · subst hbreak
        rfl
      · have hrest := (List.mem_cons.1 h).resolve_left (Ne.symm hbreak)
        rw [List.takeWhile_cons, List.takeWhile_cons, ih hrest]

theorem takeWhile_append_of_mem {text : List Char} (h : '\n' ∈ text) (rest : List Char) :
    (text ++ rest).takeWhile (· != '\n') = text.takeWhile (· != '\n') := by
  obtain ⟨first, more, rfl, hfirst⟩ := List.eq_append_cons_of_mem h
  have hkeep : ∀ c ∈ first, (c != '\n') = true := fun c hmem =>
    bne_iff_ne.2 fun heq => hfirst (heq ▸ hmem)
  rw [List.append_assoc, List.takeWhile_append_of_pos hkeep, List.takeWhile_append_of_pos hkeep]
  rfl

theorem takeWhile_append_of_not_mem {text : List Char} (h : '\n' ∉ text) (rest : List Char) :
    (text ++ rest).takeWhile (· != '\n') = text ++ rest.takeWhile (· != '\n') :=
  List.takeWhile_append_of_pos fun _ hmem => bne_iff_ne.2 fun heq => h (heq ▸ hmem)

theorem length_splitOn (text : List Char) :
    (text.splitOn '\n').length = text.count '\n' + 1 := by
  induction text with
  | nil => rfl
  | cons c rest ih =>
    rw [List.splitOn_cons_eq_if_modifyHead, List.count_cons]
    split
    · rw [List.length_cons, ih]
    · rw [List.length_modifyHead, ih]

theorem head?_splitOn (text : List Char) :
    (text.splitOn '\n')[0]? = some (text.takeWhile (· != '\n')) := by
  by_cases hmem : '\n' ∈ text
  · obtain ⟨first, rest, rfl, hfirst⟩ := List.eq_append_cons_of_mem hmem
    rw [List.splitOn_append_cons_self_of_not_mem hfirst, List.takeWhile_append_of_pos]
    · simp
    · exact fun c hc => bne_iff_ne.2 fun heq => hfirst (heq ▸ hc)
  · have hall : ∀ c ∈ text, (c != '\n') = true := fun c hc =>
      bne_iff_ne.2 fun heq => hmem (heq ▸ hc)
    have hself := @List.takeWhile_append_of_pos _ (· != '\n') text [] hall
    rw [List.append_nil, List.takeWhile_nil, List.append_nil] at hself
    rw [List.splitOn_eq_singleton hmem, hself]
    rfl

/-- The line that starts where the text does, or behind a newline character. -/
theorem getElem?_splitOn {before : List Char} (h : before = [] ∨ before.getLast? = some '\n')
    (rest : List Char) :
    ((before ++ rest).splitOn '\n')[before.count '\n']? = some (rest.takeWhile (· != '\n')) := by
  rcases h with rfl | hlast
  · exact head?_splitOn rest
  · obtain ⟨init, rfl⟩ := List.getLast?_eq_some_iff.1 hlast
    have hcount : (init ++ ['\n']).count '\n' = (init.splitOn '\n').length := by
      rw [length_splitOn, List.count_append]
      rfl
    rw [List.append_assoc, List.singleton_append, List.splitOn_append_cons_self, hcount,
      List.getElem?_append_right (Nat.le_refl _), Nat.sub_self, head?_splitOn]

/-! ### Lines that people are shown -/

theorem linesFrom_append {shown : List Char} (h : shown.any isLineBreak = false)
    (current rest : List Char) :
    linesFrom current (shown ++ rest) = linesFrom (shown.reverse ++ current) rest := by
  induction shown generalizing current with
  | nil => rfl
  | cons c shown ih =>
    rw [List.any_cons, Bool.or_eq_false_iff] at h
    have hne : c ≠ '\r' := by
      rintro rfl
      exact absurd h.1 (by decide)
    rw [List.cons_append, linesFrom, if_neg (Bool.eq_false_iff.1 h.1), ih h.2,
      List.reverse_cons, List.append_assoc]
    · rfl
    · exact fun _ heq _ => hne heq

/-- A line break ends a line. -/
theorem linesFrom_break {c : Char} (h : isLineBreak c = true) (current : List Char)
    {rest : List Char} (hpair : c = '\r' → rest.head? ≠ some '\n') :
    linesFrom current (c :: rest) = current.reverse :: lines rest := by
  rw [linesFrom, if_pos h]
  · rfl
  · rintro more rfl rfl
    exact hpair rfl rfl

theorem lines_append {line rest : List Char} (h : (withoutReturn line).any isLineBreak = false) :
    lines (line ++ '\n' :: rest) = withoutReturn line :: lines rest := by
  rcases withoutReturn_append line with ⟨hsame, -⟩ | hreturn
  · rw [hsame] at h ⊢
    have hbreak := @linesFrom_break '\n' (by decide) line.reverse rest
      fun heq => absurd heq (by decide)
    rw [lines, linesFrom_append h, List.append_nil, hbreak, List.reverse_reverse]
  · generalize withoutReturn line = shown at h hreturn ⊢
    subst hreturn
    rw [lines, List.append_assoc, linesFrom_append h, List.append_nil]
    show shown.reverse.reverse :: linesFrom [] rest = _
    rw [List.reverse_reverse]
    rfl

/-- The last line is shown unless it is empty. -/
theorem lines_last {line : List Char} (h : (withoutReturn line).any isLineBreak = false) :
    lines line = if line = [] then [] else [withoutReturn line] := by
  rcases withoutReturn_append line with ⟨hsame, -⟩ | hreturn
  · rw [hsame] at h ⊢
    have hlines := linesFrom_append h [] []
    rw [List.append_nil, List.append_nil] at hlines
    rw [lines, hlines, linesFrom, List.isEmpty_reverse, List.reverse_reverse]
    simp only [List.isEmpty_iff]
  · generalize withoutReturn line = shown at h hreturn ⊢
    subst hreturn
    rw [lines, linesFrom_append h, linesFrom_break (by decide) _ (by decide), List.append_nil,
      List.reverse_reverse, if_neg (by simp)]
    rfl

/-- Another line break in a line ends what is shown of it. -/
theorem lines_broken {line rest : List Char} (hline : '\n' ∉ line)
    (h : (withoutReturn line).any isLineBreak = true) :
    ∃ shown more, lines (line ++ rest) = shown :: more ∧ shown ≠ withoutReturn line := by
  -- what is shown goes up to the first break, which is a carriage return only if more of the line follows
  obtain ⟨shown, c, more, hsplit, hshown, hbreak⟩ : ∃ shown c more,
      withoutReturn line = shown ++ c :: more ∧ shown.any isLineBreak = false ∧
        isLineBreak c = true := by
    generalize withoutReturn line = text at h
    induction text with
    | nil => cases h
    | cons c text ih =>
      by_cases hbreak : isLineBreak c = true
      · exact ⟨[], c, text, rfl, rfl, hbreak⟩
      · rw [List.any_cons, Bool.eq_false_iff.2 hbreak, Bool.false_or] at h
        obtain ⟨shown, d, more, rfl, hshown, hfirst⟩ := ih h
        refine ⟨c :: shown, d, more, rfl, ?_, hfirst⟩
        rw [List.any_cons, Bool.eq_false_iff.2 hbreak, hshown]
        rfl
  have hne : shown ≠ withoutReturn line := by
    rw [hsplit]
    exact fun heq => List.cons_ne_nil _ _ (List.self_eq_append_right.1 heq)
  obtain ⟨after, hafter, hpair⟩ : ∃ after, line ++ rest = shown ++ c :: after ∧
      (c = '\r' → after.head? ≠ some '\n') := by
    rcases withoutReturn_append line with ⟨hsame, hlast⟩ | hreturn
    · rw [hsame] at hsplit
      refine ⟨more ++ rest, by rw [hsplit, List.append_assoc, List.cons_append], ?_⟩
      rintro rfl
      cases more with
      | nil => exact absurd (by rw [hsplit, List.getLast?_concat]) hlast
      | cons d more =>
        intro heq
        obtain rfl : d = '\n' := Option.some.inj heq
        exact absurd (by rw [hsplit]; simp) hline
    · rw [hsplit, List.append_assoc] at hreturn
      refine ⟨more ++ ['\r'] ++ rest, ?_, ?_⟩
      · rw [hreturn]
        simp
      · rintro rfl
        cases more with
        | nil =>
          intro heq
          exact absurd (Option.some.inj (show some '\r' = some '\n' from heq)) (by decide)
        | cons d more =>
          intro heq
          obtain rfl : d = '\n' := Option.some.inj heq
          exact absurd (by rw [hreturn]; simp) hline
  refine ⟨shown, lines after, ?_, hne⟩
  rw [lines, hafter, linesFrom_append hshown, linesFrom_break hbreak _ hpair, List.append_nil,
    List.reverse_reverse]

/-! ### Where they agree -/

theorem unbrokenLines_succ_iff {first : List Char} (h : '\n' ∉ first) (rest : List Char) (count : Nat) :
    UnbrokenLines (first ++ '\n' :: rest) (count + 1) ↔
      (withoutReturn first).any isLineBreak = false ∧ UnbrokenLines rest count := by
  rw [UnbrokenLines, List.splitOn_append_cons_self_of_not_mem h, List.take_succ_cons,
    List.forall_mem_cons]
  rfl

theorem newlineLine?_succ {first : List Char} (h : '\n' ∉ first) (rest : List Char) (number : Nat) :
    newlineLine? (first ++ '\n' :: rest) (number + 1) = newlineLine? rest number := by
  rw [newlineLine?, List.splitOn_append_cons_self_of_not_mem h]
  rfl

theorem newlineLine?_first {first : List Char} (h : '\n' ∉ first) (rest : List Char) :
    newlineLine? (first ++ '\n' :: rest) 0 = some (withoutReturn first) := by
  rw [newlineLine?, List.splitOn_append_cons_self_of_not_mem h]
  rfl

/-- What is shown as the first lines are the lines by newline characters if and only if no other line
break stands within these. -/
theorem lines_agree_iff (text : List Char) (count : Nat) :
    (∀ number < count, ∀ line, (lines text)[number]? = some line →
      newlineLine? text number = some line) ↔ UnbrokenLines text count := by
  induction count generalizing text with
  | zero =>
    refine ⟨fun _ line hmem => absurd hmem List.not_mem_nil, fun _ number hlt => ?_⟩
    exact absurd hlt (Nat.not_lt_zero number)
  | succ count ih =>
    by_cases hmem : '\n' ∈ text
    · obtain ⟨first, rest, rfl, hfirst⟩ := List.eq_append_cons_of_mem hmem
      rw [unbrokenLines_succ_iff hfirst, ← ih rest]
      constructor
      · intro hagree
        have hclean : (withoutReturn first).any isLineBreak = false := by
          refine Bool.eq_false_iff.2 fun hbroken => ?_
          obtain ⟨shown, more, hlines, hne⟩ := @lines_broken _ ('\n' :: rest) hfirst hbroken
          have hshown := hagree 0 (Nat.succ_pos count) shown (by rw [hlines]; rfl)
          rw [newlineLine?_first hfirst] at hshown
          exact hne (Option.some.inj hshown).symm
        refine ⟨hclean, fun number hlt line hline => ?_⟩
        rw [← newlineLine?_succ hfirst]
        refine hagree (number + 1) (Nat.succ_lt_succ hlt) line ?_
        rw [lines_append hclean]
        exact hline
      · rintro ⟨hclean, hagree⟩ number hlt line hline
        rw [lines_append hclean] at hline
        cases number with
        | zero =>
          cases hline
          exact newlineLine?_first hfirst rest
        | succ number =>
          rw [newlineLine?_succ hfirst]
          exact hagree number (Nat.lt_of_succ_lt_succ hlt) line hline
    · have hsplit : text.splitOn '\n' = [text] := List.splitOn_eq_singleton hmem
      have hline : newlineLine? text 0 = some (withoutReturn text) := by
        rw [newlineLine?, hsplit]
        rfl
      have hunbroken : UnbrokenLines text (count + 1) ↔
          (withoutReturn text).any isLineBreak = false := by
        rw [UnbrokenLines, hsplit, List.take_succ_cons, List.take_nil, List.forall_mem_singleton]
      rw [hunbroken]
      constructor
      · intro hagree
        refine Bool.eq_false_iff.2 fun hbroken => ?_
        obtain ⟨shown, more, hlines, hne⟩ := @lines_broken _ [] hmem hbroken
        rw [List.append_nil] at hlines
        have hshown := hagree 0 (Nat.succ_pos count) shown (by rw [hlines]; rfl)
        rw [hline] at hshown
        exact hne (Option.some.inj hshown).symm
      · intro hclean number hlt line hget
        rw [lines_last hclean] at hget
        split at hget
        · cases hget
        · cases number with
          | zero => rw [hline]; exact hget
          | succ number => cases hget

/-! ### Texts without other line breaks -/

/-- Only a newline character ends a line, alone or behind a carriage return. -/
def EndsLinesPlainly : List Char → Prop
  | [] => True
  | c :: rest =>
    (isLineBreak c = true → c = '\n' ∨ c = '\r' ∧ rest.head? = some '\n') ∧ EndsLinesPlainly rest

instance EndsLinesPlainly.decidable : (text : List Char) → Decidable (EndsLinesPlainly text)
  | [] => .isTrue trivial
  | c :: rest =>
    haveI := decidable rest
    inferInstanceAs (Decidable
      ((isLineBreak c = true → c = '\n' ∨ c = '\r' ∧ rest.head? = some '\n') ∧ EndsLinesPlainly rest))

theorem EndsLinesPlainly.suffix {before rest : List Char} (h : EndsLinesPlainly (before ++ rest)) :
    EndsLinesPlainly rest := by
  induction before with
  | nil => exact h
  | cons c before ih => exact ih h.2

/-- The first line has no line break within it. -/
theorem EndsLinesPlainly.clean {line rest : List Char} (h : EndsLinesPlainly (line ++ rest))
    (hline : '\n' ∉ line) : (withoutReturn line).any isLineBreak = false := by
  refine Bool.eq_false_iff.2 fun hany => ?_
  obtain ⟨c, hmem, hbreak⟩ := List.any_eq_true.1 hany
  obtain ⟨front, back, hsplit⟩ := List.append_of_mem hmem
  rcases withoutReturn_append line with ⟨hsame, hlast⟩ | hreturn
  · rw [hsame] at hsplit
    subst hsplit
    rw [List.append_assoc] at h
    rcases h.suffix.1 hbreak with rfl | ⟨rfl, hnext⟩
    · exact hline (by simp)
    · cases back with
      | nil => exact hlast List.getLast?_concat
      | cons d back =>
        obtain rfl : d = '\n' := Option.some.inj hnext
        exact hline (by simp)
  · rw [hsplit] at hreturn
    subst hreturn
    rw [List.append_assoc, List.append_assoc] at h
    rcases h.suffix.1 hbreak with rfl | ⟨rfl, hnext⟩
    · exact hline (by simp)
    · cases back with
      | nil => exact absurd (Option.some.inj hnext) (by decide)
      | cons d back =>
        obtain rfl : d = '\n' := Option.some.inj hnext
        exact hline (by simp)

theorem EndsLinesPlainly.clean_last {line : List Char} (h : EndsLinesPlainly line)
    (hline : '\n' ∉ line) : (withoutReturn line).any isLineBreak = false := by
  rw [← List.append_nil line] at h
  exact h.clean hline

/-- The lines that people are shown are those by newline characters, but that an empty last one is left
out. -/
theorem EndsLinesPlainly.getD_lines {text : List Char} (h : EndsLinesPlainly text) (number : Nat) :
    (lines text)[number]?.getD [] = (newlineLine? text number).getD [] := by
  induction number generalizing text with
  | zero =>
    by_cases hmem : '\n' ∈ text
    · obtain ⟨first, rest, rfl, hfirst⟩ := List.eq_append_cons_of_mem hmem
      rw [lines_append (h.clean hfirst), newlineLine?_first hfirst]
      rfl
    · rw [lines_last (h.clean_last hmem), newlineLine?, List.splitOn_eq_singleton hmem]
      split
      · next hempty =>
        subst hempty
        rfl
      · rfl
  | succ number ih =>
    by_cases hmem : '\n' ∈ text
    · obtain ⟨first, rest, rfl, hfirst⟩ := List.eq_append_cons_of_mem hmem
      rw [lines_append (h.clean hfirst), newlineLine?_succ hfirst, List.getElem?_cons_succ]
      exact ih (List.append_cons .. ▸ h).suffix
    · rw [lines_last (h.clean_last hmem), newlineLine?, List.splitOn_eq_singleton hmem]
      split <;> rfl

/-- The line that starts where the text does, or behind a newline character. -/
theorem EndsLinesPlainly.getD_lines_append {before rest : List Char}
    (h : EndsLinesPlainly (before ++ rest)) (hbefore : before = [] ∨ before.getLast? = some '\n') :
    (lines (before ++ rest))[before.count '\n']?.getD [] =
      withoutReturn (rest.takeWhile (· != '\n')) := by
  rw [h.getD_lines, newlineLine?, getElem?_splitOn hbefore]
  rfl

end SableFrontend.Text
