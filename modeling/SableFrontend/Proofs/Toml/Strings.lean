import SableFrontend.Proofs.Result
import SableFrontend.Toml.Scalar

/-!
What strings in double quotes read as. A string holds what stands between its quotes as it is
exactly if that is plain: without quotes, backslashes and control characters
(`Toml.readString_of_plain`). What is not plain is read as something shorter, or not at all
(`Toml.length_lt_of_readString`): an escape takes more characters than it denotes, and a quote
inside ends the string early or opens one of several lines.
-/

namespace SableFrontend.Toml

variable {multiline : Bool} {fuel : Nat} {text rest left value : List Char}

/-- A character that stands for itself between two quotes. -/
def IsPlain (c : Char) : Prop := c ≠ '"' ∧ c ≠ '\\' ∧ isControl c = false

instance : DecidablePred IsPlain := fun _ => inferInstanceAs (Decidable (_ ∧ _ ∧ _))

/-- The quotes that end a string. -/
def closing (multiline : Bool) : List Char := if multiline then ['"', '"', '"'] else ['"']

/-! ### Plain texts -/

theorem readBasicFrom_of_plain (hplain : ∀ c ∈ text, IsPlain c) (hfuel : text.length < fuel) :
    readBasicFrom false fuel (text ++ '"' :: rest) = .ok (text, rest) := by
  induction text generalizing fuel with
  | nil =>
    obtain ⟨fuel, rfl⟩ := Nat.exists_eq_add_one_of_ne_zero (Nat.ne_zero_of_lt hfuel)
    rfl
  | cons c more ih =>
    obtain ⟨fuel, rfl⟩ := Nat.exists_eq_add_one_of_ne_zero (Nat.ne_zero_of_lt hfuel)
    obtain ⟨⟨hquote, hbackslash, hcontrol⟩, hmore⟩ := List.forall_mem_cons.1 hplain
    have hread := ih hmore (Nat.lt_of_succ_lt_succ hfuel)
    simp [readBasicFrom, hquote, hbackslash, hcontrol, hread, Except.map]

/-- A plain text between quotes reads as it stands. -/
theorem readString_of_plain (hplain : ∀ c ∈ text, IsPlain c) (hrest : rest.head? ≠ some '"') :
    readString '"' (text ++ '"' :: rest) = .ok (String.ofList text, rest) := by
  have hsingle : ((text ++ '"' :: rest).take 2 == ['"', '"']) = false := by
    cases text with
    | nil =>
      cases rest with
      | nil => rfl
      | cons c more => simpa using hrest
    | cons c more => simp [(hplain c (List.mem_cons_self ..)).1]
  have hread : readBasic false (text ++ '"' :: rest) = .ok (text, rest) :=
    readBasicFrom_of_plain hplain
      (Nat.lt_succ_of_le (by rw [List.length_append]; exact Nat.le_add_right ..))
  simp [readString, hsingle, hread, bind, Except.bind, pure, Except.pure]

/-! ### What a string takes -/

theorem isControl_eq_false {c : Char} (hlow : 32 ≤ c.toNat) (hhigh : c.toNat < 127) :
    isControl c = false := by
  simp only [isControl, Bool.or_eq_false_iff, Bool.and_eq_false_iff, decide_eq_false_iff_not,
    beq_eq_false_iff_ne]
  omega

theorem isControl_of_isHexDigit {c : Char} (h : Lexeme.isHexDigit c = true) :
    isControl c = false := by
  simp only [Lexeme.isHexDigit, Numeral.Radix.isDigit, Text.isAsciiDigit, Bool.or_eq_true,
    Bool.and_eq_true, decide_eq_true_eq] at h
  have hlow : '0' ≤ c := by
    rcases h with (h | h) | h
    · exact h.1
    · exact Char.le_trans (by decide) h.1
    · exact Char.le_trans (by decide) h.1
  have hhigh : c ≤ 'f' := by
    rcases h with (h | h) | h
    · exact Char.le_trans h.2 (by decide)
    · exact h.2
    · exact Char.le_trans h.2 (by decide)
  exact isControl_eq_false (Nat.le_trans (by decide) (show 48 ≤ c.toNat from hlow))
    (Nat.lt_of_le_of_lt (show c.toNat ≤ 102 from hhigh) (by decide))

theorem isControl_of_escaped? {c denoted : Char} (h : escaped? c = some denoted) :
    isControl c = false := by
  simp only [escaped?] at h
  iterate 7
    split at h
    · next hletter => rw [eq_of_beq hletter]; rfl
  cases h

theorem readCodePoint_eq_ok {count : Nat} (h : readCodePoint count text = .ok (value, left)) :
    ∃ taken, text = taken ++ left ∧ value.length ≤ 1 ∧ ∀ c ∈ taken, isControl c = false := by
  simp only [readCodePoint] at h
  split at h
  · next hdigits =>
    split at h
    · cases h
      refine ⟨text.take count, (List.take_append_drop count text).symm, Nat.le_refl 1, ?_⟩
      exact fun c hc => isControl_of_isHexDigit (List.all_eq_true.1 hdigits.2 c hc)
    · cases h
  · cases h

/-- A line end that is left out stands for nothing. -/
theorem skipLineEnd_eq_ok (h : skipLineEnd text = .ok (value, left)) :
    left <:+ text ∧ value = [] := by
  have hblanks : skipBlanks text <:+ text := List.dropWhile_suffix isBlank
  rw [skipLineEnd] at h
  split at h
  · cases h
    exact ⟨List.nil_suffix, rfl⟩
  · next rest hskip =>
    cases h
    refine ⟨?_, rfl⟩
    have hline : rest.dropWhile isBlankOrNewline <:+ '\n' :: rest :=
      (List.dropWhile_suffix isBlankOrNewline).trans (List.suffix_cons ..)
    exact hline.trans (hskip ▸ hblanks)
  · cases h

/-- What an escape takes behind its backslash. It stands for one character at most. -/
theorem readEscape_eq_ok (h : readEscape multiline text = .ok (value, left)) :
    ∃ taken, text = taken ++ left ∧ value.length ≤ 1 ∧
      (multiline = false → 0 < taken.length ∧ ∀ c ∈ taken, isControl c = false) := by
  cases text with
  | nil => cases h
  | cons c rest =>
    simp only [readEscape] at h
    split at h
    · next hline =>
      obtain ⟨⟨taken, htaken⟩, rfl⟩ := skipLineEnd_eq_ok h
      refine ⟨taken, htaken.symm, Nat.zero_le 1, fun hsingle => ?_⟩
      rw [hsingle] at hline
      cases hline
    · have hcode : ∀ count, isControl c = false → readCodePoint count rest = .ok (value, left) →
          ∃ taken, c :: rest = taken ++ left ∧ value.length ≤ 1 ∧
            (multiline = false → 0 < taken.length ∧ ∀ c ∈ taken, isControl c = false) :=
          fun count hc hread => by
        obtain ⟨taken, rfl, hlength, hcontrol⟩ := readCodePoint_eq_ok hread
        exact ⟨c :: taken, rfl, hlength, fun _ =>
          ⟨Nat.succ_pos _, List.forall_mem_cons.2 ⟨hc, hcontrol⟩⟩⟩
      split at h
      · next hletter => exact hcode 4 (by rw [eq_of_beq hletter]; rfl) h
      split at h
      · next hletter => exact hcode 8 (by rw [eq_of_beq hletter]; rfl) h
      split at h
      · next denoted hdenoted =>
        cases h
        exact ⟨[c], rfl, Nat.le_refl 1, fun _ =>
          ⟨Nat.one_pos, List.forall_mem_singleton.2 (isControl_of_escaped? hdenoted)⟩⟩
      · cases h

/-- What a string takes up to its end: at least as many characters as it holds, and its closing
quotes. On one line no control characters are taken, and what takes no more characters than it holds
is plain. -/
theorem readBasicFrom_eq_ok (h : readBasicFrom multiline fuel text = .ok (value, left)) :
    ∃ body, text = body ++ (closing multiline ++ left) ∧ value.length ≤ body.length ∧
      (multiline = false → (∀ c ∈ body, isControl c = false) ∧
        (value.length = body.length → ∀ c ∈ body, IsPlain c)) := by
  induction fuel generalizing text value with
  | zero => cases h
  | succ fuel ih =>
    cases text with
    | nil => cases h
    | cons c rest =>
      rw [readBasicFrom] at h
      split at h
      · next hquote =>
        obtain rfl := eq_of_beq hquote
        split at h
        · next hsingle =>
          cases h
          rw [Bool.not_eq_true'] at hsingle
          exact ⟨[], by rw [hsingle]; rfl, Nat.le_refl 0, fun _ => ⟨by simp, by simp⟩⟩
        next hmultiline =>
        rw [Bool.not_eq_true', Bool.not_eq_false] at hmultiline
        have hmany : ∀ p : Prop, multiline = false → p := fun p hsingle => by
          rw [hmultiline] at hsingle
          cases hsingle
        split at h
        · next hclosing =>
          cases h
          refine ⟨[], ?_, Nat.le_refl 0, hmany _⟩
          rw [hmultiline]
          show '"' :: rest = '"' :: (['"', '"'] ++ rest.drop 2)
          rw [← eq_of_beq hclosing, List.take_append_drop]
        · obtain ⟨⟨value, left⟩, hread, heq⟩ := exists_of_map_eq_ok h
          cases heq
          obtain ⟨body, rfl, hlength, -⟩ := ih hread
          exact ⟨'"' :: body, rfl, Nat.succ_le_succ hlength, hmany _⟩
      next hquote =>
      split at h
      · next hbackslash =>
        obtain rfl := eq_of_beq hbackslash
        obtain ⟨⟨denoted, after⟩, hescape, h⟩ := exists_of_bind_eq_ok h
        obtain ⟨⟨more, left⟩, hread, heq⟩ := exists_of_map_eq_ok h
        obtain ⟨rfl, rfl⟩ := Prod.mk.inj heq
        dsimp only
        obtain ⟨taken, rfl, hone, htaken⟩ := readEscape_eq_ok hescape
        obtain ⟨body, rfl, hlength, hbody⟩ := ih hread
        refine ⟨'\\' :: taken ++ body, by simp, ?_, fun hsingle => ⟨?_, fun heq => ?_⟩⟩
        · rw [List.length_append, List.length_append, List.length_cons]
          omega
        · refine List.forall_mem_append.2 ⟨List.forall_mem_cons.2 ⟨rfl, ?_⟩, (hbody hsingle).1⟩
          exact (htaken hsingle).2
        · -- the escape has taken more than it stands for
          have hpos := (htaken hsingle).1
          rw [List.length_append, List.length_append, List.length_cons] at heq
          omega
      next hbackslash =>
      by_cases hcontrol : (if multiline then isControlInLines c else isControl c) = true
      · rw [if_pos hcontrol] at h
        cases h
      rw [if_neg hcontrol] at h
      obtain ⟨⟨more, left⟩, hread, heq⟩ := exists_of_map_eq_ok h
      cases heq
      obtain ⟨body, rfl, hlength, hbody⟩ := ih hread
      refine ⟨c :: body, rfl, Nat.succ_le_succ hlength, fun hsingle => ?_⟩
      rw [hsingle, if_neg Bool.false_ne_true, Bool.not_eq_true] at hcontrol
      refine ⟨List.forall_mem_cons.2 ⟨hcontrol, (hbody hsingle).1⟩, fun hsame => ?_⟩
      refine List.forall_mem_cons.2 ⟨⟨?_, ?_, hcontrol⟩, (hbody hsingle).2 (Nat.succ.inj hsame)⟩
      · simpa using hquote
      · simpa using hbackslash

/-- What a string of several lines takes up to three quotes that end it. Two more quotes may belong
to it. -/
theorem readMultiline_eq_ok (h : readMultiline '"' text = .ok (value, left)) :
    ∃ body after, text = body ++ (closing true ++ after) ∧ value.length ≤ body.length + 2 := by
  obtain ⟨skipped, inner, rfl, hinner⟩ : ∃ skipped inner, text = skipped ++ inner ∧
      (readBasic true inner).map (fun read => closingQuotes '"' read.1 read.2) =
        .ok (value, left) := by
    by_cases hline : (text.head? == some '\n') = true
    · refine ⟨text.take 1, text.drop 1, (List.take_append_drop 1 text).symm, ?_⟩
      rw [readMultiline, if_pos hline] at h
      exact h
    · refine ⟨[], text, rfl, ?_⟩
      rw [readMultiline, if_neg hline] at h
      exact h
  obtain ⟨⟨content, after⟩, hread, hclosing⟩ := exists_of_map_eq_ok hinner
  obtain ⟨body, rfl, hlength, -⟩ := readBasicFrom_eq_ok hread
  refine ⟨skipped ++ body, after, (List.append_assoc ..).symm, ?_⟩
  obtain ⟨rfl, -⟩ := Prod.mk.inj hclosing
  dsimp only
  have hextra : ((after.take 2).takeWhile (· == '"')).length ≤ 2 :=
    Nat.le_trans (List.takeWhile_prefix _).length_le (List.length_take_le ..)
  rw [List.length_append, List.length_append, List.length_replicate]
  omega

/-! ### A text between quotes -/

variable {line tail body : List Char}

/-- What begins with a line break, and ends no string of several lines. -/
def Barren (tail : List Char) : Prop := tail.head? = some '\n' ∧ ¬['"', '"', '"'] <:+: tail

instance : DecidablePred Barren := fun _ => inferInstanceAs (Decidable (_ ∧ ¬_))

theorem Barren.newline_mem (hbarren : Barren (text ++ left)) (hne : text ≠ []) : '\n' ∈ text := by
  obtain ⟨c, more, rfl⟩ := List.exists_cons_of_ne_nil hne
  cases hbarren.1
  exact List.mem_cons_self ..

/-- What holds no line break ends on the line that it begins on. -/
theorem length_le_of_append_eq (hbarren : Barren tail) (hbody : '\n' ∉ body)
    (h : line ++ tail = body ++ left) : body.length ≤ line.length := by
  rcases List.append_eq_append_iff.1 h with ⟨more, rfl, rfl⟩ | ⟨more, rfl, rfl⟩
  · by_cases hmore : more = []
    · simp [hmore]
    · exact absurd (List.mem_append_right line (hbarren.newline_mem hmore)) hbody
  · simp

/-- A string of several lines that begins in front of lines that cannot end it ends before them. -/
theorem length_add_le_of_append_eq (hbarren : Barren tail)
    (h : line ++ tail = body ++ (closing true ++ left)) : body.length + 3 ≤ line.length := by
  rw [← List.append_assoc] at h
  rcases List.append_eq_append_iff.1 h with ⟨more, hline, rfl⟩ | ⟨more, rfl, rfl⟩
  · rcases List.append_eq_append_iff.1 hline with ⟨quotes, rfl, hquotes⟩ | ⟨before, rfl, rfl⟩
    · by_cases hmore : more = []
      · rw [hmore, List.append_nil] at hquotes
        rw [← hquotes, List.length_append]
        exact Nat.le_refl _
      · have hmem : '\n' ∈ closing true := hquotes ▸ List.mem_append_right _ (hbarren.newline_mem hmore)
        exact absurd hmem (by decide)
    · refine absurd ?_ hbarren.2
      exact ⟨before, left, rfl⟩
  · simp [closing]

/-- What reads as a string of one line, behind its opening quote. -/
theorem readString_of_take_eq (htwo : text.take 2 = ['"', '"']) :
    readString '"' text =
      (readMultiline '"' (text.drop 2)).map fun read => (String.ofList read.1, read.2) := by
  rw [readString, if_pos (by rw [htwo]; rfl)]
  rfl

theorem readString_of_take_ne (htwo : text.take 2 ≠ ['"', '"']) :
    readString '"' text =
      (readBasic false text).map fun read => (String.ofList read.1, read.2) := by
  rw [readString, if_neg (by simpa using htwo)]
  rfl

/-- What is not plain reads as something shorter between quotes, if the string that it opens has to
end on its line. -/
theorem length_lt_of_readString {value : String} (hbarren : Barren tail)
    (hplain : ¬∀ c ∈ text, IsPlain c)
    (h : readString '"' (text ++ '"' :: tail) = .ok (value, left)) :
    value.toList.length < text.length := by
  rw [List.append_cons] at h
  by_cases htwo : ((text ++ ['"']) ++ tail).take 2 = ['"', '"']
  · rw [readString_of_take_eq htwo] at h
    obtain ⟨⟨content, after⟩, hread, heq⟩ := exists_of_map_eq_ok h
    obtain ⟨rfl, rfl⟩ := Prod.mk.inj heq
    obtain ⟨body, after, hbody, hlength⟩ := readMultiline_eq_ok hread
    have hline : (text ++ ['"']) ++ tail = (['"', '"'] ++ body) ++ (closing true ++ after) := by
      rw [List.append_assoc ['"', '"'], ← hbody, ← htwo, List.take_append_drop]
    have hle := length_add_le_of_append_eq hbarren hline
    rw [String.toList_ofList]
    simp only [List.length_append, List.length_cons, List.length_nil] at hle ⊢
    omega
  · rw [readString_of_take_ne htwo] at h
    obtain ⟨⟨content, after⟩, hread, heq⟩ := exists_of_map_eq_ok h
    obtain ⟨rfl, rfl⟩ := Prod.mk.inj heq
    obtain ⟨body, hbody, hlength, hsingle⟩ := readBasicFrom_eq_ok hread
    obtain ⟨hcontrol, hsame⟩ := hsingle rfl
    have hnewline : '\n' ∉ body ++ ['"'] := by
      intro hmem
      rcases List.mem_append.1 hmem with hmem | hmem
      · exact absurd (hcontrol _ hmem) (by decide)
      · exact absurd hmem (by decide)
    have hle : (body ++ ['"']).length ≤ (text ++ ['"']).length :=
      length_le_of_append_eq hbarren hnewline (hbody.trans (List.append_cons ..))
    rw [List.length_append, List.length_append, Nat.add_le_add_iff_right] at hle
    rw [String.toList_ofList]
    dsimp only
    refine Nat.lt_of_not_le fun hge => hplain ?_
    -- the string takes all of the text then, and no more than it holds
    have heq : text = body :=
      List.append_inj_left ((List.append_assoc ..).symm.trans hbody) (by omega)
    exact heq ▸ hsame (by omega)

end SableFrontend.Toml
