import SableFrontend.Text.Quoted

/-!
Quoted texts. What stands between two quotes can be read back character by character, so a quoted
text says which text was quoted, also with something behind it. It is on one line, of characters
that can be seen.
-/

namespace SableFrontend.Text

/-! ### Visible texts -/

/-- A text that can be seen on one line. -/
def isVisible (text : String) : Bool := text.toList.all isPrintable

@[simp] theorem isVisible_append (text more : String) :
    isVisible (text ++ more) = (isVisible text && isVisible more) := by
  simp [isVisible]

@[simp] theorem isVisible_ofList (text : List Char) :
    isVisible (String.ofList text) = text.all isPrintable := by
  simp [isVisible]

@[simp] theorem isVisible_singleton (c : Char) : isVisible (String.singleton c) = isPrintable c := by
  simp [isVisible]

namespace Quoted

/-! ### Hexadecimal digits -/

theorem hexDigit_inj {m n : Nat} (hm : m < 16) (hn : n < 16) (h : hexDigit m = hexDigit n) :
    m = n := by
  have hall : ∀ m < 16, ∀ n < 16, hexDigit m = hexDigit n → m = n := by decide
  exact hall m hm n hn h

theorem isPrintable_hexDigit {n : Nat} (hn : n < 16) : isPrintable (hexDigit n) = true := by
  have hall : ∀ n < 16, isPrintable (hexDigit n) = true := by decide
  exact hall n hn

theorem length_hexDigits (width n : Nat) : (hexDigits width n).length = width := by
  induction width generalizing n with
  | zero => rfl
  | succ width ih => simp [hexDigits, ih]

theorem isPrintable_of_mem_hexDigits {width n : Nat} {c : Char} (h : c ∈ hexDigits width n) :
    isPrintable c = true := by
  induction width generalizing n with
  | zero => cases h
  | succ width ih =>
    rcases List.mem_append.1 h with hfront | hlast
    · exact ih hfront
    · rw [List.mem_singleton.1 hlast]
      exact isPrintable_hexDigit (Nat.mod_lt n (by decide))

theorem hexDigits_inj {width m n : Nat} (hm : m < Nat.pow 16 width) (hn : n < Nat.pow 16 width)
    (h : hexDigits width m = hexDigits width n) : m = n := by
  induction width generalizing m n with
  | zero =>
    rw [Nat.pow_eq, Nat.pow_zero] at hm hn
    omega
  | succ width ih =>
    obtain ⟨hfront, hlast⟩ := List.append_inj' h rfl
    have hquotient : m / 16 = n / 16 := by
      rw [Nat.pow_eq, Nat.pow_succ, ← Nat.pow_eq] at hm hn
      exact ih (by omega) (by omega) hfront
    have hrest : m % 16 = n % 16 :=
      hexDigit_inj (by omega) (by omega) (List.singleton_inj.1 hlast)
    omega

/-! ### Single characters -/

/-- The characters that a text can be put between. -/
def isQuote (c : Char) : Bool := c == '\'' || c == '"'

theorem isQuote_quoteFor (text : List Char) : isQuote (quoteFor text) = true := by
  unfold quoteFor
  split <;> rfl

/-- The letters for characters that cannot stand for themselves, with these characters. -/
def letters (quote : Char) : List (Char × Char) :=
  [(quote, quote), ('\\', '\\'), ('t', '\t'), ('n', '\n'), ('r', '\r')]

/-- The letters in front of hexadecimal digits, with the number of digits. -/
def widths : List (Char × Nat) := [('x', 2), ('u', 4), ('U', 8)]

/-- No letter stands for two characters. -/
theorem letters_inj {quote name c c' : Char} (hquote : isQuote quote = true)
    (h : (name, c) ∈ letters quote) (h' : (name, c') ∈ letters quote) : c = c' := by
  have hall : ((letters quote).all fun a =>
      (letters quote).all fun b => a.1 != b.1 || a.2 == b.2) = true := by
    simp only [isQuote, Bool.or_eq_true, beq_iff_eq] at hquote
    rcases hquote with rfl | rfl <;> rfl
  simpa using List.all_eq_true.1 (List.all_eq_true.1 hall _ h) _ h'

/-- The letters can be seen, and none of them announces digits. -/
theorem letters_names {quote name c : Char} (hquote : isQuote quote = true)
    (h : (name, c) ∈ letters quote) :
    isPrintable name = true ∧ ∀ entry ∈ widths, name ≠ entry.1 := by
  have hall : ((letters quote).all fun a =>
      isPrintable a.1 && widths.all fun entry => a.1 != entry.1) = true := by
    simp only [isQuote, Bool.or_eq_true, beq_iff_eq] at hquote
    rcases hquote with rfl | rfl <;> rfl
  simpa using List.all_eq_true.1 hall _ h

theorem widths_inj {name : Char} {width width' : Nat} (h : (name, width) ∈ widths)
    (h' : (name, width') ∈ widths) : width = width' := by
  have hall : (widths.all fun a => widths.all fun b => a.1 != b.1 || a.2 == b.2) = true := by rfl
  simpa using List.all_eq_true.1 (List.all_eq_true.1 hall _ h) _ h'

/-- How a character can be written: as itself, as a letter behind a backslash, or as its code. -/
inductive Writes (quote c : Char) : List Char → Prop where
  | itself (hquote : c ≠ quote) (hbackslash : c ≠ '\\') (hprintable : isPrintable c = true) :
    Writes quote c [c]
  | letter (name : Char) (hname : (name, c) ∈ letters quote) : Writes quote c ['\\', name]
  | code (name : Char) (width : Nat) (hname : (name, width) ∈ widths)
      (hsize : c.toNat < Nat.pow 16 width) : Writes quote c ('\\' :: name :: hexDigits width c.toNat)

theorem writes_escape (quote c : Char) : Writes quote c (escape quote c) := by
  have hsize : c.toNat < Nat.pow 16 8 := Nat.lt_of_lt_of_eq c.val.toNat_lt (by decide)
  unfold escape
  split
  next hself =>
    refine .letter c ?_
    rcases Bool.or_eq_true _ _ ▸ hself with hquote | hbackslash
    · simp [letters, beq_iff_eq.1 hquote]
    · simp [letters, beq_iff_eq.1 hbackslash]
  next hself =>
    simp only [Bool.or_eq_true, beq_iff_eq, not_or] at hself
    split
    next htab => exact .letter 't' (by simp [letters, beq_iff_eq.1 htab])
    split
    next hnewline => exact .letter 'n' (by simp [letters, beq_iff_eq.1 hnewline])
    split
    next hreturn => exact .letter 'r' (by simp [letters, beq_iff_eq.1 hreturn])
    split
    next hprintable => exact .itself hself.1 hself.2 hprintable
    split
    next hshort => exact .code 'x' 2 (by simp [widths]) hshort
    split
    next hmiddle => exact .code 'u' 4 (by simp [widths]) hmiddle
    · exact .code 'U' 8 (by simp [widths]) hsize

namespace Writes

variable {quote c c' : Char} {shown shown' rest rest' : List Char}

/-- What is written for a character does not begin with the quote. -/
theorem exists_cons (hquote : isQuote quote = true) (h : Writes quote c shown) :
    ∃ d more, shown = d :: more ∧ d ≠ quote := by
  cases h with
  | itself hne _ _ => exact ⟨_, _, rfl, hne⟩
  | letter _ _ | code _ _ _ _ =>
    refine ⟨_, _, rfl, ?_⟩
    rintro rfl
    cases hquote

theorem isPrintable_of_mem (hquote : isQuote quote = true) (h : Writes quote c shown) {d : Char}
    (hmem : d ∈ shown) : isPrintable d = true := by
  cases h with
  | itself _ _ hprintable => rwa [List.mem_singleton.1 hmem]
  | letter name hname =>
    rcases List.mem_cons.1 hmem with rfl | hmem
    · rfl
    · rw [List.mem_singleton.1 hmem]
      exact (letters_names hquote hname).1
  | code name width hname _ =>
    rcases List.mem_cons.1 hmem with rfl | hmem
    · rfl
    rcases List.mem_cons.1 hmem with rfl | hdigit
    · exact List.all_eq_true.1 (show widths.all (isPrintable ·.1) = true by rfl) _ hname
    · exact isPrintable_of_mem_hexDigits hdigit

/-- What is written for a character says which character it is, also with something behind it. -/
theorem append_inj (hquote : isQuote quote = true) (h : Writes quote c shown)
    (h' : Writes quote c' shown') (heq : shown ++ rest = shown' ++ rest') :
    c = c' ∧ rest = rest' := by
  cases h with
  | itself _ hbackslash _ =>
    cases h' with
    | itself _ _ _ => exact List.cons.inj heq
    | letter _ _ | code _ _ _ _ => exact absurd (List.cons.inj heq).1 hbackslash
  | letter name hname =>
    cases h' with
    | itself _ hbackslash _ => exact absurd (List.cons.inj heq).1.symm hbackslash
    | letter name' hname' =>
      simp only [List.cons_append, List.nil_append, List.cons.injEq, true_and] at heq
      rw [← heq.1] at hname'
      exact ⟨letters_inj hquote hname hname', heq.2⟩
    | code name' width hname' _ =>
      simp only [List.cons_append, List.nil_append, List.cons.injEq, true_and] at heq
      rw [← heq.1] at hname'
      exact absurd rfl ((letters_names hquote hname).2 _ hname')
  | code name width hname hsize =>
    cases h' with
    | itself _ hbackslash _ => exact absurd (List.cons.inj heq).1.symm hbackslash
    | letter name' hname' =>
      simp only [List.cons_append, List.nil_append, List.cons.injEq, true_and] at heq
      rw [heq.1] at hname
      exact absurd rfl ((letters_names hquote hname').2 _ hname)
    | code name' width' hname' hsize' =>
      simp only [List.cons_append, List.cons.injEq, true_and] at heq
      rw [← heq.1] at hname'
      obtain rfl := widths_inj hname hname'
      obtain ⟨hdigits, hrest⟩ := List.append_inj heq.2 (by simp only [length_hexDigits])
      exact ⟨Char.toNat_inj.1 (hexDigits_inj hsize hsize' hdigits), hrest⟩

end Writes

/-! ### Texts -/

variable {quote : Char} {text text' rest rest' : List Char}

theorem isPrintable_of_mem_encodeChars {c : Char} (h : c ∈ encodeChars text) :
    isPrintable c = true := by
  have hquote : isPrintable (quoteFor text) = true := by
    unfold quoteFor
    split <;> rfl
  simp only [encodeChars, List.cons_append, List.mem_cons, List.mem_append, List.mem_flatMap,
    List.not_mem_nil, or_false] at h
  rcases h with rfl | ⟨d, -, hmem⟩ | rfl
  · exact hquote
  · exact (writes_escape _ d).isPrintable_of_mem (isQuote_quoteFor text) hmem
  · exact hquote

/-- What is written up to the closing quote says what the text was and what follows. -/
theorem flatMap_escape_append_inj (hquote : isQuote quote = true)
    (h : text.flatMap (escape quote) ++ quote :: rest =
      text'.flatMap (escape quote) ++ quote :: rest') : text = text' ∧ rest = rest' := by
  have hopen : ∀ (c : Char) (more before : List Char),
      quote :: before ≠ escape quote c ++ more := by
    intro c more before heq
    obtain ⟨d, shown, hshown, hne⟩ := (writes_escape quote c).exists_cons hquote
    rw [hshown] at heq
    exact hne (List.cons.inj heq).1.symm
  induction text generalizing text' with
  | nil =>
    cases text' with
    | nil => exact ⟨rfl, (List.cons.inj h).2⟩
    | cons c more =>
      rw [List.flatMap_cons, List.append_assoc] at h
      exact absurd h (hopen c _ _)
  | cons c more ih =>
    cases text' with
    | nil =>
      rw [List.flatMap_cons, List.append_assoc] at h
      exact absurd h.symm (hopen c _ _)
    | cons c' more' =>
      simp only [List.flatMap_cons, List.append_assoc] at h
      obtain ⟨rfl, hmore⟩ := (writes_escape quote c).append_inj hquote (writes_escape quote c') h
      obtain ⟨rfl, hrest⟩ := ih hmore
      exact ⟨rfl, hrest⟩

/-- A quoted text says which text it quotes: the first character is the quote to read up to. -/
theorem encodeChars_inj (h : encodeChars text = encodeChars text') : text = text' := by
  simp only [encodeChars, List.cons_append, List.cons.injEq] at h
  obtain ⟨hquote, hbody⟩ := h
  rw [← hquote] at hbody
  exact (flatMap_escape_append_inj (isQuote_quoteFor text) hbody).1

theorem encode_inj {text text' : String} : encode text = encode text' ↔ text = text' :=
  ⟨fun h => String.toList_injective (encodeChars_inj (String.ofList_injective h)), congrArg encode⟩

theorem isPrintable_of_mem_encode {text : String} {c : Char} (h : c ∈ (encode text).toList) :
    isPrintable c = true := by
  rw [encode, String.toList_ofList] at h
  exact isPrintable_of_mem_encodeChars h

@[simp] theorem isVisible_encode (text : String) : isVisible (encode text) = true :=
  List.all_eq_true.2 fun _ hmem => isPrintable_of_mem_encode hmem

end Quoted

end SableFrontend.Text
