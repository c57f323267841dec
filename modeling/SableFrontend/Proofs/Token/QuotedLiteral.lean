import SableFrontend.Proofs.Token.IntegerLiteral
import SableFrontend.Proofs.Token.LineBreaks

/-!
Quoted literals and the characters that they denote. A character between quotes is written as itself, by its
one-letter escape, or by its code point in up to six hexadecimal digits; a string literal is a row of such
spellings (`Lexeme.SpellsText`), and a character literal is one. Each such text is one token that denotes
the characters, and a token that is a quoted literal stands where such a text is
(`quotedLiteral_denotes`).
-/

namespace SableFrontend

namespace Lexeme

/-! ### Spellings -/

/-- The letters that stand for a character behind a backslash, each with the character. -/
def letterEscapes : List (Char × Char) :=
  [('n', '\n'), ('t', '\t'), ('r', '\r'), ('0', '\x00'), ('\\', '\\'), ('"', '"'), ('\'', '\'')]

/-- What stands behind a backslash that denotes a character: its letter, or its code point in one to six
digits of either case, zeros in front included. -/
inductive Escapes : Char → List Char → Prop
  | letter {letter c : Char} (hletter : (letter, c) ∈ letterEscapes) : Escapes c [letter]
  | codePoint {c : Char} {zeros : Nat} {digits : List Char}
      (hdigits : List.Forall₂ (Numeral.WritesDigit 16)
        (List.replicate zeros 0 ++ (Nat.digits 16 c.toNat).reverse) digits)
      (hpos : 1 ≤ digits.length) (hle : digits.length ≤ 6) :
      Escapes c ('u' :: '\x7b' :: (digits ++ ['\x7d']))

/-- How a character is spelled between two quotes. -/
inductive SpellsChar (quote : Char) : Char → List Char → Prop
  | itself {c : Char} (hquote : c ≠ quote) (hslash : c ≠ '\\') (hbreak : c ≠ '\n') :
      SpellsChar quote c [c]
  | escape {c : Char} {shown : List Char} (h : Escapes c shown) : SpellsChar quote c ('\\' :: shown)

/-- Spellings of characters, one behind the other. -/
inductive SpellsText (quote : Char) : List Char → List Char → Prop
  | nil : SpellsText quote [] []
  | cons {c : Char} {rest shown more : List Char} (hfirst : SpellsChar quote c shown)
      (hrest : SpellsText quote rest more) : SpellsText quote (c :: rest) (shown ++ more)

/-! ### Escapes -/

theorem mem_letterEscapes_iff {letter c : Char} :
    (letter, c) ∈ letterEscapes ↔ simpleEscape? letter = some c := by
  unfold simpleEscape? letterEscapes
  simp only [List.mem_cons, List.not_mem_nil, or_false, Prod.mk.injEq]
  grind

theorem isScalar_toNat (c : Char) : isScalar c.toNat = true := by
  have hvalid : c.toNat.isValidChar := c.valid
  simp only [Nat.isValidChar] at hvalid
  simp only [isScalar, Bool.and_eq_true, Bool.not_eq_true', decide_eq_true_eq, Bool.and_eq_false_iff,
    decide_eq_false_iff_not]
  omega

theorem toNat_ofNat_of_isScalar {code : Nat} (h : isScalar code = true) :
    (Char.ofNat code).toNat = code := by
  simp only [isScalar, Bool.and_eq_true, Bool.not_eq_true', decide_eq_true_eq, Bool.and_eq_false_iff,
    decide_eq_false_iff_not] at h
  have hvalid : code.isValidChar := by
    unfold Nat.isValidChar
    omega
  rw [Char.ofNat, dif_pos hvalid]
  rfl

section

variable {values : List Nat} {digits : List Char}

/-- Digits that are written are read with their values. -/
theorem digits_of_forall₂ (h : List.Forall₂ (Numeral.WritesDigit 16) values digits) :
    (∀ c ∈ digits, isHexDigit c = true) ∧ digits.map Numeral.digitValue = values := by
  induction h with
  | nil => exact ⟨nofun, rfl⟩
  | cons hdigit _ ih =>
    replace hdigit : Numeral.WritesDigit (Numeral.baseOf (some .hexadecimal)) _ _ := hdigit
    obtain ⟨hread, hvalue, -⟩ := hdigit.reads
    exact ⟨List.forall_mem_cons.2 ⟨hread, ih.1⟩, List.cons_eq_cons.2 ⟨hvalue, ih.2⟩⟩

/-- A digit that is read writes its value. -/
theorem writesDigit_of_isHexDigit {c : Char} (h : isHexDigit c = true) :
    Numeral.WritesDigit 16 (Numeral.digitValue c) c :=
  Numeral.writesDigit_of_isDigitOf (show Numeral.isDigitOf (some .hexadecimal) c = true from h)

theorem forall₂_of_digits (h : ∀ c ∈ digits, isHexDigit c = true) :
    List.Forall₂ (Numeral.WritesDigit 16) (digits.map Numeral.digitValue) digits := by
  induction digits with
  | nil => exact .nil
  | cons c digits ih =>
    obtain ⟨hc, hrest⟩ := List.forall_mem_cons.1 h
    exact .cons (writesDigit_of_isHexDigit hc) (ih hrest)

/-- Digits write exactly one number, behind some zeros. -/
theorem exists_zeros_of_digits (h : ∀ c ∈ digits, isHexDigit c = true) :
    ∃ zeros, digits.map Numeral.digitValue =
      List.replicate zeros 0 ++ (Nat.digits 16 (Numeral.ofDigits 16 digits)).reverse := by
  have hvalues : ∀ value ∈ digits.map Numeral.digitValue, value < 16 := by
    intro value hmem
    obtain ⟨c, hc, rfl⟩ := List.mem_map.1 hmem
    exact (writesDigit_of_isHexDigit (h c hc)).lt
  obtain ⟨zeros, number, heq⟩ := Numeral.exists_zeros (by decide : 1 < 16) hvalues
  refine ⟨zeros, ?_⟩
  rw [Numeral.ofDigits_eq, heq, Numeral.ofDigits_zeros]

end

theorem scanEscape_of_escapes {c : Char} {shown : List Char} (h : Escapes c shown) (before : Nat)
    (more : List Char) : scanEscape before (shown ++ more) = .ok (c, shown.length) := by
  cases h with
  | @letter letter _ hletter =>
    have hbreak : (letter == '\n') = false := by
      refine beq_eq_false_iff_ne.2 ?_
      rintro rfl
      rw [mem_letterEscapes_iff] at hletter
      cases hletter
    rw [List.singleton_append, scanEscape, hbreak, mem_letterEscapes_iff.1 hletter]
    rfl
  | @codePoint _ zeros digits hdigits hpos hle =>
    obtain ⟨hall, hvalues⟩ := digits_of_forall₂ hdigits
    have htake : (digits ++ '\x7d' :: more).takeWhile isHexDigit = digits := by
      rw [List.takeWhile_append_of_pos hall, List.takeWhile_cons_of_neg (by decide), List.append_nil]
    have hcode : Numeral.ofDigits 16 digits = c.toNat := by
      rw [Numeral.ofDigits_eq, hvalues, Numeral.ofDigits_zeros]
    have hpoint : scanCodePoint before (digits ++ '\x7d' :: more) = .ok (c, digits.length + 1) := by
      unfold scanCodePoint
      dsimp only
      rw [htake, List.drop_left, if_neg, hcode, if_pos (isScalar_toNat c), Char.ofNat_toNat]
      simpa using ⟨List.length_pos_iff.1 hpos, hle⟩
    simp only [List.cons_append, List.append_assoc, List.nil_append]
    rw [scanEscape]
    simp [show simpleEscape? 'u' = none from rfl, hpoint, Except.map]

theorem escapes_of_scanCodePoint {before : Nat} {text : List Char} {c : Char} {length : Nat}
    (h : scanCodePoint before text = .ok (c, length)) :
    ∃ digits left, text = digits ++ '\x7d' :: left ∧ length = digits.length + 1 ∧
      Escapes c ('u' :: '\x7b' :: (digits ++ ['\x7d'])) := by
  have hsplit : text = text.takeWhile isHexDigit ++ text.drop (text.takeWhile isHexDigit).length :=
    (List.prefix_iff_eq_append.1 (List.takeWhile_prefix isHexDigit)).symm
  have hall : ∀ c ∈ text.takeWhile isHexDigit, isHexDigit c = true :=
    List.all_eq_true.1 List.all_takeWhile
  unfold scanCodePoint at h
  dsimp only at h
  split at h
  · cases h
  · next hshape =>
    split at h
    · next hscalar =>
      cases h
      simp only [Bool.or_eq_true, bne_iff_ne, ne_eq, decide_eq_true_eq, not_or, Decidable.not_not,
        Nat.not_lt] at hshape
      obtain ⟨⟨hbrace, hpos⟩, hle⟩ := hshape
      obtain ⟨left, hleft⟩ := List.head?_eq_some_iff.1 hbrace
      rw [hleft] at hsplit
      obtain ⟨zeros, hzeros⟩ := exists_zeros_of_digits hall
      refine ⟨_, left, hsplit, rfl, @Escapes.codePoint _ zeros _ ?_ hpos hle⟩
      rw [toNat_ofNat_of_isScalar hscalar, ← hzeros]
      exact forall₂_of_digits hall
    · cases h

/-- An escape that is read stands for the character that it denotes. -/
theorem escapes_of_scanEscape {before : Nat} {text : List Char} {c : Char} {length : Nat}
    (h : scanEscape before text = .ok (c, length)) :
    ∃ shown left, text = shown ++ left ∧ shown.length = length ∧ Escapes c shown := by
  unfold scanEscape at h
  split at h
  · cases h
  · next letter more =>
    split at h
    · cases h
    · split at h
      · next hletter =>
        cases h
        exact ⟨[letter], more, rfl, rfl, .letter (mem_letterEscapes_iff.2 hletter)⟩
      · split at h
        · next hopens =>
          simp only [Bool.and_eq_true, beq_iff_eq] at hopens
          obtain ⟨rfl, hbrace⟩ := hopens
          obtain ⟨rest, rfl⟩ := List.head?_eq_some_iff.1 hbrace
          cases hpoint : scanCodePoint before rest with
          | error fault =>
            rw [List.drop_one, List.tail_cons, hpoint] at h
            cases h
          | ok found =>
            rw [List.drop_one, List.tail_cons, hpoint] at h
            cases h
            obtain ⟨digits, left, rfl, hlength, hescapes⟩ := escapes_of_scanCodePoint hpoint
            exact ⟨_, left, by simp, by simp [hlength], hescapes⟩
        · cases h

/-! ### Strings -/

theorem scanTextFrom_of_spells {chars shown : List Char} (h : SpellsText '"' chars shown) (read : Nat)
    (more : List Char) :
    scanTextFrom read (shown ++ '"' :: more) = .ok (chars, read + shown.length + 1) := by
  induction h generalizing read with
  | nil =>
    rw [List.nil_append, scanTextFrom]
    rfl
  | @cons c rest shown after hfirst _ ih =>
    cases hfirst with
    | itself hquote hslash hbreak =>
      rw [List.append_assoc, List.singleton_append, scanTextFrom, if_neg (by simpa using hbreak),
        if_neg (by simpa using hquote), if_neg (by simpa using hslash), ih]
      show Except.ok _ = Except.ok _
      rw [List.length_append, List.length_singleton, Nat.add_assoc read]
    | @escape shown hescapes =>
      rw [List.append_assoc, List.cons_append, scanTextFrom, if_neg (by decide), if_neg (by decide),
        if_pos (by decide), scanEscape_of_escapes hescapes]
      show (scanTextFrom (read + 1 + shown.length) (List.drop shown.length _) >>= _) = _
      rw [List.drop_left, ih]
      show Except.ok _ = Except.ok _
      rw [List.length_append, List.length_cons]
      simp only [Except.ok.injEq, Prod.mk.injEq, true_and]
      omega

/-- A string that is read is a row of spellings up to its closing quote. -/
theorem spells_of_scanTextFrom {read : Nat} {text chars : List Char} {whole : Nat}
    (h : scanTextFrom read text = .ok (chars, whole)) :
    ∃ shown left, text = shown ++ '"' :: left ∧ whole = read + shown.length + 1 ∧
      SpellsText '"' chars shown := by
  fun_induction scanTextFrom read text generalizing chars whole with
  | case1 => cases h
  | case2 => cases h
  | case3 read c more hbreak hquote =>
    cases h
    obtain rfl : c = '"' := beq_iff_eq.1 hquote
    exact ⟨[], more, rfl, rfl, .nil⟩
  | case4 read c more hbreak hquote hescape ih =>
    obtain rfl : c = '\\' := beq_iff_eq.1 hescape
    obtain ⟨⟨denoted, length⟩, hdenoted, h⟩ := exists_of_bind_eq_ok h
    obtain ⟨⟨inner, _⟩, hinner, h⟩ := exists_of_bind_eq_ok h
    cases h
    obtain ⟨escape, after, rfl, rfl, hescapes⟩ := escapes_of_scanEscape hdenoted
    have hrest := ih _ hinner
    rw [List.drop_left] at hrest
    obtain ⟨shown, left, rfl, rfl, hspells⟩ := hrest
    refine ⟨'\\' :: escape ++ shown, left, by simp, ?_, .cons (.escape hescapes) hspells⟩
    rw [List.length_append, List.length_cons]
    omega
  | case5 read c more hbreak hquote hescape ih =>
    obtain ⟨⟨inner, _⟩, hinner, h⟩ := exists_of_bind_eq_ok h
    cases h
    obtain ⟨shown, left, rfl, rfl, hspells⟩ := ih hinner
    refine ⟨[c] ++ shown, left, by simp, ?_, .cons (.itself ?_ ?_ ?_) hspells⟩
    · rw [List.length_append, List.length_singleton]
      omega
    · simpa using hquote
    · simpa using hescape
    · simpa using hbreak

theorem scan_text {chars shown : List Char} (h : SpellsText '"' chars shown) (more : List Char) :
    scan '"' (shown ++ '"' :: more) = .ok {
      lexeme := .token (.literal .text) (String.ofList chars), extra := shown.length + 1 } := by
  show scanText (shown ++ '"' :: more) = _
  rw [scanText, scanTextFrom_of_spells h]
  show Except.ok _ = Except.ok _
  rw [Nat.add_assoc, Nat.add_sub_cancel_left]

/-! ### Characters -/

theorem scan_character {c : Char} {shown : List Char} (h : SpellsChar '\'' c shown) (more : List Char) :
    scan '\'' (shown ++ '\'' :: more) = .ok {
      lexeme := .token (.literal .character) (String.singleton c), extra := shown.length + 1 } := by
  show scanCharacter (shown ++ '\'' :: more) = _
  cases h with
  | itself hquote hslash hbreak =>
    rw [List.singleton_append, scanCharacter, if_neg (by simpa using hbreak),
      if_neg (by simpa using hquote), if_neg (by simpa using hslash)]
    rfl
  | @escape shown hescapes =>
    rw [List.cons_append, scanCharacter, if_neg (by decide), if_neg (by decide), if_pos (by decide),
      scanEscape_of_escapes hescapes]
    show closeCharacter c (shown.length + 2) (List.drop shown.length _) = _
    rw [List.drop_left]
    rfl

theorem spells_of_scanCharacter {text : List Char} {scanned : ScannedLexeme}
    (h : scanCharacter text = .ok scanned) :
    ∃ c shown left, scanned.lexeme = .token (.literal .character) (String.singleton c) ∧
      text = shown ++ '\'' :: left ∧ scanned.extra = shown.length + 1 ∧ SpellsChar '\'' c shown := by
  have hclose : ∀ {c : Char} {read : Nat} {text : List Char},
      closeCharacter c read text = .ok scanned →
        scanned.lexeme = .token (.literal .character) (String.singleton c) ∧ scanned.extra = read ∧
          ∃ left, text = '\'' :: left := by
    intro c read text h
    unfold closeCharacter at h
    split at h
    · next hquote =>
      cases h
      exact ⟨rfl, rfl, List.head?_eq_some_iff.1 (beq_iff_eq.1 hquote)⟩
    · cases h
  unfold scanCharacter at h
  split at h
  · cases h
  · next c more =>
    split at h
    · cases h
    · next hbreak =>
      split at h
      · cases h
      · next hquote =>
        split at h
        · next hescape =>
          obtain rfl : c = '\\' := beq_iff_eq.1 hescape
          obtain ⟨⟨denoted, length⟩, hdenoted, h⟩ := exists_of_bind_eq_ok h
          obtain ⟨shown, after, rfl, rfl, hescapes⟩ := escapes_of_scanEscape hdenoted
          dsimp only at h
          rw [List.drop_left] at h
          obtain ⟨hlexeme, hextra, left, rfl⟩ := hclose h
          exact ⟨denoted, '\\' :: shown, left, hlexeme, by simp, by simp [hextra], .escape hescapes⟩
        · next hescape =>
          obtain ⟨hlexeme, hextra, left, rfl⟩ := hclose h
          refine ⟨c, [c], left, hlexeme, rfl, by simp [hextra], .itself ?_ ?_ ?_⟩
          · simpa using hquote
          · simpa using hescape
          · simpa using hbreak

/-! ### Quoted lexemes -/

/-- The text stands between quotes and spells what a quoted literal with this value denotes. -/
inductive Quotes : LiteralKind → String → List Char → Prop
  | text {value : String} {shown : List Char} (h : SpellsText '"' value.toList shown) :
      Quotes .text value ('"' :: (shown ++ ['"']))
  | character {c : Char} {shown : List Char} (h : SpellsChar '\'' c shown) :
      Quotes .character (String.singleton c) ('\'' :: (shown ++ ['\'']))

theorem scan_of_quotes {kind : LiteralKind} {value : String} {text : List Char}
    (h : Quotes kind value text) : ∃ first rest, text = first :: rest ∧
      scan first rest = .ok { lexeme := .token (.literal kind) value, extra := rest.length } := by
  cases h with
  | @text _ shown h =>
    refine ⟨_, _, rfl, ?_⟩
    rw [scan_text h [], String.ofList_toList, List.length_append, List.length_singleton]
  | @character c shown h =>
    refine ⟨_, _, rfl, ?_⟩
    rw [scan_character h [], List.length_append, List.length_singleton]

theorem ne_literal {kind : TokenKind} (hkind : kind.isLiteral = false) {value value' : String}
    {extra extra' : Nat} {literal : LiteralKind} :
    (Except.ok { lexeme := .token kind value, extra := extra } : Except LexemeFault ScannedLexeme) ≠
      .ok { lexeme := .token (.literal literal) value', extra := extra' } := by
  rintro ⟨⟩
  cases hkind

/-- What is read as a quoted literal is one, and nothing more. -/
theorem quotes_of_scan {first : Char} {rest : List Char} {kind : LiteralKind} {value : String} {extra : Nat}
    (h : scan first rest = .ok { lexeme := .token (.literal kind) value, extra := extra })
    (hquoted : (TokenKind.literal kind).isQuoted = true) :
    Quotes kind value (first :: rest.take extra) := by
  unfold scan at h
  split at h
  · cases h
  · split at h
    · cases h
    · split at h
      · unfold scanComment at h
        repeat' split at h
        all_goals cases h
      · split at h
        · next hquote =>
          obtain rfl : first = '"' := beq_iff_eq.1 hquote
          obtain ⟨⟨chars, whole⟩, hread, h⟩ := exists_of_bind_eq_ok h
          cases h
          obtain ⟨shown, left, rfl, rfl, hspells⟩ := spells_of_scanTextFrom hread
          have htake : (shown ++ '"' :: left).take (1 + shown.length + 1 - 1) = shown ++ ['"'] := by
            rw [Nat.add_sub_cancel, Nat.add_comm, List.take_length_add_append]
            rfl
          rw [htake]
          exact .text (by rwa [String.toList_ofList])
        · split at h
          · next hquote =>
            obtain rfl : first = '\'' := beq_iff_eq.1 hquote
            obtain ⟨c, shown, left, hlexeme, rfl, hextra, hspells⟩ := spells_of_scanCharacter h
            cases hlexeme
            replace hextra : extra = shown.length + 1 := hextra
            rw [hextra, List.take_length_add_append]
            exact .character hspells
          · split at h
            · next hdigit =>
              obtain ⟨shape, hread, h⟩ := exists_of_bind_eq_ok h
              cases h
              obtain ⟨_, _, -, -, hspells⟩ := Numeral.read_spells (by simpa using hdigit) hread
              rw [hspells.isQuoted_eq_false] at hquoted
              cases hquoted
            · split at h
              · exact absurd h (ne_literal (isPlain_wordKind _).2)
              · split at h
                · exact absurd h (ne_literal (isPlain_operatorKind _).2)
                · unfold scanMark at h
                  split at h
                  · cases h
                  · cases h
                  · next hmark => exact absurd h (ne_literal (punctuation?_eq_some hmark).2)
                  · cases h

end Lexeme

/-! ### Quoted literals as tokens -/

/-- A token that is a quoted literal stands where a text quotes its value. -/
def Token.Quotes (text : List Char) (token : Token) : Prop :=
  ∀ kind, token.kind = .literal kind → token.kind.isQuoted = true →
    Lexeme.Quotes kind token.value (token.span.slice text)

namespace LexState

variable {file : String} {text left : List Char} {state next last : LexState}

theorem step_quotes {first : Char} {rest : List Char} {extra : Nat}
    (hstep : state.step file first rest = .ok (next, extra)) (hreads : Reads text state (first :: rest))
    (h : ∀ token ∈ state.tokens, token.Quotes text) : ∀ token ∈ next.tokens, token.Quotes text := by
  obtain ⟨lexeme, recorded, hscan, hrecords, rfl⟩ := step_eq_ok hstep
  have hsplit : text.drop state.position.offset =
      (first :: rest.take extra) ++ rest.drop extra := by
    rw [← hreads.left_eq, List.cons_append, List.take_append_drop]
  have hslice : (state.spanOf file lexeme (first :: rest.take extra)).slice text = _ :=
    slice_spanOf state lexeme hsplit
  intro token hmem
  cases hrecords with
  | skipped => exact h token hmem
  | token kind value hlexeme =>
    subst hlexeme
    rcases Array.mem_push.1 hmem with hold | rfl
    · exact h token hold
    · rintro literal rfl hquoted
      rw [hslice]
      exact Lexeme.quotes_of_scan hscan hquoted
  | newline | opener | closer =>
    rcases Array.mem_push.1 hmem with hold | rfl
    · exact h token hold
    · exact fun literal hkind => TokenKind.noConfusion hkind

theorem Turns.quotes {count : Nat} (h : Turns file count initial text last left) :
    ∀ token ∈ last.tokens, token.Quotes text := by
  have hboth : Reads text last left ∧ ∀ token ∈ last.tokens, token.Quotes text :=
    h.invariant (motive := fun state left =>
        Reads text state left ∧ ∀ token ∈ state.tokens, token.Quotes text)
      (fun _ _ _ _ _ hstep ⟨hreads, hquotes⟩ =>
        ⟨step_reads hstep hreads, step_quotes hstep hreads hquotes⟩)
      ⟨⟨rfl, fun token hmem => absurd hmem (Array.not_mem_empty token)⟩,
        fun token hmem => absurd hmem (Array.not_mem_empty token)⟩
  exact hboth.2

end LexState

theorem LexRun.quotes_of_mem {text file : String} {token : Token}
    (hmem : token ∈ (LexRun.ofText text file).tokens) : token.Quotes text.toList := by
  obtain ⟨count, last, left, hturns, hends⟩ := LexRun.ofText_ends text file
  generalize LexRun.ofText text file = run at hmem hends
  cases hends with
  | settled =>
    rcases Array.mem_push.1 hmem with hold | rfl
    · exact hturns.quotes token hold
    · exact fun literal hkind => TokenKind.noConfusion hkind
  | unclosed | fault => exact hturns.quotes token hmem

theorem Token.ofText_of_quotes (file : String) {kind : LiteralKind} {value : String} {text : List Char}
    (h : Lexeme.Quotes kind value text) :
    ∃ span stop, Token.ofText (String.ofList text) file =
      .ok #[{ kind := .literal kind, value := value, span := span }, .endAt file stop] := by
  obtain ⟨first, rest, rfl, hscan⟩ := Lexeme.scan_of_quotes h
  exact Token.ofText_of_scan file hscan

/-- Between double quotes, spellings of characters are one string literal whose value is the characters,
and between single quotes the spelling of one character is one character literal with it. Every token that
is a quoted literal, up to the end of the text or to the first fault, stands where such a text is. -/
theorem quotedLiteral_denotes (file : String) :
    (∀ chars shown, Lexeme.SpellsText '"' chars shown →
      ∃ span stop, Token.ofText (String.ofList ('"' :: (shown ++ ['"']))) file =
        .ok #[{ kind := .literal .text, value := String.ofList chars, span := span },
          .endAt file stop]) ∧
    (∀ c shown, Lexeme.SpellsChar '\'' c shown →
      ∃ span stop, Token.ofText (String.ofList ('\'' :: (shown ++ ['\'']))) file =
        .ok #[{ kind := .literal .character, value := String.singleton c, span := span },
          .endAt file stop]) ∧
    ∀ text, ∀ token ∈ (LexRun.ofText text file).tokens,
      (token.kind = .literal .text → ∃ shown, Lexeme.SpellsText '"' token.value.toList shown ∧
        token.span.slice text.toList = '"' :: (shown ++ ['"'])) ∧
      (token.kind = .literal .character → ∃ c shown, token.value = String.singleton c ∧
        Lexeme.SpellsChar '\'' c shown ∧
        token.span.slice text.toList = '\'' :: (shown ++ ['\''])) := by
  refine ⟨fun chars shown h => ?_, fun c shown h => Token.ofText_of_quotes file (.character h),
    fun text token hmem => ⟨fun hkind => ?_, fun hkind => ?_⟩⟩
  · refine Token.ofText_of_quotes file (.text ?_)
    rwa [String.toList_ofList]
  · have hquotes := LexRun.quotes_of_mem hmem .text hkind (by rw [hkind]; rfl)
    generalize token.span.slice text.toList = slice at hquotes
    cases hquotes with
    | text h => exact ⟨_, h, rfl⟩
  · have hquotes := LexRun.quotes_of_mem hmem .character hkind (by rw [hkind]; rfl)
    generalize token.value = value at hquotes
    generalize token.span.slice text.toList = slice at hquotes
    cases hquotes with
    | character h => exact ⟨_, _, rfl, h, rfl⟩

/-- A letter by itself and a quote by its code point, a line break by its letter, and a literal in front of
a fault. -/
theorem exists_quotedLiteral_denotes :
    (∃ span stop, Token.ofText (String.ofList "\"a\\u\x7b0022\x7d\"".toList) "f" =
        .ok #[{ kind := .literal .text, value := String.ofList ['a', '"'], span := span },
          .endAt "f" stop]) ∧
      (∃ span stop, Token.ofText (String.ofList "'\\n'".toList) "f" =
        .ok #[{ kind := .literal .character, value := String.singleton '\n', span := span },
          .endAt "f" stop]) ∧
      ∃ token ∈ (LexRun.ofText "\"\\'\" '" "f").tokens, token.kind = .literal .text ∧
        ∃ shown, Lexeme.SpellsText '"' token.value.toList shown ∧
          token.span.slice "\"\\'\" '".toList = '"' :: (shown ++ ['"']) := by
  obtain ⟨htext, hcharacter, hread⟩ := quotedLiteral_denotes "f"
  have hcode : Lexeme.Escapes '"' ['u', '\x7b', '0', '0', '2', '2', '\x7d'] := by
    refine @Lexeme.Escapes.codePoint _ 2 ['0', '0', '2', '2'] ?_ (by decide) (by decide)
    have hdigits : List.replicate 2 0 ++ (Nat.digits 16 '"'.toNat).reverse = [0, 0, 2, 2] := by decide
    rw [hdigits]
    have hzero : Numeral.WritesDigit 16 0 '0' := ⟨by decide, by decide⟩
    have htwo : Numeral.WritesDigit 16 2 '2' := ⟨by decide, by decide⟩
    exact .cons hzero (.cons hzero (.cons htwo (.cons htwo .nil)))
  have hspells : Lexeme.SpellsText '"' ['a', '"'] "a\\u\x7b0022\x7d".toList :=
    .cons (.itself (by decide) (by decide) (by decide)) (.cons (.escape hcode) .nil)
  refine ⟨htext _ _ hspells, hcharacter '\n' ['\\', 'n'] (.escape (.letter (by decide))), ?_⟩
  have hkind : ((LexRun.ofText "\"\\'\" '" "f").tokens[0]?).any (·.kind == .literal .text) = true := by
    decide +kernel
  obtain ⟨token, hget, hkind⟩ := (Option.any_eq_true _ _).1 hkind
  have hmem := Array.mem_of_getElem? hget
  exact ⟨token, hmem, beq_iff_eq.1 hkind, (hread _ token hmem).1 (beq_iff_eq.1 hkind)⟩

end SableFrontend
