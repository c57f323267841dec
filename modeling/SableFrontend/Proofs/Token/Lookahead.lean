import SableFrontend.Proofs.Token.LexemeShape
import SableFrontend.Proofs.Token.NumeralReading

/-!
How far reading a lexeme looks ahead. Where a blank, a line break, a comment or the end of the text
follows, every lexeme but trivia ends, and which of them it is makes no difference. So a lexeme is
read in the same way when the text behind it is cut at any place by one of these (`scan_takes`). What
made a word or a numeral end still does; a point behind digits needs a digit behind it to begin a
fraction, and cutting puts none there. A quoted literal may hold blanks, so it is followed to its
closing quote, behind which it does not look at all.
-/

namespace SableFrontend

namespace Lexeme

/-! ### Gaps -/

/-- The characters with which trivia start. -/
def isGapChar (c : Char) : Bool := isBlank c || c == '\n' || c == '#'

/-- A text in which no token goes on: it is over, or trivia start it. -/
def isGap (text : List Char) : Bool := text.head?.all isGapChar

/-- A text is another one, or the beginning of it up to a place where no token goes on. -/
inductive Cut : List Char → List Char → Prop
  | gap {text other : List Char} (h : isGap other = true) : Cut text other
  | cons (c : Char) {text other : List Char} (h : Cut text other) : Cut (c :: text) (c :: other)

/-- A class of characters that trivia do not start with. -/
def Solid (isMember : Char → Bool) : Prop := ∀ c, isGapChar c = true → isMember c = false

theorem isGapChar_iff {c : Char} :
    isGapChar c = true ↔ c = ' ' ∨ c = '\t' ∨ c = '\r' ∨ c = '\n' ∨ c = '#' := by
  simp [isGapChar, isBlank, or_assoc]

theorem solid_of_forall {isMember : Char → Bool}
    (h : [' ', '\t', '\r', '\n', '#'].all (fun c => !isMember c) = true) : Solid isMember := by
  intro c hc
  simp only [List.all_cons, List.all_nil, Bool.and_true, Bool.and_eq_true, Bool.not_eq_true'] at h
  rcases isGapChar_iff.1 hc with rfl | rfl | rfl | rfl | rfl
  · exact h.1
  · exact h.2.1
  · exact h.2.2.1
  · exact h.2.2.2.1
  · exact h.2.2.2.2

theorem solid_isWordChar : Solid Text.isWordChar := solid_of_forall (by decide)

theorem solid_isDigit : Solid Text.isDigit := solid_of_forall (by decide)

theorem solid_isOperatorChar : Solid isOperatorChar := solid_of_forall (by decide)

namespace Cut

variable {text other : List Char} {isMember : Char → Bool}

theorem append (shown : List Char) (h : Cut text other) : Cut (shown ++ text) (shown ++ other) := by
  induction shown with
  | nil => exact h
  | cons c rest ih => exact .cons c ih

/-- More may follow from a gap on. -/
theorem append_gap (text : List Char) {more : List Char} (h : isGap more = true) :
    Cut text (text ++ more) := by
  induction text with
  | nil => exact .gap h
  | cons c rest ih => exact .cons c ih

/-- Nothing of a gap is in a class that trivia do not start with. -/
theorem head?_any (h : Cut text other) (hsolid : Solid isMember)
    (hmember : text.head?.any isMember = false) : other.head?.any isMember = false := by
  cases h with
  | gap h =>
    cases other with
    | nil => rfl
    | cons c rest => exact hsolid c h
  | cons c h => exact hmember

/-- A run of a class that trivia do not start with ends where it ended. -/
theorem takeWhile (h : Cut text other) (hsolid : Solid isMember)
    (hend : text.head?.any isMember = false) : other.takeWhile isMember = [] := by
  cases other with
  | nil => rfl
  | cons c rest =>
    exact List.takeWhile_cons_of_neg (Bool.eq_false_iff.1 (h.head?_any hsolid hend))

/-- No point of a fraction turns up where there was none. -/
theorem fraction? (h : Cut text other) (hnone : Numeral.fraction? text = none) :
    Numeral.fraction? other = none := by
  cases h with
  | gap h =>
    unfold Numeral.fraction?
    split
    · cases h
    · rfl
  | @cons c text other h =>
    by_cases hpoint : c = '.'
    · subst hpoint
      rw [Numeral.fraction?] at hnone ⊢
      split at hnone
      · cases hnone
      · next hdigit =>
        exact if_neg (Bool.eq_false_iff.1
          (h.head?_any solid_isDigit (Bool.eq_false_iff.2 hdigit)))
    · unfold Numeral.fraction?
      split
      · next heq => exact absurd (List.cons.inj heq).1 hpoint
      · rfl

end Cut

end Lexeme

/-! ### Quoted literals -/

namespace Lexeme

/-- A scanner takes up so many characters of a text, and does the same whatever follows them. -/
def Takes {α : Type} (scanner : List Char → Except LexemeFault α) (text : List Char)
    (length : Nat) : Prop :=
  ∃ shown left, text = shown ++ left ∧ shown.length = length ∧
    ∀ other, scanner (shown ++ other) = scanner text

theorem scanCodePoint_takes {before : Nat} {text : List Char} {c : Char} {length : Nat}
    (h : scanCodePoint before text = .ok (c, length)) : Takes (scanCodePoint before) text length := by
  have hsplit : text = text.takeWhile isHexDigit ++ text.drop (text.takeWhile isHexDigit).length :=
    (List.prefix_iff_eq_append.1 (List.takeWhile_prefix isHexDigit)).symm
  have hall : ∀ c ∈ text.takeWhile isHexDigit, isHexDigit c = true :=
    List.all_eq_true.1 List.all_takeWhile
  obtain ⟨hbrace, hlength⟩ : (text.drop (text.takeWhile isHexDigit).length).head? = some '\x7d' ∧
      length = (text.takeWhile isHexDigit).length + 1 := by
    unfold scanCodePoint at h
    dsimp only at h
    split at h
    · cases h
    · next hclosed =>
      simp only [Bool.or_eq_true, not_or, bne_iff_ne, ne_eq, Decidable.not_not] at hclosed
      split at h
      · cases h
        exact ⟨hclosed.1.1, rfl⟩
      · cases h
  cases hrest : text.drop (text.takeWhile isHexDigit).length with
  | nil =>
    rw [hrest] at hbrace
    cases hbrace
  | cons brace left =>
    rw [hrest] at hbrace
    obtain rfl : brace = '\x7d' := Option.some.inj hbrace
    rw [hrest] at hsplit
    generalize text.takeWhile isHexDigit = digits at hsplit hall hlength
    -- the digits end at the brace, whatever follows it
    have hdigits : ∀ other, (digits ++ '\x7d' :: other).takeWhile isHexDigit = digits := by
      intro other
      rw [List.takeWhile_append_of_pos hall, List.takeWhile_cons_of_neg (by decide), List.append_nil]
    have hscan : ∀ other, scanCodePoint before (digits ++ '\x7d' :: other) =
        scanCodePoint before (digits ++ ['\x7d']) := by
      intro other
      unfold scanCodePoint
      dsimp only
      rw [hdigits, hdigits, List.drop_left, List.drop_left]
      rfl
    refine ⟨digits ++ ['\x7d'], left, by rw [hsplit]; simp, by rw [hlength]; simp, fun other => ?_⟩
    rw [hsplit, hscan left, List.append_assoc]
    exact hscan other

theorem scanEscape_takes {before : Nat} {text : List Char} {c : Char} {length : Nat}
    (h : scanEscape before text = .ok (c, length)) : Takes (scanEscape before) text length := by
  cases text with
  | nil => cases h
  | cons letter more =>
    have hunfold := h
    rw [scanEscape] at h
    split at h
    · cases h
    · next hbreak =>
      split at h
      · next denoted hsimple =>
        cases h
        refine ⟨[letter], more, rfl, rfl, fun other => ?_⟩
        rw [hunfold, List.singleton_append, scanEscape, if_neg hbreak, hsimple]
      · next hsimple =>
        split at h
        · next hopens =>
          simp only [Bool.and_eq_true, beq_iff_eq] at hopens
          cases more with
          | nil => cases hopens.2
          | cons brace rest =>
            obtain rfl : brace = '\x7b' := Option.some.inj hopens.2
            cases hpoint : scanCodePoint before rest with
            | error fault =>
              rw [List.drop_one, List.tail_cons, hpoint] at h
              cases h
            | ok found =>
              rw [List.drop_one, List.tail_cons, hpoint] at h
              cases h
              obtain ⟨shown, left, rfl, hlength, hsame⟩ := scanCodePoint_takes hpoint
              refine ⟨letter :: '\x7b' :: shown, left, rfl, by simp [hlength], fun other => ?_⟩
              rw [hunfold]
              show scanEscape before (letter :: '\x7b' :: (shown ++ other)) = _
              rw [scanEscape, if_neg hbreak, hsimple]
              dsimp only
              rw [if_pos (by simp [hopens.1]), List.drop_one, List.tail_cons, hsame, hpoint]
              rfl
        · cases h

theorem scanTextFrom_takes {read : Nat} {text denoted : List Char} {whole : Nat}
    (h : scanTextFrom read text = .ok (denoted, whole)) :
    ∃ length, whole = read + length ∧ Takes (scanTextFrom read) text length := by
  cases text with
  | nil =>
    rw [scanTextFrom] at h
    cases h
  | cons c more =>
    have hunfold := h
    rw [scanTextFrom] at h
    split at h
    · cases h
    · next hbreak =>
      split at h
      · next hquote =>
        cases h
        refine ⟨1, rfl, [c], more, rfl, rfl, fun other => ?_⟩
        rw [hunfold, List.singleton_append, scanTextFrom, if_neg hbreak, if_pos hquote]
      · next hquote =>
        split at h
        · next hescape =>
          obtain ⟨⟨first, taken⟩, hfirst, h⟩ := exists_of_bind_eq_ok h
          obtain ⟨⟨rest, all⟩, hrest, h⟩ := exists_of_bind_eq_ok h
          cases h
          obtain ⟨shown, left, rfl, rfl, hsame⟩ := scanEscape_takes hfirst
          rw [List.drop_left] at hrest
          obtain ⟨length, rfl, shown', left', rfl, rfl, hsame'⟩ := scanTextFrom_takes hrest
          refine ⟨1 + shown.length + shown'.length, by omega, c :: (shown ++ shown'), left', by simp,
            by simp; omega, fun other => ?_⟩
          rw [hunfold]
          show scanTextFrom read (c :: (shown ++ shown' ++ other)) = _
          rw [scanTextFrom, if_neg hbreak, if_neg hquote, if_pos hescape, List.append_assoc, hsame,
            hfirst]
          show (scanTextFrom (read + 1 + shown.length)
            ((shown ++ (shown' ++ other)).drop shown.length) >>= _) = _
          rw [List.drop_left, hsame', hrest]
          rfl
        · next hescape =>
          obtain ⟨⟨rest, all⟩, hrest, h⟩ := exists_of_bind_eq_ok h
          cases h
          obtain ⟨length, rfl, shown, left, rfl, rfl, hsame⟩ := scanTextFrom_takes hrest
          refine ⟨1 + shown.length, by omega, c :: shown, left, rfl, by simp; omega, fun other => ?_⟩
          rw [hunfold]
          show scanTextFrom read (c :: (shown ++ other)) = _
          rw [scanTextFrom, if_neg hbreak, if_neg hquote, if_neg hescape, hsame, hrest]
          rfl
termination_by text.length

theorem scanText_takes {rest : List Char} {scanned : ScannedLexeme}
    (h : scanText rest = .ok scanned) : Takes scanText rest scanned.extra := by
  obtain ⟨⟨denoted, whole⟩, hfrom, h⟩ := exists_of_bind_eq_ok h
  cases h
  obtain ⟨length, rfl, shown, left, htext, hlength, hsame⟩ := scanTextFrom_takes hfrom
  refine ⟨shown, left, htext, by simp [hlength], fun other => ?_⟩
  rw [scanText, scanText, hsame]

theorem closeCharacter_takes {c : Char} {read : Nat} {rest : List Char} {scanned : ScannedLexeme}
    (h : closeCharacter c read rest = .ok scanned) :
    scanned.extra = read ∧ Takes (closeCharacter c read) rest 1 := by
  have hunfold := h
  unfold closeCharacter at h
  split at h
  · next hquote =>
    cases h
    cases rest with
    | nil => cases hquote
    | cons quote left =>
      refine ⟨rfl, [quote], left, rfl, rfl, fun other => ?_⟩
      rw [hunfold, List.singleton_append, closeCharacter, List.head?_cons]
      rw [List.head?_cons] at hquote
      rw [if_pos hquote]
  · cases h

theorem scanCharacter_takes {rest : List Char} {scanned : ScannedLexeme}
    (h : scanCharacter rest = .ok scanned) : Takes scanCharacter rest scanned.extra := by
  cases rest with
  | nil => cases h
  | cons c more =>
    have hunfold := h
    rw [scanCharacter] at h
    split at h
    · cases h
    · next hbreak =>
      split at h
      · cases h
      · next hquote =>
        split at h
        · next hescape =>
          obtain ⟨⟨denoted, length⟩, hfirst, h⟩ := exists_of_bind_eq_ok h
          obtain ⟨shown, left, rfl, rfl, hsame⟩ := scanEscape_takes hfirst
          dsimp only at h
          rw [List.drop_left] at h
          obtain ⟨hextra, shown', left', rfl, hlength, hsame'⟩ := closeCharacter_takes h
          refine ⟨c :: (shown ++ shown'), left', by simp, by simp [hextra, hlength], fun other => ?_⟩
          rw [hunfold]
          show scanCharacter (c :: (shown ++ shown' ++ other)) = _
          rw [scanCharacter, if_neg hbreak, if_neg hquote, if_pos hescape, List.append_assoc, hsame,
            hfirst]
          show closeCharacter denoted (shown.length + 2)
            ((shown ++ (shown' ++ other)).drop shown.length) = _
          rw [List.drop_left, hsame', h]
        · next hescape =>
          obtain ⟨hextra, shown, left, rfl, hlength, hsame⟩ := closeCharacter_takes h
          refine ⟨c :: shown, left, rfl, by simp [hextra, hlength], fun other => ?_⟩
          rw [hunfold]
          show scanCharacter (c :: (shown ++ other)) = _
          rw [scanCharacter, if_neg hbreak, if_neg hquote, if_neg hescape, hsame, h]

/-! ### One lexeme -/

/-- The lexemes that are passed over wherever they stand. -/
def isTrivia : Lexeme → Bool
  | trivia _ => true
  | _ => false

variable {first : Char} {rest : List Char} {scanned : ScannedLexeme}

/-- A lexeme is the beginning of a text, and is read in the same way where the text behind it is cut. -/
def TakesUpToGap (scanner : List Char → Except LexemeFault ScannedLexeme) (rest : List Char)
    (scanned : ScannedLexeme) : Prop :=
  ∃ shown left, rest = shown ++ left ∧ shown.length = scanned.extra ∧
    ∀ other, Cut left other → scanner (shown ++ other) = .ok scanned

theorem Takes.upToGap {scanner : List Char → Except LexemeFault ScannedLexeme}
    (h : Takes scanner rest scanned.extra) (hscan : scanner rest = .ok scanned) :
    TakesUpToGap scanner rest scanned := by
  obtain ⟨shown, left, hrest, hlength, hsame⟩ := h
  exact ⟨shown, left, hrest, hlength, fun other _ => (hsame other).trans hscan⟩

theorem scanNumber_takes (hdigit : Text.isDigit first = true)
    (h : scanNumber first rest = .ok scanned) : TakesUpToGap (scanNumber first) rest scanned := by
  obtain ⟨shape, hread, h⟩ := exists_of_bind_eq_ok h
  cases h
  obtain ⟨spelling, left, htext, hlength, hspells⟩ :=
    Numeral.read_spells (by simpa using hdigit) hread
  cases spelling with
  | nil => exact absurd rfl hspells.ne_nil
  | cons digit shown =>
    obtain ⟨rfl, rfl⟩ := List.cons.inj htext
    refine ⟨shown, left, rfl, by rw [← hlength]; rfl, fun other hcut => ?_⟩
    replace hread : Numeral.read (first :: shown ++ left) = .ok shape := hread
    have hend : left.head?.any Text.isWordChar = false := by
      have hend := Numeral.read_end hread
      rwa [← hlength, List.drop_left] at hend
    have hread' : Numeral.read (first :: (shown ++ other)) = .ok shape := by
      have hsame := Numeral.read_append hspells (hcut.head?_any solid_isWordChar hend)
        fun hgroup => hcut.fraction? (Numeral.fraction?_of_read hgroup hread hlength)
      rwa [hlength] at hsame
    have htake : ∀ more, (first :: (shown ++ more)).take shape.length = first :: shown := by
      intro more
      rw [← hlength, ← List.cons_append, List.take_left]
    rw [scanNumber, hread']
    show Except.ok _ = Except.ok _
    rw [htake, show shown.append left = shown ++ left from rfl, htake]

theorem scanRun_takes {isMember : Char → Bool} {lexemeOf : List Char → Lexeme}
    (hsolid : Solid isMember) :
    TakesUpToGap (fun rest => .ok (scanRun isMember first rest lexemeOf)) rest
      (scanRun isMember first rest lexemeOf) := by
  refine ⟨rest.takeWhile isMember, rest.drop (rest.takeWhile isMember).length,
    (List.prefix_iff_eq_append.1 (List.takeWhile_prefix isMember)).symm, rfl, fun other hcut => ?_⟩
  have hsame : (rest.takeWhile isMember ++ other).takeWhile isMember = rest.takeWhile isMember := by
    rw [List.takeWhile_append_of_pos (List.all_eq_true.1 List.all_takeWhile),
      hcut.takeWhile hsolid (any_head?_drop_takeWhile isMember rest), List.append_nil]
  dsimp only
  rw [scanRun, scanRun, hsame]

theorem scanMark_takes (h : scanMark first = .ok scanned) :
    TakesUpToGap (fun _ => scanMark first) rest scanned := by
  have hextra : scanned.extra = 0 := by
    unfold scanMark at h
    split at h <;> cases h <;> rfl
  exact ⟨[], rest, rfl, hextra.symm, fun _ _ => h⟩

/-- Every lexeme but trivia ends where trivia or the end of the text follows. -/
theorem scan_takes (h : scan first rest = .ok scanned) (htrivia : scanned.lexeme.isTrivia = false) :
    TakesUpToGap (scan first) rest scanned := by
  -- which scanner reads a lexeme is settled by its first character
  have hcongr : ∀ {scanner : List Char → Except LexemeFault ScannedLexeme},
      (∀ text, scan first text = scanner text) → TakesUpToGap scanner rest scanned →
        TakesUpToGap (scan first) rest scanned :=
    fun hsame htakes => (funext hsame : scan first = _) ▸ htakes
  have hscan := h
  unfold scan at hscan
  split at hscan
  · next hbreak =>
    cases hscan
    exact ⟨[], rest, rfl, rfl, fun other _ => by rw [scan, if_pos hbreak]⟩
  · next hbreak =>
    split at hscan
    · cases hscan
      cases htrivia
    · next hblank =>
      split at hscan
      · unfold scanComment at hscan
        split at hscan
        · split at hscan <;> cases hscan
          cases htrivia
        · cases hscan
          cases htrivia
      · next hcomment =>
        split at hscan
        · next hquote =>
          refine hcongr (fun text => ?_) ((scanText_takes hscan).upToGap hscan)
          rw [scan, if_neg hbreak, if_neg hblank, if_neg hcomment, if_pos hquote]
        · next hquote =>
          split at hscan
          · next hcharacter =>
            refine hcongr (fun text => ?_) ((scanCharacter_takes hscan).upToGap hscan)
            rw [scan, if_neg hbreak, if_neg hblank, if_neg hcomment, if_neg hquote,
              if_pos hcharacter]
          · next hcharacter =>
            split at hscan
            · next hdigit =>
              refine hcongr (fun text => ?_) (scanNumber_takes hdigit hscan)
              rw [scan, if_neg hbreak, if_neg hblank, if_neg hcomment, if_neg hquote,
                if_neg hcharacter, if_pos hdigit]
            · next hdigit =>
              split at hscan
              · next hword =>
                cases hscan
                refine hcongr (fun text => ?_) (scanRun_takes solid_isWordChar)
                rw [scan, if_neg hbreak, if_neg hblank, if_neg hcomment, if_neg hquote,
                  if_neg hcharacter, if_neg hdigit, if_pos hword]
              · next hword =>
                split at hscan
                · next hoperator =>
                  cases hscan
                  refine hcongr (fun text => ?_) (scanRun_takes solid_isOperatorChar)
                  rw [scan, if_neg hbreak, if_neg hblank, if_neg hcomment, if_neg hquote,
                    if_neg hcharacter, if_neg hdigit, if_neg hword, if_pos hoperator]
                · next hoperator =>
                  refine hcongr (fun text => ?_) (scanMark_takes hscan)
                  rw [scan, if_neg hbreak, if_neg hblank, if_neg hcomment, if_neg hquote,
                    if_neg hcharacter, if_neg hdigit, if_neg hword, if_neg hoperator]

/-! ### Trivia -/

theorem isTrivia_scanCharacter (h : scanCharacter rest = .ok scanned) :
    scanned.lexeme.isTrivia = false := by
  have hclose : ∀ {c read rest}, closeCharacter c read rest = .ok scanned →
      scanned.lexeme.isTrivia = false := by
    intro c read rest h
    unfold closeCharacter at h
    split at h <;> cases h
    rfl
  unfold scanCharacter at h
  split at h
  · cases h
  · repeat' split at h
    · cases h
    · cases h
    · obtain ⟨_, -, h⟩ := exists_of_bind_eq_ok h
      exact hclose h
    · exact hclose h

theorem isTrivia_scanMark (h : scanMark first = .ok scanned) : scanned.lexeme.isTrivia = false := by
  unfold scanMark at h
  split at h <;> cases h <;> rfl

/-- Trivia start with a blank or with a comment. -/
theorem scan_trivia (h : scan first rest = .ok scanned) (htrivia : scanned.lexeme.isTrivia = true) :
    isBlank first = true ∧ scanned = scanRun isBlank first rest (fun _ => .trivia .blank) ∨
      first = '#' ∧ scanComment rest = .ok scanned := by
  unfold scan at h
  split at h
  · cases h
    cases htrivia
  · split at h
    · cases h
      exact Or.inl ⟨‹_›, rfl⟩
    · split at h
      · exact Or.inr ⟨beq_iff_eq.1 ‹_›, h⟩
      · have hnot : scanned.lexeme.isTrivia = false := by
          repeat' split at h
          · obtain ⟨_, -, h⟩ := exists_of_bind_eq_ok h
            cases h
            rfl
          · exact isTrivia_scanCharacter h
          · obtain ⟨_, -, h⟩ := exists_of_bind_eq_ok h
            cases h
            rfl
          · cases h
            rfl
          · cases h
            rfl
          · exact isTrivia_scanMark h
        rw [hnot] at htrivia
        cases htrivia

theorem isGapChar_of_isTrivia (h : scan first rest = .ok scanned)
    (htrivia : scanned.lexeme.isTrivia = true) : isGapChar first = true := by
  rcases scan_trivia h htrivia with ⟨hblank, -⟩ | ⟨rfl, -⟩
  · rw [isGapChar, hblank]
    rfl
  · rfl

theorem scan_of_isBlank (h : isBlank first = true) (rest : List Char) :
    scan first rest = .ok (scanRun isBlank first rest fun _ => .trivia .blank) := by
  have hbreak : (first == '\n') = false := by
    refine Bool.eq_false_iff.2 fun hbreak => ?_
    rw [beq_iff_eq.1 hbreak] at h
    cases h
  rw [scan, hbreak, h]
  rfl

/-- Only blanks are read as blank text. -/
theorem isBlank_eq_false (h : scan first rest = .ok scanned)
    (htrivia : scanned.lexeme.isTrivia = false) : isBlank first = false := by
  refine Bool.eq_false_iff.2 fun hblank => ?_
  rw [scan_of_isBlank hblank] at h
  cases h
  cases htrivia

/-- A run of blanks is read as one lexeme. -/
theorem scan_blank {gap other : List Char} (hblank : isBlank first = true)
    (hgap : gap.all isBlank = true) (hother : other.head?.any isBlank = false) :
    scan first (gap ++ other) = .ok { lexeme := .trivia .blank, extra := gap.length } := by
  have hrun : (gap ++ other).takeWhile isBlank = gap := by
    rw [List.takeWhile_append_of_pos (List.all_eq_true.1 hgap)]
    cases other with
    | nil => simp
    | cons c rest =>
      rw [List.takeWhile_cons_of_neg (show ¬isBlank c = true from Bool.eq_false_iff.1 hother),
        List.append_nil]
  rw [scan_of_isBlank hblank, scanRun, hrun]

/-- The end of a block comment is found in the same place when more follows. -/
theorem closeOfBlock?_append {text : List Char} {length : Nat} (h : closeOfBlock? text = some length)
    (more : List Char) :
    closeOfBlock? (text ++ more) = some length ∧ 3 ≤ length ∧ length ≤ text.length := by
  induction text generalizing length with
  | nil => cases h
  | cons c rest ih =>
    rw [closeOfBlock?] at h
    rw [List.cons_append, closeOfBlock?, List.length_cons]
    split at h
    · next hclose =>
      cases h
      simp only [Bool.and_eq_true, beq_iff_eq] at hclose
      have hlength : 2 ≤ rest.length := by
        have htake := congrArg List.length hclose.2
        rw [List.length_take] at htake
        simp only [List.length_cons, List.length_nil] at htake
        omega
      rw [List.take_append_of_le_length hlength, hclose.1, hclose.2]
      exact ⟨rfl, by omega, by omega⟩
    · next hclose =>
      obtain ⟨shorter, hrest, rfl⟩ := Option.map_eq_some_iff.1 h
      obtain ⟨hsame, hthree, hle⟩ := ih hrest
      rw [List.take_append_of_le_length (by omega), if_neg hclose, hsame]
      exact ⟨rfl, by omega, by omega⟩

/-- Whether a block comment opens is settled in front of a line break. -/
theorem opensBlock_append {more : List Char} (hmore : more.head? = some '\n') :
    opensBlock (rest ++ more) = opensBlock rest := by
  cases more with
  | nil => cases hmore
  | cons c more =>
    obtain rfl : c = '\n' := Option.some.inj hmore
    match rest with
    | [] => rfl
    | [a] => simp [opensBlock]
    | [a, b] => rfl
    | a :: b :: c :: rest => rfl

theorem takeWhile_append_lineBreak {isMember : Char → Bool} (hbreak : isMember '\n' = false)
    {more : List Char} (hmore : more.head? = some '\n') :
    (rest ++ more).takeWhile isMember = rest.takeWhile isMember := by
  cases more with
  | nil => cases hmore
  | cons c more =>
    obtain rfl : c = '\n' := Option.some.inj hmore
    induction rest with
    | nil => rw [List.nil_append, List.takeWhile_cons, hbreak]; rfl
    | cons c rest ih => rw [List.cons_append, List.takeWhile_cons, List.takeWhile_cons, ih]

/-- In front of a line break everything is read as at the end of the text. -/
theorem scan_append (h : scan first rest = .ok scanned) {more : List Char}
    (hmore : more.head? = some '\n') :
    scan first (rest ++ more) = .ok scanned ∧ scanned.extra ≤ rest.length := by
  cases htrivia : scanned.lexeme.isTrivia with
  | false =>
    obtain ⟨shown, left, rfl, hlength, hsame⟩ := scan_takes h htrivia
    have hgap : isGap more = true := by
      cases more with
      | nil => rfl
      | cons c more =>
        obtain rfl : c = '\n' := Option.some.inj hmore
        rfl
    rw [List.append_assoc]
    exact ⟨hsame _ (.append_gap left hgap), by rw [← hlength, List.length_append]; omega⟩
  | true =>
    rcases scan_trivia h htrivia with ⟨hblank, rfl⟩ | ⟨rfl, hcomment⟩
    · refine ⟨?_, (List.takeWhile_prefix isBlank).length_le⟩
      rw [scan_of_isBlank hblank, scanRun, scanRun, takeWhile_append_lineBreak rfl hmore]
    · show scanComment (rest ++ more) = .ok scanned ∧ _
      unfold scanComment at hcomment ⊢
      rw [opensBlock_append hmore]
      split at hcomment
      · next hopens =>
        rw [if_pos hopens]
        split at hcomment
        · next length hclose =>
          cases hcomment
          obtain ⟨hsame, hthree, hle⟩ := closeOfBlock?_append hclose more
          rw [List.length_drop] at hle
          rw [List.drop_append_of_le_length (by omega), hsame]
          exact ⟨rfl, by dsimp only; omega⟩
        · cases hcomment
      · next hopens =>
        rw [if_neg hopens]
        cases hcomment
        rw [takeWhile_append_lineBreak (by decide) hmore]
        exact ⟨rfl, (List.takeWhile_prefix _).length_le⟩

end Lexeme

end SableFrontend
