import SableFrontend.Proofs.Highlight.Stretches

/-!
Highlighting and reading agree on what is a comment, a quoted literal or a reserved word. Both go
over a text from left to right, and `Shaded` holds of what either of them makes of it: of the
highlighting by `shadesFrom_eq`, of the lexemes by `LexState.Turns.exists_shaded`. A lexeme that
ends in a character of words has none behind it (`Lexeme.scan_reads`), so that words begin in the
same places for both.
-/

namespace SableFrontend

open Shade Highlight

/-! ### The shades of lexemes -/

def TriviaKind.shade (kind : TriviaKind) : Shade := if kind.isComment then .comment else .plain

def TokenKind.shade (kind : TokenKind) : Shade :=
  if kind.isQuoted then .quoted else if kind.isKeyword then .reserved else .plain

theorem TriviaKind.shade_eq_comment_iff {kind : TriviaKind} :
    kind.shade = .comment ↔ kind.isComment = true := by
  cases kind <;> decide

theorem TriviaKind.shade_of_ne {kind : TriviaKind} {shade : Shade} (hplain : shade ≠ .plain)
    (hcomment : shade ≠ .comment) : kind.shade ≠ shade := by
  cases kind
  · exact hplain.symm
  · exact hplain.symm
  · exact hcomment.symm
  · exact hcomment.symm

theorem TokenKind.shade_eq_quoted_iff {kind : TokenKind} :
    kind.shade = .quoted ↔ kind.isQuoted = true := by
  unfold TokenKind.shade
  repeat' split
  all_goals simp [*]

theorem TokenKind.shade_eq_reserved_iff {kind : TokenKind} :
    kind.shade = .reserved ↔ kind.isKeyword = true := by
  cases kind with
  | literal number => cases number <;> decide
  | keyword => exact iff_of_true rfl rfl
  | _ => exact iff_of_false nofun nofun

theorem TokenKind.shade_ne_comment {kind : TokenKind} : kind.shade ≠ .comment := by
  unfold TokenKind.shade
  repeat' split
  all_goals nofun

def Lexeme.shade : Lexeme → Shade
  | trivia kind => kind.shade
  | token kind _ => kind.shade
  | lineBreak | opener _ | closer _ => .plain

namespace Lexeme

variable {before : Option Char} {first c : Char} {rest shown left : List Char}
  {scanned : ScannedLexeme}

/-- What a lexeme is, as far as its shade goes. -/
inductive Reads (first : Char) (rest : List Char) (scanned : ScannedLexeme) : Prop
  | marked (hmark : isMark first = true) (hshade : scanned.lexeme.shade = ofMark first)
  | plain (hshade : scanned.lexeme.shade = .plain)
      (hplain : ∀ before, Plainly before (first :: rest.take scanned.extra)
        (rest.drop scanned.extra))
  | reserved (word : Keyword) (hshade : scanned.lexeme.shade = .reserved)
      (hspelling : word.spelling.toList = first :: rest.take scanned.extra)
      (hword : ∀ before, before.any Text.isWordChar = false →
        reservedAt? before (first :: rest) = some word)

/-- No word goes on from one text to the next. -/
def Apart (shown left : List Char) : Prop :=
  shown.getLast?.any Text.isWordChar = true → left.head?.any Text.isWordChar = false

theorem Reads.shaded {shades : List Shade} (h : Reads first rest scanned)
    (hscan : scan first rest = .ok scanned)
    (hbefore : before.any Text.isWordChar = true → Text.isWordChar first = false)
    (hmore : Shaded (first :: rest.take scanned.extra).getLast? (rest.drop scanned.extra) shades) :
    Shaded before (first :: rest)
      (List.replicate (first :: rest.take scanned.extra).length scanned.lexeme.shade ++ shades) := by
  cases h with
  | marked hmark hshade =>
    rw [hshade]
    exact .marked hmark hscan hmore
  | plain hshade hplain =>
    rw [hshade]
    have hlast : (first :: rest.take scanned.extra).getLast?.or before =
        (first :: rest.take scanned.extra).getLast? := by
      rw [List.getLast?_cons]
      rfl
    have hshaded := Shaded.plainly_append (hplain before) (hlast.symm ▸ hmore)
    rwa [List.cons_append, List.take_append_drop] at hshaded
  | reserved word hshade hspelling hword =>
    have hfirst : Text.isWordChar first = true := by
      refine List.all_eq_true.1 (all_isWordChar_spelling word) first ?_
      rw [hspelling]
      exact List.mem_cons_self
    have hfree : before.any Text.isWordChar = false := by
      refine Bool.eq_false_iff.2 fun hword => ?_
      rw [hbefore hword] at hfirst
      cases hfirst
    rw [hshade, ← hspelling]
    refine .reserved (hword before hfree) ?_ (hspelling ▸ hmore)
    rw [hspelling, List.cons_append, List.take_append_drop]

/-! ### Where lexemes end -/

theorem apart_of_getLast? {c : Char} (hlast : shown.getLast? = some c)
    (hc : Text.isWordChar c = false) : Apart shown left := by
  intro hword
  rw [hlast, Option.any_some, hc] at hword
  cases hword

/-- The characters of blanks, operators and marks. -/
def IsSolid (shown : List Char) : Prop := ∀ c ∈ shown, isMark c = false ∧ Text.isWordChar c = false

theorem reads_of_isSolid (hshade : scanned.lexeme.shade = .plain)
    (h : IsSolid (first :: rest.take scanned.extra)) :
    Reads first rest scanned ∧
      Apart (first :: rest.take scanned.extra) (rest.drop scanned.extra) := by
  refine ⟨.plain hshade fun before => .of_not_isWordChar (fun c hc => (h c hc).1)
    fun c hc => (h c hc).2, fun hword => ?_⟩
  obtain ⟨c, hlast, hc⟩ := (Option.any_eq_true _ _).1 hword
  rw [(h c (List.mem_of_getLast? hlast)).2] at hc
  cases hc

theorem getLast?_take_succ {count : Nat} {text : List Char} {c : Char}
    (h : (text.drop count).head? = some c) : (text.take (count + 1)).getLast? = some c := by
  rw [List.head?_drop] at h
  rw [List.take_add_one, h, Option.toList_some, List.getLast?_concat]

theorem closeOfBlock?_ends {text : List Char} {length : Nat} (h : closeOfBlock? text = some length) :
    (text.take length).getLast? = some '#' := by
  induction text generalizing length with
  | nil => cases h
  | cons c rest ih =>
    rw [closeOfBlock?] at h
    split at h
    · next hclose =>
      cases h
      rw [Bool.and_eq_true, beq_iff_eq, beq_iff_eq] at hclose
      rw [List.take_succ_cons, hclose.2]
      rfl
    · obtain ⟨more, hmore, rfl⟩ := Option.map_eq_some_iff.1 h
      rw [List.take_succ_cons, List.getLast?_cons, ih hmore]
      rfl

/-! ### One lemma for each scanner -/

theorem scanComment_reads (h : scanComment rest = .ok scanned) :
    Reads '#' rest scanned ∧ Apart ('#' :: rest.take scanned.extra) (rest.drop scanned.extra) := by
  unfold scanComment at h
  split at h
  · split at h
    · next length hclose =>
      cases h
      refine ⟨.marked rfl rfl, apart_of_getLast? (c := '#') ?_ (by decide)⟩
      rw [Nat.add_comm, List.take_add, List.getLast?_cons, List.getLast?_append,
        closeOfBlock?_ends hclose]
      rfl
    · cases h
  · cases h
    refine ⟨.marked rfl rfl, fun _ => ?_⟩
    have hstop := any_head?_drop_takeWhile (· != '\n') rest
    cases hhead : (rest.drop (rest.takeWhile (· != '\n')).length).head? with
    | none => rfl
    | some c =>
      rw [hhead] at hstop
      obtain rfl : c = '\n' := by simpa using hstop
      decide

theorem scanText_reads (h : scanText rest = .ok scanned) :
    Reads '"' rest scanned ∧ Apart ('"' :: rest.take scanned.extra) (rest.drop scanned.extra) := by
  obtain ⟨⟨denoted, whole⟩, hread, heq⟩ := exists_of_bind_eq_ok h
  cases heq
  obtain ⟨shown, left, rfl, rfl, hlast, -⟩ := shadesFrom_text hread none
  refine ⟨.marked rfl rfl, apart_of_getLast? (c := '"') ?_ (by decide)⟩
  rw [Nat.add_sub_cancel_left, List.take_left, List.getLast?_cons, hlast]
  rfl

theorem closeCharacter_shade {c : Char} {read : Nat} {rest : List Char}
    (h : closeCharacter c read rest = .ok scanned) : scanned.lexeme.shade = .quoted := by
  unfold closeCharacter at h
  split at h
  · cases h
    rfl
  · cases h

theorem scanCharacter_reads (h : scanCharacter rest = .ok scanned) :
    Reads '\'' rest scanned ∧
      Apart ('\'' :: rest.take scanned.extra) (rest.drop scanned.extra) := by
  unfold scanCharacter at h
  split at h
  · cases h
  next c more =>
  split at h
  · cases h
  split at h
  · cases h
  split at h
  · obtain ⟨⟨denoted, length⟩, -, h⟩ := exists_of_bind_eq_ok h
    obtain ⟨hextra, hclose⟩ := closeCharacter_eq_ok h
    refine ⟨.marked rfl (closeCharacter_shade h), apart_of_getLast? (c := '\'') ?_ (by decide)⟩
    rw [hextra, List.take_succ_cons, List.getLast?_cons, List.getLast?_cons,
      getLast?_take_succ hclose]
    rfl
  · obtain ⟨hextra, hclose⟩ := closeCharacter_eq_ok h
    refine ⟨.marked rfl (closeCharacter_shade h), apart_of_getLast? (c := '\'') ?_ (by decide)⟩
    rw [hextra, List.take_succ_cons, List.getLast?_cons, List.getLast?_cons,
      getLast?_take_succ (show (more.drop 0).head? = some '\'' from hclose)]
    rfl

theorem reservedAt?_of_word (hfirst : Text.isWordChar first = true)
    (hbefore : before.any Text.isWordChar = false) :
    reservedAt? before (first :: rest) =
      Keyword.ofSpelling? (String.ofList (first :: rest.takeWhile Text.isWordChar)) := by
  rw [reservedAt?, if_neg (by simp [hbefore]), List.takeWhile_cons_of_pos hfirst]

theorem scanWord_reads (hfirst : Text.isWordChar first = true) :
    Reads first rest (scanRun Text.isWordChar first rest fun word =>
        .token (wordKind word) (String.ofList word)) ∧
      Apart (first :: rest.take (rest.takeWhile Text.isWordChar).length)
        (rest.drop (rest.takeWhile Text.isWordChar).length) := by
  refine ⟨?_, fun _ => any_head?_drop_takeWhile Text.isWordChar rest⟩
  cases hspelling : Keyword.ofSpelling? (String.ofList (first :: rest.takeWhile Text.isWordChar)) with
  | some word =>
    refine .reserved word ?_ ?_ fun before hbefore => ?_
    · simp only [scanRun, shade, wordKind, hspelling]
      rfl
    · simp only [scanRun, take_takeWhile_length]
      rw [eq_spelling_of_ofSpelling? hspelling, String.toList_ofList]
    · rw [reservedAt?_of_word hfirst hbefore, hspelling]
  | none =>
    refine .plain ?_ fun before => ?_
    · simp only [scanRun, shade, wordKind, hspelling]
      split <;> rfl
    · simp only [scanRun, take_takeWhile_length]
      refine .cons (isMark_of_isWordChar hfirst) ?_ (.of_isWordChar hfirst fun c => of_mem_takeWhile)
      rw [List.prefix_iff_eq_append.1 (List.takeWhile_prefix Text.isWordChar)]
      by_cases hbefore : before.any Text.isWordChar = true
      · exact reservedAt?_of_before hbefore
      · rw [reservedAt?_of_word hfirst (Bool.eq_false_iff.2 hbefore), hspelling]

end Lexeme

/-! ### Numerals -/

namespace Numeral

variable {group text : List Char} {before : Option Char} {left : List Char}

theorem isNameChar_of_isGroup {radix : Radix} (h : IsGroup radix.isDigit group) :
    ∀ c ∈ group, isNameChar c = true := by
  intro c hc
  rcases h.members c hc with hdigit | rfl
  · exact isNameChar_of_radixDigit hdigit
  · rfl

theorem isNameChar_of_ofLetter? {letter : Char} {radix : Radix}
    (h : Radix.ofLetter? letter = some radix) : isNameChar letter = true := by
  have hall : (['x', 'X', 'b', 'B', 'o', 'O'].all isNameChar) = true := by decide
  exact List.all_eq_true.1 hall letter (mem_of_ofLetter? h)

/-- Nothing begins in digits, whatever stands in front of them, and they end in a character of
words. -/
theorem plainly_of_isGroup (h : IsGroup Text.isAsciiDigit group) (before : Option Char)
    (left : List Char) :
    Plainly before group left ∧ (group.getLast?.or before).any Text.isWordChar = true := by
  obtain ⟨first, more, rfl⟩ := List.exists_cons_of_ne_nil h.ne_nil
  have hword : ∀ c ∈ first :: more, Text.isWordChar c = true := by
    intro c hc
    refine isWordChar_of_isNameChar ?_
    rcases h.members c hc with hdigit | rfl
    · simp [isNameChar, hdigit]
    · rfl
  obtain ⟨hfirst, hmore⟩ := List.forall_mem_cons.1 hword
  have hdigit : Text.isAsciiDigit first = true := by
    refine (h.members first List.mem_cons_self).resolve_right ?_
    rintro rfl
    cases h.grouped
  refine ⟨.cons (isMark_of_isWordChar hfirst)
    (reservedAt?_of_first (Text.isAsciiLower_of_isAsciiDigit hdigit)) (.of_isWordChar hfirst hmore),
    ?_⟩
  rw [getLast?_cons_or]
  exact any_getLast?_or hfirst hmore

theorem plainly_of_isFraction (h : IsFraction text) (before : Option Char) (left : List Char) :
    Plainly before text left ∧ (text.getLast?.or before).any Text.isWordChar = true := by
  cases h with
  | @point group hgroup =>
    obtain ⟨hplain, hlast⟩ := plainly_of_isGroup hgroup (some '.') left
    refine ⟨.cons (by decide) (reservedAt?_of_not_isWordChar (by decide)) hplain, ?_⟩
    rwa [getLast?_cons_or]

theorem plainly_of_isExponent (h : IsExponent text)
    (hbefore : before.any Text.isWordChar = true) (left : List Char) :
    Plainly before text left := by
  cases h with
  | plain hletter hgroup =>
    refine .cons ?_ (reservedAt?_of_before hbefore) (plainly_of_isGroup hgroup _ left).1
    rcases hletter with rfl | rfl <;> decide
  | signed hletter hsign hgroup =>
    refine .cons ?_ (reservedAt?_of_before hbefore)
      (.cons ?_ (reservedAt?_of_not_isWordChar ?_) (plainly_of_isGroup hgroup _ left).1)
    · rcases hletter with rfl | rfl <;> decide
    · rcases hsign with rfl | rfl <;> decide
    · rcases hsign with rfl | rfl <;> decide

/-- Nothing begins in a numeral. -/
theorem Spells.plainly {kind : LiteralKind} (h : Spells kind text) (before : Option Char)
    (left : List Char) : Plainly before text left := by
  cases h with
  | decimal hgroup => exact (plainly_of_isGroup hgroup before left).1
  | radix hletter hgroup =>
    refine .cons (by decide) (reservedAt?_of_first (by decide)) (.of_isWordChar (by decide) ?_)
    refine List.forall_mem_cons.2 ⟨isWordChar_of_isNameChar (isNameChar_of_ofLetter? hletter),
      fun c hc => isWordChar_of_isNameChar (isNameChar_of_isGroup hgroup c hc)⟩
  | fraction hwhole hfraction =>
    exact (plainly_of_isGroup hwhole before _).1.append (plainly_of_isFraction hfraction _ left).1
  | exponent hwhole hexponent =>
    obtain ⟨hplain, hlast⟩ := plainly_of_isGroup hwhole before _
    exact hplain.append (plainly_of_isExponent hexponent hlast left)
  | @both whole fraction exponent hwhole hfraction hexponent =>
    have hplain := (plainly_of_isGroup hwhole before (fraction ++ (exponent ++ left))).1
    obtain ⟨hpoint, hlast⟩ :=
      plainly_of_isFraction hfraction (whole.getLast?.or before) (exponent ++ left)
    rw [← Option.or_assoc, ← List.getLast?_append] at hlast
    exact (hplain.append hpoint).append (plainly_of_isExponent hexponent hlast left)

end Numeral

namespace Lexeme

variable {before : Option Char} {first c : Char} {rest shown left : List Char}
  {scanned : ScannedLexeme}

theorem scanNumber_reads (hdigit : Text.isDigit first = true) (h : scanNumber first rest = .ok scanned) :
    Reads first rest scanned ∧
      Apart (first :: rest.take scanned.extra) (rest.drop scanned.extra) := by
  obtain ⟨shape, hread, h⟩ := exists_of_bind_eq_ok h
  cases h
  obtain ⟨spelling, left, htext, hlength, hspells⟩ :=
    Numeral.read_spells (by simpa using hdigit) hread
  obtain ⟨count, hcount⟩ := Nat.exists_eq_succ_of_ne_zero
    (hlength ▸ (Nat.ne_of_gt (List.length_pos_iff.2 hspells.ne_nil)))
  have hend := Numeral.read_end hread
  rw [hcount] at hend
  have hshown : first :: rest.take count = spelling := by
    rw [← List.take_succ_cons, ← Nat.succ_eq_add_one, ← hcount, htext, ← hlength, List.take_left]
  have hleft : rest.drop count = left := by
    rw [← List.drop_succ_cons, ← Nat.succ_eq_add_one, ← hcount, htext, ← hlength, List.drop_left]
  simp only [hcount, Nat.succ_sub_one]
  refine ⟨.plain ?_ fun before => ?_, fun _ => hend⟩
  · cases hkind : shape.kind with
    | integer | float => rfl
    | text | character => rw [hkind] at hspells; cases hspells
  · simp only [hshown, hleft]
    exact hspells.plainly before left

theorem isSolid_run {isMember : Char → Bool} (hfirst : isMember first = true)
    (hsolid : ∀ {c}, isMember c = true → isMark c = false ∧ Text.isWordChar c = false) :
    IsSolid (first :: rest.take (rest.takeWhile isMember).length) := by
  refine List.forall_mem_cons.2 ⟨hsolid hfirst, fun c hc => hsolid ?_⟩
  rw [take_takeWhile_length] at hc
  exact of_mem_takeWhile hc

theorem solid_of_isBlank {c : Char} (h : isBlank c = true) :
    isMark c = false ∧ Text.isWordChar c = false := by
  simp only [isBlank, Bool.or_eq_true, beq_iff_eq] at h
  rcases h with (rfl | rfl) | rfl <;> decide

theorem shade_operatorKind (spelling : String) : (operatorKind spelling).shade = .plain := by
  unfold operatorKind
  repeat' split
  all_goals rfl

/-- The characters that are lexemes by themselves. -/
def markChars : List Char :=
  ['(', ')', '[', ']', '\x7b', '\x7d', ',', ':', '.', '@', ';']

theorem solid_of_scanMark (h : scanMark first = .ok scanned) :
    isMark first = false ∧ Text.isWordChar first = false := by
  have hmark : first ∈ markChars := by
    refine Decidable.byContradiction fun hnot => ?_
    simp only [markChars, List.mem_cons, List.not_mem_nil, or_false, not_or] at hnot
    simp [scanMark, opened?, closed?, punctuation?, hnot] at h
  have hall : (markChars.all fun c => !isMark c && !Text.isWordChar c) = true := by decide +kernel
  have hfirst := List.all_eq_true.1 hall first hmark
  simpa using hfirst

theorem scanMark_reads (h : scanMark first = .ok scanned) :
    Reads first rest scanned ∧
      Apart (first :: rest.take scanned.extra) (rest.drop scanned.extra) := by
  have hsolid := solid_of_scanMark h
  unfold scanMark at h
  split at h
  · cases h
    exact reads_of_isSolid rfl (List.forall_mem_cons.2 ⟨hsolid, nofun⟩)
  · cases h
    exact reads_of_isSolid rfl (List.forall_mem_cons.2 ⟨hsolid, nofun⟩)
  · next kind _ _ hkind =>
    cases h
    refine reads_of_isSolid ?_ (List.forall_mem_cons.2 ⟨hsolid, nofun⟩)
    unfold punctuation? at hkind
    repeat' split at hkind
    all_goals cases hkind
    all_goals rfl
  · cases h

/-- What the lexeme at the start of a text is, and that no word goes on behind it. -/
theorem scan_reads (h : scan first rest = .ok scanned) :
    Reads first rest scanned ∧
      Apart (first :: rest.take scanned.extra) (rest.drop scanned.extra) := by
  unfold scan at h
  split at h
  · next hbreak =>
    cases h
    obtain rfl := eq_of_beq hbreak
    exact reads_of_isSolid rfl (by simp [IsSolid]; decide)
  split at h
  · next hblank =>
    cases h
    exact reads_of_isSolid rfl (isSolid_run hblank solid_of_isBlank)
  split at h
  · next hmark =>
    obtain rfl := eq_of_beq hmark
    exact scanComment_reads h
  split at h
  · next hmark =>
    obtain rfl := eq_of_beq hmark
    exact scanText_reads h
  split at h
  · next hmark =>
    obtain rfl := eq_of_beq hmark
    exact scanCharacter_reads h
  split at h
  · next hdigit => exact scanNumber_reads hdigit h
  split at h
  · next hword =>
    cases h
    exact scanWord_reads (Text.isWordChar_of_isWordStart hword)
  split at h
  · next hoperator =>
    cases h
    exact reads_of_isSolid (shade_operatorKind _) (isSolid_run hoperator solid_of_isOperatorChar)
  · exact scanMark_reads h

end Lexeme

/-! ### Runs -/

instance (span : Span) (place : Nat) : Decidable (span.Holds place) :=
  inferInstanceAs (Decidable (_ ∧ _))

namespace LexState

/-- Something that has been read shades a place. -/
def Shows (state : LexState) (shade : Shade) (place : Nat) : Prop :=
  (∃ token ∈ state.tokens, token.kind.shade = shade ∧ token.span.Holds place) ∨
    ∃ trivia ∈ state.trivia, trivia.kind.shade = shade ∧ trivia.span.Holds place

variable {file : String} {state next last : LexState} {lexeme : Lexeme} {span : Span}
  {shade : Shade} {place : Nat}

theorem shows_push (kind : TokenKind) (value : String) :
    (state.push kind value span).Shows shade place ↔
      state.Shows shade place ∨ (kind.shade = shade ∧ span.Holds place) := by
  simp only [Shows, push, Array.mem_push, or_and_right, exists_or, exists_eq_left]
  exact or_right_comm

theorem shows_skip (kind : TriviaKind) :
    (state.skip kind span).Shows shade place ↔
      state.Shows shade place ∨ (kind.shade = shade ∧ span.Holds place) := by
  simp only [Shows, skip, Array.mem_push, or_and_right, exists_or, exists_eq_left]
  exact or_assoc.symm

/-- Comments are passed over. -/
theorem shows_comment_iff :
    state.Shows .comment place ↔ ∃ trivia ∈ state.trivia, trivia.kind.isComment = true ∧
      trivia.span.Holds place := by
  simp only [Shows, TokenKind.shade_ne_comment, TriviaKind.shade_eq_comment_iff, false_and,
    and_false, exists_false, false_or]

/-- What is neither plain nor a comment is a token, and not the one that ends the source. -/
theorem shows_iff_of_tokens {isMember : TokenKind → Bool} (hplain : shade ≠ .plain)
    (hcomment : shade ≠ .comment)
    (hshade : ∀ {kind : TokenKind}, kind.shade = shade ↔ isMember kind = true) :
    state.Shows shade place ↔ ∃ token ∈ state.tokens.push (.endAt file state.position),
      isMember token.kind = true ∧ token.span.Holds place := by
  have hend : isMember .endOfFile = false := Bool.eq_false_iff.2 fun h => hplain (hshade.2 h).symm
  simp only [Shows, hshade, TriviaKind.shade_of_ne hplain hcomment, false_and, and_false,
    exists_false, or_false, Array.mem_push, or_and_right, exists_or, exists_eq_left, Token.endAt,
    hend, Bool.false_eq_true]

/-- Recording a lexeme shades its span as the lexeme is. -/
theorem Records.shows_iff (h : state.Records lexeme span next) :
    next.Shows shade place ↔
      state.Shows shade place ∨ (lexeme.shade = shade ∧ span.Holds place) := by
  cases h with
  | skipped kind hlexeme =>
    rcases hlexeme with rfl | ⟨rfl, rfl, -⟩
    · exact shows_skip kind
    · exact shows_skip .newline
  | newline hlexeme => subst hlexeme; exact shows_push .newline _
  | token kind value hlexeme => subst hlexeme; exact shows_push kind value
  | opener bracket hlexeme => subst hlexeme; exact shows_push (.opener bracket) _
  | closer innermost outer hopened hlexeme =>
    subst hlexeme
    exact shows_push (.closer innermost.bracket) _

/-- What has been read of a text up to its end shades it as it is. -/
theorem Turns.exists_shaded {count : Nat} {text : List Char} {before : Option Char}
    (h : Turns file count state text last [])
    (hbefore : before.any Text.isWordChar = true → text.head?.any Text.isWordChar = false) :
    ∃ shades, Shaded before text shades ∧ ∀ shade place, last.Shows shade place ↔
      state.Shows shade place ∨ (state.position.offset ≤ place ∧
        shades[place - state.position.offset]? = some shade) := by
  generalize hleft : ([] : List Char) = left at h
  induction h generalizing before with
  | none state text =>
    subst hleft
    exact ⟨[], .nil before, by simp⟩
  | @more count extra state mid last first rest left hstep hmore ih =>
    obtain ⟨lexeme, recorded, hscan, hrecords, rfl⟩ := step_eq_ok hstep
    obtain ⟨hreads, hapart⟩ := Lexeme.scan_reads hscan
    obtain ⟨shades, hshaded, hshows⟩ := ih hapart hleft
    refine ⟨_, hreads.shaded hscan hbefore hshaded, fun shade place => ?_⟩
    have hspan : (state.spanOf file lexeme (first :: rest.take extra)).Holds place ↔
        state.position.offset ≤ place ∧
          place < (state.position.after (first :: rest.take extra)).offset := by
      rw [Span.Holds, spanOf_start, spanOf_stop, Position.after_offset]
      omega
    have hrecorded : recorded.Shows shade place ↔ _ := hrecords.shows_iff
    rw [hspan] at hrecorded
    rw [getElem?_replicate_append_iff, hshows, ← Position.after_offset, ← or_assoc]
    exact or_congr_left hrecorded

end LexState

namespace Highlight

/-- The highlighting of a source shows a place as one of some categories. -/
def Shows (source : String) (isMember : Category → Bool) (place : Nat) : Prop :=
  ∃ stretch ∈ stretches source, isMember stretch.category = true ∧ stretch.Covers place

theorem shows_iff_shadesFrom {source : String} {isMember : Category → Bool} {shade : Shade}
    (hshade : ∀ {category : Category}, category.shade = shade ↔ isMember category = true)
    (place : Nat) :
    Shows source isMember place ↔ (shadesFrom .root none source.toList)[place]? = some shade := by
  have hplaces := exists_covers_stretchesFrom_iff 0 .root none source.toList shade place
  simp only [hshade, Nat.zero_le, Nat.sub_zero, true_and] at hplaces
  exact hplaces

/-- Highlighting and reading agree: in a text that is read without a fault, comments, string and
character literals, and reserved words are shown exactly where they are read. -/
theorem shows_iff_of_accepted (source file : String)
    (haccepted : (LexRun.ofText source file).error? = none) (place : Nat) :
    (Shows source Category.isComment place ↔ ∃ trivia ∈ (LexRun.ofText source file).trivia,
        trivia.kind.isComment = true ∧ trivia.span.Holds place) ∧
      (Shows source Category.isQuoted place ↔ ∃ token ∈ (LexRun.ofText source file).tokens,
        token.kind.isQuoted = true ∧ token.span.Holds place) ∧
      (Shows source Category.isReserved place ↔ ∃ token ∈ (LexRun.ofText source file).tokens,
        token.kind.isKeyword = true ∧ token.span.Holds place) := by
  obtain ⟨count, last, left, hturns, hends⟩ := LexRun.ofText_ends source file
  generalize LexRun.ofText source file = run at haccepted hends ⊢
  cases hends with
  | unclosed => cases haccepted
  | fault => cases haccepted
  | settled hopened =>
    obtain ⟨shades, hshaded, hshows⟩ := @LexState.Turns.exists_shaded _ _ _ _ _ none hturns nofun
    have hread : ∀ shade, shades[place]? = some shade ↔ last.Shows shade place := by
      intro shade
      rw [hshows]
      simp [LexState.Shows, LexState.initial, Position.origin]
    rw [shows_iff_shadesFrom Category.shade_eq_comment_iff,
      shows_iff_shadesFrom Category.shade_eq_quoted_iff,
      shows_iff_shadesFrom Category.shade_eq_reserved_iff, shadesFrom_eq hshaded, hread, hread,
      hread]
    exact ⟨LexState.shows_comment_iff,
      LexState.shows_iff_of_tokens nofun nofun TokenKind.shade_eq_quoted_iff,
      LexState.shows_iff_of_tokens nofun nofun TokenKind.shade_eq_reserved_iff⟩

/-- In this text, words and quotes stand in a literal, in a comment and behind a letter that
highlighting does not know. -/
theorem exists_shows_of_accepted :
    ∃ source : String, (LexRun.ofText source "").error? = none ∧
      Shows source Category.isReserved 0 ∧ Shows source Category.isQuoted 7 ∧
      ¬Shows source Category.isReserved 12 ∧ Shows source Category.isComment 17 := by
  have haccepted : (LexRun.ofText "if \"a 'if\" éif # if\"" "").error? = none := by decide +kernel
  refine ⟨_, haccepted, (shows_iff_of_accepted _ _ haccepted 0).2.2.2 ?_,
    (shows_iff_of_accepted _ _ haccepted 7).2.1.2 ?_,
    fun h => absurd ((shows_iff_of_accepted _ _ haccepted 12).2.2.1 h) ?_,
    (shows_iff_of_accepted _ _ haccepted 17).1.2 ?_⟩
  · decide +kernel
  · decide +kernel
  · decide +kernel
  · decide +kernel

end Highlight

end SableFrontend
