import SableFrontend.Proofs.Token.WordToken

/-!
Operators among the tokens of a text. Each is a run of operator characters that no further one makes
longer, and its spelling decides on its kind (`LexState.Turns.findsSigns`). The lexeme in front of it is
kept with it, since a reader who knows other words than these may divide the two differently: what a lexeme
ends in is said once, by `Lexeme.scan_ends`.
-/

namespace SableFrontend

open Highlight

/-- The kinds of tokens that are runs of operator characters. -/
def TokenKind.isSign : TokenKind → Bool
  | .operator | .assign | .bind | .pipe => true
  | _ => false

theorem Text.isWordChar_of_isOperatorChar {c : Char} (h : Lexeme.isOperatorChar c = true) :
    isWordChar c = false := (solid_of_isOperatorChar h).2

theorem Text.isOperatorChar_of_isWordChar {c : Char} (h : isWordChar c = true) :
    Lexeme.isOperatorChar c = false :=
  Bool.eq_false_iff.2 fun hsign => by
    rw [isWordChar_of_isOperatorChar hsign] at h
    cases h

/-! ### What lexemes end in -/

/-- The last character of a numeral is a digit or an underscore. -/
theorem Numeral.Spells.exists_last {kind : LiteralKind} {text : List Char} (h : Spells kind text) :
    ∃ (group : List Char) (isDigit : Char → Bool), IsGroup isDigit group ∧
      text.getLast? = group.getLast? ∧
      (isDigit = Text.isAsciiDigit ∨ ∃ letter radix, Radix.ofLetter? letter = some radix ∧
        isDigit = radix.isDigit ∧ text = '0' :: letter :: group) := by
  have hbehind : ∀ {front group : List Char}, group ≠ [] →
      (front ++ group).getLast? = group.getLast? := fun hne => by
    rw [List.getLast?_append, Option.or_of_isSome]
    rwa [List.getLast?_isSome]
  have hfraction : ∀ {front fraction : List Char}, IsFraction fraction →
      ∃ group, IsGroup Text.isAsciiDigit group ∧ (front ++ fraction).getLast? = group.getLast? := by
    rintro front _ ⟨hgroup⟩
    refine ⟨_, hgroup, ?_⟩
    rw [List.append_cons]
    exact hbehind hgroup.ne_nil
  have hexponent : ∀ {front exponent : List Char}, IsExponent exponent →
      ∃ group, IsGroup Text.isAsciiDigit group ∧ (front ++ exponent).getLast? = group.getLast? := by
    intro front exponent h
    cases h with
    | plain _ hgroup =>
      refine ⟨_, hgroup, ?_⟩
      rw [List.append_cons]
      exact hbehind hgroup.ne_nil
    | signed _ _ hgroup =>
      refine ⟨_, hgroup, ?_⟩
      rw [List.append_cons, List.append_cons]
      exact hbehind hgroup.ne_nil
  cases h with
  | decimal hgroup => exact ⟨_, _, hgroup, rfl, Or.inl rfl⟩
  | @radix letter radix hletter group hgroup =>
    exact ⟨_, _, hgroup, @hbehind ['0', letter] _ hgroup.ne_nil, Or.inr ⟨_, _, hletter, rfl, rfl⟩⟩
  | fraction _ h =>
    obtain ⟨group, hgroup, hlast⟩ := hfraction h
    exact ⟨group, _, hgroup, hlast, Or.inl rfl⟩
  | exponent _ h =>
    obtain ⟨group, hgroup, hlast⟩ := hexponent h
    exact ⟨group, _, hgroup, hlast, Or.inl rfl⟩
  | both _ _ h =>
    obtain ⟨group, hgroup, hlast⟩ := hexponent h
    exact ⟨group, _, hgroup, hlast, Or.inl rfl⟩

/-- Whether a lexeme is a run of operator characters. -/
def Lexeme.isSign : Lexeme → Bool
  | .token kind _ => kind.isSign
  | _ => false

namespace Lexeme

variable {first : Char} {rest : List Char} {scanned : ScannedLexeme}

/-- How a lexeme ends, with what is left behind it: in a character that goes into no word and no operator,
at the end of a line, as a numeral, as a word or as an operator. -/
inductive Ends (lexeme : Lexeme) (shown left : List Char) : Prop
  | mark (hlexeme : lexeme.isSign = false) (c : Char) (hlast : shown.getLast? = some c)
      (hword : Text.isWordChar c = false) (hsign : isOperatorChar c = false)
  | line (hlexeme : lexeme.isSign = false) (hleft : ∀ c, left.head? = some c → c = '\n')
  | number (hlexeme : lexeme.isSign = false) (kind : LiteralKind)
      (hspells : Numeral.Spells kind shown) (hleft : left.head?.any Text.isWordChar = false)
  | word (hlexeme : lexeme = .token (wordKind shown) (String.ofList shown))
      (hstart : ∀ c, shown.head? = some c → Text.isWordStart c = true)
      (hshown : ∀ c ∈ shown, Text.isWordChar c = true)
      (hleft : left.head?.any Text.isWordChar = false)
  | sign (hlexeme : lexeme = .token (operatorKind (String.ofList shown)) (String.ofList shown))
      (hshown : ∀ c ∈ shown, isOperatorChar c = true)
      (hleft : left.head?.any isOperatorChar = false)

theorem scanComment_ends (h : scanComment rest = .ok scanned) :
    Ends scanned.lexeme ('#' :: rest.take scanned.extra) (rest.drop scanned.extra) := by
  unfold scanComment at h
  split at h
  · split at h
    · next length hclose =>
      cases h
      refine .mark rfl '#' ?_ (by decide) (by decide)
      rw [Nat.add_comm, List.take_add, List.getLast?_cons, List.getLast?_append,
        closeOfBlock?_ends hclose]
      rfl
    · cases h
  · cases h
    refine .line rfl fun c hc => ?_
    have hstop := any_head?_drop_takeWhile (· != '\n') rest
    rw [hc] at hstop
    simpa using hstop

theorem scanText_ends (h : scanText rest = .ok scanned) :
    Ends scanned.lexeme ('"' :: rest.take scanned.extra) (rest.drop scanned.extra) := by
  obtain ⟨⟨denoted, whole⟩, hread, heq⟩ := exists_of_bind_eq_ok h
  cases heq
  obtain ⟨shown, left, rfl, rfl, hlast, -⟩ := shadesFrom_text hread none
  refine .mark rfl '"' ?_ (by decide) (by decide)
  rw [Nat.add_sub_cancel_left, List.take_left, List.getLast?_cons, hlast]
  rfl

theorem scanCharacter_ends (h : scanCharacter rest = .ok scanned) :
    Ends scanned.lexeme ('\'' :: rest.take scanned.extra) (rest.drop scanned.extra) := by
  obtain ⟨c, shown, left, hlexeme, rfl, hextra, -⟩ := spells_of_scanCharacter h
  refine .mark (by rw [hlexeme]; rfl) '\'' ?_ (by decide) (by decide)
  rw [hextra, List.append_cons, List.take_left' (by rw [List.length_append]; rfl), List.getLast?_cons,
    List.getLast?_concat]
  rfl

theorem scanNumber_ends (hdigit : Text.isDigit first = true) (h : scanNumber first rest = .ok scanned) :
    Ends scanned.lexeme (first :: rest.take scanned.extra) (rest.drop scanned.extra) := by
  obtain ⟨shape, hread, h⟩ := exists_of_bind_eq_ok h
  cases h
  obtain ⟨spelling, left, htext, hlength, hspells⟩ :=
    Numeral.read_spells (by simpa using hdigit) hread
  obtain ⟨count, hcount⟩ := Nat.exists_eq_succ_of_ne_zero
    (hlength ▸ (Nat.ne_of_gt (List.length_pos_iff.2 hspells.ne_nil)))
  have hend := Numeral.read_end hread
  rw [hcount, List.drop_succ_cons] at hend
  have hshown : first :: rest.take count = spelling := by
    rw [← List.take_succ_cons, ← Nat.succ_eq_add_one, ← hcount, htext, ← hlength, List.take_left]
  simp only [hcount, Nat.succ_sub_one, hshown]
  exact .number rfl shape.kind hspells hend

/-- What the lexeme at the start of a text ends in. -/
theorem scan_ends (h : scan first rest = .ok scanned) :
    Ends scanned.lexeme (first :: rest.take scanned.extra) (rest.drop scanned.extra) := by
  unfold scan at h
  split at h
  · next hbreak =>
    cases h
    obtain rfl := eq_of_beq hbreak
    exact .mark rfl '\n' rfl (by decide) (by decide)
  split at h
  · next hblank =>
    cases h
    have hall : ∀ c ∈ first :: rest.takeWhile isBlank, isBlank c = true :=
      List.forall_mem_cons.2 ⟨hblank, List.all_eq_true.1 List.all_takeWhile⟩
    have hlast := List.getLast?_cons (a := first) (l := rest.takeWhile isBlank)
    have hmem := hall _ (List.mem_of_getLast? hlast)
    simp only [scanRun, take_takeWhile_length]
    refine .mark rfl _ hlast (solid_of_isBlank hmem).2 ?_
    simp only [isBlank, Bool.or_eq_true, beq_iff_eq] at hmem
    rcases hmem with (hc | hc) | hc <;> rw [hc] <;> decide
  split at h
  · next hmark =>
    obtain rfl := eq_of_beq hmark
    exact scanComment_ends h
  split at h
  · next hmark =>
    obtain rfl := eq_of_beq hmark
    exact scanText_ends h
  split at h
  · next hmark =>
    obtain rfl := eq_of_beq hmark
    exact scanCharacter_ends h
  split at h
  · next hdigit => exact scanNumber_ends hdigit h
  split at h
  · next hstart =>
    cases h
    simp only [scanRun, take_takeWhile_length]
    refine .word rfl (fun c hc => Option.some.inj hc ▸ hstart) ?_ (any_head?_drop_takeWhile _ _)
    exact List.forall_mem_cons.2
      ⟨Text.isWordChar_of_isWordStart hstart, List.all_eq_true.1 List.all_takeWhile⟩
  split at h
  · next hsign =>
    cases h
    simp only [scanRun, take_takeWhile_length]
    exact .sign rfl (List.forall_mem_cons.2 ⟨hsign, List.all_eq_true.1 List.all_takeWhile⟩)
      (any_head?_drop_takeWhile _ _)
  · next hsign =>
    have hword := (solid_of_scanMark h).2
    unfold scanMark at h
    split at h
    · cases h
      exact .mark rfl first rfl hword (Bool.eq_false_iff.2 hsign)
    · cases h
      exact .mark rfl first rfl hword (Bool.eq_false_iff.2 hsign)
    · next hkind =>
      cases h
      refine .mark ?_ first rfl hword (Bool.eq_false_iff.2 hsign)
      unfold punctuation? at hkind
      repeat' split at hkind
      all_goals cases hkind
      all_goals rfl
    · cases h

/-- No operator goes on behind a lexeme. -/
theorem Ends.sign_apart {lexeme : Lexeme} {shown left : List Char} (h : Ends lexeme shown left)
    (hlast : shown.getLast?.any isOperatorChar = true) : left.head?.any isOperatorChar = false := by
  have hword : (∀ c, shown.getLast? = some c → Text.isWordChar c = true) →
      left.head?.any isOperatorChar = false := by
    intro hall
    obtain ⟨c, hc, hsign⟩ := (Option.any_eq_true _ _).1 hlast
    rw [Text.isOperatorChar_of_isWordChar (hall c hc)] at hsign
    cases hsign
  cases h with
  | mark _ c hc _ hsign =>
    rw [hc, Option.any_some, hsign] at hlast
    cases hlast
  | line _ hleft =>
    cases hhead : left.head? with
    | none => rfl
    | some c =>
      obtain rfl := hleft c hhead
      decide
  | number _ kind hspells =>
    refine hword fun c hc => ?_
    obtain ⟨group, isDigit, hgroup, hsame, hdigit⟩ := hspells.exists_last
    rw [hsame] at hc
    rcases hgroup.members c (List.mem_of_getLast? hc) with hmem | rfl
    · rcases hdigit with rfl | ⟨letter, radix, -, rfl, -⟩
      · exact Numeral.isWordChar_of_isAsciiDigit c hmem
      · exact isWordChar_of_isNameChar (isNameChar_of_radixDigit hmem)
    · decide
  | word _ _ hshown => exact hword fun c hc => hshown c (List.mem_of_getLast? hc)
  | sign _ _ hleft => exact hleft

theorem isSign_wordKind (word : List Char) : (wordKind word).isSign = false := by
  unfold wordKind
  split
  · rfl
  · split <;> rfl

/-- A lexeme that is a run of operator characters. -/
theorem Ends.eq_of_isSign {lexeme : Lexeme} {shown left : List Char} (h : Ends lexeme shown left)
    (hsign : lexeme.isSign = true) :
    lexeme = .token (operatorKind (String.ofList shown)) (String.ofList shown) ∧
      (∀ c ∈ shown, isOperatorChar c = true) ∧ left.head?.any isOperatorChar = false := by
  cases h with
  | mark hlexeme | line hlexeme | number hlexeme =>
    rw [hlexeme] at hsign
    cases hsign
  | word hlexeme =>
    rw [hlexeme] at hsign
    exact absurd ((isSign_wordKind shown).symm.trans hsign) Bool.false_ne_true
  | sign hlexeme hshown hleft => exact ⟨hlexeme, hshown, hleft⟩

end Lexeme

/-! ### What stands in front of an operator -/

namespace LexState

variable {file : String} {text left front : List Char} {state next last : LexState}

/-- What has been read in front of a place: nothing, or a lexeme behind other text. No word goes on where
the lexeme begins, and it has been recorded as what it is. -/
inductive Behind (state : LexState) : List Char → List Char → Prop
  | start (left : List Char) : Behind state [] left
  | lexeme {before shown left : List Char} {lexeme : Lexeme} (hne : shown ≠ [])
      (hends : lexeme.Ends shown left) (hapart : Lexeme.Apart before shown)
      (hshows : ∀ place, before.length ≤ place → place < before.length + shown.length →
        state.Shows lexeme.shade place) : Behind state (before ++ shown) left

theorem Behind.mono (h : state.Behind front left)
    (hshows : ∀ shade place, state.Shows shade place → next.Shows shade place) :
    next.Behind front left := by
  cases h with
  | start => exact .start left
  | lexeme hne hends hapart hplaces =>
    exact .lexeme hne hends hapart fun place hle hlt => hshows _ _ (hplaces place hle hlt)

theorem Behind.sign_apart (h : state.Behind front left)
    (hlast : front.getLast?.any Lexeme.isOperatorChar = true) :
    left.head?.any Lexeme.isOperatorChar = false := by
  cases h with
  | start => cases hlast
  | lexeme hne hends =>
    rw [List.getLast?_append, Option.or_of_isSome (List.getLast?_isSome.2 hne)] at hlast
    exact hends.sign_apart hlast

end LexState

/-- A run of operator characters between two texts, neither of which makes it longer. -/
structure Text.SignAlone (before sign behind : List Char) : Prop where
  ne_nil : sign ≠ []
  all_isOperatorChar : ∀ c ∈ sign, Lexeme.isOperatorChar c = true
  before_ends : before.getLast?.any Lexeme.isOperatorChar = false
  behind_starts : behind.head?.any Lexeme.isOperatorChar = false

/-- An operator of a text stands alone, behind a lexeme that has been read, and its spelling decides on its
kind. -/
structure Token.IsSignOf (text : List Char) (state : LexState) (token : Token) : Prop where
  exists_split : ∃ before behind, text = before ++ (token.value.toList ++ behind) ∧
    token.span.start = before.length ∧ token.span.stop = before.length + token.value.toList.length ∧
      Text.SignAlone before token.value.toList behind ∧
      state.Behind before (token.value.toList ++ behind)
  kind_eq : token.kind = Lexeme.operatorKind token.value

theorem Token.IsSignOf.mono {text : List Char} {state next : LexState} {token : Token}
    (h : token.IsSignOf text state)
    (hshows : ∀ shade place, state.Shows shade place → next.Shows shade place) :
    token.IsSignOf text next := by
  obtain ⟨⟨before, behind, htext, hstart, hstop, halone, hbehind⟩, hkind⟩ := h
  exact ⟨⟨before, behind, htext, hstart, hstop, halone, hbehind.mono hshows⟩, hkind⟩

namespace LexState

variable {file : String} {text left front : List Char} {state next last : LexState}

/-- The operators of a text so far, and how it goes on. -/
structure FindsSigns (text : List Char) (state : LexState) (left : List Char) : Prop where
  left_eq : left = text.drop state.position.offset
  apart : Lexeme.Apart (text.take state.position.offset) left
  behind : state.Behind (text.take state.position.offset) left
  signs : ∀ token ∈ state.tokens, token.kind.isSign = true → token.IsSignOf text state

theorem findsSigns_initial (text : List Char) : FindsSigns text initial text :=
  ⟨rfl, nofun, .start text, fun token hmem => absurd hmem (Array.not_mem_empty token)⟩

theorem step_findsSigns {first : Char} {rest : List Char} {extra : Nat}
    (hstep : state.step file first rest = .ok (next, extra))
    (h : FindsSigns text state (first :: rest)) : FindsSigns text next (rest.drop extra) := by
  obtain ⟨lexeme, recorded, hscan, hrecords, hnext⟩ := step_eq_ok hstep
  have hends := Lexeme.scan_ends hscan
  have hapart := (Lexeme.scan_reads hscan).2
  dsimp only at hends hapart
  have hdrop : text.drop state.position.offset = (first :: rest.take extra) ++ rest.drop extra := by
    rw [← h.left_eq, List.cons_append, List.take_append_drop]
  have hle : state.position.offset ≤ text.length := by
    have hlength := congrArg List.length h.left_eq
    rw [List.length_drop, List.length_cons] at hlength
    omega
  have hbefore : (text.take state.position.offset).length = state.position.offset :=
    List.length_take_of_le hle
  have hoffset : next.position.offset = state.position.offset + (first :: rest.take extra).length := by
    rw [hnext, Position.after_offset]
  have htake : text.take next.position.offset =
      text.take state.position.offset ++ (first :: rest.take extra) := by
    rw [hoffset, List.take_add, hdrop, List.take_left]
  -- what has been recorded stays recorded, and the lexeme is
  have hrecorded : ∀ {shade place}, next.Shows shade place ↔ state.Shows shade place ∨
      (lexeme.shade = shade ∧ (state.spanOf file lexeme (first :: rest.take extra)).Holds place) := by
    intro shade place
    rw [hnext]
    exact hrecords.shows_iff
  have hshows : ∀ shade place, state.Shows shade place → next.Shows shade place :=
    fun _ _ hplace => hrecorded.2 (Or.inl hplace)
  have hbehind : next.Behind (text.take next.position.offset) (rest.drop extra) := by
    rw [htake]
    refine .lexeme (List.cons_ne_nil _ _) hends h.apart fun place hfirst hlast => ?_
    rw [hbefore] at hfirst hlast
    refine hrecorded.2 (Or.inr ⟨rfl, ?_⟩)
    rw [Span.Holds, spanOf_start, spanOf_stop]
    omega
  have hpush : ∀ (kind : TokenKind) {value : String}, lexeme = .token kind value ∨ kind.isSign = false →
      ∀ token ∈ state.tokens.push ⟨kind, value, state.spanOf file lexeme (first :: rest.take extra)⟩,
        token.kind.isSign = true → token.IsSignOf text next := by
    intro kind value hkind token hmem hsign
    rcases Array.mem_push.1 hmem with hold | rfl
    · exact (h.signs token hold hsign).mono hshows
    rcases hkind with rfl | hno
    · obtain ⟨hlexeme, hshown, hleft⟩ := hends.eq_of_isSign hsign
      obtain ⟨rfl, rfl⟩ := Lexeme.token.inj hlexeme
      refine ⟨⟨text.take state.position.offset, rest.drop extra, ?_, ?_, ?_, ?_, ?_⟩, rfl⟩
      · rw [String.toList_ofList, ← hdrop, List.take_append_drop]
      · rw [spanOf_start, hbefore]
      · rw [spanOf_stop, hbefore, String.toList_ofList]
      · rw [String.toList_ofList]
        refine ⟨List.cons_ne_nil _ _, hshown, Bool.eq_false_iff.2 fun hlast => ?_, hleft⟩
        have hfirst := h.behind.sign_apart hlast
        rw [List.head?_cons, Option.any_some, hshown first List.mem_cons_self] at hfirst
        cases hfirst
      · rw [String.toList_ofList, List.cons_append, List.take_append_drop]
        exact h.behind.mono hshows
    · rw [hno] at hsign
      cases hsign
  refine ⟨?_, ?_, hbehind, ?_⟩
  · rw [hoffset, ← List.drop_drop, hdrop, List.drop_left]
  · rw [htake]
    intro hlast
    rw [List.getLast?_append, List.getLast?_cons] at hlast
    refine hapart ?_
    rw [List.getLast?_cons]
    exact hlast
  · rw [show next.tokens = recorded.tokens by rw [hnext]]
    clear hrecorded hnext
    cases hrecords with
    | skipped => exact fun token hmem hsign => (h.signs token hmem hsign).mono hshows
    | newline => exact hpush .newline (Or.inr rfl)
    | token kind value hlexeme => exact hpush kind (Or.inl hlexeme)
    | opener bracket => exact hpush (.opener bracket) (Or.inr rfl)
    | closer innermost => exact hpush (.closer innermost.bracket) (Or.inr rfl)

/-- The operators of a text stand alone, after every sequence of turns from its start. -/
theorem Turns.findsSigns {count : Nat} (h : Turns file count initial text last left) :
    FindsSigns text last left :=
  h.invariant (fun _ _ _ _ _ hstep hstate => step_findsSigns hstep hstate) (findsSigns_initial text)

end LexState

end SableFrontend
