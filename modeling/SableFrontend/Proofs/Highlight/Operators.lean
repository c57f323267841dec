import SableFrontend.Proofs.Highlight.Exponents

/-!
Operators in a highlighted text. An operator is read as the longest run of operator characters, and
highlighting shows the run as one stretch with two exceptions (`showsWhole_iff_of_accepted`): it takes the
sign of a bind off the front of a longer operator, and a sign may go to what it takes for a numeral with an
exponent (`ReadsAsExponent`).
-/

namespace SableFrontend

open Shade

namespace Highlight

variable {text before sign behind : List Char} {read : LexState}

/-! ### Operators -/

/-- Highlighting halts in front of an operator, or takes it with what stands in front of it. -/
theorem exists_halts_of_sign {mark : Char} {marks : List Char}
    (halone : Text.SignAlone before (mark :: marks) behind)
    (htext : text = before ++ (mark :: marks ++ behind))
    (hplain : (shadesFrom .root none text)[before.length]? = some .plain) :
    Halts text before .root (mark :: (marks ++ behind)) ∨
      ∃ shown state first rest whole fraction letter run,
        Halts text shown state (first :: rest) ∧ (Halts.stretch shown state first rest).Covers before.length ∧
        first :: rest = whole ++ fraction ++ letter :: mark :: behind ∧ marks = [] ∧
        before = shown ++ (whole ++ fraction ++ [letter]) ∧
        IsScientific whole fraction letter [mark] run ∧ behind.head?.any Text.isAsciiDigit = true := by
  have hmark := halone.all_isOperatorChar mark List.mem_cons_self
  have hplace : before.length < text.length := by
    rw [htext, List.length_append, List.length_append, List.length_cons]
    omega
  obtain ⟨shown, state, first, rest, h, hcovers⟩ := exists_halts hplace
  obtain ⟨htakes, -⟩ := h.takes hplain hcovers
  have hfront : ∃ front, before = shown ++ front ∧ first :: rest = front ++ (mark :: marks ++ behind) := by
    rcases List.append_eq_append_iff.1 (h.append_eq.trans htext) with
      ⟨front, hbefore, hsame⟩ | ⟨extra, rfl, hsame⟩
    · exact ⟨front, hbefore, hsame⟩
    · have hle := hcovers.1
      rw [Halts.stretch, List.length_append] at hle
      obtain rfl := List.length_eq_zero_iff.1 (Nat.le_zero.1 (Nat.le_of_add_le_add_left hle))
      exact ⟨[], by rw [List.append_nil, List.append_nil], hsame.symm⟩
  obtain ⟨front, rfl, hsame⟩ := hfront
  by_cases hnone : front = []
  · subst hnone
    obtain ⟨rfl, rfl⟩ := List.cons.inj hsame
    rw [List.append_nil] at hplain ⊢
    obtain rfl := h.eq_root hplain (isTextChar_of_isOperatorChar hmark)
    exact Or.inl h
  refine Or.inr ?_
  have hwhole : (Halts.stretch shown state first rest).text ++
      rest.drop ((matchAt state shown.getLast? first rest).length - 1) =
        front ++ (mark :: marks ++ behind) := by
    rw [← hsame]
    exact congrArg (first :: ·) (List.take_append_drop _ _)
  have hlonger : front.length < (Halts.stretch shown state first rest).text.length := by
    have hlast := hcovers.2
    rw [List.length_append] at hlast
    exact Nat.lt_of_add_lt_add_left hlast
  obtain ⟨more, hmore, hrest⟩ : ∃ more, (Halts.stretch shown state first rest).text =
      front ++ mark :: more ∧
      marks ++ behind = more ++ rest.drop ((matchAt state shown.getLast? first rest).length - 1) := by
    rcases List.append_eq_append_iff.1 hwhole with ⟨extra, hlength, -⟩ | ⟨extra, htaken, hextra⟩
    · rw [hlength, List.length_append] at hlonger
      omega
    · cases extra with
      | nil =>
        rw [htaken, List.append_nil] at hlonger
        exact absurd hlonger (Nat.lt_irrefl _)
      | cons c more =>
        obtain ⟨rfl, hmore⟩ := List.cons.inj hextra
        exact ⟨more, htaken, hmore⟩
  rw [hmore] at htakes
  have hends := halone.before_ends
  rw [List.getLast?_append, Option.or_of_isSome (List.getLast?_isSome.2 hnone)] at hends
  obtain ⟨whole, fraction, letter, rfl, hscientific⟩ := htakes.exists_exponent hnone hends hmark
  obtain ⟨digit, digits, rfl, hdigit, -⟩ := hscientific.run.exists_cons
  -- the operator is the sign alone, since a digit is behind it
  obtain rfl : marks = [] := by
    cases marks with
    | nil => rfl
    | cons c marks =>
      obtain ⟨rfl, -⟩ := List.cons.inj hrest
      have hc := halone.all_isOperatorChar c (List.mem_cons_of_mem _ List.mem_cons_self)
      rw [not_isOperatorChar_of_isNameChar (isNameChar_of_isAsciiDigit hdigit)] at hc
      cases hc
  rw [List.nil_append] at hrest
  refine ⟨shown, state, first, rest, whole, fraction, letter, _, h, hcovers, ?_, rfl, rfl, hscientific, ?_⟩
  · rw [hsame]
    simp only [List.append_assoc, List.cons_append, List.nil_append]
  · rw [hrest]
    exact hdigit

/-- An operator in a text is one stretch with the two exceptions, and its category tells the sign of a bind
from the others. -/
theorem isStretch_iff_of_signAlone (halone : Text.SignAlone before sign behind)
    (hbehind : read.Behind before (sign ++ behind))
    (hshows : ∀ shade place, read.Shows shade place →
      (shadesFrom .root none (before ++ (sign ++ behind)))[place]? = some shade)
    (hplain : (shadesFrom .root none (before ++ (sign ++ behind)))[before.length]? = some .plain) :
    ((∃ stretch ∈ stretchesFrom 0 .root none (before ++ (sign ++ behind)),
        stretch.offset = before.length ∧ stretch.text = sign) ↔
      ¬IsLongBind sign ∧ ¬ReadsAsExponent before sign behind) ∧
    ∀ stretch ∈ stretchesFrom 0 .root none (before ++ (sign ++ behind)),
      stretch.offset = before.length → stretch.text = sign →
        (stretch.category = .pseudoKeyword ↔ sign = ['=', '!']) := by
  obtain ⟨mark, marks, rfl⟩ := List.exists_cons_of_ne_nil halone.ne_nil
  -- a stretch that is the operator is the match where highlighting halts for it
  have heq : ∀ {shown state first rest}, Halts (before ++ (mark :: marks ++ behind)) shown state (first :: rest) →
      (Halts.stretch shown state first rest).Covers before.length →
      ∀ stretch ∈ stretchesFrom 0 .root none (before ++ (mark :: marks ++ behind)),
        stretch.offset = before.length → stretch.text = mark :: marks →
          stretch = Halts.stretch shown state first rest := by
    intro shown state first rest h hcovers stretch hmem hoffset htext
    refine h.eq_of_covers hmem ⟨Nat.le_of_eq hoffset, ?_⟩ hcovers
    rw [hoffset, htext]
    exact Nat.lt_add_of_pos_right (Nat.succ_pos _)
  have hshort : ∀ {shown state first rest},
      Halts (before ++ (mark :: marks ++ behind)) shown state (first :: rest) →
      (Halts.stretch shown state first rest).Covers before.length → shown.length < before.length →
      ∀ stretch ∈ stretchesFrom 0 .root none (before ++ (mark :: marks ++ behind)),
        stretch.offset = before.length → stretch.text ≠ mark :: marks := by
    rintro shown state first rest h hcovers hlt stretch hmem hoffset htext
    have hsame := congrArg Stretch.offset (heq h hcovers stretch hmem hoffset htext)
    rw [hoffset] at hsame
    exact Nat.lt_irrefl _ (hsame ▸ hlt)
  rcases exists_halts_of_sign halone rfl hplain with
    h | ⟨shown, state, first, rest, whole, fraction, letter, run, h, hcovers, hrest, rfl, rfl, hscientific,
      hstarts⟩
  · obtain ⟨htaken, hcategory⟩ := matchAt_sign before.getLast? halone.all_isOperatorChar halone.behind_starts
    have hcovers : (Halts.stretch before .root mark (marks ++ behind)).Covers before.length :=
      Halts.covers_first
    have hno : ¬ReadsAsExponent before (mark :: marks) behind := fun hreads => by
      obtain ⟨shown, state, first, rest, hother, hlt, hplace⟩ :=
        exists_halts_of_readsAsExponent rfl hbehind hshows hreads
      have hsame := congrArg Stretch.offset (h.eq_of_covers hother.mem_stretches hplace hcovers)
      exact Nat.ne_of_lt hlt hsame
    refine ⟨⟨?_, fun ⟨hlong, _⟩ => ⟨_, h.mem_stretches, rfl, htaken.2 hlong⟩⟩, ?_⟩
    · rintro ⟨stretch, hmem, hoffset, htext⟩
      rw [heq h hcovers stretch hmem hoffset htext] at htext
      exact ⟨htaken.1 htext, hno⟩
    · intro stretch hmem hoffset htext
      have hstretch := heq h hcovers stretch hmem hoffset htext
      rw [hstretch] at htext ⊢
      exact hcategory (htaken.1 htext)
  · have hlt : shown.length < (shown ++ (whole ++ fraction ++ [letter])).length := by
      simp only [List.length_append, List.length_singleton]
      omega
    have hletter := h.getElem?_eq_of_covers hplain hcovers
      ⟨Nat.le_sub_one_of_lt hlt, Nat.lt_of_le_of_lt (Nat.sub_le _ 1) hcovers.2⟩
    have hhalt := h
    rw [hrest] at hhalt
    have hreads := hhalt.readsAsExponent hscientific hstarts
      (halone.all_isOperatorChar mark List.mem_cons_self) hbehind hshows hletter
    refine ⟨iff_of_false ?_ fun hno => hno.2 hreads, fun stretch hmem hoffset htext => ?_⟩
    · rintro ⟨stretch, hmem, hoffset, htext⟩
      exact hshort h hcovers hlt stretch hmem hoffset htext
    · exact absurd htext (hshort h hcovers hlt stretch hmem hoffset)

/-- The stretch of a source that shows a token by itself. -/
def ShowsWhole (source : String) (token : Token) (stretch : Stretch) : Prop :=
  stretch ∈ stretches source ∧ stretch.offset = token.span.start ∧ stretch.text = token.value.toList

theorem operatorKind_eq_bind_iff {spelling : String} :
    Lexeme.operatorKind spelling = .bind ↔ spelling.toList = ['=', '!'] := by
  have hiff : spelling.toList = ['=', '!'] ↔ spelling = "=!" :=
    ⟨fun h => String.toList_injective h, fun h => h ▸ rfl⟩
  rw [hiff, Lexeme.operatorKind]
  split
  · next h =>
    rw [eq_of_beq h]
    exact iff_of_false nofun (by decide)
  split
  · next h => exact iff_of_true rfl (eq_of_beq h)
  · next h =>
    refine iff_of_false ?_ fun heq => h (beq_iff_eq.2 heq)
    split <;> nofun

/-- In a text that is read without a fault, highlighting shows an operator by itself, unless it is a longer
one that begins with the sign of a bind, or a sign that reads as that of an exponent. What it shows by itself
has the category of binds exactly if it has been read as a bind. -/
theorem showsWhole_iff_of_accepted (source file : String)
    (haccepted : (LexRun.ofText source file).error? = none) {token : Token}
    (hmem : token ∈ (LexRun.ofText source file).tokens) (hsign : token.kind.isSign = true) :
    ((∃ stretch, ShowsWhole source token stretch) ↔ ¬IsLongBind token.value.toList ∧
        ¬ReadsAsExponent (source.toList.take token.span.start.toNat) token.value.toList
          (source.toList.drop token.span.stop.toNat)) ∧
      ∀ stretch, ShowsWhole source token stretch →
        (stretch.category = .pseudoKeyword ↔ token.kind = .bind) := by
  obtain ⟨count, last, left, hturns, hends⟩ := LexRun.ofText_ends source file
  generalize LexRun.ofText source file = run at haccepted hends hmem
  cases hends with
  | unclosed => cases haccepted
  | fault => cases haccepted
  | settled hopened =>
    obtain ⟨shades, hshaded, hshows⟩ := @LexState.Turns.exists_shaded _ _ _ _ _ none hturns
      fun hnone => absurd hnone Bool.false_ne_true
    have hread : ∀ shade place, last.Shows shade place →
        (shadesFrom .root none source.toList)[place]? = some shade := by
      intro shade place hplace
      rw [shadesFrom_eq hshaded]
      have hsome := (hshows shade place).1 hplace
      simpa [LexState.Shows, LexState.initial, Position.origin] using hsome
    have hread_token : token ∈ last.tokens := by
      rcases Array.mem_push.1 hmem with hold | rfl
      · exact hold
      · cases hsign
    obtain ⟨⟨before, behind, htext, hstart, hstop, halone, hbehind⟩, hkind⟩ :=
      hturns.findsSigns.signs token hread_token hsign
    have htake : source.toList.take token.span.start.toNat = before := by
      rw [hstart, Int.toNat_natCast, htext, List.take_left]
    have hdrop : source.toList.drop token.span.stop.toNat = behind := by
      rw [hstop, ← Nat.cast_add, Int.toNat_natCast, htext, ← List.append_assoc]
      exact List.drop_left' (List.length_append ..)
    -- the operator is plain, since it has been read as what it is
    have hplain : (shadesFrom .root none source.toList)[before.length]? = some .plain := by
      refine hread .plain before.length (Or.inl ⟨token, hread_token, ?_, ?_⟩)
      · rw [hkind, Lexeme.shade_operatorKind]
      · have hpositive := List.length_pos_iff.2 halone.ne_nil
        rw [Span.Holds, hstart, hstop]
        omega
    rw [htext] at hplain hread
    obtain ⟨hwhole, hcategory⟩ := isStretch_iff_of_signAlone halone hbehind hread hplain
    rw [htake, hdrop, hkind, operatorKind_eq_bind_iff]
    simp only [ShowsWhole, stretches, hstart, Nat.cast_inj]
    rw [htext]
    exact ⟨hwhole, fun stretch hshown =>
      hcategory stretch hshown.1 hshown.2.1 hshown.2.2⟩

/-- This sign is behind a letter beyond ASCII and what may be a numeral, but no digit is behind it. -/
theorem exists_showsWhole_of_accepted :
    ∃ source : String, (LexRun.ofText source "").error? = none ∧
      ∃ token ∈ (LexRun.ofText source "").tokens, token.kind.isSign = true ∧
        ∃ stretch, ShowsWhole source token stretch ∧ stretch.category ≠ .pseudoKeyword := by
  have haccepted : (LexRun.ofText "é0b1e+x" "").error? = none := by decide +kernel
  have htoken : ∃ token ∈ (LexRun.ofText "é0b1e+x" "").tokens, token.kind = .operator ∧
      token.value.toList = ['+'] ∧ token.span.stop.toNat = 6 := by decide +kernel
  obtain ⟨token, hmem, hkind, hvalue, hstop⟩ := htoken
  have hsign : token.kind.isSign = true := by rw [hkind]; rfl
  have hlong : ¬IsLongBind token.value.toList := by rw [hvalue]; exact nofun
  have hreads : ¬ReadsAsExponent ("é0b1e+x".toList.take token.span.start.toNat) token.value.toList
      ("é0b1e+x".toList.drop token.span.stop.toNat) := fun h => by
    have hstarts := h.starts
    rw [hstop] at hstarts
    exact absurd hstarts (by decide)
  obtain ⟨hwhole, hcategory⟩ := showsWhole_iff_of_accepted _ _ haccepted hmem hsign
  obtain ⟨stretch, hstretch⟩ := hwhole.2 ⟨hlong, hreads⟩
  refine ⟨_, haccepted, token, hmem, hsign, stretch, hstretch, fun hpseudo => ?_⟩
  rw [(hcategory stretch hstretch).1 hpseudo] at hkind
  cases hkind

/-- Some operator of an accepted text is not shown whole. -/
def DividesSign (source : String) : Prop :=
  (LexRun.ofText source "").error? = none ∧
    ∃ token ∈ (LexRun.ofText source "").tokens, token.kind.isSign = true ∧
      ∀ stretch, ¬ShowsWhole source token stretch

/-- The longer operator is divided in the first text, and the sign goes to a numeral in the second. -/
theorem exists_not_showsWhole : DividesSign "a =!= b" ∧ DividesSign "é1e+5" := by
  have hother : ∀ (source : String) (h : 1 < (LexRun.ofText source "").tokens.size),
      (∀ stretch ∈ stretches source, stretch.text ≠ (LexRun.ofText source "").tokens[1].value.toList) →
      ∀ stretch, ¬ShowsWhole source (LexRun.ofText source "").tokens[1] stretch :=
    fun source h hall stretch hstretch => hall stretch hstretch.1 hstretch.2.2
  refine ⟨⟨by decide +kernel, _, Array.getElem_mem (by decide +kernel), ?_, hother _ ?_ ?_⟩,
    ⟨by decide +kernel, _, Array.getElem_mem (by decide +kernel), ?_, hother _ ?_ ?_⟩⟩
  all_goals decide +kernel

end Highlight

end SableFrontend
