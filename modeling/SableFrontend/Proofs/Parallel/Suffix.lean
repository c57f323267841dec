import SableFrontend.Proofs.Parallel.Rounds

/-!
The end of a stream, behind another beginning. From a place on at which an item begins, another stream
has the same tokens at other places (`Setting.EndsLike`). What is read from there does not look back,
except for the token directly in front, which an item does not touch (`TokenStream.AtItem`). So the
rest of a module is read in the same way on both (`EndsLike.moduleRest`).
-/

namespace SableFrontend

open TokenStream Parser Setting

/-! ### Places between items -/

/-- At the outside of all delimiters skipping leads behind a separator there, or to the end. -/
theorem TokenStream.Balanced.resumePosition_outside {stream : TokenStream} (balanced : stream.Balanced)
    {position : Nat} (hlt : position < stream.size) :
    stream.kind (stream.resumePosition 0 false position) = .endOfFile ∨
      ∃ stop, position ≤ stop ∧ stream.resumePosition 0 false position = stop + 1 ∧
        stream.opened stop = [] ∧ (stream.kind stop).isSeparator = true := by
  fun_induction resumePosition stream 0 false position with
  | case1 position hnext kind depth hstop =>
    rcases hstop with hend | hout | ⟨hdepth, hcloser⟩
    · exact Or.inl hend
    · exact absurd hout (Nat.not_lt_zero _)
    · -- a closer has an opener before it
      obtain ⟨bracket, hbracket⟩ := TokenKind.exists_of_isCloser hcloser
      obtain ⟨outer, houter⟩ := balanced.closer_fits hlt hbracket
      have hlength : depth = (stream.opened position).length := balanced.depth_eq hlt
      rw [hdepth, houter] at hlength
      cases hlength
  | case2 position hnext kind depth hstop hseparator =>
    have hlength : depth = (stream.opened position).length := balanced.depth_eq hlt
    rw [hseparator.1] at hlength
    refine Or.inr ⟨position, Nat.le_refl _, rfl, List.length_eq_zero_iff.1 hlength.symm, ?_⟩
    simpa [TokenKind.separates] using hseparator.2
  | case3 position hnext kind depth hstop hseparator ih =>
    refine (ih hnext).imp_right ?_
    rintro ⟨stop, hle, hstop⟩
    exact ⟨stop, by omega, hstop⟩
  | case4 position hlast =>
    refine Or.inl ?_
    rw [show position = stream.size - 1 by omega]
    exact stream.kind_last

namespace TokenStream

/-- An item begins at a place, or the stream ends there, and nothing stands directly in front. -/
structure AtItem (stream : TokenStream) (position : Nat) : Prop where
  not_separator : (stream.kind position).isSeparator = false
  afresh : stream.kind position = .endOfFile ∨ position = 0 ∨
    (stream.kind (position - 1)).isSeparator = true

/-- Behind separators an item begins, if one begins where there are none. -/
theorem atItem_skipWhile {stream : TokenStream} {position : Nat} (hlt : position < stream.size)
    (h : (stream.kind position).isSeparator = false → stream.AtItem position) :
    stream.AtItem (stream.skipWhile (·.separates false) position) := by
  have hseparates : ∀ kind : TokenKind, kind.separates false = kind.isSeparator :=
    fun kind => by rw [TokenKind.separates, Bool.false_and, Bool.or_false]
  fun_induction TokenStream.skipWhile stream (·.separates false) position with
  | case1 position _ hmember ih =>
    rw [hseparates] at hmember
    refine ih (succ_lt_size hlt fun hend => ?_) fun hkind => ⟨hkind, Or.inr (Or.inr hmember)⟩
    rw [hend] at hmember
    cases hmember
  | case2 position _ hmember => exact h (by rw [← hseparates]; exact Bool.eq_false_iff.2 hmember)
  | case3 position hge => exact absurd hlt hge

end TokenStream

namespace Setting

variable {set : Setting} {within : Enclosure} {state final : ParserState} {α : Type}

/-- What was tried at the outside leads to where an item begins, apart from separators. -/
theorem atItem_of_settle {attempt : Parser (Bool × α)} {answer : α} (hwithin : within.IsOutermost)
    (hattempt : set.Runs attempt state
      (fun result middle => set.Attempted within state result.1 middle) fun _ _ => True)
    (hrun : settle within attempt set.stream state = (.ok answer, final)) :
    set.stream.AtItem (set.stream.skipWhile (·.separates false) final.position) := by
  rw [settle_apply, hwithin.level_eq, hwithin.commas_eq] at hrun
  unfold Setting.Runs at hattempt
  cases hleft : attempt set.stream state with
  | mk result middle =>
    rw [hleft] at hrun hattempt
    cases result with
    | error abort => cases hrun
    | ok result =>
      obtain ⟨ended, value⟩ := result
      cases ended with
      | true =>
        obtain ⟨-, rfl⟩ := Prod.mk.inj hrun
        refine atItem_skipWhile hattempt.stays.lt fun hkind => ⟨hkind, Or.inl ?_⟩
        have hends := (hattempt.ends rfl).2
        rw [Enclosure.endsItem, hwithin.closer_eq, hwithin.commas_eq, TokenKind.separates, hkind]
          at hends
        simpa using hends
      | false =>
        obtain ⟨-, rfl⟩ := Prod.mk.inj hrun
        obtain ⟨hstay, -, -, -⟩ := set.balanced.within_resumePosition false
          (show 0 = (set.stream.opened 0).length by rw [set.stream.opened_zero]; rfl)
          (⟨Nat.zero_le _, hattempt.stays.lt, fun k _ _ => by
            rw [set.stream.opened_zero]; exact List.nil_suffix⟩ :
              set.stream.Within 0 middle.position)
        refine atItem_skipWhile hstay.lt fun hkind => ⟨hkind, ?_⟩
        refine (set.balanced.resumePosition_outside hattempt.stays.lt).imp_right ?_
        rintro ⟨stop, -, hresume, -, hseparator⟩
        dsimp only
        rw [hresume]
        exact Or.inr hseparator

theorem atItem_of_nextItem {item : Parser α} {what : String} {answers more : List α}
    (hwithin : within.IsOutermost) (hitem : set.Proceeds true item state)
    (hrun : nextItem item within what answers set.stream state = (.ok more, final)) :
    set.stream.AtItem final.position := by
  rw [nextItem_apply, hwithin.commas_eq] at hrun
  cases hsettle : settle within (attemptItem item within what answers) set.stream state with
  | mk result middle =>
    rw [hsettle] at hrun
    cases result with
    | error abort => cases hrun
    | ok value =>
      obtain ⟨-, rfl⟩ := Prod.mk.inj hrun
      exact atItem_of_settle hwithin (runs_attemptItem hitem) hsettle

theorem atItem_of_rounds {item : Parser α} {what : String} {answers more : List α}
    (hwithin : within.IsOutermost) (hpart : set.IsPart within) (hitem : set.Obeys true item)
    (h : Rounds set.stream item within what answers state more final)
    (hbetween : set.Between within state) (hstate : set.stream.AtItem state.position) :
    set.stream.AtItem final.position := by
  induction h with
  | refl => exact hstate
  | head hstarts hnext _ _ ih =>
    have hmiddle := reached_of_nextItem hpart hitem hbetween hstarts hnext
    exact ih (hmiddle.between hbetween)
      (atItem_of_nextItem hwithin (hitem _ hbetween.lt) hnext)

theorem atItem_of_opening {name : Option String}
    (hrun : moduleOpening set.stream .initial = (.ok (name, within), final)) :
    set.stream.AtItem final.position := by
  have hinitial : set.Reached .initial false [] .initial := .refl set.stream.size_pos
  have hbegin := hinitial.skip
  have hfirst : set.stream.AtItem (ParserState.initial.skip set.stream).position :=
    atItem_skipWhile set.stream.size_pos fun hkind => ⟨hkind, Or.inr (Or.inl rfl)⟩
  rw [moduleOpening_apply] at hrun
  cases hheader : optionalHeader set.stream (ParserState.initial.skip set.stream) with
  | mk result middle =>
    rw [hheader] at hrun
    rw [optionalHeader_apply] at hheader
    cases result with
    | error abort => cases hrun
    | ok name' =>
      obtain ⟨-, rfl⟩ := Prod.mk.inj hrun
      split at hheader
      · next hkind =>
        have hitem := atItem_of_settle Enclosure.isOutermost_outermost
          (runs_attemptHeader hbegin.lt hkind Enclosure.isOutermost_outermost) hheader
        exact hitem
      · obtain ⟨-, rfl⟩ := Prod.mk.inj hheader
        exact atItem_skipWhile hbegin.lt fun _ => hfirst

end Setting

/-! ### The same end -/

/-- Of a stretch up to the end of the stream everything is seen. -/
theorem Parallel.seen_of_final {set : Setting} {P : Parallel set} (hfinal : P.final = true)
    {α : Type} {run : Except Abort α × ParserState} (hle : run.2.position ≤ P.stop) :
    P.Seen never run := by
  have hlost : ¬P.Lost run.2 := by
    rintro (hpast | ⟨hnot, -⟩)
    · exact Nat.not_lt_of_le hle hpast
    · exact hnot (Or.inl hfinal)
  obtain ⟨result, final⟩ := run
  cases result with
  | ok answer => exact ⟨hlost, id⟩
  | error abort => exact ⟨hlost, Or.inl (P.ends hfinal).1⟩

theorem Parallel.kind_stop_of_succ {set : Setting} {P : Parallel set}
    (h : P.stop + 1 = set.stream.size) : set.stream.kind P.stop = .endOfFile := by
  rw [show P.stop = set.stream.size - 1 by omega]
  exact set.stream.kind_last

/-- A token that nothing stands directly in front of does not get its form from what is in front. -/
theorem TokenStream.AtItem.formBefore_eq {stream : TokenStream} {position : Nat}
    (h : stream.AtItem position) (hkind : stream.kind position = .opener .square) :
    stream.formBefore? position = none := by
  rcases h.afresh with hend | rfl | hseparator
  · rw [hend] at hkind
    cases hkind
  · rfl
  · refine formBefore?_eq_none (fun heq => ?_) fun heq => ?_ <;> rw [heq] at hseparator <;>
      cases hseparator

/-- Another stream ends with the tokens of a stream from a place on, at other places, and what is in
front gives no bracket there another form. -/
structure Setting.EndsLike (set : Setting) (other : TokenStream) (relocation : Relocation)
    (first next : Nat) : Prop where
  lt : first < set.stream.size
  size_eq : other.size + first = set.stream.size + next
  token_add : ∀ offset, first + offset < set.stream.size →
    other.token (next + offset) = (set.stream.token (first + offset)).relocate relocation
  touches_add : ∀ offset, first + (offset + 1) < set.stream.size →
    (other.token (next + offset)).touches (other.token (next + (offset + 1))) =
      (set.stream.token (first + offset)).touches (set.stream.token (first + (offset + 1)))
  depth_add : ∀ offset, first + offset < set.stream.size →
    other.depth (next + offset) = set.stream.depth (first + offset)
  opened_eq : set.stream.opened first = []
  formBefore_eq : set.stream.kind first = .opener .square →
    other.formBefore? next = set.stream.formBefore? first

/-- Separators are passed over without leaving what is open. -/
theorem TokenStream.within_separators {stream : TokenStream} {position : Nat}
    (hlt : position < stream.size) :
    stream.Within position (stream.skipWhile (·.separates false) position) ∧
      stream.opened (stream.skipWhile (·.separates false) position) = stream.opened position :=
  have h := within_skipWhile (fun _ => TokenKind.isPlain_of_separates) hlt
  ⟨h.1, h.2.1⟩

/-- A stream that goes on like another one has as many tokens of a kind there. -/
theorem TokenStream.exists_skipWhile_add {stream other : TokenStream} {first next : Nat}
    (isMember : TokenKind → Bool) (hsize : other.size + first = stream.size + next)
    (hkind : ∀ offset, first + offset < stream.size →
      other.kind (next + offset) = stream.kind (first + offset)) :
    ∃ skipped, stream.skipWhile isMember first = first + skipped ∧
      other.skipWhile isMember next = next + skipped := by
  rw [TokenStream.skipWhile, TokenStream.skipWhile.eq_def other]
  by_cases hlt : first < stream.size
  · have hsame : other.kind next = stream.kind first := hkind 0 hlt
    rw [if_pos hlt, if_pos (show next < other.size by omega), hsame]
    split
    · have hsize' : other.size + (first + 1) = stream.size + (next + 1) := by omega
      obtain ⟨skipped, hleft, hright⟩ :=
        exists_skipWhile_add isMember hsize' fun offset hoffset => by
          rw [Nat.add_assoc, Nat.add_assoc]
          exact hkind (1 + offset) (by omega)
      exact ⟨1 + skipped, by rw [hleft, Nat.add_assoc], by rw [hright, Nat.add_assoc]⟩
    · exact ⟨0, rfl, rfl⟩
  · rw [if_neg hlt, if_neg (show ¬next < other.size by omega)]
    exact ⟨0, rfl, rfl⟩
termination_by stream.size - first

/-- A stream that goes on like another one from a place at the outside of all delimiters on ends
like it, behind the separators there. -/
theorem Setting.endsLike_skipWhile {set : Setting} {other : TokenStream} {relocation : Relocation}
    {first next : Nat} (hlt : first < set.stream.size)
    (hsize : other.size + first = set.stream.size + next)
    (htoken : ∀ offset, first + offset < set.stream.size →
      other.token (next + offset) = (set.stream.token (first + offset)).relocate relocation)
    (hdepth : ∀ offset, first + offset < set.stream.size →
      other.depth (next + offset) = set.stream.depth (first + offset))
    (htouches : ∀ left right : Token,
      (left.relocate relocation).touches (right.relocate relocation) = left.touches right)
    (hopened : set.stream.opened first = [])
    (hitem : set.stream.AtItem (set.stream.skipWhile (·.separates false) first))
    (hitem' : other.AtItem (other.skipWhile (·.separates false) next)) :
    set.EndsLike other relocation (set.stream.skipWhile (·.separates false) first)
      (other.skipWhile (·.separates false) next) := by
  obtain ⟨hstays, hsame⟩ := within_separators hlt
  obtain ⟨skipped, hleft, hright⟩ := exists_skipWhile_add (·.separates false) hsize
    fun offset hoffset => (congrArg Token.kind (htoken offset hoffset)).trans rfl
  have hplace := hstays.lt
  rw [hleft] at hitem hplace hsame ⊢
  rw [hright] at hitem' ⊢
  have hmoved : ∀ offset, first + skipped + offset < set.stream.size →
      other.token (next + skipped + offset) =
        (set.stream.token (first + skipped + offset)).relocate relocation := by
    intro offset hoffset
    rw [Nat.add_assoc, htoken _ (by omega), Nat.add_assoc]
  refine ⟨hplace, by omega, hmoved, fun offset hoffset => ?_, fun offset hoffset => ?_,
    hsame.trans hopened, fun hkind => ?_⟩
  · rw [hmoved offset (by omega), hmoved _ hoffset, htouches]
  · rw [Nat.add_assoc, hdepth _ (by omega), Nat.add_assoc]
  · have hother : other.kind (next + skipped) = .opener .square := by
      exact (congrArg Token.kind (hmoved 0 hplace)).trans hkind
    rw [hitem'.formBefore_eq hother, hitem.formBefore_eq hkind]

namespace Setting.EndsLike

variable {set : Setting} {other : TokenStream} {relocation : Relocation} {first next : Nat}

/-- The stretches up to the ends of both streams. -/
def parallel (h : set.EndsLike other relocation first next)
    (reported otherReported : List Diagnostic) : Parallel set :=
  have hlt := h.lt
  have hsize := h.size_eq
  have hstop : first + (set.stream.size - 1 - first) = set.stream.size - 1 := by omega
  have hlast : other.token (next + (set.stream.size - 1 - first)) =
      (set.stream.token (first + (set.stream.size - 1 - first))).relocate relocation :=
    h.token_add _ (by omega)
  have hend : set.stream.kind (first + (set.stream.size - 1 - first)) = .endOfFile := by
    rw [hstop]
    exact set.stream.kind_last
  { other := other
    relocation := relocation
    base := first
    otherBase := next
    reach := set.stream.size - 1 - first
    lift := 0
    exact := true
    final := true
    reported := reported
    otherReported := otherReported
    within := by
      rw [hstop]
      refine ⟨by omega, by omega, fun k _ _ => ?_⟩
      rw [h.opened_eq]
      exact List.nil_suffix
    opened_eq := by rw [hstop, h.opened_eq, set.balanced.settled]
    other_lt := by omega
    token_add_eq k hk := h.token_add k (by omega)
    touches_add_eq k hk := h.touches_add k (by omega)
    depth_add_eq k hk := h.depth_add k (by omega)
    formBefore_eq := h.formBefore_eq
    boundary := by rw [hend]; rfl
    other_limit := by
      rw [TokenStream.kind, hlast]
      show (set.stream.kind _).isLimit = true
      rw [hend]
      rfl
    last_eq _ := hlast
    last_ne_newline := Bool.noConfusion
    ends _ := ⟨rfl, by rw [hend]; rfl⟩ }

/-- A parser that agrees on all stretches up to the end does the same on both streams, and comes as far. -/
theorem mirrored_at {α : Type} [Relocatable α] {parser parser' : Parser α} {state right : ParserState}
    (h : set.EndsLike other relocation state.position right.position)
    (hmuted : right.log.muted = state.log.muted)
    (hagrees : ∀ P : Parallel set, P.relocation = relocation → P.base = state.position →
      P.final = true → P.lift = 0 → P.stop + 1 = set.stream.size →
      P.Agrees Parallel.never parser parser' state)
    (hlt : (parser set.stream state).2.position < set.stream.size) :
    ∃ final reports,
      parser' other right = ((parser set.stream state).1.map relocation.move, final) ∧
      (parser set.stream state).2.log.diagnostics.toList =
        state.log.diagnostics.toList ++ reports ∧
      final.log.diagnostics.toList = right.log.diagnostics.toList ++ relocation.move reports ∧
      final.log.muted = (parser set.stream state).2.log.muted ∧
      final.position + state.position = right.position + (parser set.stream state).2.position := by
  generalize hparallel : h.parallel state.log.diagnostics.toList right.log.diagnostics.toList = P
  have hother : P.other = other := by rw [← hparallel]; rfl
  have hmove : P.relocation = relocation := by rw [← hparallel]; rfl
  have hfinal : P.final = true := by rw [← hparallel]; rfl
  have hlift : P.lift = 0 := by rw [← hparallel]; rfl
  have hbase : P.base = state.position := by rw [← hparallel]; rfl
  have hplace : P.place state.position = right.position := by
    rw [← hbase, Parallel.place_base, ← hparallel]
    rfl
  have hstop : P.stop + 1 = set.stream.size := by
    rw [← hparallel]
    show state.position + (set.stream.size - 1 - state.position) + 1 = _
    have := h.lt
    omega
  have hreported : P.reported = state.log.diagnostics.toList := by rw [← hparallel]; rfl
  have hreported' : P.otherReported = right.log.diagnostics.toList := by rw [← hparallel]; rfl
  have hrelated : P.Related state right := by
    refine ⟨Nat.le_of_eq hbase, ?_, hplace.symm, ⟨[], ?_, ?_⟩, hmuted⟩
    · have := h.lt
      omega
    · rw [hreported, List.append_nil]
    · rw [hreported']
      exact (List.append_nil _).symm
  obtain ⟨final, heq, hrelated'⟩ := (hagrees P hmove hbase hfinal hlift hstop).mirrored right hrelated
    (Parallel.seen_of_final hfinal (by omega))
  obtain ⟨reports, hleft, hright⟩ := hrelated'.reports
  rw [hother, hmove] at heq
  rw [hmove, hreported'] at hright
  rw [hreported] at hleft
  refine ⟨final, reports, heq, hleft, hright, hrelated'.muted_eq, ?_⟩
  have hbase' := hrelated'.base_le
  have hplace' := hrelated'.position_eq
  rw [← hplace]
  unfold Parallel.place at hplace' ⊢
  omega

/-- A parser that agrees on all stretches up to the end does the same on both streams. -/
theorem mirrored {α : Type} [Relocatable α] {parser parser' : Parser α} {state right : ParserState}
    (h : set.EndsLike other relocation state.position right.position)
    (hmuted : right.log.muted = state.log.muted)
    (hagrees : ∀ P : Parallel set, P.relocation = relocation → P.base = state.position →
      P.final = true → P.lift = 0 → P.stop + 1 = set.stream.size →
      P.Agrees Parallel.never parser parser' state)
    (hlt : (parser set.stream state).2.position < set.stream.size) :
    ∃ final reports,
      parser' other right = ((parser set.stream state).1.map relocation.move, final) ∧
      (parser set.stream state).2.log.diagnostics.toList =
        state.log.diagnostics.toList ++ reports ∧
      final.log.diagnostics.toList = right.log.diagnostics.toList ++ relocation.move reports ∧
      final.log.muted = (parser set.stream state).2.log.muted := by
  obtain ⟨final, reports, heq, hleft, hright, hsame, -⟩ := h.mirrored_at hmuted hagrees hlt
  exact ⟨final, reports, heq, hleft, hright, hsame⟩

/-- The rest of a module is read alike. -/
theorem moduleRest {within within' : Enclosure} {count count' : Nat}
    {answers : List (List Statement)} {state right : ParserState}
    (h : set.EndsLike other relocation state.position right.position) (hwarns : set.Warns)
    (hdeep : set.allows .tooDeep) (hpart : set.IsPart within)
    (hbetween : set.Between within state) (hwithin : within.IsOutermost)
    (hwithin' : within'.IsOutermost) (hmuted : state.log.muted = 0)
    (hmuted' : right.log.muted = 0) (hcount : set.stream.size ≤ count + state.position)
    (hcount' : set.stream.size ≤ count' + state.position)
    (hlt : (Parser.moduleRest within count answers set.stream state).2.position <
      set.stream.size) :
    ∃ final reports,
      Parser.moduleRest within' count' (relocation.move answers) other right =
        ((Parser.moduleRest within count answers set.stream state).1.map relocation.move, final) ∧
      (Parser.moduleRest within count answers set.stream state).2.log.diagnostics.toList =
        state.log.diagnostics.toList ++ reports ∧
      final.log.diagnostics.toList =
        right.log.diagnostics.toList ++ relocation.move reports := by
  obtain ⟨final, reports, heq, hleft, hright, -⟩ := h.mirrored (hmuted'.trans hmuted.symm)
    (fun P hmove _ hfinal hlift hstop => hmove ▸ P.agrees_moduleRest hwarns hdeep hpart hbetween
      (fun _ => hmuted) (hwithin'.closer_eq.trans hwithin.closer_eq.symm)
      (hwithin'.commas_eq.trans hwithin.commas_eq.symm)
      (by rw [hlift, hwithin.level_eq, hwithin'.level_eq]) hfinal (Parallel.kind_stop_of_succ hstop)
      hcount
      (show P.stop < count' + state.position by omega)) hlt
  exact ⟨final, reports, heq, hleft, hright⟩

/-- The items of a module are read alike. -/
theorem iterate {within within' : Enclosure} {count count' : Nat}
    {answers : List (List Statement)} {state right : ParserState}
    (h : set.EndsLike other relocation state.position right.position) (hwarns : set.Warns)
    (hdeep : set.allows .tooDeep) (hpart : set.IsPart within)
    (hbetween : set.Between within state) (hwithin : within.IsOutermost)
    (hwithin' : within'.IsOutermost) (hmuted : state.log.muted = 0)
    (hmuted' : right.log.muted = 0) (hcount : set.stream.size ≤ count + state.position)
    (hcount' : set.stream.size ≤ count' + state.position)
    (hlt : (repeatWhile.iterate (startsItem within) (nextItem moduleItem within "declaration") count
      answers set.stream state).2.position < set.stream.size) :
    ∃ final reports,
      repeatWhile.iterate (startsItem within') (nextItem moduleItem within' "declaration") count'
          (relocation.move answers) other right =
        ((repeatWhile.iterate (startsItem within) (nextItem moduleItem within "declaration") count
          answers set.stream state).1.map relocation.move, final) ∧
      (repeatWhile.iterate (startsItem within) (nextItem moduleItem within "declaration") count
          answers set.stream state).2.log.diagnostics.toList =
        state.log.diagnostics.toList ++ reports ∧
      final.log.diagnostics.toList =
        right.log.diagnostics.toList ++ relocation.move reports ∧
      final.log.muted = (repeatWhile.iterate (startsItem within)
        (nextItem moduleItem within "declaration") count answers set.stream state).2.log.muted :=
  h.mirrored (hmuted'.trans hmuted.symm)
    (fun P hmove _ hfinal hlift hstop => hmove ▸ .rounds hpart (obeys_moduleItem hwarns hdeep)
      (P.mirrorsInside_moduleItem hwarns hdeep) (fun _ => hmuted) hbetween
      (hwithin'.closer_eq.trans hwithin.closer_eq.symm)
      (hwithin'.commas_eq.trans hwithin.commas_eq.symm)
      (by rw [hlift, hwithin.level_eq, hwithin'.level_eq])
      (Or.inl (Parallel.kind_stop_of_succ hstop)) (Or.inl hfinal) hcount
      (show P.stop < count' + state.position by omega)) hlt

end Setting.EndsLike

end SableFrontend
