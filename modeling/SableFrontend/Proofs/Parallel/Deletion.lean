import SableFrontend.Proofs.Grammar.Entry
import SableFrontend.Proofs.Parallel.Prefix
import SableFrontend.Proofs.Parallel.Suffix
import SableFrontend.Proofs.Tree.Structure

/-!
Items that are left out. A stream without the tokens of an item that failed begins like the stream
with them and ends like it (`TokenStream.Omits`). What is read in front of the item does not see it,
and what is read behind it depends on nothing that was in front. So the module is the same, and only
what was reported of the item is missing (`Parser.ItemFailure.sameOutcome_leaveOut`).
-/

namespace SableFrontend

open TokenStream Parser Setting

/-! ### Leaving out tokens -/

/-- The tokens of a list without those from one position up to, and not including, another. -/
def Token.leaveOut (tokens : Array Token) (first next : Nat) : Array Token :=
  (tokens.toList.take first ++ tokens.toList.drop next).toArray

namespace TokenStream

/-- The depths of a stream count what is open, even if not all is closed. -/
theorem depth_of_ofTokens? {tokens : Array Token} {stream : TokenStream}
    (h : ofTokens? tokens = some stream) {position : Nat} (hlt : position < stream.size) :
    stream.depth position = (stream.opened position).length := by
  have hdepths : stream.depths = (bracketDepths 0 stream.tokens.toList).toArray := by
    unfold ofTokens? at h
    split at h
    · cases h
    · split at h
      · cases h
        rfl
      · cases h
  have hlength : position < stream.tokens.toList.length := by
    rw [Array.length_toList]
    exact hlt
  have hdepth := getElem?_bracketDepths [] stream.tokens.toList hlength
  rw [TokenStream.depth, hdepths, List.getElem?_toArray]
  rw [List.length_nil] at hdepth
  rw [hdepth, Option.getD_some]
  rfl

/-- Another stream is a stream without the tokens from one place at the outside of all delimiters up
to another. -/
structure Omits (stream other : TokenStream) (first next : Nat) : Prop where
  le : first ≤ next
  size_eq : other.size + (next - first) = stream.size
  lt : next < stream.size
  token_lt : ∀ position < first, other.token position = stream.token position
  token_add : ∀ offset, other.token (first + offset) = stream.token (next + offset)
  depth_lt : ∀ position ≤ first, other.depth position = stream.depth position
  depth_add : ∀ offset, next + offset < stream.size →
    other.depth (first + offset) = stream.depth (next + offset)

theorem exists_ofTokens? {tokens : Array Token} {last : Token} (hback : tokens.back? = some last)
    (hkind : last.kind = .endOfFile) :
    ∃ stream, ofTokens? tokens = some stream ∧ stream.tokens = tokens ∧ stream.last = last := by
  unfold ofTokens?
  split
  · next hnone =>
    rw [hback] at hnone
    cases hnone
  · next found hfound =>
    rw [hback] at hfound
    cases hfound
    exact ⟨_, dif_pos hkind, rfl, rfl⟩

theorem exists_omits {stream : TokenStream} (balanced : stream.Balanced) {first next : Nat}
    (hle : first ≤ next) (hlt : next < stream.size) (hfirst : stream.opened first = [])
    (hnext : stream.opened next = []) :
    ∃ other, ofTokens? (Token.leaveOut stream.tokens first next) = some other ∧
      stream.Omits other first next := by
  have hlength : stream.tokens.toList.length = stream.size := Array.length_toList
  have hkept : (stream.tokens.toList.take first).length = first := by
    rw [List.length_take, hlength]
    omega
  have hback : (Token.leaveOut stream.tokens first next).back? = some stream.last := by
    rw [Token.leaveOut, List.back?_toArray, List.getLast?_append, List.getLast?_drop, hlength,
      if_neg (Nat.not_le_of_lt hlt), Array.getLast?_toList, stream.last_eq]
    rfl
  obtain ⟨other, hother, htokens, hlast⟩ := exists_ofTokens? hback stream.last_kind
  have hlist : other.tokens.toList =
      stream.tokens.toList.take first ++ stream.tokens.toList.drop next := by
    rw [htokens, Token.leaveOut]
  have hsize : other.size + (next - first) = stream.size := by
    rw [TokenStream.size, ← Array.length_toList, hlist, List.length_append, hkept,
      List.length_drop, hlength]
    omega
  refine ⟨other, hother, hle, hsize, hlt, fun position hposition => ?_, fun offset => ?_,
    fun position hposition => ?_, fun offset hoffset => ?_⟩
  · rw [token, token, ← Array.getElem?_toList, ← Array.getElem?_toList, hlist, hlast,
      List.getElem?_append_left (by rw [hkept]; exact hposition), List.getElem?_take_of_lt hposition]
  · rw [token, token, ← Array.getElem?_toList, ← Array.getElem?_toList, hlist, hlast,
      List.getElem?_append_right (by rw [hkept]; exact Nat.le_add_right ..), hkept,
      Nat.add_sub_cancel_left, List.getElem?_drop]
  · rw [depth_of_ofTokens? hother (by omega), balanced.depth_eq (by omega), opened, opened, hlist,
      List.take_append_of_le_length (by rw [hkept]; exact hposition), List.take_take,
      Nat.min_eq_left hposition]
  · -- what is open in front of both places is nothing
    have hopened : other.opened first = [] := by
      rw [← hfirst, opened, opened, hlist, List.take_append_of_le_length (Nat.le_of_eq hkept.symm),
        List.take_take, Nat.min_self]
    have hdrop : other.tokens.toList.drop first = stream.tokens.toList.drop next := by
      rw [hlist, List.drop_append_of_le_length (Nat.le_of_eq hkept.symm),
        List.drop_eq_nil_of_le (Nat.le_of_eq hkept), List.nil_append]
    rw [depth_of_ofTokens? hother (by omega), balanced.depth_eq hoffset, opened_add, opened_add,
      hopened, hnext, hdrop]

namespace Omits

variable {stream other : TokenStream} {first next : Nat}

/-- What is left out begins like the whole does. -/
theorem beginsLike {set : Setting} (h : set.stream.Omits other first next)
    (hopened : set.stream.opened first = []) (hitem : set.stream.AtItem first)
    (hend : set.stream.kind first ≠ .endOfFile) : set.BeginsLike other first where
  lt := Nat.lt_of_le_of_lt h.le h.lt
  lt_other := by
    have := h.le
    have := h.size_eq
    have := h.lt
    omega
  token_eq := h.token_lt
  depth_eq := h.depth_lt
  opened_eq := hopened
  not_separator := hitem.not_separator
  separator hkind := absurd hkind hend

/-- What is left out ends like the whole does. -/
theorem endsLike {set : Setting} (h : set.stream.Omits other first next)
    (hopened : set.stream.opened next = []) (hitem : set.stream.AtItem first)
    (hend : set.stream.kind first ≠ .endOfFile)
    (hnext : set.stream.AtItem (set.stream.skipWhile (·.separates false) next)) :
    set.EndsLike other .id (set.stream.skipWhile (·.separates false) next)
      (other.skipWhile (·.separates false) first) := by
  have hsize := h.size_eq
  have hle := h.le
  have hlt := h.lt
  refine endsLike_skipWhile h.lt (by omega) (fun offset _ => h.token_add offset)
    (fun offset hoffset => h.depth_add offset hoffset) (fun _ _ => rfl) hopened hnext
    (atItem_skipWhile (by omega) fun hkind => ⟨hkind, ?_⟩)
  -- the same token stands in front as in front of what is left out
  refine Or.inr (hitem.afresh.resolve_left hend |>.imp_right fun hseparator => ?_)
  rcases Nat.eq_zero_or_pos first with rfl | hpos
  · rw [Nat.zero_sub, hitem.not_separator] at hseparator
    cases hseparator
  · rw [TokenStream.kind, h.token_lt _ (by omega)]
    exact hseparator

end Omits

end TokenStream

namespace Setting

variable {set : Setting} {within : Enclosure} {state final : ParserState} {α : Type}

/-- A failed item is skipped, with the separators behind it, and what it reported is kept. -/
theorem nextItem_of_fails {item : Parser α} (within : Enclosure) (what : String) (answers : List α)
    (hfails : item set.stream state = (.error .failed, final)) :
    ∃ later, nextItem item within what answers set.stream state = (.ok answers, later) ∧
      later.position = set.stream.skipWhile (·.separates within.commas)
        (set.stream.resumePosition within.level within.commas final.position) ∧
      later.log = final.log := by
  have hrecover : ∃ middle, recover item set.stream state = (.ok none, middle) ∧
      middle.position = final.position ∧ middle.log = final.log := by
    show ∃ middle, (tryCatch (some <$> item) _ : Parser (Option α)) set.stream state = _ ∧ _
    rw [show ∀ handler, (tryCatch (some <$> item) handler : Parser (Option α)) set.stream state = _
      from fun _ => tryCatch_apply, map_apply, hfails]
    exact ⟨_, rfl, rfl, rfl⟩
  obtain ⟨middle, hmiddle, hposition, hlog⟩ := hrecover
  have hattempt : attemptItem item within what answers set.stream state =
      (.ok (false, answers), middle) := by
    rw [attemptItem, bind_apply, hmiddle]
    rfl
  rw [nextItem_apply, settle_apply, hattempt]
  exact ⟨_, rfl, by rw [← hposition], hlog⟩

end Setting

/-! ### Failed items -/

/-- The loop over the items of a module comes to an item that fails. -/
structure Parser.ItemFailure (stream : TokenStream) where
  name : Option String
  within : Enclosure
  /-- In front of the first item. -/
  first : ParserState
  answers : List (List Statement)
  /-- In front of the item, and where it was given up. -/
  state : ParserState
  final : ParserState
  opening : moduleOpening stream .initial = (.ok (name, within), first)
  rounds : Rounds stream moduleItem within "declaration" [] first answers state
  starts : startsItem within stream state = (.ok true, state)
  fails : moduleItem stream state = (.error .failed, final)

/-- Where the loop goes on after the item. -/
def Parser.ItemFailure.resume {stream : TokenStream} (failure : ItemFailure stream) : Nat :=
  stream.resumePosition failure.within.level failure.within.commas failure.final.position

/-- Nothing in front of a failed item may depend on what follows it: no header comes later, and no
conditional in front of the item lacks its last branch. -/
structure Parser.ItemFailure.Isolated {stream : TokenStream} (failure : ItemFailure stream) :
    Prop where
  headers : ∀ token ∈ stream.tokens.toList.drop failure.first.position,
    token.kind ≠ .keyword .moduleWord
  reports : ∀ diagnostic ∈ failure.state.log.diagnostics, diagnostic.kind ≠ .missingElseBranch
  branches : ∀ group ∈ failure.answers, ¬group.any Statement.lacksElse = true

namespace Setting

variable {set : Setting} {failure : ItemFailure set.stream} {other : TokenStream} {α : Type}
  {state : ParserState}

theorem itemFailure_opening (failure : ItemFailure set.stream) :
    failure.within.IsOutermost ∧ set.IsPart failure.within ∧
      set.Between failure.within failure.first ∧
      set.stream.opened failure.within.first = [] ∧ failure.first.log.muted = 0 := by
  have hruns : set.Runs moduleOpening .initial _ _ := runs_moduleOpening
  unfold Runs at hruns
  rw [failure.opening] at hruns
  exact hruns

/-- A parser that keeps to the rules does so when it fails. -/
theorem stops_of_fails {parser : Parser α} {moved : Bool} {abort : Abort} {final : ParserState}
    (h : set.Obeys moved parser) (hlt : state.position < set.stream.size)
    (hfails : parser set.stream state = (.error abort, final)) : set.Stops state abort final := by
  have hruns : set.Runs parser state _ _ := h state hlt
  unfold Runs at hruns
  rwa [hfails] at hruns

/-- The item, and where the loop goes on, lie at the outside of all delimiters. -/
theorem itemFailure_bounds (hwarns : set.Warns) (hdeep : set.allows .tooDeep)
    (failure : ItemFailure set.stream) :
    set.Reached failure.first false [] failure.state ∧
      failure.state.position ≤ failure.resume ∧ failure.resume < set.stream.size ∧
      set.stream.opened failure.state.position = [] ∧
      set.stream.opened failure.resume = [] := by
  obtain ⟨hwithin, hpart, hbetween, hopened, hmuted⟩ := itemFailure_opening failure
  have hitem := obeys_moduleItem hwarns hdeep
  have hreached := (reached_of_rounds hpart hitem failure.rounds hbetween).1
  have hbetween' := hreached.between hbetween
  have hstate := hbetween'.opened_eq.trans hopened
  have hstays := (stops_of_fails hitem hbetween'.lt failure.fails).within
  obtain ⟨hstay, -, hsame, -⟩ := set.balanced.within_resumePosition false
    (show 0 = (set.stream.opened failure.state.position).length by rw [hstate]; rfl) hstays
  have hresume : failure.resume = set.stream.resumePosition 0 false failure.final.position := by
    rw [ItemFailure.resume, hwithin.level_eq, hwithin.commas_eq]
  rw [hresume]
  exact ⟨hreached, hstay.le, hstay.lt, hstate, hsame.trans hstate⟩

/-- Where the loop goes on after the item, separators have been skipped. -/
theorem itemFailure_later (hwarns : set.Warns) (hdeep : set.allows .tooDeep)
    (failure : ItemFailure set.stream) :
    ∃ later, Rounds set.stream moduleItem failure.within "declaration" [] failure.first
        failure.answers later ∧
      later.position = set.stream.skipWhile (·.separates false) failure.resume ∧
      later.log = failure.final.log ∧ set.Between failure.within later ∧
      set.Reached failure.state true [] later ∧ set.stream.AtItem later.position ∧
      set.stream.AtItem failure.state.position := by
  obtain ⟨hwithin, hpart, hbetween, -, -⟩ := itemFailure_opening failure
  have hitem := obeys_moduleItem hwarns hdeep
  have hbetween' := (itemFailure_bounds hwarns hdeep failure).1.between hbetween
  obtain ⟨later, hnext, hposition, hlog⟩ :=
    nextItem_of_fails failure.within "declaration" failure.answers failure.fails
  have hreached := reached_of_nextItem hpart hitem hbetween' failure.starts hnext
  have hround : Rounds set.stream moduleItem failure.within "declaration" failure.answers
      failure.state failure.answers later :=
    .head failure.starts hnext (hreached.progress rfl) (.refl _ _)
  have hstart := atItem_of_rounds hwithin hpart hitem failure.rounds hbetween
    (atItem_of_opening failure.opening)
  replace hposition : later.position =
    set.stream.skipWhile (·.separates failure.within.commas) failure.resume := hposition
  rw [hwithin.commas_eq] at hposition
  exact ⟨later, failure.rounds.trans hround, hposition, hlog, hreached.between hbetween', hreached,
    atItem_of_rounds hwithin hpart hitem hround hbetween' hstart, hstart⟩

/-- Where the item was, the stream without it leads on to what followed the item. -/
theorem exists_rounds_of_omits (hwarns : set.Warns) (hdeep : set.allows .tooDeep)
    (hisolated : failure.Isolated) (homits : set.stream.Omits other failure.state.position
      failure.resume) :
    ∃ within' first later, moduleOpening other .initial = (.ok (failure.name, within'), first) ∧
      within'.IsOutermost ∧
      Rounds other moduleItem within' "declaration" [] first failure.answers later ∧
      later.log = failure.state.log ∧
      later.position = other.skipWhile (·.separates false) failure.state.position := by
  obtain ⟨hwithin, hpart, hbetween, hopened, hmuted⟩ := itemFailure_opening failure
  obtain ⟨hreached, hresume, -, hstate, hstateResume⟩ := itemFailure_bounds hwarns hdeep failure
  obtain ⟨_, -, -, -, -, -, -, hitem⟩ := itemFailure_later hwarns hdeep failure
  have hend : set.stream.kind failure.state.position ≠ .endOfFile := fun hend => by
    have hstarts := failure.starts
    rw [startsItem_apply, hend, beq_self_eq_true, Bool.or_true] at hstarts
    cases hstarts
  have hbegins := homits.beginsLike hstate hitem hend
  -- no keyword of a header comes from the place of the item on
  have hnoheader : ∀ position, failure.first.position ≤ position → position < set.stream.size →
      set.stream.kind position ≠ .keyword .moduleWord := by
    intro position hle hlt
    refine hisolated.headers _ ?_
    obtain ⟨offset, rfl⟩ := Nat.exists_eq_add_of_le hle
    refine List.mem_of_getElem? (i := offset) ?_
    rw [List.getElem?_drop, Array.getElem?_toList, getElem?_tokens hlt]
  obtain ⟨hstays, hsame⟩ := within_separators homits.lt
  have hsize := homits.size_eq
  have hnext := homits.le
  obtain ⟨skipped, hskipped, hplace⟩ := exists_skipWhile_add (·.separates false)
    (show other.size + failure.resume = set.stream.size + failure.state.position by omega)
    fun offset _ => congrArg Token.kind (homits.token_add offset)
  have hle := hreached.within.le
  have hlt := hstays.lt
  rw [hskipped] at hlt hsame
  have hquiet : ∀ {claim : Prop}, set.stream.kind failure.state.position = .endOfFile → claim :=
    fun h => absurd h hend
  have hkind : other.kind (failure.state.position + skipped) =
      set.stream.kind (failure.resume + skipped) := congrArg Token.kind (homits.token_add skipped)
  obtain ⟨within', first, hopening, hwithin', hlog, hposition⟩ := hbegins.opening failure.opening
    hle (hnoheader _ hle hreached.lt)
    (by rw [hplace, hkind]; exact hnoheader _ (by omega) hlt)
    (by
      rw [hplace, homits.depth_add _ hlt, set.balanced.depth_eq hlt, hsame, hstateResume]
      rfl)
    (fun diagnostic hmem => hisolated.reports _ (hreached.follows.mem_diagnostics _ hmem)) hquiet
  obtain ⟨later, hrounds, hlog', hposition'⟩ := hbegins.rounds
    (fun group => group.any Statement.lacksElse = true) hwithin hwithin' hpart
    (obeys_moduleItem hwarns hdeep)
    (fun P s hclosed hlt hzero =>
      (P.agrees_moduleItem hwarns hdeep (fun _ => hzero) hclosed.guarded hlt).mono fun _ _ h => h.1)
    failure.rounds hbetween hopened hmuted (Nat.le_refl _) hisolated.branches hisolated.reports
    hquiet hposition hlog
  rw [BeginsLike.meet_self] at hposition'
  exact ⟨within', first, later, hopening, hwithin', hrounds, hlog', hposition'⟩

/-- Reading a module without the item does the same as reading it with the item, but for what was
reported of the item. -/
theorem moduleSource_of_omits (hwarns : set.Warns) (hdeep : set.allows .tooDeep)
    (hisolated : failure.Isolated) (homits : set.stream.Omits other failure.state.position
      failure.resume)
    (hlt : (moduleSource set.stream .initial).2.position < set.stream.size) :
    Module.SameOutcome (moduleSource set.stream .initial).1 (moduleSource other .initial).1 ∧
      ∃ reports,
        (moduleSource set.stream .initial).2.log.diagnostics.toList =
          failure.final.log.diagnostics.toList ++ reports ∧
        (moduleSource other .initial).2.log.diagnostics.toList =
          failure.state.log.diagnostics.toList ++ reports := by
  obtain ⟨hwithin, hpart, hbetween, hopened, hmuted⟩ := itemFailure_opening failure
  obtain ⟨hreached, hresume, -, hstate, hstateResume⟩ := itemFailure_bounds hwarns hdeep failure
  obtain ⟨later, hrounds, hposition, hlog, hlater, hreached', hafter, hitem⟩ :=
    itemFailure_later hwarns hdeep failure
  obtain ⟨within', first, right, hopening, hwithin', hrounds', hlog', hposition'⟩ :=
    exists_rounds_of_omits hwarns hdeep hisolated homits
  have hend : set.stream.kind failure.state.position ≠ .endOfFile := fun hend => by
    have hstarts := failure.starts
    rw [startsItem_apply, hend, beq_self_eq_true, Bool.or_true] at hstarts
    cases hstarts
  have hends := homits.endsLike hstateResume hitem hend (hposition ▸ hafter)
  obtain ⟨taken, htaken, hrest⟩ := hrounds.moduleRest_eq
  obtain ⟨taken', htaken', hrest'⟩ := hrounds'.moduleRest_eq
  -- what the loops have taken of their rounds leaves enough for what follows
  have hsize := hends.size_eq
  have hlast := hlater.lt
  rw [← hposition, ← hposition'] at hends hsize
  have hleft : moduleRest failure.within set.stream.size [] set.stream failure.first =
      moduleRest failure.within (set.stream.size - taken) failure.answers set.stream later := by
    rw [← hrest, Nat.add_sub_cancel' (by omega)]
  have hright : moduleRest within' other.size [] other first =
      moduleRest within' (other.size - taken') failure.answers other right := by
    rw [← hrest', Nat.add_sub_cancel' (by omega)]
  have hmutedState := hreached.follows.muted_eq.trans hmuted
  have hmutedLater := hreached'.follows.muted_eq.trans hmutedState
  have hmutedRight : right.log.muted = 0 := (congrArg Log.muted hlog').trans hmutedState
  rw [moduleSource_apply, failure.opening] at hlt ⊢
  rw [moduleSource_apply, hopening]
  dsimp only at hlt ⊢
  rw [hleft] at hlt ⊢
  rw [hright]
  have hstays : (moduleRest failure.within (set.stream.size - taken) failure.answers set.stream
      later).2.position < set.stream.size := by
    revert hlt
    generalize moduleRest failure.within (set.stream.size - taken) failure.answers set.stream
      later = run
    obtain ⟨result, last⟩ := run
    cases result <;> exact id
  have hcount : set.stream.size ≤ (set.stream.size - taken) + later.position := by omega
  have hcount' : set.stream.size ≤ (other.size - taken') + later.position := by omega
  obtain ⟨final, reports, heq, hreports, hreports'⟩ := hends.moduleRest hwarns hdeep hpart hlater
    hwithin hwithin' hmutedLater hmutedRight hcount hcount' hstays
  rw [Relocation.move_id] at heq
  rw [heq]
  rw [hlog] at hreports
  rw [hlog', Relocation.move_id reports] at hreports'
  generalize moduleRest failure.within (set.stream.size - taken) failure.answers set.stream
    later = run at hreports
  obtain ⟨result, last⟩ := run
  cases result with
  | error abort => exact ⟨rfl, reports, hreports, hreports'⟩
  | ok declarations =>
    exact ⟨Module.sameStructure_move .id _ _ _ _, reports, hreports, hreports'⟩

end Setting

/-- A parser that is bounded fails if it fails, or nests too deeply. -/
theorem Parser.boundNesting_failed_iff {α : Type} {parser : Parser α} {stream : TokenStream}
    {state : ParserState} :
    (boundNesting parser stream state).1 = .error .failed ↔
      (parser stream state).1 = .error .failed ∨ (parser stream state).1 = .error .tooDeep := by
  unfold boundNesting
  rw [Setting.tryCatch_apply]
  cases parser stream state with
  | mk result final =>
    cases result with
    | ok answer => simp
    | error abort =>
      cases abort with
      | tooDeep => exact iff_of_true rfl (Or.inr rfl)
      | failed => exact iff_of_true rfl (Or.inl rfl)
      | _ => exact iff_of_false nofun fun h => h.elim nofun nofun

/-- A test of where an item that fails leaves off, for a stream at hand. -/
def Parser.itemFails (stream : TokenStream) (within : Enclosure) (state : ParserState)
    (test : ParserState → Bool) : Bool :=
  match (startsItem within stream state).1, moduleItem stream state with
  | .ok true, (.error .failed, final) => test final
  | _, _ => false

theorem Parser.exists_of_itemFails {stream : TokenStream} {within : Enclosure} {state : ParserState}
    {test : ParserState → Bool} (h : itemFails stream within state test = true) :
    ∃ final, startsItem within stream state = (.ok true, state) ∧
      moduleItem stream state = (.error .failed, final) ∧ test final = true := by
  unfold itemFails at h
  split at h
  · next final hstarts hfails =>
    exact ⟨final, (startsItem_apply ..).trans (congrArg (·, state) hstarts), hfails, h⟩
  · cases h

end SableFrontend
