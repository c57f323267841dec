import SableFrontend.Proofs.Grammar.Entry
import SableFrontend.Proofs.Parallel.TopLevel
import SableFrontend.Proofs.Token.Joining

/-!
Two sources one behind the other, with a line break between them. Where nothing is reported of the
first, the whole is read as its items and those of the second (`Setting.moduleSource_of_joins`):
the loop over the first source stops at its end, in front of the line break, and goes on behind it
as the loop over the second one does.
-/

namespace SableFrontend

open TokenStream SableFrontend.Parser Setting

/-! ### Streams one behind the other -/

/-- A stream has the tokens of two others one behind the other, those of the second at other
places, with a line break in place of the end of the first. -/
structure TokenStream.Joins (first second whole : TokenStream) (relocation : Relocation) : Prop where
  tokens_eq : ∃ between : Token, between.kind = .newline ∧
    whole.tokens.toList = first.tokens.toList.dropLast ++
      between :: second.tokens.toList.map (Token.relocate relocation)

namespace TokenStream.Joins

variable {first second whole : TokenStream} {relocation : Relocation}

theorem size_eq (h : first.Joins second whole relocation) :
    whole.size = first.size + second.size := by
  obtain ⟨between, -, htokens⟩ := h.tokens_eq
  have hlength := congrArg List.length htokens
  have hpos : 0 < first.tokens.size := first.size_pos
  simp only [Array.length_toList, List.length_append, List.length_dropLast, List.length_cons,
    List.length_map] at hlength
  unfold TokenStream.size
  omega

theorem token_lt (h : first.Joins second whole relocation) {position : Nat}
    (hlt : position + 1 < first.size) : whole.token position = first.token position := by
  obtain ⟨between, -, htokens⟩ := h.tokens_eq
  have hlast : position < first.tokens.toList.dropLast.length := by
    rw [List.length_dropLast, Array.length_toList]
    exact Nat.lt_sub_of_add_lt hlt
  have hsize := h.size_eq
  refine Option.some.inj ?_
  rw [← getElem?_tokens (by omega), ← getElem?_tokens (Nat.lt_of_succ_lt hlt),
    ← Array.getElem?_toList, ← Array.getElem?_toList, htokens, List.getElem?_append_left hlast,
    List.getElem?_dropLast, Array.length_toList,
    if_pos (show position < first.tokens.size - 1 from Nat.lt_sub_of_add_lt hlt)]

theorem getElem?_add (h : first.Joins second whole relocation) (offset : Nat) :
    ∃ between : Token, between.kind = .newline ∧
      whole.tokens.toList[first.size - 1 + offset]? =
        (between :: second.tokens.toList.map (Token.relocate relocation))[offset]? := by
  obtain ⟨between, hkind, htokens⟩ := h.tokens_eq
  have hlength : first.tokens.toList.dropLast.length = first.size - 1 := by
    rw [List.length_dropLast, Array.length_toList, TokenStream.size]
  refine ⟨between, hkind, ?_⟩
  rw [htokens, List.getElem?_append_right (by omega), hlength, Nat.add_sub_cancel_left]

theorem kind_between (h : first.Joins second whole relocation) :
    whole.kind (first.size - 1) = .newline := by
  obtain ⟨between, hkind, hget⟩ := h.getElem?_add 0
  have hsize := h.size_eq
  have hpos := first.size_pos
  rw [Nat.add_zero, Array.getElem?_toList, getElem?_tokens (by omega)] at hget
  rw [TokenStream.kind, Option.some.inj hget, hkind]

theorem token_add (h : first.Joins second whole relocation) {offset : Nat}
    (hlt : offset < second.size) :
    whole.token (first.size + offset) = (second.token offset).relocate relocation := by
  obtain ⟨between, -, hget⟩ := h.getElem?_add (offset + 1)
  have hsize := h.size_eq
  have hpos := first.size_pos
  rw [show first.size - 1 + (offset + 1) = first.size + offset by omega, Array.getElem?_toList,
    getElem?_tokens (by omega), List.getElem?_cons_succ, List.getElem?_map,
    Array.getElem?_toList, getElem?_tokens hlt] at hget
  exact Option.some.inj hget

/-- What is open in the first part is what is open in the first stream. -/
theorem opened_lt (h : first.Joins second whole relocation) {position : Nat}
    (hlt : position < first.size) : whole.opened position = first.opened position := by
  obtain ⟨between, -, htokens⟩ := h.tokens_eq
  have hle : position ≤ first.tokens.toList.dropLast.length := by
    rw [List.length_dropLast, Array.length_toList]
    exact Nat.le_sub_one_of_lt hlt
  have htake : whole.tokens.toList.take position = first.tokens.toList.take position := by
    rw [htokens, List.take_append_of_le_length hle, List.dropLast_eq_take, List.take_take,
      Nat.min_eq_left]
    exact Nat.le_sub_one_of_lt (Array.length_toList ▸ hlt)
  rw [opened, opened, htake]

/-- What is open in the second part is what is open in the second stream. -/
theorem opened_add (h : first.Joins second whole relocation)
    (hsettled : first.opened (first.size - 1) = []) (offset : Nat) :
    whole.opened (first.size + offset) = second.opened offset := by
  have hsize := h.size_eq
  have hpos := first.size_pos
  have hbetween : whole.opened first.size = [] := by
    have hlt : first.size - 1 < whole.size := by omega
    have hopened := opened_succ_plain hlt (by rw [h.kind_between]; rfl)
    rw [h.opened_lt (Nat.sub_one_lt_of_lt hpos), hsettled] at hopened
    rwa [Nat.sub_add_cancel hpos] at hopened
  obtain ⟨between, -, htokens⟩ := h.tokens_eq
  have hdrop : whole.tokens.toList.drop first.size =
      second.tokens.toList.map (Token.relocate relocation) := by
    have hlength : (first.tokens.toList.dropLast ++ [between]).length = first.size := by
      rw [List.length_append, List.length_dropLast, Array.length_toList]
      exact Nat.sub_add_cancel hpos
    rw [htokens, ← List.singleton_append, ← List.append_assoc, List.drop_left' hlength]
  have hkinds : (List.map (Token.relocate relocation) (second.tokens.toList.take offset)).map
      Token.kind = (second.tokens.toList.take offset).map Token.kind := by
    rw [List.map_map]
    rfl
  rw [TokenStream.opened_add, hdrop, hbetween, ← List.map_take, hkinds]
  rfl

theorem beginsLike {set : Setting} (h : set.stream.Joins second whole relocation)
    (balanced : whole.Balanced) : set.BeginsLike whole (set.stream.size - 1) where
  lt := Nat.sub_one_lt_of_lt set.stream.size_pos
  lt_other := by
    have hsize := h.size_eq
    have hpos := set.stream.size_pos
    omega
  token_eq position hlt := h.token_lt (Nat.add_lt_of_lt_sub hlt)
  depth_eq position hle := by
    have hsize := h.size_eq
    have hpos := set.stream.size_pos
    rw [balanced.depth_eq (by omega), h.opened_lt (by omega), set.balanced.depth_eq (by omega)]
  opened_eq := set.balanced.settled
  not_separator := by rw [set.stream.kind_last]; rfl
  separator _ := by rw [h.kind_between]; rfl

/-- Behind the line break, and the separators there, the whole ends like the second stream. -/
theorem endsLike {set : Setting} (h : first.Joins set.stream whole relocation)
    (hfirst : first.Balanced) (balanced : whole.Balanced)
    (htouches : ∀ left right : Token,
      (left.relocate relocation).touches (right.relocate relocation) = left.touches right) :
    set.EndsLike whole relocation (set.stream.skipWhile (·.separates false) 0)
      (whole.skipWhile (·.separates false) (first.size - 1)) := by
  have hsize := h.size_eq
  have hpos := first.size_pos
  have hskip : whole.skipWhile (·.separates false) (first.size - 1) =
      whole.skipWhile (·.separates false) first.size := by
    have hseparator : (whole.kind (first.size - 1)).separates false = true := by
      rw [h.kind_between]
      rfl
    rw [TokenStream.skipWhile, if_pos (by omega), if_pos hseparator, Nat.sub_add_cancel hpos]
  have hstart : set.stream.AtItem (set.stream.skipWhile (·.separates false) 0) :=
    atItem_skipWhile set.stream.size_pos fun hkind => ⟨hkind, Or.inr (Or.inl rfl)⟩
  have hstart' : whole.AtItem (whole.skipWhile (·.separates false) first.size) :=
    atItem_skipWhile (by have := set.stream.size_pos; omega) fun hkind =>
      ⟨hkind, Or.inr (Or.inr (by rw [h.kind_between]; rfl))⟩
  rw [hskip]
  refine endsLike_skipWhile set.stream.size_pos (by omega) (fun offset hlt => ?_)
    (fun offset hlt => ?_) htouches set.stream.opened_zero hstart hstart'
  · rw [Nat.zero_add] at hlt ⊢
    exact h.token_add hlt
  · rw [Nat.zero_add] at hlt ⊢
    rw [balanced.depth_eq (by omega), h.opened_add hfirst.settled, set.balanced.depth_eq hlt]

end TokenStream.Joins

/-! ### Modules one behind the other -/

namespace Setting

variable {set set' : Setting} {whole : TokenStream} {relocation : Relocation}

/-- A module of which nothing is reported: its items lead up to its end. -/
structure Quiet (stream : TokenStream) (source : Module) where
  within : Enclosure
  /-- In front of the first item, and behind the last. -/
  first : ParserState
  last : ParserState
  answers : List (List Statement)
  opening : moduleOpening stream .initial = (.ok (source.name, within), first)
  rounds : Rounds stream moduleItem within "declaration" [] first answers last
  at_end : last.position = stream.size - 1
  log_eq : last.log.diagnostics = #[]
  reports_eq : Statement.reportsAtTop answers.reverse.flatten = []
  declarations_eq : source.declarations = Statement.declarations answers.reverse.flatten

theorem exists_quiet (hwarns : set.Warns) (hdeep : set.allows .tooDeep) {source : Module}
    {final : ParserState} (hrun : moduleSource set.stream .initial = (.ok source, final))
    (hquiet : final.log.diagnostics = #[]) : Nonempty (Quiet set.stream source) := by
  have hopening : set.Runs moduleOpening .initial _ _ := runs_moduleOpening
  unfold Runs at hopening
  rw [moduleSource_apply] at hrun
  cases hheader : moduleOpening set.stream .initial with
  | mk result first =>
    rw [hheader] at hrun hopening
    cases result with
    | error abort => cases hrun
    | ok opening =>
      obtain ⟨name, within⟩ := opening
      obtain ⟨hwithin, hpart, hbetween, hopened, hmuted⟩ := hopening
      dsimp only at hrun
      rw [moduleRest_apply] at hrun
      cases hloop : repeatWhile.iterate (startsItem within)
        (nextItem moduleItem within "declaration") set.stream.size [] set.stream first with
      | mk result last =>
        rw [hloop] at hrun
        cases result with
        | error abort => cases hrun
        | ok answers =>
          obtain ⟨hsource, rfl⟩ := Prod.mk.inj hrun
          injection hsource with hsource
          subst hsource
          have hitem := obeys_moduleItem hwarns hdeep
          obtain ⟨hrounds, hends⟩ := rounds_of_iterate hpart hitem hbetween hloop
          have hreached := (reached_of_rounds hpart hitem hrounds hbetween).1
          have hmutedLast : last.log.muted = 0 := hreached.follows.muted_eq.trans hmuted
          have hmutedEnd : ({ last with
            history := .finished within last.position :: last.history } : ParserState).log.muted =
              0 := hmutedLast
          obtain ⟨hlog, -⟩ := ParserState.reportAll_log hmutedEnd
            (Statement.reportsAtTop answers.reverse.flatten)
          rw [hquiet] at hlog
          obtain ⟨hempty, hreports⟩ := List.append_eq_nil_iff.1 hlog.symm
          have hend : set.stream.kind last.position = .endOfFile := by
            rw [startsItem_apply, hwithin.closer_eq, Bool.or_self] at hends
            simpa using (Prod.mk.inj hends).1
          refine ⟨⟨within, first, last, answers, hheader, hrounds, ?_, ?_, hreports, rfl⟩⟩
          · have := set.balanced.end_last hreached.lt hend
            omega
          · exact Array.toList_eq_nil_iff.1 hempty

/-- The items of a module of which nothing is reported lead up to the line break behind it, and
the separators there. -/
theorem exists_rounds_of_joins (hwarns : set.Warns) (hdeep : set.allows .tooDeep) {source : Module}
    (quiet : Quiet set.stream source) (hjoins : set.stream.Joins set'.stream whole relocation)
    (balanced : whole.Balanced)
    (hends : set'.EndsLike whole relocation (set'.stream.skipWhile (·.separates false) 0)
      (whole.skipWhile (·.separates false) (set.stream.size - 1)))
    (hheader : set'.stream.kind (set'.stream.skipWhile (·.separates false) 0) ≠
      .keyword .moduleWord) :
    ∃ within first later, moduleOpening whole .initial = (.ok (source.name, within), first) ∧
      within.IsOutermost ∧
      Rounds whole moduleItem within "declaration" [] first quiet.answers later ∧
      later.log = quiet.last.log ∧ later.log.muted = 0 ∧
      later.position = whole.skipWhile (·.separates false) (set.stream.size - 1) := by
  have hopening : set.Runs moduleOpening .initial _ _ := runs_moduleOpening
  unfold Runs at hopening
  rw [quiet.opening] at hopening
  obtain ⟨hwithin, hpart, hbetween, hopened, hmuted⟩ := hopening
  have hreached := (reached_of_rounds hpart (obeys_moduleItem hwarns hdeep) quiet.rounds hbetween).1
  have hbegins := hjoins.beginsLike balanced
  have hle : quiet.last.position ≤ set.stream.size - 1 := Nat.le_of_eq quiet.at_end
  have hnone : ∀ diagnostic ∈ quiet.last.log.diagnostics,
      diagnostic.kind ≠ .missingElseBranch := fun _ hmem => by
    rw [quiet.log_eq] at hmem
    exact absurd hmem (Array.not_mem_empty _)
  have hcount : quiet.last.log.count = 0 := by
    rw [Log.count, quiet.log_eq]
    rfl
  have hbefore : quiet.first.log.count = 0 :=
    Nat.le_zero.1 (hcount ▸ hreached.follows.count_le)
  have hplace := hends.token_add 0 hends.lt
  rw [Nat.add_zero, Nat.add_zero] at hplace
  have hdepth := hends.depth_add 0 hends.lt
  rw [Nat.add_zero, Nat.add_zero, set'.balanced.depth_eq hends.lt, hends.opened_eq] at hdepth
  obtain ⟨within, first, hopening, hwithin', hlog, hposition⟩ := hbegins.opening quiet.opening
    (Nat.le_trans hreached.within.le hle) (by rw [set.stream.kind_last]; exact TokenKind.noConfusion)
    (by rw [TokenStream.kind, hplace]; exact hheader) hdepth
    (fun diagnostic hmem => hnone diagnostic (hreached.follows.mem_diagnostics _ hmem))
    fun _ => hbefore
  -- no conditional without a last branch may stand at the top
  have hbranches : ∀ group ∈ quiet.answers, ¬group.any Statement.lacksElse = true := by
    intro group hgroup hlacks
    obtain ⟨statement, hmem, hlacks⟩ := List.any_eq_true.1 hlacks
    have hmisplaced := (List.append_eq_nil_iff.1 quiet.reports_eq).1
    have hplaced := List.filterMap_eq_nil_iff.1 hmisplaced statement
      (List.mem_flatten.2 ⟨group, List.mem_reverse.2 hgroup, hmem⟩)
    rw [Statement.lacksElse_of_misplaced? hplaced] at hlacks
    cases hlacks
  obtain ⟨later, hrounds, hlog', hposition'⟩ := hbegins.rounds
    (fun group => group.any Statement.lacksElse = true) hwithin hwithin' hpart
    (obeys_moduleItem hwarns hdeep)
    (fun P s hclosed hlt hzero =>
      (P.agrees_moduleItem hwarns hdeep (fun _ => hzero) hclosed.guarded hlt).mono fun _ _ h => h.1)
    quiet.rounds hbetween hopened hmuted hle hbranches hnone (fun _ => hcount) hposition hlog
  rw [quiet.at_end, BeginsLike.meet_self] at hposition'
  exact ⟨within, first, later, hopening, hwithin', hrounds, hlog',
    hlog' ▸ hreached.follows.muted_eq.trans hmuted, hposition'⟩

/-- A source that does not begin with the keyword of a header has none. -/
theorem exists_opening_of_ne
    (h : set.stream.kind (set.stream.skipWhile (·.separates false) 0) ≠ .keyword .moduleWord) :
    ∃ within first, moduleOpening set.stream .initial = (.ok (none, within), first) ∧
      first.position = set.stream.skipWhile (·.separates false) 0 ∧
      first.log = ParserState.initial.log := by
  obtain ⟨_, _, hstop⟩ := within_skipWhile (fun _ => TokenKind.isPlain_of_separates)
    set.stream.size_pos
  have hheader : ¬set.stream.kind (ParserState.initial.skip set.stream).position =
    .keyword .moduleWord := h
  rw [moduleOpening_apply, optionalHeader_apply, if_neg hheader]
  exact ⟨_, _, rfl, skipWhile_eq_self hstop, rfl⟩

/-- Behind a module of which nothing is reported another one without a header is read as it would be
read alone. -/
theorem moduleSource_of_joins (hwarns : set.Warns) (hdeep : set.allows .tooDeep)
    (hwarns' : set'.Warns) (hdeep' : set'.allows .tooDeep) {source source' : Module}
    {final : ParserState} (quiet : Quiet set.stream source)
    (hrun : moduleSource set'.stream .initial = (.ok source', final))
    (hheader : set'.stream.kind (set'.stream.skipWhile (·.separates false) 0) ≠
      .keyword .moduleWord)
    (hjoins : set.stream.Joins set'.stream whole relocation) (balanced : whole.Balanced)
    (htouches : ∀ left right : Token,
      (left.relocate relocation).touches (right.relocate relocation) = left.touches right) :
    ∃ joined last, moduleSource whole .initial = (.ok joined, last) ∧ joined.name = source.name ∧
      joined.declarations =
        Declaration.mergeClauses (source.declarations ++ relocation.move source'.declarations) ∧
      last.log.diagnostics.toList = relocation.move final.log.diagnostics.toList := by
  have hends := hjoins.endsLike set.balanced balanced htouches
  obtain ⟨within, first, later, hopening, hwithin, hrounds, hlog, hmuted, hposition⟩ :=
    exists_rounds_of_joins hwarns hdeep quiet hjoins balanced hends hheader
  -- the loop over the items of the second source, up to its end
  obtain ⟨within', first', hopening', hposition', hlog'⟩ := exists_opening_of_ne hheader
  have hruns : set'.Runs moduleOpening .initial _ _ := runs_moduleOpening
  unfold Runs at hruns
  rw [hopening'] at hruns
  obtain ⟨hwithin', hpart, hbetween, -, hmuted'⟩ := hruns
  rw [moduleSource_apply, hopening'] at hrun
  dsimp only at hrun
  rw [moduleRest_apply] at hrun
  cases hloop : repeatWhile.iterate (startsItem within')
    (nextItem moduleItem within' "declaration") set'.stream.size [] set'.stream first' with
  | mk result middle =>
    rw [hloop] at hrun
    cases result with
    | error abort => cases hrun
    | ok reversed =>
      obtain ⟨hsource, rfl⟩ := Prod.mk.inj hrun
      injection hsource with hsource
      subst hsource
      have hitem := obeys_moduleItem hwarns' hdeep'
      have hreached :=
        (reached_of_rounds hpart hitem (rounds_of_iterate hpart hitem hbetween hloop).1 hbetween).1
      -- the loop over the items of the whole goes on with them
      obtain ⟨taken, htaken, hrest⟩ := hrounds.moduleRest_eq
      rw [← hposition', ← hposition] at hends
      have hsize := hends.size_eq
      have hplace := hends.lt
      have hcount : set'.stream.size ≤ (whole.size - taken) + first'.position := by omega
      have hstays : (repeatWhile.iterate (startsItem within')
          (nextItem moduleItem within' "declaration") set'.stream.size [] set'.stream
          first').2.position < set'.stream.size := by
        rw [hloop]
        exact hreached.lt
      obtain ⟨last, reports, heq, hreports, hreports', hmuted''⟩ := hends.iterate hwarns' hdeep'
        hpart hbetween hwithin' hwithin hmuted' hmuted (Nat.le_add_right ..) hcount hstays
      rw [hloop] at heq hreports hmuted''
      have hwhole : moduleRest within whole.size [] whole first =
          moduleRest within (whole.size - taken) ([] ++ quiet.answers) whole later := by
        rw [List.nil_append, ← hrest, Nat.add_sub_cancel' (by omega)]
      have hstatements : (relocation.move reversed ++ quiet.answers).reverse.flatten =
          quiet.answers.reverse.flatten ++ relocation.move reversed.reverse.flatten := by
        rw [List.reverse_append, List.flatten_append, ← Relocation.move_flatten]
        exact congrArg (fun groups => _ ++ List.flatten groups) List.map_reverse.symm
      obtain ⟨hdeclarations, hreportsTop⟩ := Statement.declarations_append quiet.reports_eq
        (relocation.move reversed.reverse.flatten)
      have hiterate : repeatWhile.iterate (startsItem within)
          (nextItem moduleItem within "declaration") (whole.size - taken) ([] ++ quiet.answers)
          whole later = (.ok (relocation.move reversed ++ quiet.answers), last) := by
        have heq : repeatWhile.iterate (startsItem within)
          (nextItem moduleItem within "declaration") (whole.size - taken) [] whole later =
            (.ok (relocation.move reversed), last) := heq
        rw [iterate_append, map_apply, heq]
      rw [moduleSource_apply, hopening]
      dsimp only
      rw [hwhole, moduleRest_apply, hiterate]
      dsimp only
      rw [hstatements, hdeclarations, hreportsTop, Statement.declarations_move,
        Statement.reportsAtTop_move, ← quiet.declarations_eq]
      have hmutedMiddle : middle.log.muted = 0 := hreached.follows.muted_eq.trans hmuted'
      have hmutedEnd : ({ middle with
          history := .finished within' middle.position :: middle.history } : ParserState).log.muted =
            0 := hmutedMiddle
      have hmutedLast : ({ last with
          history := .finished within last.position :: last.history } : ParserState).log.muted =
            0 := hmuted''.trans hmutedMiddle
      refine ⟨_, _, rfl, rfl, rfl, ?_⟩
      rw [(ParserState.reportAll_log hmutedLast _).1, (ParserState.reportAll_log hmutedEnd _).1]
      dsimp only
      rw [hreports, hreports', hlog', hlog, quiet.log_eq]
      exact List.map_append.symm

end Setting

/-! ### Sources one behind the other -/

/-- Places that are moved equally far still meet. -/
theorem Relocation.shift_touches (lines offset : Nat) (left right : Token) :
    (left.relocate (.shift lines offset)).touches (right.relocate (.shift lines offset)) =
      left.touches right := by
  show (left.span.stop + (offset : Int) == right.span.start + (offset : Int)) = _
  rw [Token.touches, Span.touches, Bool.eq_iff_iff, beq_iff_eq, beq_iff_eq]
  omega

/-- The first token of a stream that is not passed over. -/
theorem TokenStream.find?_skipWhile {stream : TokenStream} {isMember : TokenKind → Bool}
    (hend : isMember .endOfFile = false) {position : Nat} (hlt : position < stream.size) :
    (stream.tokens.toList.drop position).find? (!isMember ·.kind) =
      some (stream.token (stream.skipWhile isMember position)) := by
  have hget : stream.tokens.toList[position]? = some (stream.token position) := by
    rw [Array.getElem?_toList, getElem?_tokens hlt]
  obtain ⟨hlength, hget⟩ := List.getElem?_eq_some_iff.1 hget
  rw [List.drop_eq_getElem_cons hlength, hget, List.find?_cons, TokenStream.skipWhile, if_pos hlt,
    show stream.kind position = (stream.token position).kind from rfl]
  cases hkind : isMember (stream.token position).kind with
  | false => rfl
  | true =>
    refine find?_skipWhile hend (succ_lt_size hlt fun hlast => ?_)
    rw [TokenStream.kind] at hlast
    rw [hlast, hend] at hkind
    cases hkind
termination_by stream.size - position

/-- The first token of a stream that is not a separator. -/
theorem TokenStream.find?_separators {stream : TokenStream} {position : Nat}
    (hlt : position < stream.size) :
    (stream.tokens.toList.drop position).find? (!·.kind.isSeparator) =
      some (stream.token (stream.skipWhile (·.separates false) position)) := by
  have hseparates : (·.separates false) = TokenKind.isSeparator :=
    funext fun kind => by rw [TokenKind.separates, Bool.false_and, Bool.or_false]
  rw [hseparates]
  exact find?_skipWhile rfl hlt

/-- A source of which nothing is reported, in front of another one: the declarations of both, as one
module, and what is reported of the second one. -/
theorem parseSource_append {first second file : String} {result result' : ParseResult}
    {tokens : Array Token} (hfirst : parseSource first file = .ok result)
    (hquiet : result.diagnostics = []) (hlexes : Token.ofText second file = .ok tokens)
    (hsecond : parseSource second file = .ok result')
    (hheader : (tokens.find? (!·.kind.isSeparator)).map Token.kind ≠
      some (.keyword .moduleWord)) :
    ∃ source source' whole result'', result.module? = some source ∧
      result'.module? = some source' ∧
      parseSource (first ++ "\n" ++ second) file = .ok result'' ∧ result''.module? = some whole ∧
      whole.name = source.name ∧
      whole.sameStructure { source with
        declarations := Declaration.mergeClauses (source.declarations ++ source'.declarations) } =
          true ∧
      result''.diagnostics =
        (Relocation.shift (first.toList.count '\n' + 1) (first.length + 1)).move
          result'.diagnostics := by
  cases hlexes' : Token.ofText first file with
  | error error =>
    unfold parseSource at hfirst
    rw [hlexes'] at hfirst
    cases hfirst
    cases hquiet
  | ok tokens' =>
    obtain ⟨joined, span, hjoined, htokens⟩ := Token.ofText_join hlexes' hlexes
    obtain ⟨stream, source, final, -, hstream, balanced, hrun, hmodule, hreports⟩ :=
      exists_moduleSource_of_parseSource hlexes' hfirst
    obtain ⟨stream', source', final', -, hstream', balanced', hrun', hmodule', hreports'⟩ :=
      exists_moduleSource_of_parseSource hlexes hsecond
    obtain ⟨whole, hwhole, hjoinedTokens, hbalanced⟩ := TokenStream.exists_of_ofText hjoined
    have hjoins : stream.Joins stream' whole
        (.shift (first.toList.count '\n' + 1) (first.length + 1)) := by
      refine ⟨⟨{ kind := .newline, value := "\n", span := span }, rfl, ?_⟩⟩
      rw [hjoinedTokens, hstream, hstream']
      exact htokens
    have hkind : stream'.kind (stream'.skipWhile (·.separates false) 0) ≠
        .keyword .moduleWord := by
      have hfind := find?_separators stream'.size_pos
      rw [List.drop_zero, Array.find?_toList, hstream'] at hfind
      rw [hfind] at hheader
      exact fun h => hheader (congrArg some h)
    have hempty : final.log.diagnostics = #[] := by
      rw [hreports] at hquiet
      exact Array.toList_eq_nil_iff.1 hquiet
    have hwarns : ∀ {stream : TokenStream} (balanced : stream.Balanced),
        (Entry.module.setting balanced).Warns := fun _ => Or.inr
    have hdeep : ∀ {stream : TokenStream} (balanced : stream.Balanced),
        (Entry.module.setting balanced).allows .tooDeep := fun _ => Abort.Arises.tooDeep
    obtain ⟨quiet⟩ := exists_quiet (hwarns balanced) (hdeep balanced) hrun hempty
    obtain ⟨source'', last, heq, hname, hdeclarations, hlog⟩ :=
      moduleSource_of_joins (hwarns balanced) (hdeep balanced) (hwarns balanced')
        (hdeep balanced') quiet hrun' hkind hjoins hbalanced (Relocation.shift_touches _ _)
    refine ⟨source, source', source'', {
      module? := some source''
      diagnostics := last.log.diagnostics.toList
      tokens := joined }, hmodule, hmodule', ?_, rfl, hname, ?_, ?_⟩
    · exact parseSource_eq_ok hjoined hwhole heq
    · have hmove : Relocation.forget.move source''.declarations = Relocation.forget.move
          (Declaration.mergeClauses (source.declarations ++ source'.declarations)) := by
        rw [hdeclarations, ← Declaration.mergeClauses_move, ← Declaration.mergeClauses_move]
        have happend : ∀ declarations : List Declaration,
            Relocation.forget.move (source.declarations ++ declarations) =
              Relocation.forget.move source.declarations ++ Relocation.forget.move declarations :=
          fun _ => List.map_append
        rw [happend, happend, Relocation.move_move, Relocation.andThen_forget]
      exact Module.sameStructure_of_forget hname hmove
    · rw [hreports']
      exact hlog

/-- A clause in front of another one of the same name, and of a faulty definition. -/
theorem exists_parseSource_append :
    ∃ result result' tokens, parseSource "f 0 = 1" "f" = .ok result ∧ result.diagnostics = [] ∧
      Token.ofText "f n = 2\ng = = 3" "f" = .ok tokens ∧
      parseSource "f n = 2\ng = = 3" "f" = .ok result' ∧
      (tokens.find? (!·.kind.isSeparator)).map Token.kind ≠ some (.keyword .moduleWord) ∧
      ∃ whole result'', parseSource ("f 0 = 1" ++ "\n" ++ "f n = 2\ng = = 3") "f" = .ok result'' ∧
        result''.module? = some whole ∧
        result''.diagnostics = (Relocation.shift 1 8).move result'.diagnostics := by
  have hfirst : (parseSource "f 0 = 1" "f").toOption.any (·.diagnostics.isEmpty) = true := by
    decide +kernel
  have hlexes : (Token.ofText "f n = 2\ng = = 3" "f").toOption.any (fun tokens =>
      (tokens.find? (!·.kind.isSeparator)).map Token.kind != some (.keyword .moduleWord)) =
        true := by decide +kernel
  have hsecond : (parseSource "f n = 2\ng = = 3" "f").toOption.isSome = true := by decide +kernel
  cases h : parseSource "f 0 = 1" "f" with
  | error literal =>
    rw [h] at hfirst
    cases hfirst
  | ok result =>
    cases h' : Token.ofText "f n = 2\ng = = 3" "f" with
    | error error =>
      rw [h'] at hlexes
      cases hlexes
    | ok tokens =>
      cases h'' : parseSource "f n = 2\ng = = 3" "f" with
      | error literal =>
        rw [h''] at hsecond
        cases hsecond
      | ok result' =>
        rw [h] at hfirst
        rw [h'] at hlexes
        have hquiet : result.diagnostics = [] := List.isEmpty_iff.1 hfirst
        have hheader : (tokens.find? (!·.kind.isSeparator)).map Token.kind ≠
          some (.keyword .moduleWord) := bne_iff_ne.1 hlexes
        obtain ⟨_, _, whole, result'', -, -, hparsed, hmodule, -, -, hreports⟩ :=
          parseSource_append h hquiet h' h'' hheader
        exact ⟨result, result', tokens, rfl, hquiet, rfl, rfl, hheader, whole, result'', hparsed,
          hmodule, hreports⟩

end SableFrontend
