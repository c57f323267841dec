import SableFrontend.Proofs.Parallel.Basic
import SableFrontend.Proofs.Token.BracketWindow

/-!
What reading ahead shows in two streams. Each way of reading ahead in a stream comes to an end at a
token at which an item may end, unless it passes delimiters that are closed further on; so from a
place in a stretch it stays in the stretch, and finds the same in the other stream.
-/

namespace SableFrontend

open TokenStream

namespace TokenStream

variable {stream : TokenStream} {position : Nat}

theorem firstStop_eq (stops : TokenKind → Bool) {depth : Nat} (h : position < stream.size) :
    stream.firstStop stops depth position =
      match stream.kind position with
      | .endOfFile => stream.token position
      | .closer _ =>
        if depth = 0 then stream.token position
        else stream.firstStop stops (depth - 1) (position + 1)
      | .opener _ => stream.firstStop stops (depth + 1) (position + 1)
      | kind =>
        if depth = 0 ∧ (stops kind || kind.isSeparator) = true then stream.token position
        else stream.firstStop stops depth (position + 1) := by
  refine (firstStop.eq_def ..).trans ((if_pos h).trans ?_)
  cases stream.kind position <;> rfl

/-- The kinds from a place on. -/
theorem map_kind_drop (h : position < stream.size) :
    (stream.tokens.toList.drop position).map Token.kind =
      stream.kind position :: (stream.tokens.toList.drop (position + 1)).map Token.kind := by
  have hlength : position < stream.tokens.toList.length := h
  have hget := getElem?_tokens h
  rw [← Array.getElem?_toList, List.getElem?_eq_getElem hlength] at hget
  rw [List.drop_eq_getElem_cons hlength, Option.some.inj hget, List.map_cons]
  rfl

theorem arrowAhead_eq {depth : Nat} (h : position < stream.size) :
    stream.arrowAhead depth position =
      match (stream.token position).kind with
      | .opener _ => stream.arrowAhead (depth + 1) (position + 1)
      | .closer _ => if depth = 0 then false else stream.arrowAhead (depth - 1) (position + 1)
      | kind =>
        if depth = 0 then
          if (stream.token position).isOperator "=>" then true
          else if endsContext kind then false
          else stream.arrowAhead depth (position + 1)
        else stream.arrowAhead depth (position + 1) := by
  refine (arrowAhead.eq_def ..).trans ((if_pos h).trans ?_)
  generalize stream.token position = token
  obtain ⟨kind, value, span⟩ := token
  cases kind <;> rfl

theorem resumePosition_eq (level : Nat) (commas : Bool) (h : position + 1 < stream.size) :
    stream.resumePosition level commas position =
      if stream.kind position = .endOfFile ∨ stream.depth position < level ∨
          stream.depth position = level ∧ (stream.kind position).isCloser = true then position
      else if stream.depth position = level ∧
          (stream.kind position).separates commas = true then position + 1
      else stream.resumePosition level commas (position + 1) := by
  rw [resumePosition, if_pos h]

theorem le_resumePosition (stream : TokenStream) (level : Nat) (commas : Bool) (position : Nat) :
    position ≤ stream.resumePosition level commas position := by
  fun_induction resumePosition stream level commas position with
  | case1 | case4 => exact Nat.le_refl _
  | case2 => exact Nat.le_succ _
  | case3 position _ _ _ _ _ ih => omega

end TokenStream

/-! ### Kinds that are the same up to a closer -/

/-- Two words of kinds that are the same up to the closer of the group that they begin in, when
`depth` more groups are open. -/
inductive SameGroup : (depth : Nat) → List TokenKind → List TokenKind → Prop
  | closed (bracket : Bracket) (rest rest' : List TokenKind) :
      SameGroup 0 (.closer bracket :: rest) (.closer bracket :: rest')
  | closer (bracket : Bracket) {depth : Nat} {rest rest' : List TokenKind}
      (hrest : SameGroup depth rest rest') :
      SameGroup (depth + 1) (.closer bracket :: rest) (.closer bracket :: rest')
  | opener (bracket : Bracket) {depth : Nat} {rest rest' : List TokenKind}
      (hrest : SameGroup (depth + 1) rest rest') :
      SameGroup depth (.opener bracket :: rest) (.opener bracket :: rest')
  | plain {kind : TokenKind} {depth : Nat} {rest rest' : List TokenKind}
      (hkind : kind.isPlain = true) (hrest : SameGroup depth rest rest') :
      SameGroup depth (kind :: rest) (kind :: rest')

namespace SameGroup

open BracketForm

variable {depth : Nat} {kinds kinds' : List TokenKind}

theorem settle_plain {kind : TokenKind} {rest : List TokenKind} (hkind : kind.isPlain = true) :
    settle depth (kind :: rest) =
      match depth, decision? kind with
      | 0, some form => form
      | _, _ => settle depth rest := by
  cases kind <;> first | rfl | cases hkind

theorem settle_take (h : SameGroup depth kinds kinds') (count : Nat) :
    settle depth (kinds.take count) = settle depth (kinds'.take count) := by
  induction h generalizing count with
  | closed => cases count <;> simp [settle]
  | closer bracket hrest ih => cases count <;> simp [settle, ih]
  | opener bracket hrest ih => cases count <;> simp [settle, ih]
  | @plain kind depth rest rest' hkind hrest ih =>
    cases count with
    | zero => rfl
    | succ count =>
      rw [List.take_succ_cons, List.take_succ_cons, settle_plain hkind, settle_plain hkind, ih]

/-- Only the first three kinds are looked at, and no further if one of them is a closer. -/
theorem startsLeftSection_take (h : SameGroup 0 kinds kinds') (count : Nat) :
    startsLeftSection (kinds.take count) = startsLeftSection (kinds'.take count) := by
  have hsecond : ∀ (first second : TokenKind) (rest rest' : List TokenKind),
      second ≠ .operator → startsLeftSection (first :: second :: rest) =
        startsLeftSection (first :: second :: rest') := by
    intro first second rest rest' hne
    cases second <;> first | rfl | exact absurd rfl hne
  have hfirst : ∀ {first : TokenKind} (rest : List TokenKind), isSectionOperand first = false →
      startsLeftSection (first :: rest) = false := by
    intro first rest hfirst
    unfold startsLeftSection
    split
    · next heq => rw [← (List.cons.inj heq).1, hfirst]
    · rfl
  rcases count with _ | _ | _ | count
  · rfl
  · cases h <;> rfl
  · cases h with
    | closed bracket | opener bracket =>
      rw [List.take_succ_cons, List.take_succ_cons, hfirst _ rfl, hfirst _ rfl]
    | plain hkind hrest => cases hrest <;> rfl
  · cases h with
    | closed bracket | opener bracket =>
      rw [List.take_succ_cons, List.take_succ_cons, hfirst _ rfl, hfirst _ rfl]
    | plain hkind hrest =>
      cases hrest with
      | closed | opener => exact hsecond _ _ _ _ TokenKind.noConfusion
      | plain hkind' hrest => cases hrest <;> exact startsLeftSection_congr ..

theorem ofContent_take (h : SameGroup 0 kinds kinds') (limit count : Nat) :
    ofContent limit (kinds.take count) = ofContent limit (kinds'.take count) := by
  induction kinds generalizing kinds' limit count with
  | nil => cases h
  | cons first rest ih =>
    obtain ⟨rest', rfl, hrest⟩ : ∃ rest', kinds' = first :: rest' ∧
        (first.isSeparator = true → SameGroup 0 rest rest') := by
      cases h with
      | closed | opener => exact ⟨_, rfl, Bool.noConfusion⟩
      | plain hkind hrest => exact ⟨_, rfl, fun _ => hrest⟩
    cases count with
    | zero => rfl
    | succ count =>
      have hsettle : ∀ limit, settle 0 ((first :: rest.take count).take limit) =
          settle 0 ((first :: rest'.take count).take limit) := by
        intro limit
        have hsame := h.settle_take (min limit (count + 1))
        rwa [← List.take_take, ← List.take_take, List.take_succ_cons, List.take_succ_cons] at hsame
      have hleft := h.startsLeftSection_take (count + 1)
      rw [List.take_succ_cons, List.take_succ_cons] at hleft ⊢
      cases limit with
      | zero => rfl
      | succ more =>
        simp only [ofContent, hleft, hsettle]
        split
        · next hseparator => exact ih (hrest hseparator) more count
        · rfl

end SameGroup

/-- What the form of a square bracket of a stream depends on. -/
theorem BracketForm.atIndex_eq {stream : TokenStream} {position : Nat}
    (hlt : position < stream.size) (hkind : stream.kind position = .opener .square) :
    atIndex stream.tokens (position : Int) =
      .ok ((stream.formBefore? position).getD (ofContent window
        (((stream.tokens.toList.drop (position + 1)).map Token.kind).take (window + 2)))) := by
  have hbefore : (if 0 < position then stream.tokens[position - 1]? else none) =
      if 0 < position then some (stream.token (position - 1)) else none := by
    by_cases hpos : 0 < position
    · rw [if_pos hpos, if_pos hpos, TokenStream.getElem?_tokens (by omega)]
    · rw [if_neg hpos, if_neg hpos]
  rw [atIndex_natCast (TokenStream.getElem?_tokens hlt) hkind, hbefore, contentAfter_eq]
  rfl

namespace Parallel

variable {set : Setting} {P : Parallel set} {position : Nat}

theorem lt_other_size (hle : position ≤ P.stop) : P.place position < P.other.size := place_lt hle

theorem kind_stop : (set.stream.kind P.stop).isBoundary = true := P.boundary

theorem other_kind_stop : (P.other.kind (P.place P.stop)).isLimit = true := by
  rw [place_stop]
  exact P.other_limit

theorem Closed.kind_stop (h : P.Closed) : (P.other.kind (P.place P.stop)).isBoundary = true := by
  rw [place_stop]
  exact h

/-! ### Skipping -/

/-- Skipping from a place in the stretch comes to the same place in both streams, if it does not
leave the stretch and what comes at its end is not skipped in the other stream either. -/
theorem skipWhile_place {isMember : TokenKind → Bool} (hbase : P.base ≤ position)
    (hle : set.stream.skipWhile isMember position ≤ P.stop)
    (hstop : set.stream.skipWhile isMember position = P.stop →
      isMember (P.other.kind (P.place P.stop)) = false) :
    P.other.skipWhile isMember (P.place position) =
      P.place (set.stream.skipWhile isMember position) := by
  have hlt : position < set.stream.size :=
    Nat.lt_of_le_of_lt (Nat.le_trans (le_skipWhile ..) hle) stop_lt
  fun_induction skipWhile set.stream isMember position with
  | case1 position hsize hmember ih =>
    have hnext := le_skipWhile set.stream isMember (position + 1)
    have hlive : P.Live position := live_of_lt hbase (by omega)
    rw [skipWhile, if_pos (place_lt hlive.le_stop), hlive.kind_eq, if_pos hmember,
      ← place_succ hbase]
    exact ih (by omega) hle hstop (Nat.lt_of_le_of_lt (Nat.le_trans hnext hle) stop_lt)
  | case2 position hsize hmember =>
    refine skipWhile_eq_self ?_
    rcases Nat.lt_or_eq_of_le hle with hlt | heq
    · rw [(live_of_lt hbase hlt).kind_eq]
      exact Bool.eq_false_iff.2 hmember
    · rw [heq]
      exact hstop heq
  | case3 position hge => exact absurd hlt hge

/-- Whoever keeps to the delimiters around a sheltered place does not leave the stretch. -/
theorem Sheltered.le_stop (h : P.Sheltered position) (hfrom : P.Surrounds position)
    (hle : position ≤ P.stop)
    {further : Nat} (hwithin : set.stream.Within position further) : further ≤ P.stop := by
  have hend : set.stream.kind P.stop = .endOfFile → further ≤ P.stop := fun hend => by
    have hlast := set.balanced.end_last stop_lt hend
    have hlt := hwithin.lt
    omega
  rcases h with hfinal | hopened
  · rcases Bool.or_eq_true_iff.1 (P.ends hfinal).2 with hkind | hkind
    · exact hend (beq_iff_eq.1 hkind)
    rcases hfrom with hkind | hinside
    · exact hend hkind
    have hinside := hinside hle
    -- behind the closer less is open than at the place
    obtain ⟨bracket, hcloser⟩ := TokenKind.exists_of_isCloser hkind
    refine Nat.le_of_not_lt fun hpast => ?_
    have hafter := opened_succ_closer stop_lt hcloser
    obtain ⟨outer, houter⟩ := set.balanced.closer_fits stop_lt hcloser
    have hsuffix := (hwithin.suffix (P.stop + 1) (Nat.le_succ_of_le hle) hpast).length_le
    rw [← show set.stream.opened P.stop = set.stream.opened P.base from P.opened_eq] at hinside
    rw [show set.stream.opened (P.stop + 1) = _ from hafter] at hsuffix
    rw [show set.stream.opened P.stop = bracket :: outer from houter] at hinside hsuffix
    rw [List.tail_cons] at hsuffix
    rw [List.length_cons] at hinside
    omega
  · refine Nat.le_of_not_lt fun hpast => ?_
    have hsuffix := (hwithin.suffix P.stop hle (Nat.le_of_lt hpast)).length_le
    rw [show set.stream.opened P.stop = set.stream.opened P.base from P.opened_eq] at hsuffix
    omega

theorem Sheltered.skipWhile_le {isMember : TokenKind → Bool} (h : P.Sheltered position)
    (hplain : ∀ kind, isMember kind = true → kind.isPlain = true) (hbase : P.base ≤ position)
    (hle : position ≤ P.stop) : set.stream.skipWhile isMember position ≤ P.stop :=
  h.le_stop (surrounds_of_base_le hbase) hle (within_skipWhile hplain (Nat.lt_of_le_of_lt hle stop_lt)).1

theorem Sheltered.skipWhile_eq {isMember : TokenKind → Bool} (h : P.Sheltered position)
    (hplain : ∀ kind, isMember kind = true → kind.isPlain = true) (hbase : P.base ≤ position)
    (hle : position ≤ P.stop) :
    P.other.skipWhile isMember (P.place position) =
      P.place (set.stream.skipWhile isMember position) := by
  have hstay := h.skipWhile_le hplain hbase hle
  have hskip := within_skipWhile hplain (Nat.lt_of_le_of_lt hle stop_lt)
  refine skipWhile_place hbase hstay fun heq => ?_
  -- what is skipped is still sheltered, so the end is only reached where it is the same
  have hlive : P.Live (set.stream.skipWhile isMember position) :=
    (h.of_suffix (hskip.2.1 ▸ List.suffix_rfl)).live
      (Nat.le_trans hbase (le_skipWhile ..)) hstay
  rw [heq] at hlive
  rw [hlive.kind_eq, ← heq]
  exact hskip.2.2

/-! ### The first stop -/

/-- A search that began at a guarded place and comes to the end of the stretch finds that an item may
end there. -/
theorem Guarded.closed {start : Nat} (h : P.Guarded start)
    (hopened : (set.stream.opened P.stop).length = (set.stream.opened start).length) :
    P.Closed := by
  rcases h with hclosed | hfinal | hdeep
  · exact hclosed
  · exact closed_of_final hfinal
  · rw [show set.stream.opened P.stop = set.stream.opened P.base from P.opened_eq] at hopened
    omega

/-- A search that began at a clear place and comes to the end of the stretch meets no colon there. -/
theorem Clear.ne_colon {start : Nat} (h : P.Clear start)
    (hopened : (set.stream.opened P.stop).length = (set.stream.opened start).length) :
    P.other.kind (P.place P.stop) ≠ .colon := by
  rcases h with hcolon | hsheltered
  · rwa [place_stop]
  · exact TokenKind.ne_of_isBoundary (hsheltered.guarded.closed hopened).kind_stop rfl

/-- The first stop from a place in the stretch lies in the stretch, at corresponding places. The
search has begun at `start` and entered `depth` groups since. It stops at a colon or the sign of a value
that may stand at the end of the other stretch, or does not come there. -/
theorem exists_firstStop_inside {stops : TokenKind → Bool} {start : Nat}
    (hstart : (set.stream.opened P.base).length ≤ (set.stream.opened start).length)
    (hguarded : stops .colon = true ∧ stops .assign = true ∨ P.Guarded start) {position depth : Nat}
    (hbase : P.base ≤ position) (hle : position ≤ P.stop)
    (hdepth : (set.stream.opened position).length = (set.stream.opened start).length + depth) :
    ∃ found, P.base ≤ found ∧ found ≤ P.stop ∧
      (set.stream.opened found).length = (set.stream.opened start).length ∧
      set.stream.firstStop stops depth position = set.stream.token found ∧
      P.other.firstStop stops depth (P.place position) = P.other.token (P.place found) := by
  rcases Nat.lt_or_eq_of_le hle with hlt | rfl
  · have hlive : P.Live position := live_of_lt hbase hlt
    have hsize : position < set.stream.size := Nat.lt_of_le_of_lt hle stop_lt
    have hnext : ∀ {next}, (set.stream.opened (position + 1)).length =
        (set.stream.opened start).length + next →
        ∃ found, P.base ≤ found ∧ found ≤ P.stop ∧
          (set.stream.opened found).length = (set.stream.opened start).length ∧
          set.stream.firstStop stops next (position + 1) = set.stream.token found ∧
          P.other.firstStop stops next (P.place position + 1) = P.other.token (P.place found) := by
      intro next hnext
      rw [← place_succ hbase]
      exact exists_firstStop_inside hstart hguarded (Nat.le_succ_of_le hbase) hlt hnext
    have hhere : depth = 0 → (set.stream.opened position).length =
        (set.stream.opened start).length := fun heq => by omega
    rw [firstStop_eq stops hsize, firstStop_eq stops (place_lt hle), hlive.kind_eq]
    cases hkind : set.stream.kind position with
    | endOfFile =>
      exact absurd (set.balanced.end_last hsize hkind) (by have := stop_lt (P := P); omega)
    | closer bracket =>
      by_cases hzero : depth = 0
      · simp only [if_pos hzero]
        exact ⟨position, hbase, hle, hhere hzero, rfl, rfl⟩
      · simp only [if_neg hzero]
        refine hnext ?_
        rw [opened_succ_closer hsize hkind, List.length_tail]
        omega
    | opener bracket =>
      refine hnext ?_
      rw [opened_succ_opener hsize hkind, List.length_cons]
      omega
    | _ =>
      have hplain := opened_succ_plain hsize (by rw [hkind]; rfl)
      dsimp only
      split
      · next hstop => exact ⟨position, hbase, hle, hhere hstop.1, rfl, rfl⟩
      · exact hnext (by rw [hplain]; exact hdepth)
  · -- at the end of the stretch as much is open as at its beginning, so the search ends
    have hzero : depth = 0 := by
      rw [show set.stream.opened P.stop = set.stream.opened P.base from P.opened_eq] at hdepth
      omega
    have hfound : ∀ (stream : TokenStream) (at' : Nat), at' < stream.size →
        (stream.kind at').isBoundary = true →
        stream.firstStop stops 0 at' = stream.token at' := by
      intro stream at' hsize hboundary
      rw [firstStop_eq stops hsize]
      rcases TokenKind.eq_of_isBoundary hboundary with hkind | hkind | ⟨bracket, hkind⟩ | hkind <;>
        rw [hkind] <;> simp [TokenKind.isSeparator]
    subst hzero
    refine ⟨P.stop, hbase, hle, hdepth, hfound _ _ stop_lt kind_stop, ?_⟩
    by_cases hclosed : P.Closed
    · exact hfound _ _ (place_lt hle) hclosed.kind_stop
    · have hstops := hguarded.resolve_right fun h => hclosed (h.closed hdepth)
      rw [firstStop_eq stops (place_lt hle), place_stop]
      rcases TokenKind.eq_or_of_isLimit P.other_limit hclosed with hkind | hkind <;> rw [hkind] <;>
        simp [hstops]
termination_by P.stop - position

theorem exists_firstStop (stops : TokenKind → Bool) (hbase : P.base ≤ position)
    (hle : position ≤ P.stop)
    (hguarded : stops .colon = true ∧ stops .assign = true ∨ P.Guarded position) :
    ∃ found, P.base ≤ found ∧ found ≤ P.stop ∧
      (set.stream.opened found).length = (set.stream.opened position).length ∧
      set.stream.firstStop stops 0 position = set.stream.token found ∧
      P.other.firstStop stops 0 (P.place position) = P.other.token (P.place found) :=
  exists_firstStop_inside (P.within.suffix position hbase hle).length_le hguarded hbase hle rfl

/-! ### The sign of a context -/

theorem arrowAhead_inside {start position depth : Nat}
    (hstart : (set.stream.opened P.base).length ≤ (set.stream.opened start).length)
    (hclear : P.Clear start) (hbase : P.base ≤ position) (hle : position ≤ P.stop)
    (hdepth : (set.stream.opened position).length = (set.stream.opened start).length + depth) :
    P.other.arrowAhead depth (P.place position) = set.stream.arrowAhead depth position := by
  rcases Nat.lt_or_eq_of_le hle with hlt | rfl
  · have hlive : P.Live position := live_of_lt hbase hlt
    have hsize : position < set.stream.size := Nat.lt_of_le_of_lt hle stop_lt
    have hnext : ∀ next, (set.stream.opened (position + 1)).length =
        (set.stream.opened start).length + next →
        P.other.arrowAhead next (P.place position + 1) =
          set.stream.arrowAhead next (position + 1) := by
      intro next hnext
      rw [← place_succ hbase]
      exact arrowAhead_inside hstart hclear (Nat.le_succ_of_le hbase) hlt hnext
    rw [arrowAhead_eq hsize, arrowAhead_eq (place_lt hle), hlive.token_eq]
    dsimp only [Token.relocate_kind, Token.relocate_isOperator]
    cases hkind : (set.stream.token position).kind with
    | opener bracket =>
      refine hnext _ ?_
      rw [opened_succ_opener hsize hkind, List.length_cons]
      omega
    | closer bracket =>
      by_cases hzero : depth = 0
      · simp only [if_pos hzero]
      · simp only [if_neg hzero]
        refine hnext _ ?_
        rw [opened_succ_closer hsize hkind, List.length_tail]
        omega
    | endOfFile =>
      exact absurd (set.balanced.end_last hsize hkind) (by have := stop_lt (P := P); omega)
    | _ =>
      have hplain := opened_succ_plain hsize (by rw [TokenStream.kind, hkind]; rfl)
      have hrest := hnext depth (by rw [hplain]; exact hdepth)
      simp only [hrest]
  · have hzero : depth = 0 := by
      rw [show set.stream.opened P.stop = set.stream.opened P.base from P.opened_eq] at hdepth
      omega
    have hnone : ∀ (stream : TokenStream) (at' : Nat), (stream.kind at').isLimit = true →
        stream.kind at' ≠ .colon → stream.arrowAhead 0 at' = false := by
      intro stream at' hlimit hcolon
      rw [arrowAhead]
      split
      · dsimp only
        rcases TokenKind.eq_of_isLimit hlimit with hkind | hkind | ⟨bracket, hkind⟩ | hkind | hkind |
            hkind
        all_goals first | exact absurd hkind hcolon | skip
        all_goals
          rw [TokenStream.kind] at hkind
          rw [hkind]
          simp [Token.isOperator, hkind, endsContext, TokenKind.isSeparator]
      · rfl
    rw [hzero, Nat.add_zero] at hdepth
    rw [hzero, hnone _ _ (TokenKind.isLimit_of_isBoundary kind_stop)
      (TokenKind.ne_of_isBoundary kind_stop rfl), hnone _ _ other_kind_stop (hclear.ne_colon hdepth)]
termination_by P.stop - position

theorem arrowAhead_place (hbase : P.base ≤ position) (hle : position ≤ P.stop)
    (hclear : P.Clear position) :
    P.other.arrowAhead 0 (P.place position) = set.stream.arrowAhead 0 position :=
  arrowAhead_inside (P.within.suffix position hbase hle).length_le hclear hbase hle rfl

/-! ### Skipping the rest of an item -/

theorem depth_place (hbase : P.base ≤ position) (hle : position ≤ P.stop) :
    P.other.depth (P.place position) = set.stream.depth position + P.lift := by
  have hdepth := P.depth_add_eq (position - P.base) (by unfold stop at hle; omega)
  rwa [show P.base + (position - P.base) = position by omega] at hdepth

/-- Skipping the rest of an item comes to corresponding places, if it does not pass the end of the
stretch and whatever is seen on the way is the same. -/
theorem resumePosition_place {level position : Nat} {commas : Bool} (hbase : P.base ≤ position)
    (hle : position ≤ P.stop) (hlevel : set.stream.depth P.stop ≤ level)
    (hlive : ∀ seen, position ≤ seen → seen ≤ set.stream.resumePosition level commas position →
      seen ≤ P.stop → P.Live seen)
    (hend : set.stream.resumePosition level commas position ≤ P.stop + 1) :
    P.other.resumePosition (level + P.lift) commas (P.place position) =
      P.place (set.stream.resumePosition level commas position) := by
  have hsize : position < set.stream.size := Nat.lt_of_le_of_lt hle stop_lt
  have hfirst : P.Live position := hlive position (Nat.le_refl _) (le_resumePosition ..) hle
  have hkind := hfirst.kind_eq
  have hdepth := depth_place hbase hle
  have hplace := place_succ hbase
  by_cases hlast : set.stream.kind position = .endOfFile
  · -- the end of the file is where both stay
    have hstay : ∀ (stream : TokenStream) (level : Nat) {at' : Nat},
        stream.kind at' = .endOfFile → stream.resumePosition level commas at' = at' := by
      intro stream level at' hend
      rw [resumePosition, hend]
      simp
    rw [hstay _ _ hlast, hstay _ _ (hkind.trans hlast)]
  · have hmore := succ_lt_size hsize hlast
    have hmore' := succ_lt_size (place_lt hle) (hkind.symm ▸ hlast)
    rw [resumePosition_eq _ _ hmore] at hlive hend ⊢
    rw [resumePosition_eq _ _ hmore', hkind, hdepth, ← hplace]
    simp only [Nat.add_lt_add_iff_right, Nat.add_right_cancel_iff]
    split
    · rfl
    · next hstop =>
      rw [if_neg hstop] at hlive hend
      split
      · rfl
      · next hseparator =>
        rw [if_neg hseparator] at hlive hend
        have hnext := le_resumePosition set.stream level commas (position + 1)
        rcases Nat.lt_or_eq_of_le hle with hlt | rfl
        · exact resumePosition_place (Nat.le_succ_of_le hbase) hlt hlevel
            (fun seen hseen => hlive seen (Nat.le_of_succ_le hseen)) hend
        · -- the token at the end of the stretch is one at which skipping stops
          simp only [not_or, not_and, Nat.not_lt] at hstop hseparator
          have hsame : set.stream.depth P.stop = level := Nat.le_antisymm hlevel hstop.2.1
          rcases TokenKind.eq_of_isBoundary (kind_stop (P := P)) with
            hkind | hkind | ⟨bracket, hkind⟩ | hkind
          · exact absurd (by rw [hkind]; rfl) (hseparator hsame)
          · exact absurd (by rw [hkind]; rfl) (hseparator hsame)
          · exact absurd (by rw [hkind]; rfl) (hstop.2.2 hsame)
          · exact absurd hkind hlast
termination_by P.stop - position

/-! ### Square brackets -/

/-- Inside of a bracket that has been opened in the stretch, the kinds are the same up to its
closer. -/
theorem sameGroup_drop {first position depth : Nat}
    (hfirst : (set.stream.opened P.base).length < (set.stream.opened first).length)
    (hbase : P.base ≤ position) (hle : position ≤ P.stop)
    (hdepth : (set.stream.opened position).length = (set.stream.opened first).length + depth) :
    SameGroup depth ((set.stream.tokens.toList.drop position).map Token.kind)
      ((P.other.tokens.toList.drop (P.place position)).map Token.kind) := by
  have hlt : position < P.stop := lt_stop_of_opened hle (by omega)
  have hlive : P.Live position := live_of_lt hbase hlt
  have hsize : position < set.stream.size := Nat.lt_of_le_of_lt hle stop_lt
  have hnext : ∀ {next}, (set.stream.opened (position + 1)).length =
      (set.stream.opened first).length + next →
      SameGroup next ((set.stream.tokens.toList.drop (position + 1)).map Token.kind)
        ((P.other.tokens.toList.drop (P.place position + 1)).map Token.kind) := by
    intro next hnext
    rw [← place_succ hbase]
    exact sameGroup_drop hfirst (Nat.le_succ_of_le hbase) hlt hnext
  rw [map_kind_drop hsize, map_kind_drop (place_lt hle), hlive.kind_eq]
  cases hkind : set.stream.kind position with
  | opener bracket =>
    refine .opener bracket (hnext ?_)
    rw [opened_succ_opener hsize hkind, List.length_cons]
    omega
  | closer bracket =>
    cases depth with
    | zero => exact .closed bracket _ _
    | succ depth =>
      refine .closer bracket (hnext ?_)
      rw [opened_succ_closer hsize hkind, List.length_tail]
      omega
  | endOfFile =>
    exact absurd (set.balanced.end_last hsize hkind) (by have := stop_lt (P := P); omega)
  | _ =>
    refine .plain rfl (hnext ?_)
    rw [opened_succ_plain hsize (by rw [hkind]; rfl)]
    exact hdepth
termination_by P.stop - position

theorem formBefore_place (hbase : P.base ≤ position) (hlt : position < P.stop)
    (hkind : set.stream.kind position = .opener .square) :
    P.other.formBefore? (P.place position) = set.stream.formBefore? position := by
  rcases Nat.eq_or_lt_of_le hbase with rfl | hpast
  · rw [place_base]
    exact P.formBefore_eq hkind
  · have hlive := live_of_lt hbase hlt
    have hlive' : P.Live (position - 1) := live_of_lt (by omega) (by omega)
    have hplace := place_pred hpast
    have hpos : 0 < P.place position := by unfold place; omega
    have htouches := P.touches_add_eq (position - 1 - P.base) (by unfold stop at hlt; omega)
    rw [show P.base + (position - 1 - P.base) = position - 1 by omega,
      show P.base + (position - 1 - P.base + 1) = position by omega,
      show P.otherBase + (position - 1 - P.base) = P.place position - 1 by unfold place; omega,
      show P.otherBase + (position - 1 - P.base + 1) = P.place position by unfold place; omega]
      at htouches
    unfold formBefore?
    rw [if_pos hpos, if_pos (by omega)]
    unfold BracketForm.ofNeighbour?
    dsimp only
    rw [htouches, ← hplace, hlive'.token_eq]
    rfl

/-- A square bracket has the same form in both streams. -/
theorem atIndex_place (hbase : P.base ≤ position) (hle : position ≤ P.stop)
    (hkind : set.stream.kind position = .opener .square) :
    BracketForm.atIndex P.other.tokens (P.place position : Int) =
      BracketForm.atIndex set.stream.tokens (position : Int) := by
  have hlt : position < P.stop := lt_stop_of_not_boundary hle (by rw [hkind]; rfl)
  have hsize : position < set.stream.size := Nat.lt_trans hlt stop_lt
  have hopened := opened_succ_opener hsize hkind
  have hmore : (set.stream.opened P.base).length < (set.stream.opened (position + 1)).length := by
    have hsuffix := (P.within.suffix position hbase hle).length_le
    rw [hopened, List.length_cons]
    omega
  have hgroup := sameGroup_drop hmore (Nat.le_succ_of_le hbase) hlt (Nat.add_zero _).symm
  rw [place_succ hbase] at hgroup
  rw [BracketForm.atIndex_eq hsize hkind,
    BracketForm.atIndex_eq (place_lt hle) ((live_of_lt hbase hlt).kind_eq.trans hkind),
    formBefore_place hbase hlt hkind, hgroup.ofContent_take]

end Parallel

end SableFrontend
