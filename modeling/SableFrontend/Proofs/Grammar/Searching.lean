import SableFrontend.Proofs.Parallel.Stream
import SableFrontend.Proofs.Token.LexedStream

/-!
Searches along a stream count the delimiters that they pass by themselves, from the place where they
begin. The depths of the stream are counted from its start. Both counts agree: a search that keeps to its
depth comes to the first token that the depths of the stream say it must come to (`searches_of_ofText`).
-/

namespace SableFrontend

namespace TokenStream

variable {stream : TokenStream} {start place depth first close found : Nat} {stops : TokenKind → Bool}

/-! ### The group around a place -/

/-- A group around a place: what stands behind an opener, up to its closer. The closer is inside. -/
def GroupAround (stream : TokenStream) (place first close : Nat) : Prop :=
  (∃ bracket, stream.Closes first (.closer bracket) close) ∧ first ≤ place ∧ place ≤ close

/-- The closer of the group that encloses a place: of all groups around it, the one that begins last. -/
def ClosesAround (stream : TokenStream) (place close : Nat) : Prop :=
  ∃ first, stream.GroupAround place first close ∧
    ∀ first' close', stream.GroupAround place first' close' → first' ≤ first

theorem Closes.opened_eq {closer : TokenKind} (h : stream.Closes first closer close) :
    stream.opened close = stream.opened first := by
  rw [opened_eq_foldl h.le (Nat.le_of_lt h.lt), foldl_openAfter_wellNested h.wellNested]

theorem Closes.within {closer : TokenKind} (h : stream.Closes first closer close) :
    stream.Within first close where
  le := h.le
  lt := h.lt
  suffix k hfirst hlast := by
    rcases Nat.lt_or_eq_of_le hlast with hlt | rfl
    · rw [opened_eq_foldl hfirst (Nat.le_of_lt (Nat.lt_trans hlt h.lt))]
      exact suffix_foldl_openAfter h.wellNested _ (kindsBetween_split hfirst hlt)
    · exact h.opened_eq ▸ List.suffix_rfl

namespace Balanced

variable (balanced : stream.Balanced)
include balanced

/-- The innermost group around a place begins where nothing is open but what is open there. -/
theorem opened_eq_of_closesAround (hstart : start < stream.size)
    (hgroup : stream.GroupAround start first close)
    (hlast : ∀ first' close', stream.GroupAround start first' close' → first' ≤ first) :
    stream.opened start = stream.opened first := by
  obtain ⟨⟨bracket, hcloses⟩, hfirst, hclose⟩ := hgroup
  have hsuffix := hcloses.within.suffix start hfirst hclose
  refine (hsuffix.eq_of_length_le ?_).symm
  cases hopened : stream.opened start with
  | nil => exact Nat.zero_le _
  | cons inner outer =>
    -- the group of the delimiter that was opened last begins no later
    obtain ⟨opener, hopener, hkind, houter, hwithin⟩ := balanced.exists_opener hstart hopened
    have hinner := opened_succ_opener (Nat.lt_trans hopener hstart) hkind
    obtain ⟨close', hcloses', hmax⟩ := balanced.exists_closes (Nat.lt_of_le_of_lt hwithin.le hstart)
      (.afterOpener inner (Nat.succ_pos opener) hkind)
    have hle := hlast (opener + 1) close' ⟨⟨inner, hcloses'⟩, hwithin.le, hmax start hwithin⟩
    have hlength := (hwithin.suffix first hle hfirst).length_le
    rwa [hinner, houter] at hlength

/-- The closer of the group around a place is reached without leaving the group, and nothing else is open
there. -/
theorem closesAround_iff (hstart : start < stream.size) :
    stream.ClosesAround start close ↔ stream.Within start close ∧
      stream.opened close = stream.opened start ∧ (stream.kind close).isCloser = true := by
  constructor
  · rintro ⟨first, hgroup, hlast⟩
    have hsame := balanced.opened_eq_of_closesAround hstart hgroup hlast
    obtain ⟨⟨bracket, hcloses⟩, hfirst, hclose⟩ := hgroup
    refine ⟨⟨hclose, hcloses.lt, fun k hk hlast => ?_⟩, hcloses.opened_eq.trans hsame.symm, ?_⟩
    · rw [hsame]
      exact hcloses.within.suffix k (Nat.le_trans hfirst hk) hlast
    · rw [hcloses.kind_eq]
      rfl
  · rintro ⟨hwithin, hopened, hcloser⟩
    obtain ⟨bracket, hkind⟩ := TokenKind.exists_of_isCloser hcloser
    obtain ⟨outer, hclose⟩ := balanced.closer_fits hwithin.lt hkind
    rw [hopened] at hclose
    obtain ⟨opener, hopener, hopens, houter, hbefore⟩ := balanced.exists_opener hstart hclose
    have hinner := opened_succ_opener (Nat.lt_trans hopener hstart) hopens
    rw [houter, ← hclose] at hinner
    refine ⟨opener + 1, ⟨⟨bracket, balanced.closes (.afterOpener bracket (Nat.succ_pos opener) hopens)
      (hbefore.trans hwithin) (hopened.trans hinner.symm) hkind⟩, hbefore.le, hwithin.le⟩, ?_⟩
    rintro first close' ⟨⟨bracket', hcloses⟩, hfirst, hclose'⟩
    refine Nat.le_of_not_lt fun hlt => ?_
    -- the opener of a group that begins later would have added to what is open
    have hopened' := hcloses.opens.opened_eq (Nat.lt_of_le_of_lt hcloses.le hcloses.lt)
    have hstarted := (hbefore.suffix (first - 1) (Nat.le_sub_one_of_lt hlt)
      (Nat.le_trans (Nat.sub_le ..) hfirst)).length_le
    have hreached := (hcloses.within.suffix start hfirst hclose').length_le
    rw [hopened', List.length_cons] at hreached
    rw [hinner] at hstarted
    exact absurd (Nat.le_trans hreached hstarted) (Nat.not_succ_le_self _)

end Balanced

/-! ### The place of a search -/

/-- What ends a search that has begun at `start` and keeps to its depth: the end of the file, the closer of
the group around `start`, and on the same level a stop or a separator. -/
def StopsAt (stream : TokenStream) (stops : TokenKind → Bool) (start place : Nat) : Prop :=
  stream.kind place = .endOfFile ∨ stream.ClosesAround start place ∨
    stream.depth place = stream.depth start ∧ (stream.kind place).isPlain = true ∧
      (stops (stream.kind place) || (stream.kind place).isSeparator) = true

/-- A search that began at `start` has come to a place and counts `depth` more delimiters there. -/
structure Searching (stream : TokenStream) (start place depth : Nat) : Prop where
  within : stream.Within start place
  length_eq : (stream.opened place).length = (stream.opened start).length + depth

theorem searching_self (h : start < stream.size) : stream.Searching start start 0 :=
  ⟨.refl h, rfl⟩

namespace Searching

variable (balanced : stream.Balanced)
include balanced

theorem depth_eq_iff (h : stream.Searching start place depth) :
    stream.depth place = stream.depth start ↔ depth = 0 := by
  rw [balanced.depth_eq h.within.lt,
    balanced.depth_eq (Nat.lt_of_le_of_lt h.within.le h.within.lt), h.length_eq]
  exact Nat.add_eq_left

omit balanced in
theorem opened_eq_iff (h : stream.Searching start place depth) :
    stream.opened place = stream.opened start ↔ depth = 0 := by
  constructor
  · intro heq
    have hlength := h.length_eq
    rw [heq] at hlength
    exact Nat.add_eq_left.1 hlength.symm
  · rintro rfl
    exact (h.within.last.eq_of_length h.length_eq.symm).symm

/-- What ends a search, by its own count. -/
theorem stopsAt_iff (h : stream.Searching start place depth) :
    stream.StopsAt stops start place ↔ stream.kind place = .endOfFile ∨
      (depth = 0 ∧ (stream.kind place).isCloser = true) ∨
      (depth = 0 ∧ (stream.kind place).isPlain = true ∧
        (stops (stream.kind place) || (stream.kind place).isSeparator) = true) := by
  have hstart := Nat.lt_of_le_of_lt h.within.le h.within.lt
  rw [StopsAt, balanced.closesAround_iff hstart, h.opened_eq_iff, h.depth_eq_iff balanced]
  exact or_congr_right (or_congr_left ⟨And.right, fun hcloser => ⟨h.within, hcloser⟩⟩)

/-- A search goes on behind a token that does not end it, and counts what it opens and closes. -/
theorem opener {bracket : Bracket} (h : stream.Searching start place depth)
    (hkind : stream.kind place = .opener bracket) : stream.Searching start (place + 1) (depth + 1) where
  within := balanced.within_succ h.within (by rw [hkind]; exact TokenKind.noConfusion)
    fun hcloser => by rw [hkind] at hcloser; cases hcloser
  length_eq := by rw [opened_succ_opener h.within.lt hkind, List.length_cons, h.length_eq, Nat.add_assoc]

theorem closer {bracket : Bracket} (h : stream.Searching start place depth) (hdepth : depth ≠ 0)
    (hkind : stream.kind place = .closer bracket) : stream.Searching start (place + 1) (depth - 1) where
  within := balanced.within_succ h.within (by rw [hkind]; exact TokenKind.noConfusion) fun _ => by
    have := h.length_eq
    omega
  length_eq := by
    rw [opened_succ_closer h.within.lt hkind, List.length_tail, h.length_eq]
    omega

theorem plain (h : stream.Searching start place depth) (hkind : (stream.kind place).isPlain = true) :
    stream.Searching start (place + 1) depth where
  within := balanced.within_succ h.within (fun hend => by rw [hend] at hkind; cases hkind)
    fun hcloser => by
      obtain ⟨bracket, hcloser⟩ := TokenKind.exists_of_isCloser hcloser
      rw [hcloser] at hkind
      cases hkind
  length_eq := by rw [opened_succ_plain h.within.lt hkind, h.length_eq]

end Searching

/-! ### The first stop -/

/-- The first place from a place on at which something ends a search that began at `start`. -/
structure FirstStop (stream : TokenStream) (stops : TokenKind → Bool) (start place found : Nat) :
    Prop where
  le : place ≤ found
  lt : found < stream.size
  stopsAt : stream.StopsAt stops start found
  least : ∀ k, place ≤ k → k < found → ¬stream.StopsAt stops start k

theorem FirstStop.here (hlt : place < stream.size) (h : stream.StopsAt stops start place) :
    stream.FirstStop stops start place place :=
  ⟨Nat.le_refl _, hlt, h, fun _ hle hlt => absurd hle (Nat.not_le_of_lt hlt)⟩

theorem FirstStop.behind (h : stream.FirstStop stops start (place + 1) found)
    (hpassed : ¬stream.StopsAt stops start place) : stream.FirstStop stops start place found where
  le := Nat.le_of_succ_le h.le
  lt := h.lt
  stopsAt := h.stopsAt
  least k hle hlt := by
    rcases Nat.eq_or_lt_of_le hle with rfl | hmore
    · exact hpassed
    · exact h.least k hmore hlt

/-- From wherever a search has come it ends at the first stop. -/
theorem Searching.exists_firstStop (balanced : stream.Balanced) {place depth : Nat}
    (h : stream.Searching start place depth) :
    ∃ found, stream.FirstStop stops start place found ∧
      stream.firstStop stops depth place = stream.token found := by
  have hstop : stream.StopsAt stops start place ↔ _ := h.stopsAt_iff balanced
  have hlt := h.within.lt
  rw [firstStop_eq stops hlt]
  cases hkind : stream.kind place with
  | endOfFile => exact ⟨place, .here hlt (Or.inl hkind), rfl⟩
  | opener bracket =>
    have hnot : ¬stream.StopsAt stops start place := by
      simp [hstop, hkind, TokenKind.isCloser, TokenKind.isPlain]
    obtain ⟨found, hfirst, heq⟩ := exists_firstStop balanced (h.opener balanced hkind)
    exact ⟨found, hfirst.behind hnot, heq⟩
  | closer bracket =>
    dsimp only
    split
    · next hzero => exact ⟨place, .here hlt (hstop.2 (by simp [hkind, hzero, TokenKind.isCloser])), rfl⟩
    · next hzero =>
      have hnot : ¬stream.StopsAt stops start place := by simp [hstop, hkind, hzero]
      obtain ⟨found, hfirst, heq⟩ := exists_firstStop balanced (h.closer balanced hzero hkind)
      exact ⟨found, hfirst.behind hnot, heq⟩
  | _ =>
    have hplain : (stream.kind place).isPlain = true := by rw [hkind]; rfl
    dsimp only
    split
    · next hends =>
      exact ⟨place, .here hlt (hstop.2 (Or.inr (Or.inr ⟨hends.1, hplain, hkind ▸ hends.2⟩))), rfl⟩
    · next hends =>
      have hnot : ¬stream.StopsAt stops start place := by
        rw [hstop, hkind]
        rintro (hend | ⟨-, hcloser⟩ | ⟨hzero, -, hends'⟩)
        · cases hend
        · cases hcloser
        · exact hends ⟨hzero, hends'⟩
      obtain ⟨found, hfirst, heq⟩ := exists_firstStop balanced (h.plain balanced hplain)
      exact ⟨found, hfirst.behind hnot, heq⟩
termination_by stream.size - place

/-! ### The sign of a context -/

/-- The signs that cannot stand in a context. -/
def isContextEnd : TokenKind → Bool
  | .assign | .bind | .atSign | .comma => true
  | _ => false

/-- From a place on the sign of a context stands at the depth of `start`, and nothing before it ends the
search. -/
def ArrowFrom (stream : TokenStream) (start place : Nat) : Prop :=
  ∃ found, place ≤ found ∧ found < stream.size ∧ (stream.token found).isOperator "=>" = true ∧
    stream.depth found = stream.depth start ∧
    ∀ k, place ≤ k → k < found → ¬stream.StopsAt isContextEnd start k

/-- The sign stands at a place, or the search goes on behind it. -/
theorem arrowFrom_iff (hlt : place < stream.size) :
    stream.ArrowFrom start place ↔
      ((stream.token place).isOperator "=>" = true ∧ stream.depth place = stream.depth start) ∨
      (¬stream.StopsAt isContextEnd start place ∧ stream.ArrowFrom start (place + 1)) := by
  constructor
  · rintro ⟨found, hle, hfound, hsign, hdepth, hleast⟩
    rcases Nat.eq_or_lt_of_le hle with rfl | hmore
    · exact Or.inl ⟨hsign, hdepth⟩
    · exact Or.inr ⟨hleast place (Nat.le_refl _) hmore, found, hmore, hfound, hsign, hdepth,
        fun k hk => hleast k (Nat.le_of_succ_le hk)⟩
  · rintro (⟨hsign, hdepth⟩ | ⟨hpassed, found, hle, hfound, hsign, hdepth, hleast⟩)
    · exact ⟨place, Nat.le_refl _, hlt, hsign, hdepth,
        fun _ hle hlt => absurd hle (Nat.not_le_of_lt hlt)⟩
    · refine ⟨found, Nat.le_of_succ_le hle, hfound, hsign, hdepth, fun k hk hbefore => ?_⟩
      rcases Nat.eq_or_lt_of_le hk with rfl | hmore
      · exact hpassed
      · exact hleast k hmore hbefore

theorem endsContext_eq (kind : TokenKind) (h : kind ≠ .endOfFile) :
    endsContext kind = (isContextEnd kind || kind.isSeparator) := by
  cases kind <;> first | rfl | exact absurd rfl h

/-- Only an operator is the sign of a context. -/
theorem kind_of_isOperator {token : Token} {spelling : String} (h : token.isOperator spelling = true) :
    token.kind = .operator := by
  rw [Token.isOperator, Bool.and_eq_true, beq_iff_eq] at h
  exact h.1

/-- From wherever the search for the sign has come, it finds the sign if it stands further on at the depth
of `start`, and nothing before it ends the search. -/
theorem Searching.arrowAhead_iff (balanced : stream.Balanced) {place depth : Nat}
    (h : stream.Searching start place depth) :
    stream.arrowAhead depth place = true ↔ stream.ArrowFrom start place := by
  have hstop : stream.StopsAt isContextEnd start place ↔ _ := h.stopsAt_iff balanced
  have hlt := h.within.lt
  have hnosign : stream.kind place ≠ .operator → (stream.token place).isOperator "=>" = false :=
    fun hne => Bool.eq_false_iff.2 fun hsign => hne (kind_of_isOperator hsign)
  rw [arrowFrom_iff hlt, arrowAhead_eq hlt, h.depth_eq_iff balanced]
  cases hkind : (stream.token place).kind with
  | endOfFile =>
    have hend : stream.kind place = .endOfFile := hkind
    rw [hnosign (by rw [hend]; exact TokenKind.noConfusion)]
    have hstops := hstop.2 (Or.inl hend)
    have hzero : depth = 0 := h.opened_eq_iff.1 (balanced.opened_eq_of_end h.within hend)
    simp [hzero, hstops, endsContext]
  | opener bracket =>
    have hopener : stream.kind place = .opener bracket := hkind
    have hnot : ¬stream.StopsAt isContextEnd start place := by
      simp [hstop, hopener, TokenKind.isCloser, TokenKind.isPlain]
    rw [hnosign (by rw [hopener]; exact TokenKind.noConfusion)]
    simp only [hnot, not_false_eq_true, true_and, Bool.false_eq_true, false_and, false_or]
    exact (h.opener balanced hopener).arrowAhead_iff balanced
  | closer bracket =>
    have hcloser : stream.kind place = .closer bracket := hkind
    rw [hnosign (by rw [hcloser]; exact TokenKind.noConfusion)]
    by_cases hzero : depth = 0
    · have hstops := hstop.2 (by simp [hcloser, hzero, TokenKind.isCloser])
      simp [hzero, hstops]
    · have hnot : ¬stream.StopsAt isContextEnd start place := by simp [hstop, hcloser, hzero]
      simp only [hzero, hnot, not_false_eq_true, true_and, Bool.false_eq_true, false_and, false_or,
        if_false]
      exact (h.closer balanced hzero hcloser).arrowAhead_iff balanced
  | _ =>
    have hplain : (stream.kind place).isPlain = true := by rw [TokenStream.kind, hkind]; rfl
    have hrest := (h.plain balanced hplain).arrowAhead_iff balanced
    rw [hstop, TokenStream.kind, hkind, ← hrest]
    by_cases hzero : depth = 0
    · by_cases hsign : (stream.token place).isOperator "=>" = true
      · simp [hzero, hsign]
      · simp [hzero, hsign, endsContext, isContextEnd, TokenKind.isSeparator, TokenKind.isCloser,
          TokenKind.isPlain]
    · simp [hzero]
termination_by stream.size - place

end TokenStream

/-! ### Searches in a text -/

/-- In a text without a fault, from every place: the search for a stop gives the first token that ends it
by the depths of the stream, and the search for the sign of a context finds it exactly if it stands on the
level of the place before all that ends the search. -/
theorem searches_of_ofText (text file : String) {tokens : Array Token}
    (h : Token.ofText text file = .ok tokens) :
    ∃ stream, TokenStream.ofTokens? tokens = some stream ∧
      ∀ state : ParserState, state.position < stream.size →
        (∀ stops, ∃ found, stream.FirstStop stops state.position state.position found ∧
          Parser.firstStop stops stream state = (.ok (stream.token found), state)) ∧
        ∃ ahead, Parser.contextAhead stream state = (.ok ahead, state) ∧
          (ahead = true ↔ stream.ArrowFrom state.position state.position) := by
  obtain ⟨stream, hstream, -, balanced⟩ := TokenStream.exists_of_ofText h
  refine ⟨stream, hstream, fun state hlt => ⟨fun stops => ?_, ?_⟩⟩
  · obtain ⟨found, hfirst, heq⟩ := (TokenStream.searching_self hlt).exists_firstStop balanced
    exact ⟨found, hfirst, congrArg (fun token => (Except.ok token, state)) heq⟩
  · exact ⟨stream.arrowAhead 0 state.position, rfl,
      (TokenStream.searching_self hlt).arrowAhead_iff balanced⟩

/-- Of the signs in this text the outer one is seen from the first token on, and not from inside of the
inner brackets, where the search for a bar ends at the closer. -/
theorem exists_searches_of_ofText :
    ∃ tokens stream, Token.ofText "C (f, a) => T | x" "" = .ok tokens ∧
      TokenStream.ofTokens? tokens = some stream ∧ stream.ArrowFrom 0 0 ∧ ¬stream.ArrowFrom 2 2 ∧
      ∃ found, stream.FirstStop (· == .pipe) 2 2 found ∧
        stream.kind found = .closer .round := by
  have hahead : ((TokenStream.ofText? "C (f, a) => T | x" "").map fun stream =>
      (stream.1.size, stream.1.arrowAhead 0 0, stream.1.arrowAhead 0 2,
        (stream.1.firstStop (· == .pipe) 0 2).kind)) = some (11, true, false, .closer .round) := by
    decide +kernel
  obtain ⟨⟨stream, balanced⟩, hsome, hahead⟩ := Option.map_eq_some_iff.1 hahead
  obtain ⟨hlexes, hstream⟩ := TokenStream.ofTokens?_of_ofText? hsome
  simp only [Prod.mk.injEq] at hahead
  obtain ⟨hsize, houter, hinner, hkind⟩ := hahead
  obtain ⟨stream', hstream', hsearches⟩ := searches_of_ofText _ _ hlexes
  obtain rfl := Option.some.inj (hstream.symm.trans hstream')
  obtain ⟨-, ahead, hrun, hiff⟩ := hsearches ParserState.initial (by rw [hsize]; decide)
  obtain ⟨hfirst, ahead', hrun', hiff'⟩ :=
    hsearches { ParserState.initial with position := 2 } (by rw [hsize]; decide)
  obtain ⟨found, hfound, hsearch⟩ := hfirst (· == .pipe)
  refine ⟨_, stream, hlexes, hstream, hiff.1 ?_, fun h => ?_, found, hfound, ?_⟩
  · exact (Except.ok.inj (congrArg Prod.fst hrun)).symm.trans houter
  · have hsame := (Except.ok.inj (congrArg Prod.fst hrun')).symm.trans hinner
    exact Bool.false_ne_true (hsame.symm.trans (hiff'.2 h))
  · have hsame : stream.firstStop (· == .pipe) 0 2 = stream.token found :=
      Except.ok.inj (congrArg Prod.fst hsearch)
    rw [TokenStream.kind, ← hsame, hkind]

end SableFrontend
