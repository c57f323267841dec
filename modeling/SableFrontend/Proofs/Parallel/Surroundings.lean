import SableFrontend.Proofs.Parallel.Contents

/-!
The surroundings of an item. Two streams may differ in one item only, among others at the top of a source
or in a block. If a semicolon stands in front of it, the items there are read in the same way in both,
however much of them cannot be understood (`Shares.rounds`): a conditional does not look over a semicolon,
and what is left of a failed item is skipped up to it at the latest. The items behind it are read in the
same way up to what closes them all (`Recurs.rest`).
-/

namespace SableFrontend

open TokenStream SableFrontend.Parser Setting

/-- What surrounds items in one stream is like what surrounds items in another. -/
structure Enclosure.Alike (within other : Enclosure) : Prop where
  level_eq : other.level = within.level
  closer_eq : other.closer = within.closer
  commas_eq : other.commas = within.commas

theorem Enclosure.Alike.refl (within : Enclosure) : within.Alike within := ⟨rfl, rfl, rfl⟩

theorem Enclosure.IsOutermost.alike {within other : Enclosure} (h : within.IsOutermost)
    (h' : other.IsOutermost) : within.Alike other :=
  ⟨h'.level_eq.trans h.level_eq.symm, h'.closer_eq.trans h.closer_eq.symm,
    h'.commas_eq.trans h.commas_eq.symm⟩

/-- Two streams have the same tokens up to a place at which an item begins. -/
structure Setting.Shares (set : Setting) (other : TokenStream) (within : Enclosure) (count : Nat) :
    Prop where
  stays : set.stream.Within within.first count
  opened_eq : set.stream.opened count = set.stream.opened within.first
  lt_other : count < other.size
  token_eq : ∀ position < count, other.token position = set.stream.token position
  starts : within.endsItem (set.stream.kind count) = false
  starts_other : (other.kind count).separates within.commas = false

namespace Setting.Shares

variable {set : Setting} {other : TokenStream} {within : Enclosure} {count position : Nat}

theorem kind_eq (h : set.Shares other within count) (hlt : position < count) :
    other.kind position = set.stream.kind position :=
  congrArg Token.kind (h.token_eq position hlt)

theorem lt (h : set.Shares other within count) : count < set.stream.size := h.stays.lt

/-- The same delimiters are open in the front. -/
theorem opened_other (h : set.Shares other within count) (hle : position ≤ count) :
    other.opened position = set.stream.opened position := by
  induction position with
  | zero => rw [opened_zero, opened_zero]
  | succ position ih =>
    rw [opened_succ (Nat.lt_trans hle h.lt_other), opened_succ (Nat.lt_trans hle h.lt), h.kind_eq hle,
      ih (Nat.le_of_succ_le hle)]

theorem depth_other (h : set.Shares other within count) (balanced : other.Balanced)
    (hle : position ≤ count) : other.depth position = set.stream.depth position := by
  rw [balanced.depth_eq (Nat.lt_of_le_of_lt hle h.lt_other),
    set.balanced.depth_eq (Nat.lt_of_le_of_lt hle h.lt), h.opened_other hle]

/-- Separators lead to the same place. -/
theorem skipWhile_eq (h : set.Shares other within count) {position : Nat} (hle : position ≤ count)
    (hskip : set.stream.skipWhile (·.separates within.commas) position ≤ count) :
    other.skipWhile (·.separates within.commas) position =
      set.stream.skipWhile (·.separates within.commas) position := by
  rcases Nat.lt_or_eq_of_le hle with hlt | rfl
  · have hunfold : ∀ stream : TokenStream, position < stream.size →
        stream.skipWhile (·.separates within.commas) position =
          if (stream.kind position).separates within.commas then
            stream.skipWhile (·.separates within.commas) (position + 1) else position := by
      intro stream hlt
      rw [TokenStream.skipWhile, if_pos hlt]
    have hleft := hunfold set.stream (Nat.lt_trans hlt h.lt)
    rw [hleft] at hskip ⊢
    rw [hunfold other (Nat.lt_trans hlt h.lt_other), h.kind_eq hlt]
    split
    · next hseparates =>
      rw [if_pos hseparates] at hskip
      exact skipWhile_eq h hlt hskip
    · rfl
  · rw [skipWhile_eq_self h.starts_other, skipWhile_eq_self (Bool.or_eq_false_iff.1 h.starts).2]
termination_by count - position

/-- What is skipped from the end of the front on leads on. -/
theorem lt_resumePosition (h : set.Shares other within count) (hpart : set.IsPart within) :
    count < set.stream.resumePosition within.level within.commas count := by
  obtain ⟨hcloser, -⟩ := Bool.or_eq_false_iff.1 h.starts
  obtain ⟨-, hle, -, hstay⟩ :=
    set.balanced.within_resumePosition within.commas hpart.level_eq h.stays
  refine Nat.lt_of_le_of_ne hle fun heq => ?_
  have hcloses : set.stream.Closes within.first within.closer count :=
    hpart.closes h.stays h.opened_eq ((hstay heq.symm).imp_right And.left)
  exact absurd (beq_iff_eq.2 hcloses.kind_eq) (Bool.eq_false_iff.1 hcloser)

/-- Skipping the rest of an item in the front leads to the same place. -/
theorem resumePosition_eq (h : set.Shares other within count) (balanced : other.Balanced)
    {position : Nat} (hpart : set.IsPart within) (hlt : position < count)
    (hresume : set.stream.resumePosition within.level within.commas position ≤ count) :
    other.resumePosition within.level within.commas position =
      set.stream.resumePosition within.level within.commas position := by
  have hleft := set.stream.resumePosition_eq within.level within.commas
    (Nat.lt_of_le_of_lt hlt h.lt)
  rw [hleft] at hresume ⊢
  rw [other.resumePosition_eq _ _ (Nat.lt_of_le_of_lt hlt h.lt_other), h.kind_eq hlt,
    h.depth_other balanced (Nat.le_of_lt hlt)]
  split
  · rfl
  · next hstop =>
    rw [if_neg hstop] at hresume
    split
    · rfl
    · next hseparates =>
      rw [if_neg hseparates] at hresume
      rcases Nat.lt_or_eq_of_le hlt with hnext | rfl
      · exact resumePosition_eq h balanced hpart hnext hresume
      · exact absurd (h.lt_resumePosition hpart) (Nat.not_lt_of_le hresume)
termination_by count - position

section

variable (h : set.Shares other within count) (balanced : other.Balanced)
  (hfirst : within.first < count) (hsemicolon : set.stream.kind (count - 1) = .semicolon)

/-- The front, up to the semicolon. -/
def parallel : Parallel set :=
  have hle : within.first ≤ count - 1 := Nat.le_sub_one_of_lt hfirst
  have hlt : count - 1 < count := Nat.sub_one_lt_of_lt hfirst
  { other := other
    relocation := .id
    base := within.first
    otherBase := within.first
    reach := count - 1 - within.first
    lift := 0
    exact := true
    final := false
    reported := []
    otherReported := []
    within := by
      rw [Nat.add_sub_cancel' hle]
      exact ⟨hle, Nat.lt_trans hlt h.lt,
        fun k hfirst hlast => h.stays.suffix k hfirst (Nat.le_trans hlast (Nat.le_of_lt hlt))⟩
    opened_eq := by
      have hplain : (set.stream.kind (count - 1)).isPlain = true := by
        rw [hsemicolon]
        rfl
      have hopened := opened_succ_plain (Nat.lt_trans hlt h.lt) hplain
      rw [Nat.sub_add_cancel (Nat.one_le_of_lt hfirst), h.opened_eq] at hopened
      rw [Nat.add_sub_cancel' hle, hopened]
    other_lt := by
      rw [Nat.add_sub_cancel' hle]
      exact Nat.lt_trans hlt h.lt_other
    token_add_eq := fun k hk => h.token_eq _ (by omega)
    touches_add_eq := fun k hk => by rw [h.token_eq _ (by omega), h.token_eq _ (by omega)]
    depth_add_eq := fun k hk => h.depth_other balanced (by omega)
    formBefore_eq := fun _ => by
      unfold formBefore?
      rw [h.token_eq _ hfirst, h.token_eq _ (Nat.lt_of_le_of_lt (Nat.sub_le ..) hfirst)]
    boundary := by
      rw [Nat.add_sub_cancel' hle, hsemicolon]
      rfl
    other_limit := by
      rw [Nat.add_sub_cancel' hle, h.kind_eq hlt, hsemicolon]
      rfl
    last_eq := fun _ => by
      rw [Nat.add_sub_cancel' hle]
      exact h.token_eq _ hlt
    last_ne_newline := Bool.noConfusion
    ends := Bool.noConfusion }

theorem stop_parallel : (h.parallel balanced hfirst hsemicolon).stop = count - 1 :=
  Nat.add_sub_cancel' (Nat.le_sub_one_of_lt hfirst)

theorem fixed_parallel : (h.parallel balanced hfirst hsemicolon).Fixed := by
  refine Or.inr ⟨rfl, ?_⟩
  rw [h.stop_parallel, hsemicolon]
  exact TokenKind.noConfusion

/-- States that correspond to each other are the same, but for the history. -/
theorem related_parallel {state right : ParserState} :
    (h.parallel balanced hfirst hsemicolon).Related state right ↔ within.first ≤ state.position ∧
      state.position < count ∧ right.position = state.position ∧ right.log = state.log := by
  have hstop := h.stop_parallel balanced hfirst hsemicolon
  have hplace : ∀ {position}, within.first ≤ position →
      (h.parallel balanced hfirst hsemicolon).place position = position :=
    fun hfirst => Nat.add_sub_cancel' hfirst
  constructor
  · intro hrelated
    have hbase : within.first ≤ state.position := hrelated.base_le
    have hle := hrelated.le_stop
    refine ⟨hbase, by omega, ?_, ?_⟩
    · rw [hrelated.position_eq, hplace hbase]
    · obtain ⟨reports, hleft, hright⟩ := hrelated.reports
      have hdiagnostics : right.log.diagnostics = state.log.diagnostics := by
        rw [← Array.toList_inj, hleft, hright]
        exact Relocation.move_id reports
      have hmuted := hrelated.muted_eq
      revert hdiagnostics hmuted
      cases right.log
      cases state.log
      simp +contextual
  · intro ⟨hbase, hlt, hposition, hlog⟩
    refine ⟨hbase, by omega, ?_, ⟨state.log.diagnostics.toList, rfl, ?_⟩, by rw [hlog]⟩
    · rw [hposition, hplace hbase]
    · rw [hlog]
      exact (Relocation.move_id _).symm

variable {α : Type} [Relocatable α] [LawfulRelocatable α] {item : Parser α} {what : String}
  {within' : Enclosure} {answers more : List α} {state final right : ParserState}
  {lacks : α → Prop}

include h balanced hfirst hsemicolon

/-- What is tried in the front does the same on the other stream. -/
theorem attemptItem (halike : within.Alike within')
    (hagrees : ∀ P : Parallel set, P.Closed → P.Agrees
      (fun value final => lacks value ∧ P.Uncertain final.position) item item state)
    (hbase : within.first ≤ state.position) (hlt : state.position < count)
    (hposition : right.position = state.position) (hlog : right.log = state.log)
    {result : Bool × List α}
    (hrun : Parser.attemptItem item within what answers set.stream state = (.ok result, final))
    (hfinal : final.position < count) :
    ∃ final', Parser.attemptItem item within' what answers other right = (.ok result, final') ∧
      final'.position = final.position ∧ final'.log = final.log := by
  have hrelated : ∀ left right, _ ↔ _ := fun left right =>
    @related_parallel _ _ _ _ h balanced hfirst hsemicolon left right
  have hfixed := h.fixed_parallel balanced hfirst hsemicolon
  have hstop := h.stop_parallel balanced hfirst hsemicolon
  have hother : (h.parallel balanced hfirst hsemicolon).other = other := rfl
  have hmove : (h.parallel balanced hfirst hsemicolon).relocation = .id := rfl
  have hexact : (h.parallel balanced hfirst hsemicolon).exact = true := rfl
  generalize h.parallel balanced hfirst hsemicolon = P at hrelated hfixed hstop hother hmove hexact
  have hattempts : P.Agrees
      (P.Spoilt (fun value position => lacks value ∧ P.Uncertain position) answers)
      (Parser.attemptItem item within what answers)
      (Parser.attemptItem item within' what (P.relocation.move answers)) state :=
    .attemptItem (hagrees _ (Parallel.closed_of_exact hexact)) halike.closer_eq halike.commas_eq
      (Or.inl hexact)
  rw [hmove, Relocation.move_id] at hattempts
  have hle : final.position ≤ P.stop := by omega
  have hstart := (hrelated state right).2 ⟨hbase, hlt, hposition, hlog⟩
  obtain ⟨final', heq, hfinal⟩ := hattempts.mirrored right hstart (by
    rw [hrun]
    refine ⟨?_, ?_⟩
    · rintro (hpast | ⟨hnot, -⟩)
      · exact Nat.not_lt_of_le hle hpast
      · exact hnot hfixed
    · rintro (⟨value, -, -, huncertain⟩ | ⟨-, hinexact⟩)
      · have hforward := hattempts.forward
        rw [hrun] at hforward
        exact hfixed.certain (Nat.le_trans hstart.base_le hforward) hle huncertain
      · rw [hexact] at hinexact
        cases hinexact)
  rw [hrun] at heq hfinal
  obtain ⟨-, -, hposition', hlog'⟩ := (hrelated _ _).1 hfinal
  rw [hother, hmove] at heq
  exact ⟨final', heq.trans (congrArg (fun value => (Except.ok (result.1, value), final'))
    (Relocation.move_id result.2)), hposition', hlog'⟩

/-- A round in the front does the same on the other stream. -/
theorem nextItem (halike : within.Alike within') (hpart : set.IsPart within)
    (hitem : set.Proceeds true item state)
    (hagrees : ∀ P : Parallel set, P.Closed → P.Agrees
      (fun value final => lacks value ∧ P.Uncertain final.position) item item state)
    (hbetween : set.Between within state) (hlt : state.position < count)
    (hposition : right.position = state.position) (hlog : right.log = state.log)
    (hnext : Parser.nextItem item within what answers set.stream state = (.ok more, final))
    (hle : final.position ≤ count) :
    ∃ final', Parser.nextItem item within' what answers other right = (.ok more, final') ∧
      final'.log = final.log ∧ final'.position = final.position := by
  rw [nextItem_apply, settle_apply] at hnext
  rw [nextItem_apply, settle_apply, halike.level_eq, halike.commas_eq]
  cases hrun : Parser.attemptItem item within what answers set.stream state with
  | mk result middle =>
    rw [hrun] at hnext
    cases result with
    | error abort => cases hnext
    | ok result =>
      have hattempt : set.Runs (Parser.attemptItem item within what answers) state _ _ :=
        runs_attemptItem hitem
      obtain ⟨-, hends, -⟩ := hattempt.returns hrun
      have hsame := h.attemptItem balanced hfirst hsemicolon halike hagrees hbetween.stays.le hlt
        hposition hlog hrun
      obtain ⟨ended, value⟩ := result
      cases ended with
      | true =>
        obtain ⟨hvalue, rfl⟩ := Prod.mk.inj hnext
        injection hvalue with hvalue
        dsimp only at hle hends
        have hmiddle : middle.position < count := by
          refine Nat.lt_of_le_of_ne (Nat.le_trans (le_skipWhile ..) hle) fun heq => ?_
          rw [heq, h.starts] at hends
          exact absurd (hends rfl).2 Bool.false_ne_true
        obtain ⟨middle', heq, hplace, hlog'⟩ := hsame hmiddle
        rw [heq, hvalue]
        refine ⟨_, rfl, hlog', ?_⟩
        dsimp only
        rw [hplace]
        exact h.skipWhile_eq (Nat.le_of_lt hmiddle) hle
      | false =>
        obtain ⟨hvalue, rfl⟩ := Prod.mk.inj hnext
        injection hvalue with hvalue
        dsimp only at hle
        have hresume := Nat.le_trans (le_skipWhile ..) hle
        have hmiddle : middle.position < count := by
          refine Nat.lt_of_le_of_ne (Nat.le_trans (le_resumePosition ..) hresume) fun heq => ?_
          rw [heq] at hresume
          exact absurd (h.lt_resumePosition hpart) (Nat.not_lt_of_le hresume)
        obtain ⟨middle', heq, hplace, hlog'⟩ := hsame hmiddle
        rw [heq, hvalue]
        refine ⟨_, rfl, hlog', ?_⟩
        dsimp only
        rw [hplace, h.resumePosition_eq balanced hpart hmiddle hresume]
        exact h.skipWhile_eq hresume hle

end

/-- Rounds that lead up to the end of the front are taken on the other stream, too. There are none, or a
semicolon stands in front of that place. -/
theorem rounds {α : Type} [Relocatable α] [LawfulRelocatable α] {item : Parser α} {what : String}
    {within' : Enclosure} {answers more : List α} {state final right : ParserState}
    {lacks : α → Prop} (h : set.Shares other within count) (balanced : other.Balanced)
    (hfront : state.position = count ∨
      within.first < count ∧ set.stream.kind (count - 1) = .semicolon)
    (halike : within.Alike within') (hpart : set.IsPart within) (hitem : set.Obeys true item)
    (hagrees : ∀ (P : Parallel set) s, P.Closed → s.position < set.stream.size →
      s.log.muted = 0 → P.Agrees
        (fun value final => lacks value ∧ P.Uncertain final.position) item item s)
    (hrounds : Rounds set.stream item within what answers state more final)
    (hbetween : set.Between within state) (hmuted : state.log.muted = 0)
    (hle : final.position ≤ count) (hposition : right.position = state.position)
    (hlog : right.log = state.log) :
    ∃ final', Rounds other item within' what answers right more final' ∧ final'.log = final.log ∧
      final'.position = final.position := by
  induction hrounds generalizing right with
  | refl answers state => exact ⟨right, .refl answers right, hlog, hposition⟩
  | @head answers more most state middle final hstarts hnext hlt hrest ih =>
    have hmiddle := reached_of_nextItem hpart hitem hbetween hstarts hnext
    have hbetween' := hmiddle.between hbetween
    obtain ⟨hfinal, -⟩ := reached_of_rounds hpart hitem hrest hbetween'
    have hle' := Nat.le_trans hfinal.within.le hle
    have hbefore := Nat.lt_of_lt_of_le hlt hle'
    obtain ⟨hfirst, hsemicolon⟩ := hfront.resolve_left (Nat.ne_of_lt hbefore)
    obtain ⟨middle', hnext', hlog', hposition'⟩ := h.nextItem balanced hfirst hsemicolon halike
      hpart (hitem state hbetween.lt)
      (fun P hclosed => hagrees P state hclosed hbetween.lt hmuted) hbetween hbefore hposition hlog
      hnext hle'
    obtain ⟨final', hrest', hlog'', hposition''⟩ := ih (Or.inr ⟨hfirst, hsemicolon⟩) hbetween'
      (hmiddle.follows.muted_eq.trans hmuted) hle hposition' hlog'
    refine ⟨final', .head ?_ hnext' ?_ hrest', hlog'', hposition''⟩
    · -- the item begins at the same token
      rw [startsItem_apply] at hstarts
      rw [startsItem_apply, hposition, h.kind_eq hbefore, halike.closer_eq,
        (Prod.mk.inj hstarts).1]
    · rw [hposition, hposition']
      exact hlt

end Setting.Shares

/-! ### What stands between -/

/-- What is read up to where an item ends is taken in one round. -/
theorem Setting.Leaves.exists_round {α : Type} {set : Setting} {item : Parser α} {within : Enclosure}
    {answer : α} {state : ParserState} {stop : Nat} {later : Log}
    (hitem : set.Leaves state.log item state.position answer stop later) (what : String)
    (answers : List α) (hlt : state.position < stop)
    (hplain : (set.stream.kind state.position).isPlain = true)
    (hcloser : within.closer.isPlain = false)
    (hstop : set.stream.kind stop = within.closer ∨
      (set.stream.kind stop).separates within.commas = true) :
    ∃ final, Rounds set.stream item within what answers state (answer :: answers) final ∧
      final.log = later ∧
      final.position = set.stream.skipWhile (·.separates within.commas) stop := by
  have hnext : set.Leaves state.log (Parser.nextItem item within what answers) state.position
      (answer :: answers) (set.stream.skipWhile (·.separates within.commas) stop) later :=
    hitem.nextItem hstop answers
  obtain ⟨_, final, hrun, rfl, hposition, hlog⟩ := (hnext state.history).exists_ok
  have hne : ∀ {kind : TokenKind}, kind.isPlain = false →
      (set.stream.kind state.position == kind) = false := fun hkind =>
    beq_eq_false_iff_ne.2 fun heq => by
      rw [heq, hkind] at hplain
      cases hplain
  refine ⟨final, .head ?_ hrun ?_ (.refl _ _), hlog, hposition⟩
  · rw [startsItem_apply, hne hcloser, hne rfl]
    rfl
  · rw [hposition]
    exact Nat.lt_of_lt_of_le hlt (le_skipWhile ..)

/-! ### What stands behind -/

/-- What the loop over the items gives from a place between them on, when nothing has been reported
before. -/
def Parser.itemsFrom {α : Type} (stream : TokenStream) (item : Parser α) (within : Enclosure)
    (what : String) (first : Nat) : Except Abort (List α) × ParserState :=
  repeatWhile (startsItem within) (nextItem item within what) [] stream
    { ParserState.initial with position := stream.skipWhile (·.separates within.commas) first }

namespace Setting.Recurs

variable {set set' : Setting} {relocation : Relocation} {first start length : Nat}

/-- A stretch stands where it stands. -/
theorem self (hwithin : set.stream.Within first (first + length))
    (hopened : set.stream.opened (first + length) = set.stream.opened first)
    (hboundary : (set.stream.kind (first + length)).isBoundary = true) :
    set.Recurs set.stream .id first first length where
  within := hwithin
  opened_eq := hopened
  depth_le := Nat.le_refl _
  lt := hwithin.lt
  token_eq _ _ := rfl
  touches_eq _ _ := rfl
  formBefore_eq _ := rfl
  boundary := hboundary
  limit := TokenKind.isLimit_of_isBoundary hboundary

/-- What is read up to the end of what surrounds it is read where it recurs, whatever has been read
before. -/
theorem rest {α : Type} [Relocatable α] {item : Parser α} {within within' : Enclosure}
    {state : ParserState} (h : set.Recurs set'.stream relocation first start length) (what : String)
    (count : Nat)
    (hends : Ends set set'.stream relocation first start length true)
    (hpart : set.IsPart within) (hstays : set.stream.Within within.first first)
    (hopened : set.stream.opened first = set.stream.opened within.first) (hitem : set.Obeys true item)
    (hmirrors : ∀ P : Parallel set, P.MirrorsInside true item)
    (hcloser : within'.closer = within.closer) (hcommas : within'.commas = within.commas)
    (hlevel : within'.level = (set'.stream.opened start).length)
    (hposition : state.position = set'.stream.skipWhile (·.separates within.commas) start)
    (hcount : set'.stream.size ≤ count + state.position) (hmuted : state.log.muted = 0) :
    ∃ final, repeatWhile.iterate (startsItem within') (Parser.nextItem item within' what) count []
        set'.stream state =
        ((itemsFrom set.stream item within what first).1.map relocation.move, final) ∧
      final.log.diagnostics.toList = state.log.diagnostics.toList ++
        relocation.move (itemsFrom set.stream item within what first).2.log.diagnostics.toList ∧
      final.log.muted = 0 := by
  have hlt : first < set.stream.size := Nat.lt_of_le_of_lt h.within.le h.within.lt
  let P := h.parallel set'.balanced true hends state.log.diagnostics.toList
  have hsheltered : ∀ position, P.Sheltered position := fun _ => Or.inl rfl
  have hsurrounds : P.Surrounds within.first := Or.inr fun _ => Nat.le_of_eq (congrArg _ hopened)
  have hplain : ∀ kind : TokenKind, kind.separates within.commas = true → kind.isPlain = true :=
    fun _ => TokenKind.isPlain_of_separates
  have hskip : set'.stream.skipWhile (·.separates within.commas) start =
      P.place (set.stream.skipWhile (·.separates within.commas) first) := by
    have heq := (hsheltered first).skipWhile_eq hplain (Nat.le_refl _) (Nat.le_add_right ..)
    rw [show P.place first = start from P.place_base] at heq
    exact heq
  have hskipped := within_skipWhile hplain hlt
  let entered : ParserState :=
    { ParserState.initial with position := set.stream.skipWhile (·.separates within.commas) first }
  have hbetween : set.Between within entered :=
    ⟨hstays.trans hskipped.1, hskipped.2.1.trans hopened⟩
  have hstop := (hsheltered first).skipWhile_le hplain (Nat.le_refl _) (Nat.le_add_right ..)
  have hagrees : P.Agrees Parallel.never
      (repeatWhile.iterate (startsItem within) (Parser.nextItem item within what) set.stream.size [])
      (repeatWhile.iterate (startsItem within') (Parser.nextItem item within' what) count
        (P.relocation.move [])) entered := by
    refine .rounds hpart hitem (hmirrors P) (fun _ => rfl) hbetween hcloser hcommas ?_ hsurrounds
      (hsheltered _) (Nat.le_add_right ..) ?_
    · rw [hlevel, hpart.level_eq, ← hopened]
      exact (Nat.add_sub_cancel' h.depth_le).symm
    · have hless := h.lt
      have hle := hskipped.1.le
      have hplace : state.position =
          start + (set.stream.skipWhile (·.separates within.commas) first - first) :=
        hposition.trans hskip
      show first + length < count + set.stream.skipWhile (·.separates within.commas) first
      omega
  have hseen : P.Seen Parallel.never (itemsFrom set.stream item within what first) := by
    refine Parallel.seen_of_final rfl ?_
    have hruns : set.Runs (repeatWhile (startsItem within) (Parser.nextItem item within what) [])
      entered _ _ := runs_rounds hpart hitem hbetween
    have hwithin : set.stream.Within entered.position
        (itemsFrom set.stream item within what first).2.position := by
      unfold Runs at hruns
      unfold Parser.itemsFrom
      split at hruns
      · next heq =>
        rw [heq]
        exact hruns.1.within
      · next heq =>
        rw [heq]
        exact hruns.2.within
    exact (hsheltered first).le_stop (Parallel.surrounds_of_base_le (Nat.le_refl _))
      (Nat.le_add_right ..) (hskipped.1.trans hwithin)
  have hrelated : P.Related entered state :=
    ⟨hskipped.1.le, hstop, hposition.trans hskip, ⟨[], rfl, (List.append_nil _).symm⟩, hmuted⟩
  obtain ⟨final, heq, hfinal⟩ := hagrees.mirrored state hrelated hseen
  obtain ⟨reports, hleft, hright⟩ := hfinal.reports
  have hreports : reports =
      (itemsFrom set.stream item within what first).2.log.diagnostics.toList := hleft.symm
  rw [hreports] at hright
  exact ⟨final, heq, hright, hfinal.muted_eq.trans hagrees.muted_eq⟩

end Setting.Recurs

end SableFrontend
