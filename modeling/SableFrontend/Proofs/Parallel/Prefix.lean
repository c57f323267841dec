import SableFrontend.Proofs.Parallel.Suffix

/-!
Two streams that begin alike. Up to a place at the outside of all delimiters they have the same tokens
(`Setting.BeginsLike`), and so the items in front of that place are read in the same way on both: each
round of the loop over the items of a module (`BeginsLike.nextItem`), the rounds one after the other
(`BeginsLike.rounds`), and what comes before them (`BeginsLike.opening`).
-/

namespace SableFrontend

open TokenStream Parser Setting

/-- Another stream has the same tokens as a stream in front of a position at the outside of all
delimiters, at which no separator stands. Where the stream ends there, the other one has a
separator. -/
structure Setting.BeginsLike (set : Setting) (other : TokenStream) (count : Nat) : Prop where
  lt : count < set.stream.size
  lt_other : count < other.size
  token_eq : ∀ position < count, other.token position = set.stream.token position
  depth_eq : ∀ position ≤ count, other.depth position = set.stream.depth position
  opened_eq : set.stream.opened count = []
  not_separator : (set.stream.kind count).isSeparator = false
  separator : set.stream.kind count = .endOfFile → (other.kind count).isSeparator = true

namespace Setting.BeginsLike

variable {set : Setting} {other : TokenStream} {count : Nat}

theorem kind_eq (h : set.BeginsLike other count) {position : Nat} (hlt : position < count) :
    other.kind position = set.stream.kind position :=
  congrArg Token.kind (h.token_eq position hlt)

/-- The place in the other stream that corresponds to a place between items. -/
def meet (other : TokenStream) (count position : Nat) : Nat :=
  if position < count then position else other.skipWhile (·.separates false) count

theorem meet_of_lt {position : Nat} (hlt : position < count) :
    meet other count position = position := if_pos hlt

theorem meet_self : meet other count count = other.skipWhile (·.separates false) count :=
  if_neg (Nat.lt_irrefl _)

/-- Separators lead to corresponding places. -/
theorem skipWhile_eq (h : set.BeginsLike other count) {position : Nat}
    (hle : set.stream.skipWhile (·.separates false) position ≤ count) :
    other.skipWhile (·.separates false) position =
      meet other count (set.stream.skipWhile (·.separates false) position) := by
  have hbegin := le_skipWhile set.stream (·.separates false) position
  rcases Nat.lt_or_eq_of_le (Nat.le_trans hbegin hle) with hlt | rfl
  · have hunfold : ∀ stream : TokenStream, position < stream.size →
        stream.skipWhile (·.separates false) position =
          if (stream.kind position).separates false then
            stream.skipWhile (·.separates false) (position + 1) else position := by
      intro stream hlt
      rw [TokenStream.skipWhile, if_pos hlt]
    have hleft := hunfold set.stream (Nat.lt_trans hlt h.lt)
    rw [hunfold other (Nat.lt_trans hlt h.lt_other), h.kind_eq hlt]
    rw [hleft] at hle ⊢
    split
    · next hseparates =>
      rw [if_pos hseparates] at hle
      exact skipWhile_eq h hle
    · exact (meet_of_lt hlt).symm
  · have hstay : set.stream.skipWhile (·.separates false) position = position :=
      skipWhile_eq_self (by rw [TokenKind.separates, h.not_separator]; rfl)
    rw [hstay, meet_self]
termination_by count - position
decreasing_by omega

/-- Skipping that ends behind a separator at the outside of all delimiters. -/
theorem resumePosition_eq (h : set.BeginsLike other count) {position stop : Nat}
    (hle : position ≤ stop) (hlt : stop < count) (hopened : set.stream.opened stop = [])
    (hseparator : (set.stream.kind stop).isSeparator = true)
    (hresume : set.stream.resumePosition 0 false position = stop + 1) :
    other.resumePosition 0 false position = stop + 1 := by
  have hcount := h.lt
  have hcount' := h.lt_other
  rw [TokenStream.resumePosition_eq _ _ (by omega)] at hresume ⊢
  rw [h.kind_eq (by omega), h.depth_eq position (by omega)]
  split
  · next hstop =>
    rw [if_pos hstop] at hresume
    omega
  · next hstop =>
    rw [if_neg hstop] at hresume
    split
    · next hseparates =>
      rw [if_pos hseparates] at hresume
      exact hresume
    · next hseparates =>
      rw [if_neg hseparates] at hresume
      rcases Nat.lt_or_eq_of_le hle with hnext | rfl
      · exact resumePosition_eq h hnext hlt hopened hseparator hresume
      · refine absurd ⟨?_, ?_⟩ hseparates
        · rw [set.balanced.depth_eq (by omega), hopened]
          rfl
        · rw [TokenKind.separates, hseparator]
          rfl
termination_by stop - position

/-- A stretch between two places at the outside of all delimiters, of which the second is in front
of the end of what is alike, or is the end of the stream. -/
def parallel (h : set.BeginsLike other count) {start stop : Nat} (hle : start ≤ stop)
    (hstart : set.stream.opened start = []) (hstop : set.stream.opened stop = [])
    (hboundary : (set.stream.kind stop).isBoundary = true) (hcount : stop ≤ count)
    (hend : stop < count ∨ set.stream.kind stop = .endOfFile) (reported : List Diagnostic) :
    Parallel set where
  other := other
  relocation := .id
  base := start
  otherBase := start
  reach := stop - start
  lift := 0
  exact := decide (stop < count)
  final := false
  reported := reported
  otherReported := reported
  within := by
    rw [Nat.add_sub_cancel' hle]
    refine ⟨hle, Nat.lt_of_le_of_lt hcount h.lt, fun k _ _ => ?_⟩
    rw [hstart]
    exact List.nil_suffix
  opened_eq := by rw [Nat.add_sub_cancel' hle, hstart, hstop]
  other_lt := by
    rw [Nat.add_sub_cancel' hle]
    exact Nat.lt_of_le_of_lt hcount h.lt_other
  token_add_eq k hk := h.token_eq _ (by omega)
  touches_add_eq k hk := by rw [h.token_eq _ (by omega), h.token_eq _ (by omega)]
  depth_add_eq k hk := h.depth_eq _ (by omega)
  formBefore_eq hkind := by
    have hne : start ≠ stop := by
      rintro rfl
      rw [hkind] at hboundary
      cases hboundary
    unfold formBefore?
    rw [h.token_eq start (by omega), h.token_eq (start - 1) (by omega)]
  boundary := by rwa [Nat.add_sub_cancel' hle]
  other_limit := by
    rw [Nat.add_sub_cancel' hle]
    refine TokenKind.isLimit_of_isBoundary ?_
    rcases Nat.lt_or_eq_of_le hcount with hlt | rfl
    · rwa [h.kind_eq hlt]
    · have hkind := h.separator (hend.resolve_left (Nat.lt_irrefl _))
      rw [TokenKind.isBoundary, hkind]
      rfl
  last_eq hexact := by
    rw [Nat.add_sub_cancel' hle]
    exact h.token_eq stop (of_decide_eq_true hexact)
  last_ne_newline hexact := by
    rw [Nat.add_sub_cancel' hle, hend.resolve_left (of_decide_eq_false hexact)]
    exact TokenKind.noConfusion
  ends := Bool.noConfusion

end Setting.BeginsLike

namespace Setting.BeginsLike

variable {set : Setting} {other : TokenStream} {count : Nat} {α : Type} [Relocatable α]
  [LawfulRelocatable α] {within within' : Enclosure} {attempt attempt' : Parser (Bool × α)}
  {state final right : ParserState} {answer : α}

omit [LawfulRelocatable α] in
/-- States that correspond to each other in streams that begin alike are the same, but for the
history. -/
theorem related_parallel (state right : ParserState) (h : set.BeginsLike other count) {start stop : Nat} (hle : start ≤ stop)
    (hstart : set.stream.opened start = []) (hstop : set.stream.opened stop = [])
    (hboundary : (set.stream.kind stop).isBoundary = true) (hcount : stop ≤ count)
    (hend : stop < count ∨ set.stream.kind stop = .endOfFile) (reported : List Diagnostic) :
    (h.parallel hle hstart hstop hboundary hcount hend reported).Related state right ↔
      start ≤ state.position ∧ state.position ≤ stop ∧ right.position = state.position ∧
        right.log = state.log ∧ reported <+: state.log.diagnostics.toList := by
  have hplace : ∀ {position}, start ≤ position →
      (h.parallel hle hstart hstop hboundary hcount hend reported).place position = position :=
    fun hstart => Nat.add_sub_cancel' hstart
  have hreach : (h.parallel hle hstart hstop hboundary hcount hend reported).stop = stop :=
    Nat.add_sub_cancel' hle
  constructor
  · intro hrelated
    have hbase : start ≤ state.position := hrelated.base_le
    obtain ⟨reports, hleft, hright⟩ := hrelated.reports
    refine ⟨hbase, hreach ▸ hrelated.le_stop, ?_, ?_, ⟨reports, hleft.symm⟩⟩
    · rw [hrelated.position_eq, hplace hbase]
    · have hdiagnostics : right.log.diagnostics = state.log.diagnostics := by
        rw [← Array.toList_inj, hleft, hright]
        exact congrArg (reported ++ ·) (Relocation.move_id reports)
      have hmuted := hrelated.muted_eq
      revert hdiagnostics hmuted
      cases right.log
      cases state.log
      simp +contextual
  · intro ⟨hbase, hto, hposition, hlog, reports, hreports⟩
    refine ⟨hbase, Nat.le_trans hto (Nat.le_of_eq hreach.symm), ?_, ⟨reports, hreports.symm, ?_⟩, by rw [hlog]⟩
    · rw [hposition, hplace hbase]
    · rw [hlog, ← hreports]
      exact congrArg (reported ++ ·) (Relocation.move_id reports).symm

/-- Where an item at the outside ends in both streams, any item may end. -/
theorem closed_of_ends {P : Parallel set} (hwithin : within.IsOutermost)
    (hends : P.exact = true ∨ within.endsItem (set.stream.kind P.stop) = true ∧
      within.endsItem (P.other.kind (P.place P.stop)) = true) : P.Closed := by
  rcases hends with hexact | ⟨-, hends⟩
  · exact Parallel.closed_of_exact hexact
  · rw [Parallel.place_stop] at hends
    exact hwithin.boundary hends

/-- What is tried in front of the end of what is alike does the same on the other stream, and
skipping leads to the same place. -/
theorem settle (h : set.BeginsLike other count) (hwithin : within.IsOutermost)
    (hwithin' : within'.IsOutermost) (hopened : set.stream.opened state.position = [])
    (hposition : right.position = state.position) (hlog : right.log = state.log)
    (hattempt : set.Runs attempt state
      (fun result middle => set.Attempted within state result.1 middle) fun _ _ => True)
    (hagrees : ∀ P : Parallel set, P.other = other → P.base = state.position →
      P.relocation = .id → (P.exact = true ∨ within.endsItem (set.stream.kind P.stop) = true ∧
        within.endsItem (other.kind (P.place P.stop)) = true) →
      P.Agrees (fun result _ => result.1 = false ∧ P.exact = false) attempt attempt' state)
    (hrun : settle within attempt set.stream state = (.ok answer, final))
    (hskip : set.stream.skipWhile (·.separates false) final.position ≤ count)
    (hmissing : ∀ diagnostic ∈ final.log.diagnostics, diagnostic.kind ≠ .missingElseBranch)
    (hquiet : set.stream.kind count = .endOfFile →
      state.log.muted = 0 ∧ final.log.count ≤ state.log.count) :
    ∃ final', settle within' attempt' other right = (.ok answer, final') ∧
      final'.log = final.log ∧ final'.position = final.position := by
  rw [settle_apply, hwithin.level_eq, hwithin.commas_eq] at hrun
  rw [settle_apply, hwithin'.level_eq, hwithin'.commas_eq]
  unfold Setting.Runs at hattempt
  cases hleft : attempt set.stream state with
  | mk result middle =>
    rw [hleft] at hrun hattempt
    cases result with
    | error abort => cases hrun
    | ok result =>
      obtain ⟨ended, value⟩ := result
      obtain ⟨hstays, hended, hfails⟩ := hattempt
      rw [hopened] at hended
      -- the stretch up to a place at the outside, where the attempt or what is skipped ends
      have hfollow : ∀ {stop} (hle : state.position ≤ stop) (hstop : set.stream.opened stop = [])
          (hboundary : (set.stream.kind stop).isBoundary = true) (hcount : stop ≤ count)
          (hend : stop < count ∨ set.stream.kind stop = .endOfFile), middle.position ≤ stop →
          (ended = true ∨ stop < count) → middle.log.diagnostics = final.log.diagnostics →
          ∃ middle', attempt' other right = (.ok (ended, value), middle') ∧
            middle'.position = middle.position ∧ middle'.log = middle.log := by
        intro stop hle hstop hboundary hcount hend hmiddle hcase hsame
        have hrelated : ∀ left right, _ ↔ _ := fun left right =>
          related_parallel left right h hle hopened hstop hboundary hcount hend
            state.log.diagnostics.toList
        generalize hparallel : h.parallel hle hopened hstop hboundary hcount hend
          state.log.diagnostics.toList = P at hrelated
        have hexact : P.exact = decide (stop < count) := by rw [← hparallel]; rfl
        have hreach : P.stop = stop := by rw [← hparallel]; exact Nat.add_sub_cancel' hle
        have hother : P.other = other := by rw [← hparallel]; rfl
        have hmove : P.relocation = .id := by rw [← hparallel]; rfl
        have hagrees := hagrees P hother (by rw [← hparallel]; rfl) hmove ?_
        · have hseen : P.Seen (fun result _ => result.1 = false ∧ P.exact = false)
              (attempt set.stream state) := by
            rw [hleft]
            refine ⟨fun hlost => ?_, fun hspoilt => ?_⟩
            · rcases hlost with hpast | ⟨-, -, diagnostic, hmem, hkind⟩
              · omega
              · refine hmissing diagnostic ?_ hkind
                rw [← hsame, ← Array.mem_toList_iff]
                exact List.mem_of_mem_drop hmem
            · rcases hcase with hended | hlt
              · rw [hended] at hspoilt
                cases hspoilt.1
              · rw [hexact, decide_eq_true hlt] at hspoilt
                cases hspoilt.2
          obtain ⟨middle', heq, hfinal⟩ := hagrees.mirrored right
            ((hrelated _ _).2 ⟨Nat.le_refl _, hle, hposition, hlog, List.prefix_rfl⟩) hseen
          rw [hleft] at heq hfinal
          obtain ⟨-, -, hposition', hlog', -⟩ := (hrelated _ _).1 hfinal
          refine ⟨middle', ?_, hposition', hlog'⟩
          rw [← hother, heq, hmove]
          exact congrArg (fun value => (Except.ok (ended, value), middle'))
            (Relocation.move_id value)
        · rw [hexact, hreach]
          rcases Nat.lt_or_eq_of_le hcount with hlt | rfl
          · exact Or.inl (decide_eq_true hlt)
          · -- only the end of the stream is not in front of the end of what is alike
            have hkind := hend.resolve_left (Nat.lt_irrefl _)
            have hplace : P.place stop = stop := by
              rw [← hparallel]
              exact Nat.add_sub_cancel' hle
            refine Or.inr ⟨?_, ?_⟩
            · rw [hkind, Enclosure.endsItem, hwithin.closer_eq]
              rfl
            · rw [hplace, Enclosure.endsItem, TokenKind.separates, h.separator hkind]
              simp
      cases ended with
      | true =>
        obtain ⟨hopened', hends⟩ := hended rfl
        obtain ⟨hvalue, rfl⟩ := Prod.mk.inj hrun
        injection hvalue with hvalue
        have hcount : middle.position ≤ count := Nat.le_trans (le_skipWhile ..) hskip
        have hkind : (set.stream.kind middle.position).isSeparator = true ∨
            set.stream.kind middle.position = .endOfFile := by
          rw [Enclosure.endsItem, hwithin.closer_eq, hwithin.commas_eq] at hends
          simpa [TokenKind.separates, or_comm] using hends
        have hend : middle.position < count ∨ set.stream.kind middle.position = .endOfFile := by
          rcases Nat.lt_or_eq_of_le hcount with hlt | heq
          · exact Or.inl hlt
          · refine Or.inr (hkind.resolve_left fun hseparator => ?_)
            rw [heq, h.not_separator] at hseparator
            cases hseparator
        obtain ⟨middle', heq, hplace, hsame⟩ := hfollow hstays.le hopened'
          (by rcases hkind with hkind | hkind <;> simp [TokenKind.isBoundary, hkind]) hcount hend
          (Nat.le_refl _) (Or.inl rfl) rfl
        rw [heq, hvalue]
        exact ⟨middle', rfl, hsame, hplace⟩
      | false =>
        obtain ⟨hvalue, rfl⟩ := Prod.mk.inj hrun
        injection hvalue with hvalue
        have hcount := Nat.le_trans (le_skipWhile ..) hskip
        rcases set.balanced.resumePosition_outside hstays.lt with hend |
          ⟨stop, hle, hresume, hopened', hseparator⟩
        · -- what fails does not end with the file
          dsimp only at hcount
          have hlast := set.balanced.end_last (Nat.lt_of_le_of_lt hcount h.lt) hend
          have hlt := h.lt
          have heq : set.stream.resumePosition 0 false middle.position = count := by omega
          obtain ⟨hmuted, hcount⟩ := hquiet (heq ▸ hend)
          exact absurd (hfails rfl hmuted) (Nat.not_lt_of_le hcount)
        · have hlt : stop < count := by
            rw [hresume] at hcount
            exact hcount
          have hboundary : (set.stream.kind stop).isBoundary = true := by
            simp [TokenKind.isBoundary, hseparator]
          have hbegin := Nat.le_trans hstays.le hle
          obtain ⟨middle', heq, hplace, hsame⟩ := hfollow hbegin hopened' hboundary
            (Nat.le_of_lt hlt) (Or.inl hlt) hle (Or.inr hlt) rfl
          have hskipped : other.resumePosition 0 false middle.position =
              set.stream.resumePosition 0 false middle.position := by
            rw [hresume]
            exact h.resumePosition_eq hle hlt hopened' hseparator hresume
          rw [heq, hvalue]
          refine ⟨_, rfl, hsame, ?_⟩
          dsimp only
          rw [hplace, hskipped]

/-! ### Items -/

section

variable {item : Parser α} {what : String} {answers more : List α} (lacks : α → Prop)

/-- A round in front of the end of what is alike does the same on the other stream. -/
theorem nextItem (h : set.BeginsLike other count) (hwithin : within.IsOutermost)
    (hwithin' : within'.IsOutermost) (hitem : set.Proceeds true item state)
    (hagrees : ∀ P : Parallel set, P.Closed →
      P.Agrees (fun value _ => lacks value) item item state)
    (hopened : set.stream.opened state.position = [])
    (hposition : right.position = state.position) (hlog : right.log = state.log)
    (hnext : Parser.nextItem item within what answers set.stream state = (.ok more, final))
    (hle : final.position ≤ count) (hlacks : ∀ value ∈ more, ¬lacks value)
    (hmissing : ∀ diagnostic ∈ final.log.diagnostics, diagnostic.kind ≠ .missingElseBranch)
    (hquiet : set.stream.kind count = .endOfFile →
      state.log.muted = 0 ∧ final.log.count ≤ state.log.count) :
    ∃ final', Parser.nextItem item within' what answers other right = (.ok more, final') ∧
      final'.log = final.log ∧ final'.position = meet other count final.position := by
  rw [nextItem_apply, hwithin.commas_eq] at hnext
  cases hsettle : Parser.settle within (attemptItem item within what answers) set.stream state with
  | mk result middle =>
    rw [hsettle] at hnext
    cases result with
    | error abort => cases hnext
    | ok value =>
      obtain ⟨hvalue, rfl⟩ := Prod.mk.inj hnext
      injection hvalue with hvalue
      subst hvalue
      obtain ⟨ended, _, hattempt, -⟩ := exists_of_settle hsettle
      have hsame : ∀ P : Parallel set, P.other = other → P.base = state.position →
          P.relocation = .id → (P.exact = true ∨
            within.endsItem (set.stream.kind P.stop) = true ∧
              within.endsItem (other.kind (P.place P.stop)) = true) →
          P.Agrees (fun result _ => result.1 = false ∧ P.exact = false)
            (attemptItem item within what answers) (attemptItem item within' what answers) state := by
        intro P hother _ hmove hends
        have hattempts : P.Agrees (P.Spoilt (fun value _ => lacks value) answers)
            (attemptItem item within what answers)
            (attemptItem item within' what (P.relocation.move answers)) state :=
          .attemptItem (hagrees P (closed_of_ends hwithin (hother ▸ hends))) (hwithin'.closer_eq.trans hwithin.closer_eq.symm)
            (hwithin'.commas_eq.trans hwithin.commas_eq.symm) (hother ▸ hends)
        rw [hmove, Relocation.move_id] at hattempts
        refine hattempts.unwaived ?_
        unfold Setting.Runs
        rw [hattempt]
        rintro - (⟨value, hvalue, hlacks'⟩ | hspoilt)
        · dsimp only at hvalue
          refine absurd hlacks' (hlacks value ?_)
          rw [hvalue]
          exact List.mem_cons_self
        · exact hspoilt
      obtain ⟨middle', heq, hlog', hplace⟩ := h.settle hwithin hwithin' hopened hposition hlog
        (runs_attemptItem hitem) hsame hsettle hle hmissing hquiet
      rw [nextItem_apply, hwithin'.commas_eq, heq]
      refine ⟨_, rfl, hlog', ?_⟩
      dsimp only
      rw [hplace]
      exact h.skipWhile_eq hle

/-- Rounds in front of the end of what is alike are taken on the other stream, too. -/
theorem rounds (h : set.BeginsLike other count) (hwithin : within.IsOutermost)
    (hwithin' : within'.IsOutermost) (hpart : set.IsPart within) (hitem : set.Obeys true item)
    (hagrees : ∀ (P : Parallel set) s, P.Closed → s.position < set.stream.size →
      s.log.muted = 0 → P.Agrees (fun value _ => lacks value) item item s)
    (hrounds : Rounds set.stream item within what answers state more final)
    (hbetween : set.Between within state) (hopened : set.stream.opened within.first = [])
    (hmuted : state.log.muted = 0) (hle : final.position ≤ count)
    (hlacks : ∀ value ∈ more, ¬lacks value)
    (hmissing : ∀ diagnostic ∈ final.log.diagnostics, diagnostic.kind ≠ .missingElseBranch)
    (hquiet : set.stream.kind count = .endOfFile → final.log.count = 0)
    (hposition : right.position = meet other count state.position)
    (hlog : right.log = state.log) :
    ∃ final', Rounds other item within' what answers right more final' ∧
      final'.log = final.log ∧ final'.position = meet other count final.position := by
  induction hrounds generalizing right with
  | refl answers state => exact ⟨right, .refl answers right, hlog, hposition⟩
  | @head answers more most state middle final hstarts hnext hlt hrest ih =>
    have hmiddle := reached_of_nextItem hpart hitem hbetween hstarts hnext
    have hbetween' := hmiddle.between hbetween
    obtain ⟨hfinal, hsuffix⟩ := reached_of_rounds hpart hitem hrest hbetween'
    have hle' := Nat.le_trans hfinal.within.le hle
    rw [meet_of_lt (Nat.lt_of_lt_of_le hlt hle')] at hposition
    have hquiet' : set.stream.kind count = .endOfFile →
        state.log.muted = 0 ∧ middle.log.count ≤ state.log.count := by
      intro hend
      have hcount := hfinal.follows.count_le
      rw [hquiet hend] at hcount
      exact ⟨hmuted, Nat.le_trans hcount (Nat.zero_le _)⟩
    obtain ⟨middle', hnext', hlog', hposition'⟩ := h.nextItem lacks hwithin hwithin'
      (hitem state hbetween.lt) (fun P hclosed => hagrees P state hclosed hbetween.lt hmuted)
      (hbetween.opened_eq.trans hopened) hposition hlog hnext hle'
      (fun value hmem => hlacks value (hsuffix.subset hmem))
      (fun diagnostic hmem => hmissing diagnostic (hfinal.follows.mem_diagnostics _ hmem)) hquiet'
    obtain ⟨final', hrest', hlog', hposition''⟩ := ih hbetween'
      (hmiddle.follows.muted_eq.trans hmuted) hle hlacks hmissing hquiet hposition' hlog'
    refine ⟨final', .head ?_ hnext' ?_ hrest', hlog', hposition''⟩
    · -- the item begins at the same token
      have hkind : other.kind right.position = set.stream.kind state.position := by
        rw [hposition, h.kind_eq (Nat.lt_of_lt_of_le hlt hle')]
      rw [startsItem_apply] at hstarts
      have hcloser := hwithin'.closer_eq.trans hwithin.closer_eq.symm
      rw [startsItem_apply, hkind, hcloser, (Prod.mk.inj hstarts).1]
    · rw [hposition, hposition', meet]
      split
      · exact hlt
      · exact Nat.lt_of_lt_of_le (Nat.lt_of_lt_of_le hlt hle') (le_skipWhile ..)

end

/-! ### The beginning of a module -/

/-- A header is read alike. If nothing stands in front of the end of what is alike, no header may
follow on the other stream. -/
theorem header (h : set.BeginsLike other count) {name : Option String}
    (hrun : optionalHeader set.stream (ParserState.initial.skip set.stream) = (.ok name, final))
    (hskip : set.stream.skipWhile (·.separates false) final.position ≤ count)
    (hleft : set.stream.kind count ≠ .keyword .moduleWord)
    (hright : other.kind (other.skipWhile (·.separates false) count) ≠ .keyword .moduleWord)
    (hdepth : other.depth (other.skipWhile (·.separates false) count) = 0)
    (hmissing : ∀ diagnostic ∈ final.log.diagnostics, diagnostic.kind ≠ .missingElseBranch)
    (hquiet : set.stream.kind count = .endOfFile → final.log.count = 0) :
    ∃ final', optionalHeader other (ParserState.initial.skip other) = (.ok name, final') ∧
      final'.log = final.log ∧ other.depth final'.position = 0 ∧
      other.skipWhile (·.separates false) final'.position =
        meet other count (set.stream.skipWhile (·.separates false) final.position) := by
  have hinitial : set.Reached .initial false [] .initial := .refl set.stream.size_pos
  have hbegin := hinitial.skip
  have hopened := hbegin.opened_eq.trans set.stream.opened_zero
  have hfinal : set.Reached .initial false [] final := by
    have hruns : set.Runs optionalHeader (ParserState.initial.skip set.stream)
        (fun _ final => set.Reached .initial false [] final) _ :=
      hbegin.optionalHeader fun _ _ hfinal => hfinal
    unfold Setting.Runs at hruns
    rwa [hrun] at hruns
  have hplace : (ParserState.initial.skip set.stream).position ≤ count →
      (ParserState.initial.skip other).position =
        meet other count (ParserState.initial.skip set.stream).position := h.skipWhile_eq
  have hlog : (ParserState.initial.skip other).log =
      (ParserState.initial.skip set.stream).log := rfl
  have hmuted : (ParserState.initial.skip set.stream).log.muted = 0 := rfl
  have hstay : other.skipWhile (·.separates false) (ParserState.initial.skip other).position =
      (ParserState.initial.skip other).position :=
    skipWhile_eq_self (within_skipWhile (fun _ => TokenKind.isPlain_of_separates)
      other.size_pos).2.2
  have hstill : set.stream.skipWhile (·.separates false)
      (ParserState.initial.skip set.stream).position =
        (ParserState.initial.skip set.stream).position :=
    skipWhile_eq_self (within_skipWhile (fun _ => TokenKind.isPlain_of_separates)
      set.stream.size_pos).2.2
  generalize ParserState.initial.skip set.stream = begin at *
  generalize ParserState.initial.skip other = begin' at *
  rw [optionalHeader_apply] at hrun ⊢
  split at hrun
  · next hkind =>
    obtain ⟨ended, middle, hattempt, hmiddle⟩ := exists_of_settle hrun
    have hattempted := runs_attemptHeader hbegin.lt hkind Enclosure.isOutermost_outermost
    have hstays : begin.position ≤ middle.position := by
      unfold Setting.Runs at hattempted
      rw [hattempt] at hattempted
      exact hattempted.stays.le
    have hcount : begin.position ≤ count :=
      Nat.le_trans (Nat.le_trans hstays hmiddle) (Nat.le_trans (le_skipWhile ..) hskip)
    have hlt : begin.position < count :=
      Nat.lt_of_le_of_ne hcount fun heq => hleft (heq ▸ hkind)
    have hplace := hplace hcount
    rw [meet_of_lt hlt] at hplace
    have hagrees : ∀ P : Parallel set, P.other = other → P.base = begin.position →
        P.relocation = .id → (P.exact = true ∨
          Enclosure.outermost.endsItem (set.stream.kind P.stop) = true ∧
            Enclosure.outermost.endsItem (other.kind (P.place P.stop)) = true) →
        P.Agrees (fun result _ => result.1 = false ∧ P.exact = false) attemptHeader attemptHeader
          begin := by
      intro P hother hbase _ hends
      have hclosers : P.exact = true ∨ (set.stream.kind P.stop).isCloser = false ∧
          (P.other.kind (P.place P.stop)).isCloser = false :=
        hends.imp_right fun ⟨hends, hends'⟩ => ⟨Enclosure.isOutermost_outermost.not_closer hends,
          Enclosure.isOutermost_outermost.not_closer (hother ▸ hends')⟩
      have hheader := Parallel.agrees_moduleHeader hbegin.lt hkind (Nat.le_of_eq hbase)
        (closed_of_ends Enclosure.isOutermost_outermost (hother ▸ hends)) hclosers
      refine hheader.recover_waived.bind_each fun name middle => ⟨.pure ?_, fun hwaived hseen => ?_⟩
      · cases name <;> rfl
      · cases name with
        | none => exact hseen.2 ⟨rfl, hwaived⟩
        | some => exact hwaived
    obtain ⟨final', heq, hlog', hposition⟩ := h.settle Enclosure.isOutermost_outermost
      Enclosure.isOutermost_outermost hopened hplace hlog hattempted hagrees hrun hskip hmissing
      fun hend => ⟨hmuted, hquiet hend ▸ Nat.zero_le _⟩
    rw [hplace, h.kind_eq hlt, if_pos hkind]
    refine ⟨final', heq, hlog', ?_, ?_⟩
    · rw [hposition, h.depth_eq _ (Nat.le_trans (le_skipWhile ..) hskip),
        set.balanced.depth_eq hfinal.lt, hfinal.opened_eq.trans set.stream.opened_zero]
      rfl
    · rw [hposition]
      exact h.skipWhile_eq hskip
  · next hkind =>
    obtain ⟨hname, rfl⟩ := Prod.mk.inj hrun
    injection hname with hname
    have hcount := Nat.le_trans (le_skipWhile ..) hskip
    have hplace := hplace hcount
    have hother : other.kind begin'.position ≠ .keyword .moduleWord ∧
        other.depth begin'.position = 0 := by
      rw [hplace]
      rcases Nat.lt_or_eq_of_le hcount with hlt | heq
      · rw [meet_of_lt hlt, h.kind_eq hlt, h.depth_eq _ hcount, set.balanced.depth_eq hbegin.lt,
          hopened]
        exact ⟨hkind, rfl⟩
      · rw [heq, meet_self]
        exact ⟨hright, hdepth⟩
    rw [if_neg hother.1, hname]
    exact ⟨_, rfl, hlog, hother.2, by rw [hstay, hplace, hstill]⟩

/-- The beginning of a module is read alike. -/
theorem opening (h : set.BeginsLike other count) {name : Option String}
    (hrun : moduleOpening set.stream .initial = (.ok (name, within), final))
    (hle : final.position ≤ count)
    (hleft : set.stream.kind count ≠ .keyword .moduleWord)
    (hright : other.kind (other.skipWhile (·.separates false) count) ≠ .keyword .moduleWord)
    (hdepth : other.depth (other.skipWhile (·.separates false) count) = 0)
    (hmissing : ∀ diagnostic ∈ final.log.diagnostics, diagnostic.kind ≠ .missingElseBranch)
    (hquiet : set.stream.kind count = .endOfFile → final.log.count = 0) :
    ∃ within' final', moduleOpening other .initial = (.ok (name, within'), final') ∧
      within'.IsOutermost ∧ final'.log = final.log ∧
      final'.position = meet other count final.position := by
  rw [moduleOpening_apply] at hrun
  cases hheader : optionalHeader set.stream (ParserState.initial.skip set.stream) with
  | mk result middle =>
    rw [hheader] at hrun
    cases result with
    | error abort => cases hrun
    | ok name' =>
      obtain ⟨hvalue, rfl⟩ := Prod.mk.inj hrun
      injection hvalue with hvalue
      obtain ⟨rfl, rfl⟩ := Prod.mk.inj hvalue
      obtain ⟨middle', heq, hlog, hdepth', hplace⟩ :=
        h.header hheader hle hleft hright hdepth hmissing hquiet
      rw [moduleOpening_apply, heq]
      exact ⟨_, _, rfl, ⟨hdepth', rfl, rfl⟩, hlog, hplace⟩

end Setting.BeginsLike

/-! ### What is reported of the beginning -/

/-- No conditional is reported to lack its last branch. -/
def Parser.Spares {α : Type} (parser : Parser α) : Prop :=
  ∀ (stream : TokenStream) (state : ParserState),
    (∀ diagnostic ∈ state.log.diagnostics, diagnostic.kind ≠ .missingElseBranch) →
    ∀ diagnostic ∈ (parser stream state).2.log.diagnostics, diagnostic.kind ≠ .missingElseBranch

namespace Parser.Spares

variable {α β : Type} {parser : Parser α} {next : α → Parser β}

/-- What reports nothing does not report that. -/
theorem of_log_eq (h : ∀ stream state, (parser stream state).2.log = state.log) : parser.Spares :=
  fun stream state hstate => (h stream state).symm ▸ hstate

theorem pure {answer : α} : (Pure.pure answer : Parser α).Spares := of_log_eq fun _ _ => rfl

theorem bind (h : parser.Spares) (hnext : ∀ answer, (next answer).Spares) :
    (parser >>= next).Spares := by
  intro stream state hstate
  have hfirst := h stream state hstate
  rw [bind_apply]
  cases hrun : parser stream state with
  | mk result middle =>
    rw [hrun] at hfirst
    cases result with
    | ok answer => exact hnext answer stream middle hfirst
    | error abort => exact hfirst

theorem unexpected {expected : List String} {context : String} :
    (Parser.unexpected expected context : Parser α).Spares := by
  intro stream state hstate diagnostic hmem
  replace hmem : diagnostic ∈ (state.log.report (.errorAt .unexpectedToken
    (unexpectedMessage expected (stream.token state.position) context)
    (stream.token state.position).span [] expected)).diagnostics := hmem
  unfold Log.report at hmem
  split at hmem
  · rcases Array.mem_push.1 hmem with hmem | rfl
    · exact hstate diagnostic hmem
    · exact DiagnosticKind.noConfusion
  · exact hstate diagnostic hmem

theorem advance : Parser.advance.Spares := by
  unfold Parser.advance
  refine bind (of_log_eq fun _ _ => rfl) fun stream => bind (of_log_eq fun _ _ => rfl) fun state => ?_
  dsimp only
  split
  · exact bind (of_log_eq fun _ _ => rfl) fun _ => pure
  · exact pure

theorem expect {kind : TokenKind} {context : String} : (Parser.expect kind context).Spares :=
  bind (of_log_eq fun _ _ => rfl) fun found => by
    cases found
    · exact unexpected
    · exact advance

theorem repeatWhile {test : Parser Bool} {step : α → Parser α} {start : α}
    (htest : ∀ stream state, (test stream state).2.log = state.log)
    (hstep : ∀ value, (step value).Spares) : (Parser.repeatWhile test step start).Spares := by
  have hloop : ∀ count value, (repeatWhile.iterate test step count value).Spares := by
    intro count
    induction count with
    | zero => exact fun _ => of_log_eq fun _ _ => rfl
    | succ count ih =>
      refine fun value => bind (of_log_eq htest) fun more => ?_
      cases more
      · exact pure
      · exact bind (hstep value) ih
  exact bind (of_log_eq fun _ _ => rfl) fun stream => hloop _ start

theorem collectWhile {test : Parser Bool}
    (htest : ∀ stream state, (test stream state).2.log = state.log) (h : parser.Spares) :
    (Parser.collectWhile test parser).Spares :=
  bind (repeatWhile htest fun _ => bind h fun _ => pure) fun _ => pure

theorem moduleHeader : Parser.moduleHeader.Spares := by
  have hmore : (Parser.collectWhile (isAt .dot) do
      let _ ← Parser.advance
      return (← Parser.expect .typeIdentifier "in module name").value).Spares :=
    collectWhile (fun _ _ => rfl) (bind advance fun _ => bind expect fun _ => pure)
  refine bind advance fun _ => bind expect fun first => bind hmore fun more => ?_
  refine bind (of_log_eq fun _ _ => rfl) fun token => ?_
  dsimp only
  split
  · exact bind unexpected fun _ => pure
  · exact pure

/-- What is read in front of the first item reports no conditional. -/
theorem moduleOpening : Parser.moduleOpening.Spares := by
  have hheader : (recover Parser.moduleHeader).Spares := by
    refine bind (of_log_eq fun _ _ => rfl) fun before => ?_
    intro stream state hstate
    have h := moduleHeader stream state hstate
    rw [tryCatch_apply, map_apply]
    cases hrun : Parser.moduleHeader stream state with
    | mk result final =>
      rw [hrun] at h
      cases result with
      | ok name => exact h
      | error abort => cases abort <;> exact h
  have hoptional : optionalHeader.Spares := by
    refine bind (of_log_eq fun _ _ => rfl) fun found => ?_
    cases found
    · exact pure
    · refine bind hheader fun name => ?_
      cases name
      · exact bind (of_log_eq fun _ _ => rfl) fun _ => pure
      · exact pure
  refine bind (of_log_eq fun _ _ => rfl) fun _ => bind hoptional fun name => ?_
  refine bind (of_log_eq fun _ _ => rfl) fun within => ?_
  refine bind (of_log_eq fun _ _ => rfl) fun _ => ?_
  exact bind (of_log_eq fun _ _ => rfl) fun _ => pure

end Parser.Spares
end SableFrontend
