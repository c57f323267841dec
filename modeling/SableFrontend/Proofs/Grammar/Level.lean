import SableFrontend.Proofs.Grammar.Nodes
import SableFrontend.Proofs.Grammar.Pattern

/-!
What stands at the level of a stretch, outside of the delimiters in it (`TokenStream.Shallow`). A search
that looks at nothing else passes over the stretch (`firstStop_of_shallow`). Patterns show only names,
literals and a minus sign there, whatever they hold in their delimiters (`shows_patternAtom`), so that
a search for the sign behind the parameters of a definition finds it.
-/

namespace SableFrontend

open TokenStream SableFrontend.Parser Setting

/-! ### The level of a stretch -/

namespace TokenStream

variable {stream : TokenStream} {isMember : TokenKind → Bool} {first middle last next : Nat}

/-- At the level of a stretch only tokens of a class stand, and delimiters. -/
def Shallow (stream : TokenStream) (isMember : TokenKind → Bool) (first last : Nat) : Prop :=
  ∀ k, first ≤ k → k < last → stream.opened k = stream.opened first →
    (stream.kind k).isPlain = true → isMember (stream.kind k) = true

theorem shallow_self : stream.Shallow isMember first first :=
  fun _ hle hlt => absurd hlt (Nat.not_lt.2 hle)

theorem Shallow.trans (h : stream.Shallow isMember first middle)
    (h' : stream.Shallow isMember middle last) (hopened : stream.opened middle = stream.opened first) :
    stream.Shallow isMember first last := by
  intro k hfirst hlast hsame hplain
  rcases Nat.lt_or_ge k middle with hlt | hge
  · exact h k hfirst hlt hsame hplain
  · exact h' k hge hlast (hsame.trans hopened.symm) hplain

theorem shallow_succ (h : (stream.kind first).isPlain = true → isMember (stream.kind first) = true) :
    stream.Shallow isMember first (first + 1) := by
  intro k hfirst hlast _ hplain
  obtain rfl : k = first := Nat.le_antisymm (Nat.le_of_lt_succ hlast) hfirst
  exact h hplain

/-- A stretch lies on one level: what is open in front of it stays open, and nothing else is open
behind it. -/
structure Level (stream : TokenStream) (first last : Nat) : Prop where
  within : stream.Within first last
  opened_eq : stream.opened last = stream.opened first

theorem Level.trans (h : stream.Level first middle) (h' : stream.Level middle last) :
    stream.Level first last :=
  ⟨h.within.trans h'.within, h'.opened_eq.trans h.opened_eq⟩

/-- Nothing that is open in front of a stretch is closed on its level. -/
theorem Within.ne_closer (balanced : stream.Balanced) (h : stream.Within first last) {k : Nat}
    (hfirst : first ≤ k) (hlast : k < last) (hsame : stream.opened k = stream.opened first)
    (bracket : Bracket) : stream.kind k ≠ .closer bracket := by
  intro hcloser
  have hlt : k < stream.size := Nat.lt_trans hlast h.lt
  obtain ⟨outer, houter⟩ := balanced.closer_fits hlt hcloser
  have hsuffix := (h.suffix (k + 1) (Nat.le_succ_of_le hfirst) hlast).length_le
  rw [opened_succ_closer hlt hcloser, ← hsame, houter] at hsuffix
  exact Nat.not_succ_le_self _ hsuffix

/-- In front of its end the file does not end. -/
theorem Within.ne_endOfFile (balanced : stream.Balanced) (h : stream.Within first last) {k : Nat}
    (hlast : k < last) : stream.kind k ≠ .endOfFile := by
  intro hend
  have hsize := balanced.end_last (Nat.lt_trans hlast h.lt) hend
  have := h.lt
  omega

/-- The token in front of a place closes the group that has been entered in front of another place. -/
def EndsGroup (stream : TokenStream) (first next : Nat) : Prop :=
  ∃ close, next = close + 1 ∧ stream.Level first close ∧ ∃ bracket, stream.kind close = .closer bracket

/-- At the level of an opener nothing stands up to its closer. -/
theorem EndsGroup.shallow {bracket : Bracket} (h : stream.EndsGroup (first + 1) next)
    (hlt : first < stream.size) (hopener : stream.kind first = .opener bracket) :
    stream.Shallow isMember first next := by
  obtain ⟨close, rfl, ⟨hwithin, -⟩, -⟩ := h
  intro k hfirst hlast hsame hplain
  rcases Nat.eq_or_lt_of_le hfirst with rfl | hmore
  · rw [hopener] at hplain
    cases hplain
  · have hsuffix := (hwithin.suffix k hmore (Nat.le_of_lt_succ hlast)).length_le
    rw [opened_succ_opener hlt hopener, hsame] at hsuffix
    exact absurd hsuffix (Nat.not_succ_le_self _)

/-- A group ends at one place only. -/
theorem EndsGroup.unique (balanced : stream.Balanced) {next' : Nat} (h : stream.EndsGroup first next)
    (h' : stream.EndsGroup first next') : next = next' := by
  have hle : ∀ {close close' : Nat} {bracket : Bracket}, stream.Level first close →
      stream.kind close = .closer bracket → stream.Within first close' → close' ≤ close :=
    fun hlevel hcloser hwithin => Nat.le_of_not_lt fun hlt =>
      hwithin.ne_closer balanced hlevel.within.le hlt hlevel.opened_eq _ hcloser
  obtain ⟨close, rfl, hlevel, bracket, hcloser⟩ := h
  obtain ⟨close', rfl, hlevel', bracket', hcloser'⟩ := h'
  exact congrArg (· + 1) (Nat.le_antisymm (hle hlevel' hcloser' hlevel.within)
    (hle hlevel hcloser hlevel'.within))

/-- A token that is no delimiter leads to the next one. -/
theorem level_plain (hsize : first + 1 < stream.size) (hplain : (stream.kind first).isPlain = true) :
    stream.Level first (first + 1) := by
  have hopened := opened_succ_plain (Nat.lt_of_succ_lt hsize) hplain
  refine ⟨(Within.refl (Nat.lt_of_succ_lt hsize)).succ (fun heq => ?_) ?_, hopened⟩
  · rw [heq] at hplain
    cases hplain
  · exact hopened ▸ List.suffix_rfl

/-- A search ends where it stops. -/
theorem firstStop_self {stops : TokenKind → Bool} (hlt : first < stream.size)
    (hplain : (stream.kind first).isPlain = true) (hstop : stops (stream.kind first) = true) :
    stream.firstStop stops 0 first = stream.token first := by
  rw [firstStop.eq_def, if_pos hlt]
  generalize stream.kind first = kind at hplain hstop
  cases kind with
  | opener bracket => cases hplain
  | closer bracket => cases hplain
  | endOfFile => rfl
  | _ => simp [hstop]

/-- What is kept by each step back over a stretch is so in front of it if it is behind it: `depth` is the
number of delimiters that are open at a place and not in front of the stretch. -/
theorem Level.scan (balanced : stream.Balanced) (hlevel : stream.Level first last)
    (hshallow : stream.Shallow isMember first last) {motive : Nat → Nat → Prop} (hlast : motive last 0)
    (hopener : ∀ {k depth bracket}, k < last → stream.kind k = .opener bracket →
      motive (k + 1) (depth + 1) → motive k depth)
    (hcloser : ∀ {k depth bracket}, k < last → stream.kind k = .closer bracket →
      motive (k + 1) depth → motive k (depth + 1))
    (hplain : ∀ {k depth}, k < last → (stream.kind k).isPlain = true →
      (depth = 0 → isMember (stream.kind k) = true) → motive (k + 1) depth → motive k depth) :
    motive first 0 := by
  obtain ⟨hwithin, hopened⟩ := hlevel
  have hsearch : ∀ count k depth, k + count = last → first ≤ k →
      (stream.opened k).length = (stream.opened first).length + depth → motive k depth := by
    intro count
    induction count with
    | zero =>
      intro k depth hk hle hdepth
      obtain rfl : k = last := hk
      rw [hopened] at hdepth
      obtain rfl : depth = 0 := by omega
      exact hlast
    | succ count ih =>
      intro k depth hk hle hdepth
      have hlast : k < last := by omega
      have hlt : k < stream.size := Nat.lt_trans hlast hwithin.lt
      have hnext := hwithin.suffix (k + 1) (by omega) hlast
      cases hkind : stream.kind k with
      | endOfFile => exact absurd hkind (hwithin.ne_endOfFile balanced hlast)
      | opener bracket =>
        refine hopener hlast hkind (ih (k + 1) (depth + 1) (by omega) (by omega) ?_)
        rw [opened_succ_opener hlt hkind, List.length_cons, hdepth, Nat.add_assoc]
      | closer bracket =>
        obtain ⟨outer, houter⟩ := balanced.closer_fits hlt hkind
        have hlength := hnext.length_le
        rw [opened_succ_closer hlt hkind, houter, List.tail_cons] at hlength
        rw [houter, List.length_cons] at hdepth
        obtain ⟨depth, rfl⟩ := Nat.exists_eq_succ_of_ne_zero (n := depth) (by omega)
        refine hcloser hlast hkind (ih (k + 1) depth (by omega) (by omega) ?_)
        rw [opened_succ_closer hlt hkind, houter, List.tail_cons]
        omega
      | _ =>
        have hkindPlain : (stream.kind k).isPlain = true := by rw [hkind]; rfl
        refine hplain hlast hkindPlain (fun hzero => ?_) (ih (k + 1) depth (by omega) (by omega)
          (by rw [opened_succ_plain hlt hkindPlain, hdepth]))
        have hsame : stream.opened k = stream.opened first :=
          ((hwithin.suffix k hle (by omega)).eq_of_length (by omega)).symm
        exact hshallow k hle hlast hsame hkindPlain
  obtain ⟨count, hcount⟩ := Nat.exists_eq_add_of_le hwithin.le
  exact hsearch count first 0 hcount.symm (Nat.le_refl _) rfl

/-- A search passes over what it does not stop at. -/
theorem firstStop_of_shallow (balanced : stream.Balanced) {stops : TokenKind → Bool}
    (hlevel : stream.Level first last) (hshallow : stream.Shallow isMember first last)
    (hstops : ∀ kind, isMember kind = true → (stops kind || kind.isSeparator) = false) :
    stream.firstStop stops 0 first = stream.firstStop stops 0 last := by
  have hlt : ∀ {k}, k < last → k < stream.size := fun hlast => Nat.lt_trans hlast hlevel.within.lt
  refine @Level.scan _ _ _ _ balanced hlevel hshallow
    (fun k depth => stream.firstStop stops depth k = stream.firstStop stops 0 last) rfl
    (fun hlast hkind hrest => ?_) (fun hlast hkind hrest => ?_)
    fun {k depth} hlast hplain hmember hrest => ?_
  · rw [firstStop.eq_def, if_pos (hlt hlast), hkind]
    exact hrest
  · rw [firstStop.eq_def, if_pos (hlt hlast), hkind]
    exact hrest
  · rw [firstStop.eq_def, if_pos (hlt hlast)]
    have hnot : ¬(depth = 0 ∧ (stops (stream.kind k) || (stream.kind k).isSeparator) = true) :=
      fun ⟨hzero, hstop⟩ => Bool.false_ne_true ((hstops _ (hmember hzero)).symm.trans hstop)
    generalize stream.kind k = kind at hplain hnot
    cases kind with
    | opener | closer | endOfFile => cases hplain
    | _ => exact (if_neg hnot).trans hrest

end TokenStream

/-! ### Patterns -/

/-- The kinds of tokens that stand at the level of a pattern. -/
def TokenKind.standsInPattern : TokenKind → Bool
  | .identifier | .typeIdentifier | .literal _ | .operator => true
  | _ => false

theorem TokenKind.standsInPattern_of_isNumeric {kind : TokenKind} (h : kind.isNumeric = true) :
    kind.standsInPattern = true := by
  cases kind <;> first | rfl | cases h

namespace Setting

variable {set : Setting} {α : Type} {start state : ParserState} {inner : Parser Pattern} {moved : Bool}

/-- What a parser takes in shows at its level only what may stand in a pattern. -/
def Shows (set : Setting) (parser : Parser α) (state : ParserState) : Prop :=
  set.Answers parser state fun _ final =>
    set.stream.Shallow TokenKind.standsInPattern state.position final.position

/-- A closer ends the group that has been entered. -/
theorem Reached.expectLast (h : set.Reached start moved [] state) {bracket : Bracket}
    {context : String} {returns : Token → ParserState → Prop}
    (hnext : ∀ final : ParserState, set.stream.EndsGroup start.position final.position →
      returns (set.stream.token state.position) final) :
    set.Answers (expect (.closer bracket) context) state returns := by
  refine .bind (.isAt (.ite (fun hat => ?_) fun _ => (h.unexpected).answers))
  exact .advance (succ_lt_size_of_kind (beq_iff_eq.1 hat) TokenKind.noConfusion)
    (hnext _ ⟨state.position, rfl, ⟨h.within, h.opened_eq⟩, bracket, beq_iff_eq.1 hat⟩)

theorem Reached.advanceLast (h : set.Reached start moved [] state) {bracket : Bracket}
    (hkind : set.stream.kind state.position = .closer bracket) {returns : Token → ParserState → Prop}
    (hnext : ∀ final : ParserState, set.stream.EndsGroup start.position final.position →
      returns (set.stream.token state.position) final) :
    set.Answers advance state returns :=
  .advance (succ_lt_size_of_kind hkind TokenKind.noConfusion)
    (hnext _ ⟨state.position, rfl, ⟨h.within, h.opened_eq⟩, bracket, hkind⟩)

/-- What is left behind the closer of what it has entered. -/
theorem endsGroup_of_opener {bracket : Bracket} {body : Token → Parser α}
    (hkind : set.stream.kind state.position = .opener bracket)
    (h : ∀ s : ParserState, set.Reached s false [] s → s.position = state.position + 1 →
      set.Answers (body (set.stream.token state.position)) s fun _ final =>
        set.stream.EndsGroup s.position final.position) :
    set.Answers (advance >>= body) state fun _ final =>
      set.stream.EndsGroup (state.position + 1) final.position := by
  have hnext := succ_lt_size_of_kind hkind TokenKind.noConfusion
  exact .bind (.advance hnext (h _ (.refl hnext) rfl))

/-- What begins with an opener and ends with its closer shows nothing. -/
theorem shows_of_endsGroup {bracket : Bracket} {parser : Parser α}
    (hkind : set.stream.kind state.position = .opener bracket)
    (h : set.Answers parser state fun _ final =>
      set.stream.EndsGroup (state.position + 1) final.position) : set.Shows parser state :=
  h.mono (fun _ _ hgroup => hgroup.shallow
    (Nat.lt_of_succ_lt (succ_lt_size_of_kind hkind TokenKind.noConfusion)) hkind) fun _ _ _ => trivial

/-- A pattern in round brackets ends where they do. -/
theorem endsGroup_roundPattern (hinner : set.Obeys true inner)
    (hkind : set.stream.kind state.position = .opener .round) :
    set.Answers (roundPattern inner) state fun _ final =>
      set.stream.EndsGroup (state.position + 1) final.position := by
  refine endsGroup_of_opener hkind fun s₁ h₁ _ => ?_
  refine .bind (.isAt (.ite (fun hclose => ?_) fun _ => ?_))
  · exact .bind (h₁.advanceLast (beq_iff_eq.1 hclose) fun _ hgroup =>
      .bind (.spanFrom fun _ => .pure hgroup))
  · refine .bind (h₁.call (hinner s₁ h₁.lt) fun first s₂ h₂ => ?_).answers
    refine .bind (.isAt (.ite (fun _ => ?_) fun _ => ?_))
    · exact .bind (h₂.expectLast fun _ hgroup => .pure hgroup)
    · refine .bind (h₂.collectBehind rfl hinner fun more s₃ h₃ => ?_).answers
      exact .bind (h₃.expectLast fun _ hgroup => .bind (.spanFrom fun _ => .pure hgroup))

theorem shows_roundPattern (hinner : set.Obeys true inner)
    (hkind : set.stream.kind state.position = .opener .round) :
    set.Shows (roundPattern inner) state :=
  shows_of_endsGroup hkind (endsGroup_roundPattern hinner hkind)

theorem shows_curlyPattern (hinner : set.Obeys true inner)
    (hkind : set.stream.kind state.position = .opener .curly) :
    set.Shows (curlyPattern inner) state := by
  refine shows_of_endsGroup hkind (endsGroup_of_opener hkind fun s₁ h₁ _ => ?_)
  refine .bind (h₁.skipNewlines fun s₂ h₂ _ => ?_)
  refine .bind (.isAt (.ite (fun hclose => ?_) fun _ => ?_))
  · exact .bind (h₂.advanceLast (beq_iff_eq.1 hclose) fun _ hgroup =>
      .bind (.spanFrom fun _ => .pure hgroup))
  · refine .bind (h₂.call (hinner s₂ h₂.lt) fun first s₃ h₃ => ?_).answers
    refine .bind (h₃.skipNewlines fun s₄ h₄ _ => ?_)
    refine .bind (h₄.collectOnLines rfl hinner fun more s₅ h₅ => ?_).answers
    refine .bind (.isAt (.ite (fun hpipe => ?_) fun _ => ?_))
    · refine .bind (h₅.advancePlain (beq_iff_eq.1 hpipe) rfl fun s₆ h₆ _ => ?_)
      refine .bind (h₆.skipNewlines fun s₇ h₇ _ => ?_)
      refine .bind (h₇.call (hinner s₇ h₇.lt) fun tail s₈ h₈ => ?_).answers
      refine .bind (h₈.skipNewlines fun s₉ h₉ _ => ?_)
      exact .bind (h₉.expectLast fun _ hgroup => .bind (.spanFrom fun _ => .pure hgroup))
    · exact .bind (h₅.expectLast fun _ hgroup => .bind (.spanFrom fun _ => .pure hgroup))

theorem shows_recordPattern (hinner : set.Obeys true inner) {constructor : Token}
    (hkind : set.stream.kind state.position = .opener .square) :
    set.Shows (recordPattern inner constructor) state := by
  refine shows_of_endsGroup hkind (endsGroup_of_opener hkind fun s₁ h₁ hs₁ => ?_)
  have hopens : set.stream.Opens s₁.position (.closer .square) := by
    rw [hs₁]
    exact .afterOpener .square (Nat.succ_pos _) hkind
  refine .bind (h₁.items hopens (obeys_recordPatternItem hinner) fun entries s₂ h₂ _ => ?_).answers
  refine .bind (h₂.expectLast fun s₃ hgroup => .bind (.spanFrom fun span => ?_))
  dsimp only
  split
  · exact .pure hgroup
  · exact .pure hgroup
  · exact .bind (.report (.pure hgroup))

theorem shows_patternAtom (hinner : set.Obeys true inner) (hlt : state.position < set.stream.size) :
    set.Shows (patternAtom inner) state := by
  have h : set.Reached state false [] state := .refl hlt
  have hshallow : ∀ {s : ParserState}, s.position = state.position + 1 →
      (set.stream.kind state.position).standsInPattern = true →
      set.stream.Shallow TokenKind.standsInPattern state.position s.position :=
    fun hs hmember => hs ▸ shallow_succ fun _ => hmember
  refine .bind (.current ?_)
  split
  · next hkind =>
    refine .bind (h.advancePlain hkind rfl fun s₁ _ hs₁ => ?_)
    have hfirst := hshallow hs₁ (congrArg _ hkind)
    exact .ite (fun _ => .pure hfirst) fun _ => .pure hfirst
  · next hkind =>
    refine .bind (h.advancePlain hkind rfl fun s₁ h₁ hs₁ => ?_)
    have hfirst := hshallow hs₁ (congrArg _ hkind)
    exact .bind (h₁.literalOf (token_mem hlt) fun _ => .pure hfirst).answers
  · next hkind =>
    refine .bind (h.advancePlain hkind rfl fun s₁ h₁ hs₁ => ?_)
    have hfirst := hshallow hs₁ (congrArg _ hkind)
    refine .bind (.current (.ite (fun hopener => ?_) fun _ => .pure hfirst))
    have hopener := beq_iff_eq.1 (Bool.and_eq_true_iff.1 hopener).1
    exact (shows_recordPattern hinner hopener).mono
      (fun _ final hrecord => hfirst.trans hrecord h₁.opened_eq) fun _ _ _ => trivial
  · next hkind => exact shows_roundPattern hinner hkind
  · next hkind => exact shows_curlyPattern hinner hkind
  · refine .ite (fun hminus => ?_) fun _ => h.unexpected.answers
    have hkind : set.stream.kind state.position = .operator :=
      beq_iff_eq.1 (Bool.and_eq_true_iff.1 hminus).1
    refine .bind (h.advancePlain rfl (Token.isPlain_of_isOperator hminus) fun s₁ h₁ hs₁ => ?_)
    have hfirst := hshallow hs₁ (congrArg _ hkind)
    refine .bind (.current (.ite (fun _ => .bind h₁.unexpected.answers) fun hnumeric => ?_))
    have hnumeric : (set.stream.token s₁.position).kind.isNumeric = true := by simpa using hnumeric
    refine .bind (h₁.advancePlain rfl (TokenKind.isPlain_of_isNumeric hnumeric) fun s₂ h₂ hs₂ => ?_)
    have hsecond : set.stream.Shallow TokenKind.standsInPattern s₁.position s₂.position :=
      hs₂ ▸ shallow_succ fun _ => TokenKind.standsInPattern_of_isNumeric hnumeric
    exact .bind (h₂.literalOf (token_mem h₁.lt) fun _ =>
      .pure (hfirst.trans hsecond h₁.opened_eq)).answers

/-- What is repeated shows what each part of it shows. -/
theorem shows_collectWhile {test : Parser Bool} {parser : Parser α}
    (htest : ∀ {s} {returns : Bool → ParserState → Prop}, (∀ more, returns more s) →
      set.Answers test s returns)
    (hobeys : set.Obeys true parser)
    (hshows : ∀ s, s.position < set.stream.size → set.Shows parser s)
    (hlt : state.position < set.stream.size) : set.Shows (collectWhile test parser) state := by
  have hloop : ∀ count answers s, set.Reached state false [] s →
      set.stream.Shallow TokenKind.standsInPattern state.position s.position →
      set.Answers (repeatWhile.iterate test (fun answers => do return (← parser) :: answers) count
        answers) s
        fun _ final => set.stream.Shallow TokenKind.standsInPattern state.position final.position := by
    intro count
    induction count with
    | zero => exact fun _ _ _ _ => trivial
    | succ count ih =>
      intro answers s hs hshallow
      refine .bind (htest fun more => ?_)
      cases more with
      | false => exact .pure hshallow
      | true =>
        refine .bind (.bind ((((hobeys s hs.lt).answers).and (hshows s hs.lt)).mono
          (fun answer s' ⟨hs', hshows'⟩ => .pure ?_) fun _ _ _ => trivial))
        exact ih _ _ (hs.trans hs').weaken (hshallow.trans hshows' hs.opened_eq)
  exact .bind (.bind (.read ((hloop _ _ _ (.refl hlt) shallow_self).mono
    (fun _ _ hshallow => .pure hshallow) fun _ _ _ => trivial)))

theorem shows_pattern (hinner : set.Obeys true inner) (hlt : state.position < set.stream.size) :
    set.Shows (pattern inner) state := by
  refine .bind (.current (.bind (.bind (.peek (.bind (.current (.pure ?_)))))))
  refine .ite (fun hconstructor => ?_) fun _ => shows_patternAtom hinner hlt
  have hkind := beq_iff_eq.1 (Bool.and_eq_true_iff.1 hconstructor).1
  refine .bind ((Reached.refl hlt).advancePlain hkind rfl fun s₁ h₁ hs₁ => ?_)
  have hfirst : set.stream.Shallow TokenKind.standsInPattern state.position s₁.position :=
    hs₁ ▸ shallow_succ fun _ => by rw [show set.stream.kind state.position = _ from hkind]; rfl
  refine .bind ((shows_collectWhile (fun next => .startsPatternAtom next) (obeys_patternAtom hinner)
    (fun _ => shows_patternAtom hinner) h₁.lt).mono (fun arguments s₂ hshown => ?_)
    fun _ _ _ => trivial)
  exact .bind (.spanFrom fun _ => .pure (hfirst.trans hshown h₁.opened_eq))

/-- Patterns show only what may stand in a pattern. -/
theorem shows_patternAt (hdeep : set.allows .tooDeep) (budget : Nat)
    (hlt : state.position < set.stream.size) : set.Shows (patternAt budget) state := by
  cases budget with
  | zero => exact (trivial : set.Answers (patternAt 0) state _)
  | succ budget => exact shows_pattern (obeys_patternAt hdeep budget) hlt

/-- A pattern that begins with a round bracket ends where that is closed. -/
theorem endsGroup_patternAt (hdeep : set.allows .tooDeep) (budget : Nat)
    (hkind : set.stream.kind state.position = .opener .round) :
    set.Answers (patternAt budget) state fun _ final =>
      set.stream.EndsGroup (state.position + 1) final.position := by
  cases budget with
  | zero => exact (trivial : set.Answers (patternAt 0) state _)
  | succ budget =>
    have hround := endsGroup_roundPattern (obeys_patternAt hdeep budget) hkind
    refine Runs.bind (.current (.bind (.bind (.peek (.bind (.current (.pure ?_)))))))
    refine .ite (fun hconstructor => ?_) fun _ => .bind (.current ?_)
    · rw [show (set.stream.token state.position).kind = _ from hkind] at hconstructor
      cases (Bool.and_eq_true_iff.1 hconstructor).1
    · rw [show (set.stream.token state.position).kind = _ from hkind]
      exact hround

end Setting

/-! ### Parameters -/

-- kept closed, for a type that mentions the parser is compared up to unfolding it
/-- The parameters of a definition. -/
@[irreducible] def Parser.parameters (budget : Nat) : Parser (List Pattern) :=
  collectWhile startsPatternAtom (patternAtom (patternAt budget))

theorem Parser.parameters_eq (budget : Nat) : parameters budget =
    collectWhile startsPatternAtom (patternAtom (patternAt budget)) := by
  unfold parameters
  rfl

namespace Setting

variable {set : Setting} {state : ParserState}

theorem obeys_parameters (hdeep : set.allows .tooDeep) (budget : Nat) :
    set.Obeys false (parameters budget) := by
  rw [parameters_eq]
  exact fun _ hlt => (Reached.refl hlt).collectWhile obeys_startsPatternAtom
    (obeys_patternAtom (obeys_patternAt hdeep budget)) fun _ _ h => h

/-- The parameters of a definition show only what may stand in a pattern. -/
theorem shows_parameters (hdeep : set.allows .tooDeep) (budget : Nat)
    (hlt : state.position < set.stream.size) : set.Shows (parameters budget) state := by
  have hinner : set.Obeys true (patternAt budget) := obeys_patternAt hdeep budget
  rw [parameters_eq]
  exact shows_collectWhile (fun next => .startsPatternAtom next) (obeys_patternAtom hinner)
    (fun _ => shows_patternAtom hinner) hlt

end Setting

end SableFrontend
