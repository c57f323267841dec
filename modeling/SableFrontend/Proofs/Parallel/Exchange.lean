import SableFrontend.Proofs.Parallel.Respelling

/-!
Modules and blocks with an annotated definition in them. Whatever items stand around the definition, with
semicolons between them and it, each of its spellings leads to the same module or the same block, and to
the same reports (`annotated_definition_respelled`). Square brackets that are a block with the definition
in one spelling are a block in the others, too (`Exchanged.atIndex_eq`).
-/

namespace SableFrontend

open TokenStream SableFrontend.Parser Setting

/-! ### Forms of brackets -/

namespace BracketForm

/-- Kinds of tokens that are the same up to one, outside of the delimiters that they open, which settles
that square brackets are a block. -/
inductive SettledAlike : (depth : Nat) → List TokenKind → List TokenKind → Prop
  | settled {kind : TokenKind} (hkind : decision? kind = some block) (rest rest' : List TokenKind) :
      SettledAlike 0 (kind :: rest) (kind :: rest')
  | opener {depth : Nat} (bracket : Bracket) {rest rest' : List TokenKind}
      (hrest : SettledAlike (depth + 1) rest rest') :
      SettledAlike depth (.opener bracket :: rest) (.opener bracket :: rest')
  | closer {depth : Nat} (bracket : Bracket) {rest rest' : List TokenKind}
      (hrest : SettledAlike depth rest rest') :
      SettledAlike (depth + 1) (.closer bracket :: rest) (.closer bracket :: rest')
  | plain {kind : TokenKind} {depth : Nat} {rest rest' : List TokenKind}
      (hkind : kind.isPlain = true) (hrest : SettledAlike depth rest rest') :
      SettledAlike depth (kind :: rest) (kind :: rest')

namespace SettledAlike

variable {depth limit : Nat} {first : TokenKind} {kinds kinds' rest rest' : List TokenKind}

theorem settle_of_decision {kind : TokenKind} (h : decision? kind = some block)
    (rest : List TokenKind) : settle 0 (kind :: rest) = block := by
  cases kind <;> first | rfl | cases h

theorem settle_take (h : SettledAlike depth kinds kinds') (count : Nat) :
    settle depth (kinds.take count) = settle depth (kinds'.take count) := by
  induction h generalizing count with
  | settled hkind rest rest' =>
    cases count with
    | zero => rfl
    | succ count =>
      rw [List.take_succ_cons, List.take_succ_cons, settle_of_decision hkind, settle_of_decision hkind]
  | closer bracket hrest ih => cases count <;> simp [settle, ih]
  | opener bracket hrest ih => cases count <;> simp [settle, ih]
  | @plain kind depth rest rest' hkind hrest ih =>
    cases count with
    | zero => rfl
    | succ count =>
      rw [List.take_succ_cons, List.take_succ_cons, SameGroup.settle_plain hkind,
        SameGroup.settle_plain hkind, ih]

theorem startsLeftSection_eq_false (h : isSectionOperand first = false) (rest : List TokenKind) :
    startsLeftSection (first :: rest) = false := by
  unfold startsLeftSection
  split
  · next heq => rw [← (List.cons.inj heq).1, h]
  · rfl

/-- What settles that square brackets are a block is neither the operand, nor the operator, nor the
closer of a left section. -/
theorem startsLeftSection_take (h : SettledAlike 0 kinds kinds') (count : Nat) :
    startsLeftSection (kinds.take count) = startsLeftSection (kinds'.take count) := by
  have hsecond : ∀ (first second : TokenKind) (rest rest' : List TokenKind),
      second ≠ .operator → startsLeftSection (first :: second :: rest) =
        startsLeftSection (first :: second :: rest') := by
    intro first second rest rest' hne
    cases second <;> first | rfl | exact absurd rfl hne
  have hdecided : ∀ {kind : TokenKind}, decision? kind = some block →
      isSectionOperand kind = false ∧ kind ≠ .operator := by
    intro kind hkind
    cases kind <;> first | exact ⟨rfl, TokenKind.noConfusion⟩ | cases hkind
  rcases count with _ | _ | _ | count
  · rfl
  · cases h <;> rfl
  · cases h with
    | settled hkind =>
      rw [List.take_succ_cons, List.take_succ_cons, startsLeftSection_eq_false (hdecided hkind).1,
        startsLeftSection_eq_false (hdecided hkind).1]
    | opener bracket =>
      rw [List.take_succ_cons, List.take_succ_cons, startsLeftSection_eq_false rfl,
        startsLeftSection_eq_false rfl]
    | plain hkind hrest => cases hrest <;> rfl
  · cases h with
    | settled hkind =>
      rw [List.take_succ_cons, List.take_succ_cons, startsLeftSection_eq_false (hdecided hkind).1,
        startsLeftSection_eq_false (hdecided hkind).1]
    | opener bracket =>
      rw [List.take_succ_cons, List.take_succ_cons, startsLeftSection_eq_false rfl,
        startsLeftSection_eq_false rfl]
    | plain hkind hrest =>
      cases hrest with
      | settled hkind' => exact hsecond _ _ _ _ (hdecided hkind').2
      | opener => exact hsecond _ _ _ _ TokenKind.noConfusion
      | plain hkind' hrest => cases hrest <;> exact startsLeftSection_congr ..

/-- Brackets with the same contents up to what settles that they are a block have the same form, unless
nothing but separators stands in front of it. -/
theorem ofContent_take (h : SettledAlike 0 (first :: rest) (first :: rest'))
    (hfirst : first.isSeparator = false) (count : Nat) :
    ofContent limit ((first :: rest).take count) = ofContent limit ((first :: rest').take count) := by
  cases count with
  | zero => rfl
  | succ count =>
    have hsettle : ∀ limit, settle 0 ((first :: rest.take count).take limit) =
        settle 0 ((first :: rest'.take count).take limit) := by
      intro limit
      have hsame := h.settle_take (min limit (count + 1))
      rwa [← List.take_take, ← List.take_take, List.take_succ_cons, List.take_succ_cons] at hsame
    have hleft := h.startsLeftSection_take (count + 1)
    rw [List.take_succ_cons, List.take_succ_cons] at hleft ⊢
    cases limit with
    | zero => rfl
    | succ more => simp only [ofContent, hleft, hsettle, hfirst, Bool.false_eq_true, if_false]

end SettledAlike

/-- Separators are left out in front of what shows the form. -/
theorem ofContent_separator_cons {limit : Nat} {first : TokenKind} (h : first.isSeparator = true)
    (rest : List TokenKind) : ofContent limit (first :: rest) = ofContent (limit - 1) rest := by
  cases limit with
  | zero => cases rest <;> rfl
  | succ more => simp only [ofContent, h, if_true, Nat.add_sub_cancel]

end BracketForm

namespace AnnotatedDefinition

instance (set : Setting) (other : TokenStream) (relocation : Relocation) (first start length : Nat) :
    Decidable (set.Recurs other relocation first start length) :=
  decidable_of_iff ((first + length < set.stream.size ∧
        (∀ k < length + 1, set.stream.opened first <:+ set.stream.opened (first + k)) ∧
        set.stream.opened (first + length) = set.stream.opened first) ∧
      ((set.stream.opened first).length ≤ (other.opened start).length ∧ start + length < other.size) ∧
      (∀ k < length, other.token (start + k) = (set.stream.token (first + k)).relocate relocation) ∧
      (∀ k < length, k + 1 < length →
        (other.token (start + k)).touches (other.token (start + (k + 1))) =
          (set.stream.token (first + k)).touches (set.stream.token (first + (k + 1)))) ∧
      (set.stream.kind first = .opener .square →
        other.formBefore? start = set.stream.formBefore? first) ∧
      (set.stream.kind (first + length)).isBoundary = true ∧
      (other.kind (start + length)).isLimit = true)
    ⟨fun ⟨⟨h₁, h₂, h₃⟩, ⟨h₄, h₅⟩, h₆, h₇, h₈, h₉, h₁₀⟩ =>
        ⟨⟨Nat.le_add_right .., h₁, fun k hfirst hlast => by
            have hsuffix := h₂ (k - first) (by omega)
            rwa [Nat.add_sub_cancel' hfirst] at hsuffix⟩,
          h₃, h₄, h₅, h₆, fun k hk => h₇ k (Nat.lt_of_succ_lt hk) hk, h₈, h₉, h₁₀⟩,
      fun h => ⟨⟨h.within.lt, fun k hk => h.within.suffix _ (Nat.le_add_right ..)
          (Nat.add_le_add_left (Nat.le_of_lt_succ hk) first), h.opened_eq⟩, ⟨h.depth_le, h.lt⟩,
        h.token_eq, fun k _ => h.touches_eq k, h.formBefore_eq, h.boundary, h.limit⟩⟩

variable {set set' : Setting} {budget : Nat} {parts : AnnotatedDefinition budget}
  {relocation : Relocation} {start stop stop' length first : Nat}

/-- Brackets that begin with a definition with its type are a block. -/
theorem Spelled.ofContent_eq_block {stream : TokenStream} (h : parts.Spelled stream start stop)
    (limit count : Nat) :
    BracketForm.ofContent limit (((stream.tokens.toList.drop start).map Token.kind).take count) =
      .block := by
  have hname : ∀ rest, BracketForm.ofContent limit
      ((TokenKind.identifier :: .atSign :: rest).take count) = .block := by
    intro rest
    rcases limit with _ | _ | limit <;> rcases count with _ | _ | count <;> rfl
  have hsecond : ∀ {line}, parts.NamedAt stream start → parts.TypedAt stream (start + 1) line →
      (stream.tokens.toList.drop start).map Token.kind =
        .identifier :: .atSign :: (stream.tokens.toList.drop (start + 2)).map Token.kind := by
    intro line hname htype
    have hlt := succ_lt_size_of_kind htype.sign TokenKind.noConfusion
    rw [map_kind_drop (by omega), map_kind_drop (by omega), hname.kind_eq, htype.sign]
  cases h with
  | alone htype _ _ =>
    rw [map_kind_drop (Nat.lt_of_succ_lt (succ_lt_size_of_kind htype.sign TokenKind.noConfusion)),
      htype.sign]
    cases limit with
    | zero => cases count <;> rfl
    | succ limit =>
      cases count with
      | zero => rfl
      | succ count =>
        have hsection := @BracketForm.SettledAlike.startsLeftSection_eq_false .atSign rfl
          (((stream.tokens.toList.drop (start + 1)).map Token.kind).take count)
        simp only [List.take_succ_cons, BracketForm.ofContent, hsection]
        rfl
  | named hnamed htype _ _ => rw [hsecond hnamed htype, hname]
  | together _ hnamed htype _ => rw [hsecond hnamed htype, hname]

/-- Up to a semicolon in front of the definition both streams have the same kinds. -/
theorem Exchanged.settledAlike (h : parts.Exchanged set set'.stream relocation start stop stop' length)
    (hstays : set.stream.Within first start) (hopened : set.stream.opened start = set.stream.opened first)
    (hsemicolon : set.stream.kind (start - 1) = .semicolon) {position depth : Nat}
    (hfirst : first ≤ position) (hlt : position < start)
    (hdepth : (set.stream.opened position).length = (set.stream.opened first).length + depth) :
    BracketForm.SettledAlike depth ((set.stream.tokens.toList.drop position).map Token.kind)
      ((set'.stream.tokens.toList.drop position).map Token.kind) := by
  have hsize : position < set.stream.size := Nat.lt_trans hlt hstays.lt
  have hsize' : position < set'.stream.size :=
    Nat.lt_trans hlt (Nat.lt_of_le_of_lt h.spelled_other.level.1.within.le
      h.spelled_other.level.1.within.lt)
  have hkind : set'.stream.kind position = set.stream.kind position :=
    congrArg Token.kind (h.token_eq position hlt)
  have hnext : ∀ {next}, position + 1 ≠ start → (set.stream.opened (position + 1)).length =
      (set.stream.opened first).length + next →
      BracketForm.SettledAlike next ((set.stream.tokens.toList.drop (position + 1)).map Token.kind)
        ((set'.stream.tokens.toList.drop (position + 1)).map Token.kind) := fun hne hnext =>
    h.settledAlike hstays hopened hsemicolon (Nat.le_succ_of_le hfirst)
      (Nat.lt_of_le_of_ne hlt hne) hnext
  rw [map_kind_drop hsize, map_kind_drop hsize', hkind]
  rcases Nat.lt_or_eq_of_le hlt with hmore | heq
  · cases hplace : set.stream.kind position with
    | opener bracket =>
      refine .opener bracket (hnext (Nat.ne_of_lt hmore) ?_)
      rw [opened_succ_opener hsize hplace, List.length_cons, hdepth]
      rfl
    | closer bracket =>
      have hsuffix := (hstays.suffix (position + 1) (Nat.le_succ_of_le hfirst) hlt).length_le
      have hclosed := congrArg List.length (opened_succ_closer hsize hplace)
      rw [List.length_tail] at hclosed
      obtain ⟨outer, hopener⟩ := set.balanced.closer_fits hsize hplace
      have hlength := congrArg List.length hopener
      rw [List.length_cons] at hlength
      cases depth with
      | zero => omega
      | succ depth => exact .closer bracket (hnext (Nat.ne_of_lt hmore) (by omega))
    | endOfFile => exact absurd (set.balanced.end_last hsize hplace) (by have := hstays.lt; omega)
    | _ =>
      refine .plain rfl (hnext (Nat.ne_of_lt hmore) ?_)
      rw [opened_succ_plain hsize (by rw [hplace]; rfl)]
      exact hdepth
  · obtain rfl : position = start - 1 := by omega
    have hzero : depth = 0 := by
      have hplain := opened_succ_plain hsize (by rw [hsemicolon]; rfl)
      rw [Nat.sub_add_cancel (by omega), hopened] at hplain
      rw [← hplain] at hdepth
      omega
    subst hzero
    rw [hsemicolon]
    exact .settled rfl _ _
termination_by start - position

/-- Square brackets around the definition have the same form in both streams, if there is nothing in
front of the definition or a semicolon. -/
theorem Exchanged.atIndex_eq (h : parts.Exchanged set set'.stream relocation start stop stop' length)
    (hopener : set.stream.kind first = .opener .square) (hstays : set.stream.Within (first + 1) start)
    (hopened : set.stream.opened start = set.stream.opened (first + 1))
    (hfront : set.stream.skipWhile (·.separates false) (first + 1) = start ∨
      set.stream.kind (start - 1) = .semicolon) :
    BracketForm.atIndex set'.stream.tokens (first : Int) =
      BracketForm.atIndex set.stream.tokens (first : Int) := by
  have hlt : first < start := hstays.le
  have hsize : start < set.stream.size := hstays.lt
  have hsize' : start < set'.stream.size :=
    Nat.lt_of_le_of_lt h.spelled_other.level.1.within.le h.spelled_other.level.1.within.lt
  have hbefore : set'.stream.formBefore? first = set.stream.formBefore? first := by
    unfold formBefore?
    rw [h.token_eq first hlt, h.token_eq (first - 1) (Nat.lt_of_le_of_lt (Nat.sub_le ..) hlt)]
  have hcontent : ∀ position limit count, first + 1 ≤ position → position ≤ start →
      set.stream.opened position = set.stream.opened (first + 1) →
      BracketForm.ofContent limit (((set'.stream.tokens.toList.drop position).map Token.kind).take count) =
        BracketForm.ofContent limit
          (((set.stream.tokens.toList.drop position).map Token.kind).take count) := by
    intro position limit count hfirst hle hlevel
    induction hle using Nat.decreasingInduction generalizing limit count with
    | self => rw [h.spelled.ofContent_eq_block, h.spelled_other.ofContent_eq_block]
    | of_succ position hmore ih =>
      have hunfold := map_kind_drop (Nat.lt_trans hmore hsize)
      have hunfold' := map_kind_drop (Nat.lt_trans hmore hsize')
      have hkind : set'.stream.kind position = set.stream.kind position :=
        congrArg Token.kind (h.token_eq position hmore)
      rw [hkind] at hunfold'
      cases hseparator : (set.stream.kind position).isSeparator with
      | true =>
        rw [hunfold, hunfold']
        cases count with
        | zero => rfl
        | succ count =>
          rw [List.take_succ_cons, List.take_succ_cons,
            BracketForm.ofContent_separator_cons hseparator,
            BracketForm.ofContent_separator_cons hseparator]
          refine ih _ _ (Nat.le_succ_of_le hfirst) ?_
          rw [opened_succ_plain (Nat.lt_trans hmore hsize) (by
            cases hplace : set.stream.kind position <;> rw [hplace] at hseparator <;>
              first | rfl | cases hseparator), hlevel]
      | false =>
        have hsemicolon : set.stream.kind (start - 1) = .semicolon := by
          refine hfront.resolve_left fun heq => ?_
          have hmember := isMember_of_lt_skipWhile hfirst (heq.symm ▸ hmore)
          rw [TokenKind.separates, hseparator] at hmember
          cases hmember
        have halike := h.settledAlike hstays hopened hsemicolon hfirst hmore
          (show _ = _ + 0 from congrArg List.length hlevel)
        rw [hunfold, hunfold'] at halike ⊢
        exact (halike.ofContent_take hseparator count).symm
  rw [BracketForm.atIndex_eq (Nat.lt_trans hlt hsize) hopener,
    BracketForm.atIndex_eq (Nat.lt_trans hlt hsize')
      ((congrArg Token.kind (h.token_eq first hlt)).trans hopener), hbefore,
    hcontent _ _ _ (Nat.le_refl _) hlt rfl]

end AnnotatedDefinition

/-! ### Blocks -/

/-- The state behind the opener of a block, once what surrounds its statements has been entered. -/
def Parser.insideBlock (stream : TokenStream) (state : ParserState) : ParserState where
  position := stream.skipWhile (·.separates false) (state.position + 1)
  log := state.log
  history := .entered (stream.enclosureAt (state.position + 1) (.closer .square) false) :: state.history

/-- Reading a block is reading its statements and finishing it. -/
theorem Parser.block_apply {stream : TokenStream} {state : ParserState} (inner : Nested)
    (hopener : stream.kind state.position = .opener .square)
    (hlt : state.position + 1 < stream.size) :
    block inner stream state =
      let within := stream.enclosureAt (state.position + 1) (.closer .square) false
      match repeatWhile.iterate (startsItem within) (nextItem inner.statement within "statement")
        stream.size [] stream (insideBlock stream state) with
      | (.ok reversed, middle) =>
        finishBlock (stream.token state.position).span state.log.count reversed.reverse stream
          { middle with history := .finished within middle.position :: middle.history }
      | (.error abort, middle) => (.error abort, middle) := by
  rw [block_eq, bind_apply, expect_apply hopener hlt]
  dsimp only
  show (items inner.statement (.closer .square) false "statement" >>= fun groups =>
    finishBlock (stream.token state.position).span state.log.count groups : Parser Expr) stream _ = _
  rw [bind_apply, items_apply]
  dsimp only [insideBlock]
  cases repeatWhile.iterate _ _ _ _ stream _ with
  | mk result middle => cases result <;> rfl

namespace AnnotatedDefinition

variable {set set' : Setting} {budget : Nat} {parts : AnnotatedDefinition budget}
  {relocation : Relocation} {start stop stop' length : Nat}

/-- In another spelling of one definition square brackets around it have the same form, and the block in
them is read as the same expression, but for places, and the same is reported. -/
theorem Exchanged.block (h : parts.Exchanged set set'.stream relocation start stop stop' length)
    (hwarns : set.Warns) (hdeep : set.allows .tooDeep) (hwarns' : set'.Warns)
    (hdeep' : set'.allows .tooDeep) {before : List (List Statement)} {state state' middle : ParserState}
    (hopener : set.stream.kind state.position = .opener .square)
    (hplace : state'.position = state.position) (hlog : state'.log = state.log)
    (hmuted : state.log.muted = 0)
    (hrounds : Rounds set.stream (produce (budget + 1) .statement)
      (set.stream.enclosureAt (state.position + 1) (.closer .square) false) "statement" []
      (insideBlock set.stream state) before middle)
    (hposition : middle.position = start)
    (hfront : (insideBlock set.stream state).position = start ∨
      set.stream.kind (start - 1) = .semicolon) :
    let inner : Nested := .ofRules (budget + 1) (produce (budget + 1))
    BracketForm.atIndex set'.stream.tokens (state.position : Int) =
        BracketForm.atIndex set.stream.tokens (state.position : Int) ∧
      Expr.SameOutcome (Parser.block inner set.stream state).1 (Parser.block inner set'.stream state').1 ∧
      Relocation.forget.move (Parser.block inner set.stream state).2.log.diagnostics.toList =
        Relocation.forget.move (Parser.block inner set'.stream state').2.log.diagnostics.toList := by
  intro inner
  have hreads : ReadsStatements budget inner.statement := readsStatements_statement budget
  have hlt := succ_lt_size_of_kind hopener TokenKind.noConfusion
  have hopens : set.stream.Opens (state.position + 1) (.closer .square) :=
    .afterOpener .square (Nat.succ_pos _) hopener
  have hpart : set.IsPart (set.stream.enclosureAt (state.position + 1) (.closer .square) false) :=
    ⟨hlt, hopens, set.balanced.depth_eq hlt⟩
  have hplain : ∀ kind : TokenKind, kind.separates false = true → kind.isPlain = true :=
    fun _ => TokenKind.isPlain_of_separates
  have hskipped := within_skipWhile hplain hlt
  have hbetween : set.Between (set.stream.enclosureAt (state.position + 1) (.closer .square) false)
      (insideBlock set.stream state) := ⟨hskipped.1, hskipped.2.1⟩
  have hitem := hreads.obeys hwarns hdeep
  have hreached := (reached_of_rounds hpart hitem hrounds hbetween).1
  have hle : (insideBlock set.stream state).position ≤ start := hposition ▸ hreached.within.le
  have hshares := h.shares hpart (hreached.between hbetween) hposition
  have hfirst : state.position + 1 ≤ start := Nat.le_trans hskipped.1.le hle
  -- the other stream has the same brackets, with the same in front of their first statement
  have hopener' : set'.stream.kind state'.position = .opener .square := by
    rw [hplace, hshares.kind_eq hfirst, hopener]
  have hlt' := succ_lt_size_of_kind hopener' TokenKind.noConfusion
  have hwithin : set'.stream.enclosureAt (state'.position + 1) (.closer .square) false =
      set.stream.enclosureAt (state.position + 1) (.closer .square) false := by
    rw [enclosureAt, hplace, hshares.depth_other set'.balanced hfirst]
    rfl
  have hpart' : set'.IsPart (set.stream.enclosureAt (state.position + 1) (.closer .square) false) :=
    hwithin ▸ ⟨hlt', .afterOpener .square (Nat.succ_pos _) hopener', set'.balanced.depth_eq hlt'⟩
  have hinside : (insideBlock set'.stream state').position = (insideBlock set.stream state).position := by
    have hskip := hshares.skipWhile_eq hfirst hle
    rw [insideBlock, hplace]
    exact hskip
  have hbetween' : set'.Between (set.stream.enclosureAt (state.position + 1) (.closer .square) false)
      (insideBlock set'.stream state') := by
    have hskipped' := within_skipWhile hplain hlt'
    rw [← hwithin]
    exact ⟨hskipped'.1, hskipped'.2.1⟩
  have hrun := h.loops hreads hwarns hdeep hwarns' hdeep' hpart hpart'
    (.refl _) hbetween hbetween' hmuted hinside hlog hrounds hposition hfront
  refine ⟨h.atIndex_eq hopener (hposition ▸ (hreached.between hbetween).stays) hshares.opened_eq hfront,
    ?_⟩
  rw [block_apply inner hopener hlt, block_apply inner hopener' hlt', hwithin]
  dsimp only
  -- where the loops come to an end, the closer stands
  have hends : set.Runs (repeatWhile (startsItem _) (nextItem _ _ "statement") [])
    (insideBlock set.stream state) _ _ := runs_rounds hpart hitem hbetween
  have hends' : set'.Runs (repeatWhile (startsItem _) (nextItem _ _ "statement") [])
    (insideBlock set'.stream state') _ _ :=
      runs_rounds hpart' (hreads.obeys hwarns' hdeep') hbetween'
  have hclose : ∀ {stream : TokenStream} {final : ParserState},
      stream.Closes (state.position + 1) (.closer .square) final.position →
      final.position + 1 < stream.size := fun hcloses =>
    succ_lt_size_of_kind hcloses.kind_eq TokenKind.noConfusion
  generalize hloop : repeatWhile.iterate (startsItem _) (nextItem _ _ _) set.stream.size [] _
    (insideBlock set.stream state) = run at hrun ⊢
  generalize hloop' : repeatWhile.iterate (startsItem _) (nextItem _ _ _) set'.stream.size [] _
    (insideBlock set'.stream state') = run' at hrun ⊢
  obtain ⟨houtcome, hreports, hzero, hzero'⟩ := hrun
  obtain ⟨result, last⟩ := run
  obtain ⟨result', last'⟩ := run'
  cases result with
  | error abort =>
    cases result' with
    | error abort' => exact ⟨houtcome, hreports⟩
    | ok => exact houtcome.elim
  | ok answers =>
    cases result' with
    | error abort' => exact houtcome.elim
    | ok answers' =>
      obtain ⟨-, hcloses⟩ := hends.returns hloop
      obtain ⟨-, hcloses'⟩ := hends'.returns hloop'
      dsimp only
      rw [hlog]
      exact finishBlock_respelled _ _ _ houtcome hreports hzero hzero' hcloses.kind_eq
        hcloses'.kind_eq (hclose hcloses) (hclose hcloses')

end AnnotatedDefinition

/-- However a definition with its type is spelled, it makes no difference to the module or to the block
that it stands in, nor to what is reported there. In front of it there may be other items, with a
semicolon behind them, and others may follow. -/
theorem annotated_definition_respelled {stream other : TokenStream} {balanced : stream.Balanced}
    (hother : other.Balanced) {budget start stop stop' length : Nat}
    {parts : AnnotatedDefinition budget} {relocation : Relocation}
    (h : parts.Exchanged (Entry.module.setting balanced) other relocation start stop stop' length) :
    (∀ {name : Option String} {within : Enclosure} {before : List (List Statement)}
      {first middle : ParserState}, budget + 1 = nestingBudget →
      moduleOpening stream .initial = (.ok (name, within), first) →
      Rounds stream moduleItem within "declaration" [] first before middle → middle.position = start →
      (first.position = start ∨ stream.kind (start - 1) = .semicolon) →
      Module.SameOutcome (moduleSource stream .initial).1 (moduleSource other .initial).1 ∧
        Relocation.forget.move (moduleSource stream .initial).2.log.diagnostics.toList =
          Relocation.forget.move (moduleSource other .initial).2.log.diagnostics.toList) ∧
    ∀ {before : List (List Statement)} {state state' middle : ParserState},
      BracketForm.atIndex stream.tokens (state.position : Int) = .ok .block →
      state'.position = state.position → state'.log = state.log → state.log.muted = 0 →
      Rounds stream (produce (budget + 1) .statement)
        (stream.enclosureAt (state.position + 1) (.closer .square) false) "statement" []
        (insideBlock stream state) before middle → middle.position = start →
      ((insideBlock stream state).position = start ∨ stream.kind (start - 1) = .semicolon) →
      let inner : Nested := .ofRules (budget + 1) (produce (budget + 1))
      Expr.SameOutcome (squareExpr inner stream state).1 (squareExpr inner other state').1 ∧
        Relocation.forget.move (squareExpr inner stream state).2.log.diagnostics.toList =
          Relocation.forget.move (squareExpr inner other state').2.log.diagnostics.toList := by
  have hwarns : ∀ {stream : TokenStream} (balanced : stream.Balanced),
      (Entry.module.setting balanced).Warns := fun _ => Or.inr
  have hdeep : ∀ {stream : TokenStream} (balanced : stream.Balanced),
      (Entry.module.setting balanced).allows .tooDeep := fun _ => Abort.Arises.tooDeep
  refine ⟨fun hbudget hopening hrounds hposition hfront => ?_,
    fun {before state state' middle} hform hplace hlog hmuted hrounds hposition hfront => ?_⟩
  · exact @AnnotatedDefinition.Exchanged.moduleSource (Entry.module.setting balanced)
      (Entry.module.setting hother) _ _ _ _ _ _ _ hbudget h (hwarns balanced) (hdeep balanced)
      (hwarns hother) (hdeep hother) _ _ _ _ _ hopening hrounds hposition hfront
  · obtain ⟨opener, htoken, hkind⟩ := BracketForm.exists_opener_of_atIndex hform
    have hopener : stream.kind state.position = .opener .square := by
      obtain ⟨hlt, -⟩ := Array.getElem?_eq_some_iff.1 htoken
      rw [TokenStream.kind, Option.some.inj ((getElem?_tokens hlt).symm.trans htoken)]
      exact hkind
    obtain ⟨hsame, hblock⟩ := @AnnotatedDefinition.Exchanged.block (Entry.module.setting balanced)
      (Entry.module.setting hother) _ _ _ _ _ _ _ h (hwarns balanced) (hdeep balanced) (hwarns hother)
      (hdeep hother) _ _ state' _ hopener hplace hlog hmuted hrounds hposition hfront
    intro inner
    rw [squareExpr_apply hform, @squareExpr_apply state' other _ (hplace ▸ hsame.trans hform)]
    dsimp only [ofForm]
    exact hblock

/-- The annotated definition of some texts, if they are accepted. -/
def AnnotatedDefinition.ofTexts? (budget : Nat) (name typeText patternsText bodyText : String) :
    Option (AnnotatedDefinition budget) := do
  let typeExpr ← Accepted.ofText? (typeAt budget .type) typeText
  let patterns ← Accepted.ofText? (Parser.parameters budget) patternsText
  let body ← Accepted.ofText? (α := Expr) (produce budget (.expression 0)) bodyText
  return { name := name, typeExpr := typeExpr, parameters := patterns, body := body.admitted }

instance {budget : Nat} (parts : AnnotatedDefinition budget) (stream : TokenStream)
    (relocation : Relocation) (start : Nat) :
    Decidable (parts.body.StandsIn stream relocation start) :=
  parts.body.decidableStandsIn stream relocation start

/-- A definition without parameters in two streams, with the type on the line in front of it: alone in one
of them, and behind the name in the other one. -/
structure AnnotatedDefinition.OnLines {budget : Nat} (parts : AnnotatedDefinition budget) (set : Setting)
    (other : TokenStream) (r₁ r₂ r₃ r₄ r₅ : Relocation) (start length : Nat) : Prop where
  typeExpr : (parts.typeExpr.StandsIn set.stream r₁ (start + 1) ∧
    parts.typeExpr.StandsIn other r₂ (start + 2)) ∧ parts.typeExpr.length = 1
  parameters : (parts.parameters.StandsIn set.stream .id (start + 4) ∧
    parts.parameters.StandsIn other .id (start + 5)) ∧ parts.parameters.length = 0
  body : (parts.body.StandsIn set.stream r₃ (start + 5) ∧ parts.body.StandsIn other r₄ (start + 6)) ∧
    parts.body.length = 1
  recurs : set.Recurs other r₅ (start + 6) (start + 7) length
  front : ∀ k < start, other.token k = set.stream.token k
  kinds : ((List.range 7).map fun k => set.stream.kind (start + k)) =
    [.atSign, .typeIdentifier, .newline, .identifier, .assign, .identifier, .semicolon]
  kinds_other : ((List.range 8).map fun k => other.kind (start + k)) =
    [.identifier, .atSign, .typeIdentifier, .newline, .identifier, .assign, .identifier, .semicolon]
  names : [set.stream.token (start + 3), other.token start, other.token (start + 4)].all
    (·.value == parts.name) = true
  last : other.token (start + 7 + length) = (set.stream.token (start + 6 + length)).relocate r₅ ∧
    (set.stream.kind (start + 6 + length)).endsGroup = true

instance {budget : Nat} (parts : AnnotatedDefinition budget) (set : Setting) (other : TokenStream)
    (r₁ r₂ r₃ r₄ r₅ : Relocation) (start length : Nat) :
    Decidable (parts.OnLines set other r₁ r₂ r₃ r₄ r₅ start length) :=
  decidable_of_iff (_ ∧ _ ∧ _ ∧ _ ∧ _ ∧ _ ∧ _ ∧ _ ∧ _)
    ⟨fun ⟨h₁, h₂, h₃, h₄, h₅, h₆, h₇, h₈, h₉⟩ => ⟨h₁, h₂, h₃, h₄, h₅, h₆, h₇, h₈, h₉⟩,
      fun ⟨h₁, h₂, h₃, h₄, h₅, h₆, h₇, h₈, h₉⟩ => ⟨h₁, h₂, h₃, h₄, h₅, h₆, h₇, h₈, h₉⟩⟩

theorem AnnotatedDefinition.OnLines.exchanged {budget : Nat} {parts : AnnotatedDefinition budget}
    {set : Setting} {other : TokenStream} {r₁ r₂ r₃ r₄ r₅ : Relocation} {start length : Nat}
    (h : parts.OnLines set other r₁ r₂ r₃ r₄ r₅ start length) :
    parts.Exchanged set other r₅ start (start + 6) (start + 7) length := by
  obtain ⟨⟨⟨htype, htype'⟩, hone⟩, ⟨⟨hpatterns, hpatterns'⟩, hnone⟩, ⟨⟨hbody, hbody'⟩, hsingle⟩, hrecurs,
    hfront, hkinds, hkinds', hnames, hlast⟩ := h
  simp only [List.range_succ_eq_map, List.range_zero, List.map_cons, List.map_nil, List.cons.injEq,
    Nat.add_zero, Nat.succ_eq_add_one, Nat.zero_add, Nat.reduceAdd] at hkinds hkinds'
  obtain ⟨hsign, -, hline, hname, hassign, -, hend, -⟩ := hkinds
  obtain ⟨hfirst, hsign', -, hline', hname', hassign', -, hend', -⟩ := hkinds'
  simp only [List.all_cons, List.all_nil, Bool.and_eq_true, beq_iff_eq, Bool.and_true] at hnames
  obtain ⟨hvalue, hvalue', hvalue''⟩ := hnames
  have hdefined : ∀ {stream : TokenStream} {place : Nat} {r : Relocation},
      stream.kind place = .identifier → (stream.token place).value = parts.name →
      parts.parameters.StandsIn stream .id (place + 1) → stream.kind (place + 1) = .assign →
      parts.body.StandsIn stream r (place + 2) → (stream.kind (place + 3)).isBoundary = true →
      parts.DefinedAt stream place (place + 3) := by
    intro stream place r hkind hvalue hpatterns hassign hbody hboundary
    exact ⟨⟨hkind, hvalue⟩, ⟨_, hpatterns⟩, by rw [hnone]; exact hassign,
      ⟨r, by rw [hnone]; exact hbody⟩, by rw [hnone, hsingle], hboundary⟩
  exact {
    spelled := .alone ⟨hsign, ⟨_, htype⟩, by rw [hone]⟩ hline
      (hdefined hname hvalue hpatterns hassign hbody (by rw [hend]; rfl))
    spelled_other := .named ⟨hfirst, hvalue'⟩ ⟨hsign', ⟨_, htype'⟩, by rw [hone]⟩ hline'
      (hdefined hname' hvalue'' hpatterns' hassign' hbody' (by rw [hend']; rfl))
    token_eq := hfront
    recurs := hrecurs
    ends := hlast }

/-- Whether the first round of an enclosure leads to a place behind it. -/
def Parser.roundEnds (stream : TokenStream) (item : Parser (List Statement)) (within : Enclosure)
    (what : String) (state : ParserState) (place : Nat) : Bool :=
  match startsItem within stream state, nextItem item within what [] stream state with
  | (.ok true, _), (.ok _, middle) => middle.position == place && decide (state.position < place)
  | _, _ => false

theorem Parser.exists_rounds {stream : TokenStream} {item : Parser (List Statement)} {within : Enclosure}
    {what : String} {state : ParserState} {place : Nat}
    (h : roundEnds stream item within what state place = true) :
    ∃ before middle, Rounds stream item within what [] state before middle ∧ middle.position = place := by
  rw [roundEnds, startsItem_apply] at h
  split at h
  · next answers middle hstarts hnext =>
    obtain ⟨hposition, hlt⟩ := Bool.and_eq_true_iff.1 h
    replace hposition := beq_iff_eq.1 hposition
    refine ⟨answers, middle, .head ?_ hnext (hposition.symm ▸ of_decide_eq_true hlt) (.refl _ _),
      hposition⟩
    rw [startsItem_apply, (Prod.mk.inj hstarts).1]
  · cases h

/-- A definition whose type stands on the line in front of it, with its name or without, behind another
one: at the top of a source, and in a block. -/
theorem exists_annotated_definition_respelled :
    (∃ (stream other : TokenStream) (balanced : stream.Balanced) (_ : other.Balanced)
      (parts : AnnotatedDefinition 799) (name : Option String) (within : Enclosure)
      (before : List (List Statement)) (first middle : ParserState),
      parts.Exchanged (Entry.module.setting balanced) other (.further 0 0 2) 4 10 11 4 ∧
      799 + 1 = nestingBudget ∧ moduleOpening stream .initial = (.ok (name, within), first) ∧
      Rounds stream moduleItem within "declaration" [] first before middle ∧ middle.position = 4 ∧
      stream.kind 3 = .semicolon ∧
      Module.SameOutcome (moduleSource stream .initial).1 (moduleSource other .initial).1) ∧
    ∃ (stream other : TokenStream) (balanced : stream.Balanced) (_ : other.Balanced)
      (parts : AnnotatedDefinition 20) (before : List (List Statement)) (middle : ParserState),
      parts.Exchanged (Entry.module.setting balanced) other (.further 0 0 2) 5 11 12 2 ∧
      BracketForm.atIndex stream.tokens ((0 : Nat) : Int) = .ok .block ∧
      Rounds stream (produce 21 .statement) (stream.enclosureAt 1 (.closer .square) false) "statement" []
        (insideBlock stream .initial) before middle ∧ middle.position = 5 ∧
      stream.kind 4 = .semicolon ∧
      Expr.SameOutcome (squareExpr (.ofRules 21 (produce 21)) stream .initial).1
        (squareExpr (.ofRules 21 (produce 21)) other .initial).1 := by
  constructor
  · have htest : (TokenStream.ofText? "x = 1; @ T\nf = a; y = 2" "").any (fun stream =>
        (TokenStream.ofText? "x = 1; f @ T\nf = a; y = 2" "").any fun other =>
        (AnnotatedDefinition.ofTexts? 799 "f" "T" "" "a").any fun parts =>
          decide (parts.OnLines (Entry.module.setting stream.2) other.1 (.further 0 9 9)
            (.further 0 11 11) (.further 1 4 15) (.further 1 4 17) (.further 0 0 2) 4 4) &&
          stream.1.kind 3 == .semicolon &&
          opensWith stream.1 fun _ within first =>
            roundEnds stream.1 moduleItem within "declaration" first 4) = true := by decide +kernel
    simp only [Option.any_eq_true, Bool.and_eq_true, beq_iff_eq, decide_eq_true_eq] at htest
    obtain ⟨⟨stream, balanced⟩, -, ⟨other, hother⟩, -, parts, -, ⟨hlines, hsemicolon⟩, hfirst⟩ := htest
    obtain ⟨name, within, first, hopening, hround⟩ := exists_of_opensWith hfirst
    obtain ⟨before, middle, hrounds, hposition⟩ := exists_rounds hround
    exact ⟨stream, other, balanced, hother, parts, name, within, before, first, middle,
      hlines.exchanged, rfl, hopening, hrounds, hposition, hsemicolon,
      ((annotated_definition_respelled hother hlines.exchanged).1 rfl hopening hrounds hposition
        (Or.inr hsemicolon)).1⟩
  · have htest : (TokenStream.ofText? "[x = 1; @ T\nf = a; f]" "").any (fun stream =>
        (TokenStream.ofText? "[x = 1; f @ T\nf = a; f]" "").any fun other =>
        (AnnotatedDefinition.ofTexts? 20 "f" "T" "" "a").any fun parts =>
          decide (parts.OnLines (Entry.module.setting stream.2) other.1 (.further 0 10 10)
            (.further 0 12 12) (.further 1 4 16) (.further 1 4 18) (.further 0 0 2) 5 2) &&
          stream.1.kind 4 == .semicolon &&
          (BracketForm.atIndex stream.1.tokens ((0 : Nat) : Int)).toOption == some .block &&
          roundEnds stream.1 (produce 21 .statement) (stream.1.enclosureAt 1 (.closer .square) false)
            "statement" (insideBlock stream.1 .initial) 5) = true := by decide +kernel
    simp only [Option.any_eq_true, Bool.and_eq_true, beq_iff_eq, decide_eq_true_eq] at htest
    obtain ⟨⟨stream, balanced⟩, -, ⟨other, hother⟩, -, parts, -, ⟨⟨hlines, hsemicolon⟩, hform⟩, hfirst⟩ :=
      htest
    have hform : BracketForm.atIndex stream.tokens ((0 : Nat) : Int) = .ok .block := by
      cases h : BracketForm.atIndex stream.tokens ((0 : Nat) : Int) <;> rw [h] at hform <;> cases hform
      rfl
    obtain ⟨before, middle, hrounds, hposition⟩ := exists_rounds hfirst
    exact ⟨stream, other, balanced, hother, parts, before, middle, hlines.exchanged, hform, hrounds,
      hposition, hsemicolon, ((annotated_definition_respelled hother hlines.exchanged).2 hform rfl rfl rfl
        hrounds hposition (Or.inr hsemicolon)).1⟩

end SableFrontend
