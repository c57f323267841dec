import SableFrontend.Proofs.Grammar.Budget
import SableFrontend.Proofs.Grammar.Muted
import SableFrontend.Proofs.Parallel.Block
import SableFrontend.Proofs.Parallel.SoleDefinition
import SableFrontend.Proofs.Parallel.Spelling

/-!
Parentheses are neutral (`parentheses_neutral`). The tokens of a source may stand between round brackets in
another stream (`TokenStream.Grouped`). They are balanced there as they are by themselves, and what is read
of them by themselves, up to the end of the source, is read up to the closer. The three productions in round
brackets have one shape (`Parser.grouped`), and of one thing they give just that. Around a type the search
for the sign of a context must pass the brackets (`Grouped.arrowAhead_eq_false`); around a pattern it may
be an attempt that reads, so the log must not matter (`Accepted.exists_patternAtom_of_grouped`).
-/

namespace SableFrontend

open TokenStream SableFrontend.Parser Setting

/-! ### Tokens in round brackets -/

/-- The tokens of one stream, but for its end, stand in another one between round brackets, at other
places. -/
structure TokenStream.Grouped (stream other : TokenStream) (relocation : Relocation) (start : Nat) :
    Prop where
  opener : other.kind start = .opener .round
  token_eq : ∀ k < stream.size - 1, other.token (start + 1 + k) = (stream.token k).relocate relocation
  touches_eq : ∀ k, k + 1 < stream.size - 1 →
    (other.token (start + 1 + k)).touches (other.token (start + 1 + (k + 1))) =
      (stream.token k).touches (stream.token (k + 1))
  closer : other.kind (start + stream.size) = .closer .round

namespace TokenStream.Grouped

variable {stream other : TokenStream} {relocation : Relocation} {start : Nat}

instance decidableGrouped : Decidable (stream.Grouped other relocation start) :=
  decidable_of_iff (other.kind start = .opener .round ∧
      (∀ k < stream.size - 1, other.token (start + 1 + k) = (stream.token k).relocate relocation) ∧
      (∀ k < stream.size - 1, k + 1 < stream.size - 1 →
        (other.token (start + 1 + k)).touches (other.token (start + 1 + (k + 1))) =
          (stream.token k).touches (stream.token (k + 1))) ∧
      other.kind (start + stream.size) = .closer .round)
    ⟨fun ⟨hopener, htoken, htouches, hcloser⟩ =>
        ⟨hopener, htoken, fun k hk => htouches k (Nat.lt_of_succ_lt hk) hk, hcloser⟩,
      fun h => ⟨h.opener, h.token_eq, fun k _ => h.touches_eq k, h.closer⟩⟩

theorem closer_add (h : stream.Grouped other relocation start) :
    other.kind (start + 1 + (stream.size - 1)) = .closer .round := by
  have hpos := stream.size_pos
  rw [← h.closer]
  congr 1
  omega

theorem lt (h : stream.Grouped other relocation start) : start + stream.size + 1 < other.size :=
  succ_lt_size_of_kind h.closer TokenKind.noConfusion

theorem recurs {set : Setting} (h : set.stream.Grouped other relocation start) :
    set.Recurs other relocation 0 (start + 1) (set.stream.size - 1) where
  within := by
    rw [Nat.zero_add]
    exact ⟨Nat.zero_le _, Nat.sub_one_lt_of_lt set.stream.size_pos, fun k _ _ => by
      rw [opened_zero]; exact List.nil_suffix⟩
  opened_eq := by
    rw [Nat.zero_add, opened_zero]
    exact set.balanced.settled
  depth_le := by rw [opened_zero]; exact Nat.zero_le _
  lt := by have := h.lt; have := set.stream.size_pos; omega
  token_eq k hk := by
    rw [Nat.zero_add]
    exact h.token_eq k hk
  touches_eq k hk := by
    rw [Nat.zero_add, Nat.zero_add]
    exact h.touches_eq k hk
  formBefore_eq _ := by
    refine formBefore?_eq_none ?_ ?_ <;> rw [Nat.add_sub_cancel, h.opener] <;>
      exact TokenKind.noConfusion
  boundary := by rw [Nat.zero_add, set.stream.kind_last]; rfl
  limit := by rw [h.closer_add]; rfl

/-- If there is nothing but them, the tokens between round brackets are balanced when they are balanced by
themselves. -/
theorem balanced (h : stream.Grouped other relocation 0) (balanced : stream.Balanced)
    (hsize : other.size = stream.size + 2)
    (hdepths : other.depths = (bracketDepths 0 other.tokens.toList).toArray) : other.Balanced := by
  let set := Entry.expression.setting balanced
  have hpos := stream.size_pos
  have hkind : ∀ k < stream.size - 1, other.kind (1 + k) = stream.kind k := fun k hk => by
    have heq := h.token_eq k hk
    rw [Nat.zero_add] at heq
    rw [TokenStream.kind, heq]
    rfl
  have hbefore : other.opened 1 = [.round] := by
    have hopened := @opened_succ_opener other 0 _ (by omega) h.opener
    rwa [opened_zero] at hopened
  have hopened : ∀ k ≤ stream.size - 1, other.opened (1 + k) = stream.opened k ++ [.round] := by
    intro k hk
    obtain ⟨inner, hleft, hright⟩ := (@Grouped.recurs _ _ _ set h).exists_opened hk
    have hleft' : stream.opened k = inner ++ [] := by
      rw [Nat.zero_add, show set.stream = stream from rfl, opened_zero] at hleft
      exact hleft
    rw [hleft', List.append_nil, ← hbefore]
    exact hright
  have hcloser : other.kind stream.size = .closer .round := by
    have hkind := h.closer
    rwa [Nat.zero_add] at hkind
  have hend : other.opened stream.size = [.round] := by
    have hlast := hopened (stream.size - 1) (Nat.le_refl _)
    rwa [balanced.settled, Nat.add_sub_cancel' hpos] at hlast
  -- a position is that of the opener, of a token between the brackets, of the closer or the last one
  have hcases : ∀ position < other.size, position = 0 ∨
      (∃ k < stream.size - 1, position = 1 + k) ∨ position = stream.size ∨ position = stream.size + 1 := by
    intro position hlt
    by_cases hin : position < stream.size
    · exact or_iff_not_imp_left.2 fun hzero => Or.inl ⟨position - 1, by omega, by omega⟩
    · exact Or.inr (Or.inr (by omega))
  refine ⟨fun {position bracket} hlt hcloses => ?_, ?_, fun {position} hlt hends => ?_, fun {position} hlt => ?_⟩
  · rcases hcases position hlt with rfl | ⟨k, hk, rfl⟩ | rfl | rfl
    · rw [h.opener] at hcloses
      cases hcloses
    · rw [hkind k hk] at hcloses
      obtain ⟨outer, houter⟩ := balanced.closer_fits (by omega) hcloses
      exact ⟨outer ++ [.round], by rw [hopened k (Nat.le_of_lt hk), houter]; rfl⟩
    · rw [hcloser] at hcloses
      cases hcloses
      exact ⟨[], hend⟩
    · have hlast := other.kind_last
      rw [hsize, show stream.size + 2 - 1 = stream.size + 1 from rfl, hcloses] at hlast
      cases hlast
  · rw [hsize, show stream.size + 2 - 1 = stream.size + 1 from rfl,
      opened_succ_closer (by omega) hcloser, hend]
    rfl
  · rcases hcases position hlt with rfl | ⟨k, hk, rfl⟩ | rfl | rfl
    · rw [h.opener] at hends
      cases hends
    · rw [hkind k hk] at hends
      have hlast := balanced.end_last (by omega) hends
      omega
    · rw [hcloser] at hends
      cases hends
    · exact hsize.symm
  · have hlength : position < other.tokens.toList.length := by
      rw [Array.length_toList]
      exact hlt
    have hdepth := getElem?_bracketDepths [] other.tokens.toList hlength
    rw [TokenStream.depth, hdepths, List.getElem?_toArray]
    rw [List.length_nil] at hdepth
    rw [hdepth, Option.getD_some]
    rfl

end TokenStream.Grouped

/-- The stream of a list of tokens knows how many delimiters are around each of them. -/
theorem TokenStream.depths_of_ofTokens? {tokens : Array Token} {stream : TokenStream}
    (h : TokenStream.ofTokens? tokens = some stream) :
    stream.depths = (bracketDepths 0 stream.tokens.toList).toArray := by
  unfold TokenStream.ofTokens? at h
  split at h
  · cases h
  · split at h
    · cases h
      rfl
    · cases h

/-! ### Reading a group -/

/-- What stands in round brackets, which may be nothing or several things of a kind. -/
def Parser.grouped {α : Type} (parser : Parser α) (unit : Token → Parser α) (tuple : Token → α → Parser α)
    (what : String) : Parser α := do
  let opener ← advance
  if ← isAt (.closer .round) then unit opener
  else
    let first ← parser
    if !(← isAt .comma) then
      let _ ← expect (.closer .round) what
      return first
    else tuple opener first

/-- One thing in round brackets is read as it is by itself. -/
theorem Setting.Leaves.grouped {α : Type} {set : Setting} {log later : Log} {parser : Parser α}
    {unit : Token → Parser α} {tuple : Token → α → Parser α} {what : String} {start stop : Nat} {answer : α}
    (hopener : set.stream.kind start = .opener .round)
    (hfirst : set.stream.kind (start + 1) ≠ .closer .round)
    (hread : set.Leaves log parser (start + 1) answer stop later)
    (hcloser : set.stream.kind stop = .closer .round) :
    set.Leaves log (Parser.grouped parser unit tuple what) start answer (stop + 1) later := by
  have hlt := succ_lt_size_of_kind hopener TokenKind.noConfusion
  have hlt' := succ_lt_size_of_kind hcloser TokenKind.noConfusion
  refine (Reads.advance hlt).leaves.bind (Reads.isAt.leaves.bind (.ite_neg ?_ (hread.bind
    (Reads.isAt.leaves.bind (.ite_pos ?_ ((Reads.expect hcloser hlt').leaves.bind Reads.pure.leaves))))))
  · exact fun heq => hfirst (beq_iff_eq.1 heq)
  · rw [hcloser]
    rfl

/-- Tokens that are read by themselves are read between round brackets. -/
theorem TokenStream.Grouped.leaves {α : Type} {set : Setting} {stream : TokenStream}
    {relocation : Relocation} {log later : Log} {parser : Parser α} {unit : Token → Parser α}
    {tuple : Token → α → Parser α} {what : String} {start : Nat} {answer : α}
    (h : stream.Grouped set.stream relocation start) (balanced : stream.Balanced) (hsome : 0 < stream.size - 1)
    (hread : set.Leaves log parser (start + 1) answer (start + 1 + (stream.size - 1)) later) :
    set.Leaves log (Parser.grouped parser unit tuple what) start answer (start + stream.size + 1) later := by
  have hend : start + stream.size = start + 1 + (stream.size - 1) := by omega
  rw [hend]
  refine hread.grouped h.opener (fun hcloses => ?_) h.closer_add
  -- what closes nothing does not begin the tokens
  have hfirst : stream.kind 0 = .closer .round := by
    rw [← hcloses, TokenStream.kind, TokenStream.kind, ← Nat.add_zero (start + 1), h.token_eq 0 hsome]
    rfl
  obtain ⟨outer, hopened⟩ := balanced.closer_fits stream.size_pos hfirst
  rw [opened_zero] at hopened
  cases hopened

namespace Parser

theorem exists_roundExpr_eq (inner : Nested) : ∃ unit tuple what,
    roundExpr inner = grouped (inner.expression 0) unit tuple what := ⟨_, _, _, rfl⟩

theorem exists_roundType_eq (inner : TypeRule → Parser TypeExpr) : ∃ unit tuple what,
    roundType inner = grouped (inner .type) unit tuple what := ⟨_, _, _, rfl⟩

theorem exists_roundPattern_eq (inner : Parser Pattern) : ∃ unit tuple what,
    roundPattern inner = grouped inner unit tuple what := ⟨_, _, _, rfl⟩

end Parser

/-! ### Whole sources -/

/-- A parser reads tokens as a whole, with no error reported. -/
def Parser.ReadsAll {α : Type} (parser : Parser α) (tokens : Array Token) (value : α) : Prop :=
  ∃ final, runParser (whole parser) tokens = (.ok value, final) ∧
    final.log.diagnostics.toList.filter (·.isError) = []

/-- To parse a text as a single production is to read its tokens as a whole. -/
theorem Parser.parseWhole_eq_ok_iff {α : Type} {parser : Parser α} {text file : String} {value : α} :
    parseWhole parser text file = .ok value ↔
      ∃ tokens, Token.ofText text file = .ok tokens ∧ parser.ReadsAll tokens value := by
  constructor
  · intro hparse
    cases hlexes : Token.ofText text file with
    | error error =>
      unfold parseWhole at hparse
      rw [hlexes] at hparse
      cases hparse
    | ok tokens =>
      obtain ⟨stream, hstream, -⟩ := TokenStream.exists_of_ofText hlexes
      obtain ⟨final, hrun, herrors⟩ := exists_whole_of_parseWhole hlexes hstream hparse
      refine ⟨tokens, rfl, final, ?_, herrors⟩
      rw [runParser, hstream]
      exact hrun
  · rintro ⟨tokens, hlexes, final, hrun, herrors⟩
    obtain ⟨stream, hstream, -⟩ := TokenStream.exists_of_ofText hlexes
    rw [runParser, hstream] at hrun
    exact parseWhole_of_errorless hlexes hstream hrun herrors

/-- What is read up to the end of a source is read of the source as a whole. -/
theorem Setting.Leaves.whole {α : Type} {set : Setting} {later : Log} {parser : Parser α} {stop : Nat}
    {answer : α} (hread : set.Leaves .empty parser 0 answer stop later)
    (hfirst : (set.stream.kind 0).separates false = false)
    (hstop : set.stream.kind stop = .endOfFile) :
    ∃ final, Parser.whole parser set.stream .initial = (.ok answer, final) ∧ final.log = later := by
  obtain ⟨_, middle, hrun, rfl, hplace, hlog⟩ := (hread []).exists_ok
  have hskip : ∀ {state : ParserState}, (set.stream.kind state.position).separates false = false →
      state.skip set.stream = state := fun h => by
    rw [ParserState.skip, skipWhile_eq_self h]
  have hend : middle.skip set.stream = middle := hskip (by rw [hplace, hstop]; rfl)
  refine ⟨middle, whole_eq_ok_iff.2 ⟨middle, ?_, ?_, hend.symm⟩, hlog⟩
  · rw [@hskip .initial hfirst]
    exact hrun
  · rw [hend, hplace, hstop]

/-- Tokens that a parser reads as a whole are what it admits, if there are no separators outside of
delimiters. -/
theorem Admitted.exists_of_run {α : Type} {parser : Parser α} {stream : TokenStream}
    (balanced : stream.Balanced)
    (hplain : ∀ position < stream.size, stream.depth position = 0 →
      (stream.kind position).isSeparator = false) {value : α} {final : ParserState}
    (hrun : whole parser stream .initial = (.ok value, final))
    (herrors : final.log.diagnostics.toList.filter (·.isError) = []) :
    ∃ admitted : Admitted parser, admitted.source = stream ∧ admitted.value = value ∧
      admitted.final = final := by
  have hpos := stream.size_pos
  have hnone : ∀ {position}, position < stream.size → stream.opened position = [] →
      (stream.kind position).isSeparator = false := fun {position} hlt hopened =>
    hplain position hlt (by rw [balanced.depth_eq hlt, hopened]; rfl)
  refine ⟨{
    source := stream
    balanced := balanced
    value := value
    final := final
    run := hrun
    errorless := fun diagnostic hmem => ?_
    begins := hnone hpos stream.opened_zero
    ends := ?_ }, rfl, rfl, rfl⟩
  · simpa using List.filter_eq_nil_iff.1 herrors diagnostic (Array.mem_toList_iff.2 hmem)
  · by_contra hseparator
    have hplain : (stream.kind (stream.size - 2)).isPlain = true := by
      cases hkind : stream.kind (stream.size - 2) <;> rw [hkind] at hseparator <;>
        first | rfl | exact absurd rfl hseparator
    have hopened := opened_succ_plain (show stream.size - 2 < stream.size by omega) hplain
    refine hseparator (hnone (by omega) ?_)
    rcases Nat.lt_or_ge 1 stream.size with hmore | hone
    · rw [← hopened, show stream.size - 2 + 1 = stream.size - 1 by omega]
      exact balanced.settled
    · rw [show stream.size - 2 = 0 by omega]
      exact stream.opened_zero

/-- What is admitted stands between round brackets. -/
theorem TokenStream.Grouped.standsIn {α : Type} {parser : Parser α} {admitted : Admitted parser}
    {other : TokenStream} {relocation : Relocation} {start : Nat}
    (h : admitted.source.Grouped other relocation start) :
    admitted.StandsIn other relocation (start + 1) := by
  have hrecurs := @Grouped.recurs _ _ _ admitted.setting h
  refine ⟨hrecurs.lt, h.token_eq, h.touches_eq, formBefore?_eq_none ?_ ?_, hrecurs.limit⟩ <;>
    rw [Nat.add_sub_cancel, h.opener] <;> exact TokenKind.noConfusion

theorem TokenStream.Grouped.stands {α : Type} {parser : Parser α} {accepted : Accepted parser}
    {other : TokenStream} {relocation : Relocation} {start : Nat}
    (h : accepted.source.Grouped other relocation start) :
    accepted.StandsIn other relocation (start + 1) :=
  have hstands : accepted.admitted.StandsIn other relocation (start + 1) := Grouped.standsIn h
  ⟨hstands.lt, hstands.token_eq, hstands.touches_eq, hstands.formBefore_eq, hstands.limit⟩

/-! ### Expressions -/

/-- An expression that is read by itself is read between round brackets. -/
theorem Admitted.whole_expression_of_grouped {budget : Nat} {other : TokenStream} {relocation : Relocation}
    (admitted : Admitted (α := Expr) (produce budget (.expression 0))) (balanced : other.Balanced)
    (h : admitted.source.Grouped other relocation 0) (hsize : other.size = admitted.source.size + 2) :
    ∃ final, whole (α := Expr) (produce (budget + 1) (.expression 0)) other .initial =
        (.ok (relocation.move admitted.value), final) ∧
      final.log = (relocation.move admitted.reports).foldl Log.report .empty := by
  let set := Entry.expression.setting balanced
  have hobeys := @obeys_produce admitted.setting Or.inr Abort.Arises.tooDeep budget (.expression 0)
  have hread := @admitted.leaves_expression set _ _ _ .empty h.standsIn rfl
  obtain ⟨unit, tuple, what, hround⟩ := exists_roundExpr_eq (.ofRules budget (produce budget))
  have hgroup := @Grouped.leaves _ set _ _ _ _ _ unit tuple what _ _ h admitted.balanced
    (admitted.length_pos hobeys) hread
  have hend : other.kind (0 + admitted.source.size + 1) = .endOfFile := by
    rw [Nat.zero_add, ← other.kind_last, hsize]
    rfl
  refine @Leaves.whole _ set _ _ (0 + admitted.source.size + 1) _ (fun history => ?_)
    (by rw [show set.stream.kind 0 = _ from h.opener]; rfl) hend
  have hkind : set.stream.kind 0 = .opener .round := h.opener
  refine runs_expression_of_atom (by rw [hkind]; nofun) (by rw [hkind]; nofun) (by rw [hkind]; nofun) ?_
  refine .bind (.current ?_)
  rw [show (set.stream.token 0).kind = .opener .round from h.opener]
  show set.Runs (roundExpr (.ofRules budget (produce budget))) _ _ _
  rw [hround]
  refine (hgroup history).mono (fun answer final ⟨hanswer, hplace, hlog⟩ => ?_) fun _ _ h => h
  exact ⟨by rw [hplace, show set.stream.kind _ = _ from hend]; rfl, hanswer, hplace, hlog⟩

/-! ### Types -/

/-- Inside of a group the search for the sign of a context goes on. -/
theorem TokenStream.Within.arrowAhead_eq {stream : TokenStream} (balanced : stream.Balanced)
    {start stop : Nat} (h : stream.Within start stop) {depth : Nat} (hdepth : 0 < depth) :
    stream.arrowAhead depth start =
      stream.arrowAhead (depth + ((stream.opened stop).length - (stream.opened start).length)) stop := by
  obtain ⟨length, rfl⟩ := Nat.exists_eq_add_of_le h.le
  induction length with
  | zero => rw [Nat.add_zero, Nat.sub_self, Nat.add_zero]
  | succ length ih =>
    have hlt : start + length < stream.size := Nat.lt_of_succ_lt h.lt
    have hbefore : stream.Within start (start + length) :=
      ⟨Nat.le_add_right .., hlt, fun k hfirst hlast => h.suffix k hfirst (Nat.le_succ_of_le hlast)⟩
    have hmore := (hbefore.suffix _ (Nat.le_add_right ..) (Nat.le_refl _)).length_le
    have hlast := (h.suffix _ (Nat.le_add_right ..) (Nat.le_refl _)).length_le
    rw [ih hbefore, TokenStream.arrowAhead_eq hlt, ← Nat.add_assoc]
    rw [← Nat.add_assoc] at hlast
    have hne : depth + ((stream.opened (start + length)).length - (stream.opened start).length) ≠ 0 := by
      omega
    cases hkind : (stream.token (start + length)).kind with
    | opener bracket =>
      rw [opened_succ_opener hlt hkind, List.length_cons]
      dsimp only
      congr 1
      omega
    | closer bracket =>
      obtain ⟨outer, houter⟩ := balanced.closer_fits hlt hkind
      rw [opened_succ_closer hlt hkind, houter, List.tail_cons] at hlast ⊢
      rw [houter, List.length_cons] at hne
      dsimp only
      rw [List.length_cons, if_neg hne]
      congr 1
      omega
    | endOfFile =>
      have hend := balanced.end_last hlt hkind
      have := h.lt
      omega
    | _ =>
      rw [opened_succ_plain hlt (show (stream.kind (start + length)).isPlain = true by
        rw [TokenStream.kind, hkind]; rfl)]
      exact if_neg hne

/-- Tokens between round brackets are no context. -/
theorem TokenStream.Grouped.arrowAhead_eq_false {stream other : TokenStream} {relocation : Relocation}
    (h : stream.Grouped other relocation 0) (balanced : stream.Balanced) (balanced' : other.Balanced)
    (hsize : other.size = stream.size + 2) : other.arrowAhead 0 0 = false := by
  have hpos := stream.size_pos
  have hrecurs := @Grouped.recurs _ _ _ (Entry.expression.setting balanced) h
  have hinside := hrecurs.within_other.arrowAhead_eq balanced' Nat.one_pos
  have hclosed : other.arrowAhead 1 (0 + 1 + (stream.size - 1)) = false := by
    have hlt := h.lt
    rw [TokenStream.arrowAhead_eq (by omega), show (other.token _).kind = _ from h.closer_add]
    dsimp only
    rw [if_neg Nat.one_ne_zero, TokenStream.arrowAhead_eq (by omega),
      show 0 + 1 + (stream.size - 1) + 1 = other.size - 1 by omega,
      show (other.token (other.size - 1)).kind = _ from other.kind_last]
    dsimp only
    rw [if_pos rfl, Token.isOperator, show (other.token (other.size - 1)).kind = _ from other.kind_last]
    rfl
  rw [hrecurs.opened_add, Nat.sub_self, Nat.add_zero] at hinside
  have hlt := h.lt
  rw [TokenStream.arrowAhead_eq (by omega), show (other.token 0).kind = _ from h.opener]
  exact hinside.trans hclosed

/-- In front of the end of a source a type atom is a whole type. -/
theorem Setting.Leaves.typeExpr {set : Setting} {log later : Log} {inner : TypeRule → Parser TypeExpr}
    {start stop : Nat} {answer : TypeExpr} (hread : set.Leaves log (typeAtom inner) start answer stop later)
    (hcontext : set.stream.arrowAhead 0 start = false)
    (hstart : set.stream.kind start ≠ .opener .square) (hstop : set.stream.kind stop = .endOfFile) :
    set.Leaves log (Parser.typeExpr inner) start answer stop later := by
  have happlied : set.Leaves log (appliedType inner) start answer stop later := by
    refine Reads.current.leaves.bind (hread.bind fun history => .repeatWhile_done ?_ ⟨rfl, rfl, rfl⟩)
    show (Except.ok (opensTypeAtom (set.stream.kind stop)), _) = _
    rw [hstop]
    rfl
  have happlication : set.Leaves log (typeApplication inner) start answer stop later :=
    Reads.isAt.leaves.bind (.ite_neg (fun heq => hstart (beq_iff_eq.1 heq)) happlied)
  have hahead : set.Reads log contextAhead start false start := by
    rw [← hcontext]
    exact fun _ => ⟨rfl, rfl, rfl⟩
  have harrow : set.Reads later (isAtOperator "->") stop false stop := by
    have hoperator : (set.stream.token stop).isOperator "->" = false := by
      rw [Token.isOperator, show (set.stream.token stop).kind = _ from hstop]
      rfl
    rw [← hoperator]
    exact fun _ => ⟨rfl, rfl, rfl⟩
  exact Reads.current.leaves.bind (hahead.leaves.bind (.ite_neg Bool.false_ne_true
    (Reads.current.leaves.bind (happlication.bind (harrow.leaves.bind
      (.ite_neg Bool.false_ne_true Reads.pure.leaves))))))

/-- A type that is read by itself is read between round brackets. -/
theorem Accepted.whole_type_of_grouped {budget : Nat} {other : TokenStream} {relocation : Relocation}
    (accepted : Accepted (typeAt budget .type)) (balanced : other.Balanced)
    (h : accepted.source.Grouped other relocation 0) (hsize : other.size = accepted.source.size + 2) :
    ∃ final, whole (typeAt (budget + 1) .type) other .initial =
        (.ok (relocation.move accepted.value), final) ∧ final.log = .empty := by
  let set := Entry.type.setting balanced
  have hobeys := @obeys_typeAt accepted.setting Abort.Arises.tooDeep budget .type
  have hread := @Accepted.reads_type set _ _ _ .empty accepted h.stands
    (by rw [show set.stream.kind (0 + 1 + accepted.length) = _ from h.closer_add]; nofun) rfl
  obtain ⟨unit, tuple, what, hround⟩ := exists_roundType_eq (typeAt budget)
  have hgroup := @Grouped.leaves _ set _ _ _ _ _ unit tuple what _ _ h accepted.balanced
    (accepted.length_pos hobeys) hread.leaves
  have hend : set.stream.kind (0 + accepted.source.size + 1) = .endOfFile := by
    rw [Nat.zero_add, ← set.stream.kind_last, show set.stream.size = _ from hsize]
    rfl
  have hkind : set.stream.kind 0 = .opener .round := h.opener
  have hatom : set.Leaves .empty (typeAtom (typeAt budget)) 0 (relocation.move accepted.value)
      (0 + accepted.source.size + 1) .empty := by
    refine Reads.current.leaves.bind ?_
    rw [show (set.stream.token 0).kind = .opener .round from h.opener]
    show set.Leaves _ (roundType (typeAt budget)) _ _ _ _
    rw [hround]
    exact hgroup
  refine @Leaves.whole _ set _ _ _ _ ?_ (by rw [hkind]; rfl) hend
  exact hatom.typeExpr (h.arrowAhead_eq_false accepted.balanced balanced hsize) (by rw [hkind]; nofun) hend

/-! ### Patterns -/

/-- A pattern that is read by itself is read between round brackets wherever an atom may stand. -/
theorem Accepted.reads_patternAtom_of_grouped {budget : Nat} {set : Setting} {relocation : Relocation}
    {start : Nat} {log : Log} (accepted : Accepted (patternAt budget))
    (h : accepted.source.Grouped set.stream relocation start) (hlog : log.muted = 0) :
    set.Reads log (patternAtom (patternAt budget)) start (relocation.move accepted.value)
      (start + accepted.source.size + 1) := by
  have hobeys := @obeys_patternAt accepted.setting Abort.Arises.tooDeep budget
  have hread := accepted.reads h.stands hobeys
    (fun P => P.mirrors_patternAt Abort.Arises.tooDeep budget) hlog
  obtain ⟨unit, tuple, what, hround⟩ := exists_roundPattern_eq (patternAt budget)
  have hgroup := @Grouped.leaves _ set _ _ _ _ _ unit tuple what _ _ h accepted.balanced
    (accepted.length_pos hobeys) hread.leaves
  refine Reads.current.bind ?_
  rw [show (set.stream.token start).kind = .opener .round from h.opener]
  show set.Reads _ (roundPattern (patternAt budget)) _ _ _
  rw [hround]
  exact hgroup

/-- More levels of nesting change nothing. -/
theorem Parser.outlasts_patternAt_add (budget extra : Nat) :
    (patternAt budget).Outlasts (patternAt (budget + extra)) := by
  induction extra with
  | zero => exact .refl _
  | succ extra ih =>
    refine ⟨fun stream state => ?_⟩
    rcases ih.same_or stream state with hdeep | hsame
    · exact Or.inl hdeep
    · rcases (outlasts_patternAt (budget + extra)).same_or stream state with hdeep | hmore
      · exact Or.inl (hsame ▸ hdeep)
      · exact Or.inr (hmore.trans hsame)

/-- Between round brackets a pattern that is read by itself is read from every state, with as many levels
of nesting or more, and nothing is reported. -/
theorem Accepted.exists_patternAtom_of_grouped {budget : Nat} {other : TokenStream}
    {relocation : Relocation} {state : ParserState} (accepted : Accepted (patternAt budget))
    (balanced : other.Balanced) (h : accepted.source.Grouped other relocation state.position)
    (extra : Nat) :
    ∃ final, patternAtom (patternAt (budget + extra)) other state =
        (.ok (relocation.move accepted.value), final) ∧
      final.position = state.position + accepted.source.size + 1 ∧ final.log = state.log := by
  let set := Entry.type.setting balanced
  have hexact : ∃ final, patternAtom (patternAt budget) other state =
        (.ok (relocation.move accepted.value), final) ∧
      final.position = state.position + accepted.source.size + 1 ∧ final.log = state.log := by
    by_cases hmuted : state.log.muted = 0
    · obtain ⟨_, final, hrun, rfl, hplace, hlog⟩ :=
        (@Accepted.reads_patternAtom_of_grouped _ set _ _ _ accepted h hmuted state.history).exists_ok
      exact ⟨final, hrun, hplace, hlog⟩
    · -- during an attempt it is read as it would be read otherwise
      obtain ⟨_, final, hrun, rfl, hplace, -⟩ :=
        (@Accepted.reads_patternAtom_of_grouped _ set _ _ .empty accepted h rfl []).exists_ok
      have hignores : (patternAtom (patternAt budget)).IgnoresLog (patternAtom (patternAt budget)) :=
        inferInstance
      obtain ⟨hresult, hposition⟩ := hignores.alike other ⟨state.position, .empty, []⟩ state rfl
      rw [show patternAtom (patternAt budget) other ⟨state.position, .empty, []⟩ = _ from hrun]
        at hresult hposition
      exact ⟨(patternAtom (patternAt budget) other state).2, Prod.ext hresult rfl, hposition.trans hplace,
        hignores.keeps other state hmuted⟩
  obtain ⟨final, hrun, hfinal⟩ := hexact
  have := outlasts_patternAt_add budget extra
  have houtlasts : (patternAtom (patternAt budget)).Outlasts (patternAtom (patternAt (budget + extra))) :=
    inferInstance
  rcases houtlasts.same_or other state with hdeep | hsame
  · rw [hrun] at hdeep
    cases hdeep
  · exact ⟨final, hsame.trans hrun, hfinal⟩

/-! ### Parentheses -/

/-- Where there are only errors to report, what is admitted has been read without a word. -/
theorem Admitted.quiet {α : Type} {parser : Parser α} {moved : Bool} (admitted : Admitted parser)
    (hobeys : (Entry.type.setting admitted.balanced).Obeys moved parser) :
    admitted.final.log.diagnostics = #[] := by
  obtain ⟨middle, hrun, -, hfinal⟩ := whole_eq_ok_iff.1 admitted.run
  have hlt := (@within_skipWhile admitted.source (·.separates false) 0
    (fun _ => TokenKind.isPlain_of_separates) admitted.source.size_pos).1.lt
  obtain ⟨reported, hreported, hadmits⟩ :=
    ((hobeys (ParserState.initial.skip admitted.source) hlt).returns hrun).follows.reports
  have hlog : admitted.final.log.diagnostics.toList = reported := by
    rw [hfinal]
    exact hreported
  have hnone : reported = [] := List.eq_nil_iff_forall_not_mem.2 fun diagnostic hmem => by
    have herror := admitted.errorless diagnostic (Array.mem_toList_iff.1 (hlog ▸ hmem))
    rw [Diagnostic.isError, (hadmits diagnostic hmem).severity_eq] at herror
    cases herror
  rw [hnone] at hlog
  exact Array.toList_eq_nil_iff.1 hlog

/-- Round brackets around a whole expression or a whole type, and around a pattern where an atom may
stand, change nothing but places: if nothing in what they enclose separates items, and if one level of
nesting is left for them. -/
theorem parentheses_neutral {tokens : Array Token} {stream : TokenStream}
    (hstream : TokenStream.ofTokens? tokens = some stream) (balanced : stream.Balanced)
    (hplain : ∀ position < stream.size, stream.depth position = 0 →
      (stream.kind position).isSeparator = false) :
    (∀ value, ReadsAll (α := Expr) (produce (nestingBudget - 1) (.expression 0)) tokens value →
      ReadsAll (α := Expr) (produce nestingBudget (.expression 0)) tokens value ∧
      ∀ wrapped other relocation, TokenStream.ofTokens? wrapped = some other →
        other.size = stream.size + 2 → stream.Grouped other relocation 0 →
        ∃ value', ReadsAll (α := Expr) (produce nestingBudget (.expression 0)) wrapped value' ∧
          value.outline.sameStructure value'.outline = true) ∧
    (∀ value, ReadsAll (typeAt (nestingBudget - 1) .type) tokens value →
      ReadsAll (typeAt nestingBudget .type) tokens value ∧
      ∀ wrapped other relocation, TokenStream.ofTokens? wrapped = some other →
        other.size = stream.size + 2 → stream.Grouped other relocation 0 →
        ∃ value', ReadsAll (typeAt nestingBudget .type) wrapped value' ∧
          value.outline.sameStructure value'.outline = true) ∧
    ∀ budget value, ReadsAll (patternAt budget) tokens value →
      ∀ (other : TokenStream) relocation state, other.Balanced →
        stream.Grouped other relocation state.position → ∀ extra,
        startsPatternAtom other state = (.ok true, state) ∧
        ∃ value' final, patternAtom (patternAt (budget + extra)) other state = (.ok value', final) ∧
          value.outline.sameStructure value'.outline = true ∧
          final.position = state.position + stream.size + 1 ∧ final.log = state.log := by
  have hread : ∀ {α : Type} {parser : Parser α} {tokens : Array Token} {stream : TokenStream} {value : α}
      {final : ParserState}, TokenStream.ofTokens? tokens = some stream →
      whole parser stream .initial = (.ok value, final) →
      final.log.diagnostics.toList.filter (·.isError) = [] → parser.ReadsAll tokens value :=
    fun hstream hrun herrors => ⟨_, by rw [runParser, hstream]; exact hrun, herrors⟩
  have hadmitted : ∀ {α : Type} {parser : Parser α} {value : α}, parser.ReadsAll tokens value →
      ∃ admitted : Admitted parser, admitted.source = stream ∧ admitted.value = value := by
    rintro α parser value ⟨final, hrun, herrors⟩
    rw [runParser, hstream] at hrun
    obtain ⟨admitted, hsource, hvalue, -⟩ := Admitted.exists_of_run balanced hplain hrun herrors
    exact ⟨admitted, hsource, hvalue⟩
  have herrors : ∀ {diagnostics : List Diagnostic}, (∀ diagnostic ∈ diagnostics, diagnostic.isError = false) →
      diagnostics.filter (·.isError) = [] := fun h => List.filter_eq_nil_iff.2 fun diagnostic hmem => by
    rw [h diagnostic hmem]
    exact Bool.false_ne_true
  refine ⟨fun value h => ?_, fun value h => ?_, fun budget value h => ?_⟩
  · obtain ⟨admitted, rfl, rfl⟩ := hadmitted h
    have hmild : ∀ diagnostic ∈ admitted.reports, diagnostic.isError = false := fun diagnostic hmem =>
      admitted.errorless diagnostic (Array.mem_toList_iff.1 hmem)
    refine ⟨hread hstream (whole_of_outlasts (outlasts_produce _ _) admitted.run) (herrors hmild),
      fun wrapped other relocation hother hsize hgrouped => ?_⟩
    obtain ⟨final, hrun, hlog⟩ := admitted.whole_expression_of_grouped
      (hgrouped.balanced balanced hsize (depths_of_ofTokens? hother)) hgrouped hsize
    refine ⟨_, hread hother hrun ?_, Relocation.sameStructure_move (fun _ => Expr.outline_relocate) ..⟩
    have hreported : final.log.diagnostics.toList = relocation.move admitted.reports := by
      rw [hlog]
      exact (@ParserState.reportAll_log .initial rfl _).1
    refine herrors fun diagnostic hmem => ?_
    obtain ⟨original, hmem', rfl⟩ := List.mem_map.1 (hreported ▸ hmem)
    exact hmild original hmem'
  · obtain ⟨admitted, rfl, rfl⟩ := hadmitted h
    have hquiet := admitted.quiet (obeys_typeAt Abort.Arises.tooDeep _ .type)
    let accepted : Accepted (typeAt (nestingBudget - 1) .type) := { admitted with quiet := hquiet }
    refine ⟨hread hstream (whole_of_outlasts (outlasts_typeAt _ _) admitted.run) (by rw [hquiet]; rfl),
      fun wrapped other relocation hother hsize hgrouped => ?_⟩
    obtain ⟨final, hrun, hlog⟩ := accepted.whole_type_of_grouped
      (hgrouped.balanced balanced hsize (depths_of_ofTokens? hother)) hgrouped hsize
    exact ⟨_, hread hother hrun (by rw [hlog]; rfl),
      Relocation.sameStructure_move (fun _ => TypeExpr.outline_relocate) ..⟩
  · obtain ⟨admitted, rfl, rfl⟩ := hadmitted h
    have hquiet := admitted.quiet (obeys_patternAt Abort.Arises.tooDeep budget)
    let accepted : Accepted (patternAt budget) := { admitted with quiet := hquiet }
    intro other relocation state balanced' hgrouped extra
    refine ⟨?_, ?_⟩
    · rw [Parallel.startsPatternAtom_apply, show (other.token state.position).kind = _ from hgrouped.opener]
      rfl
    · obtain ⟨final, hrun, hplace, hlog⟩ :=
        accepted.exists_patternAtom_of_grouped balanced' hgrouped extra
      exact ⟨_, final, hrun, Relocation.sameStructure_move (fun _ => Pattern.outline_relocate) .., hplace,
        hlog⟩

/-- Whether the tokens of one text stand between round brackets in another one, so many columns further on,
with nothing around them if they begin it, and no separator is among them outside of delimiters. -/
def TokenStream.groups (text wrapped : String) (start columns : Nat) : Bool :=
  (TokenStream.ofText? text "").any fun stream => (TokenStream.ofText? wrapped "").any fun other =>
    decide (stream.1.Grouped other.1 (.further 0 columns columns) start) &&
      decide (start = 0 → other.1.size = stream.1.size + 2) &&
      decide (∀ position < stream.1.size, stream.1.depth position = 0 →
        (stream.1.kind position).isSeparator = false)

/-- A conditional, a type with a context, and a constructor with an argument as a parameter. -/
theorem exists_parentheses_neutral :
    (∃ value value', parseExpression "if a: 1 else -b" "" = .ok value ∧
      parseExpression "(if a: 1 else -b)" "" = .ok value' ∧
      value.outline.sameStructure value'.outline = true) ∧
    (∃ value value', parseType "C a => a" "" = .ok value ∧ parseType "(C a => a)" "" = .ok value' ∧
      value.outline.sameStructure value'.outline = true) ∧
    ∃ (other : TokenStream) (value value' : Pattern) (final : ParserState),
      parseWhole (patternAt 9) "A {x | y}" "" = .ok value ∧
      patternAtom (patternAt 10) other { ParserState.initial with position := 2 } = (.ok value', final) ∧
      value.outline.sameStructure value'.outline = true := by
  have hexists : ∀ {text wrapped : String} {start columns : Nat}, groups text wrapped start columns = true →
      ∃ stream other : TokenStream, ∃ (_ : stream.Balanced) (_ : other.Balanced),
        Token.ofText text "" = .ok stream.tokens ∧ Token.ofText wrapped "" = .ok other.tokens ∧
        TokenStream.ofTokens? stream.tokens = some stream ∧ TokenStream.ofTokens? other.tokens = some other ∧
        stream.Grouped other (.further 0 columns columns) start ∧
        (start = 0 → other.size = stream.size + 2) ∧
        ∀ position < stream.size, stream.depth position = 0 → (stream.kind position).isSeparator = false := by
    intro text wrapped start columns htest
    simp only [groups, Option.any_eq_true, Bool.and_eq_true, decide_eq_true_eq] at htest
    obtain ⟨⟨stream, balanced⟩, hstream, ⟨other, balanced'⟩, hother, ⟨hgrouped, hsize⟩, hplain⟩ := htest
    obtain ⟨hlexes, htokens⟩ := TokenStream.ofTokens?_of_ofText? hstream
    obtain ⟨hlexes', htokens'⟩ := TokenStream.ofTokens?_of_ofText? hother
    exact ⟨stream, other, balanced, balanced', hlexes, hlexes', htokens, htokens', hgrouped, hsize, hplain⟩
  have hread : ∀ {α : Type} {parser : Parser α} {text : String} {tokens : Array Token},
      Token.ofText text "" = .ok tokens → (parseWhole parser text "").toOption.isSome = true →
      ∃ value, parser.ReadsAll tokens value := by
    intro α parser text tokens hlexes hparse
    cases h : parseWhole parser text "" with
    | error error =>
      rw [h] at hparse
      cases hparse
    | ok value =>
      obtain ⟨tokens', htokens, hread⟩ := parseWhole_eq_ok_iff.1 h
      obtain rfl := Except.ok.inj (hlexes.symm.trans htokens)
      exact ⟨value, hread⟩
  refine ⟨?_, ?_, ?_⟩
  · obtain ⟨stream, other, balanced, -, hlexes, hlexes', hstream, hother, hgrouped, hsize, hplain⟩ :=
      hexists (show groups "if a: 1 else -b" "(if a: 1 else -b)" 0 1 = true by decide +kernel)
    obtain ⟨value, hvalue⟩ := @hread Expr (produce (nestingBudget - 1) (.expression 0)) _ _ hlexes
      (by decide +kernel)
    obtain ⟨hall, hwrapped⟩ := (parentheses_neutral hstream balanced hplain).1 value hvalue
    obtain ⟨value', hread', hsame⟩ := hwrapped other.tokens other _ hother (hsize rfl) hgrouped
    exact ⟨value, value', parseWhole_eq_ok_iff.2 ⟨_, hlexes, hall⟩,
      parseWhole_eq_ok_iff.2 ⟨_, hlexes', hread'⟩, hsame⟩
  · obtain ⟨stream, other, balanced, -, hlexes, hlexes', hstream, hother, hgrouped, hsize, hplain⟩ :=
      hexists (show groups "C a => a" "(C a => a)" 0 1 = true by decide +kernel)
    obtain ⟨value, hvalue⟩ := @hread _ (typeAt (nestingBudget - 1) .type) _ _ hlexes (by decide +kernel)
    obtain ⟨hall, hwrapped⟩ := (parentheses_neutral hstream balanced hplain).2.1 value hvalue
    obtain ⟨value', hread', hsame⟩ := hwrapped other.tokens other _ hother (hsize rfl) hgrouped
    exact ⟨value, value', parseWhole_eq_ok_iff.2 ⟨_, hlexes, hall⟩,
      parseWhole_eq_ok_iff.2 ⟨_, hlexes', hread'⟩, hsame⟩
  · obtain ⟨stream, other, balanced, balanced', hlexes, -, hstream, -, hgrouped, -, hplain⟩ :=
      hexists (show groups "A {x | y}" "f 0 (A {x | y}) = x" 2 5 = true by decide +kernel)
    obtain ⟨value, hvalue⟩ := @hread _ (patternAt 9) _ _ hlexes (by decide +kernel)
    obtain ⟨-, value', final, hrun, hsame, -⟩ := (parentheses_neutral hstream balanced hplain).2.2 9 value
      hvalue other _ { ParserState.initial with position := 2 } balanced' hgrouped 1
    exact ⟨other, value, value', final, parseWhole_eq_ok_iff.2 ⟨_, hlexes, hvalue⟩, hrun, hsame⟩

end SableFrontend
