import SableFrontend.Grammar.Source
import SableFrontend.Proofs.Grammar.Expr
import SableFrontend.Proofs.Tree.OperatorTree

/-!
Precedence climbing. Where single tokens and operators alternate, an expression is read as the one
tree that is grouped as the operators say, or, if comparisons chain, up to the first one that chains
(`Parser.expression_alternates`). The loop of an expression goes along the left side of that tree
(`Climbs`), and each right operand is an expression by itself: the least power it is given keeps what
lies inside of it from what lies behind.
-/

namespace SableFrontend

open SableFrontend.Parser

/-! ### Powers -/

namespace Token

variable {op other : Token}

theorem precedence_pos (op : Token) : 0 < op.fixity.precedence := Fixity.precedence_pos op.value

/-- What an operator may stand around on the left does not take it for an operator of its right
operand. -/
theorem GoesAround.leftPower_lt (h : op.GoesAround .left other) :
    op.fixity.leftPower < other.fixity.rightPower := by
  have hpos := precedence_pos op
  rcases h with hlt | ⟨heq, hside⟩
  · unfold Fixity.leftPower Fixity.rightPower
    split <;> split <;> omega
  · rw [Fixity.leftPower, Fixity.rightPower, associativity_eq heq, hside]
    simp only [reduceCtorEq, if_false]
    omega

/-- What an operator may stand around on the right is an operator of its right operand. -/
theorem GoesAround.rightPower_le (h : op.GoesAround .right other) :
    op.fixity.rightPower ≤ other.fixity.leftPower := by
  rcases h with hlt | ⟨heq, hside⟩
  · unfold Fixity.leftPower Fixity.rightPower
    split <;> split <;> omega
  · rw [Fixity.leftPower, Fixity.rightPower, associativity_eq heq, hside]
    simp only [if_true]
    omega

/-- Powers separate the operators by their precedence. -/
theorem leftPower_lt_of_bindsTighter (h : op.Compares) (hother : other.BindsTighter) :
    op.fixity.leftPower < other.fixity.rightPower :=
  GoesAround.leftPower_lt (Or.inl (h ▸ hother))

theorem Compares.leftPower_eq (h : op.Compares) : op.fixity.leftPower = 7 := by rw [h]; rfl

theorem Compares.rightPower_eq (h : op.Compares) : op.fixity.rightPower = 8 := by rw [h]; rfl

theorem rightPower_le_of_loose (hop : ¬op.Compares) (hloose : ¬op.BindsTighter) :
    op.fixity.rightPower ≤ 7 := by
  have hne : op.fixity.precedence ≠ 4 := fun heq => hop (compares_of_precedence heq)
  have hle : op.fixity.precedence ≤ 4 := Nat.le_of_not_lt hloose
  unfold Fixity.rightPower
  split <;> omega

/-- The report of a comparison that chains with another one. -/
def chainReport (op : Token) : Diagnostic :=
  .errorAt .unexpectedToken
    ("comparison operators cannot be chained; parenthesize before `" ++ op.value ++ "`") op.span [] []

end Token

/-! ### Single tokens -/

/-- The expression that a single token is. -/
def Expr.ofToken? (token : Token) : Option Expr :=
  match token.kind with
  | .literal _ => (Literal.ofToken token).toOption.map .literal
  | .identifier => some (.identifier token.value token.span)
  | .typeIdentifier => some (.constructor token.value token.span)
  | _ => none

/-- Whether an expression may end in front of a token of a kind: nothing can be applied to it, no
field of the expression before can follow and no operator. -/
def TokenKind.endsOperand (kind : TokenKind) : Bool := !opensArgument kind && kind != .dot

/-- Behind a place a stream goes on with pairs of an operator and a single token. -/
def TokenStream.Continues (stream : TokenStream) : Nat → List (Token × Expr) → Prop
  | _, [] => True
  | position, (op, value) :: rest => stream.token position = op ∧ op.kind = .operator ∧
    Expr.ofToken? (stream.token (position + 1)) = some value ∧ stream.Continues (position + 2) rest

/-- From a place on, single tokens and operators alternate in a stream. -/
structure TokenStream.Alternates (stream : TokenStream) (start : Nat) (first : Expr)
    (rest : List (Token × Expr)) : Prop where
  first_eq : Expr.ofToken? (stream.token start) = some first
  continues : stream.Continues (start + 1) rest

/-- The place of a parser that has moved on without a report. -/
def ParserState.at (state : ParserState) (position : Nat) : ParserState :=
  { state with position := position }

namespace TokenStream

variable {stream : TokenStream} {start position : Nat} {first : Expr}
  {before after : List (Token × Expr)}

theorem continues_append : stream.Continues position (before ++ after) ↔
    stream.Continues position before ∧ stream.Continues (position + 2 * before.length) after := by
  induction before generalizing position with
  | nil => simp [Continues]
  | cons pair before ih =>
    obtain ⟨op, value⟩ := pair
    rw [List.cons_append, Continues, Continues, ih, List.length_cons, and_assoc, and_assoc, and_assoc,
      show position + 2 + 2 * before.length = position + 2 * (before.length + 1) by omega]

end TokenStream

/-! ### One operand -/

namespace Parser

variable {α β : Type} {stream : TokenStream} {state final : ParserState} {inner : Nested}
  {value : Expr}

/-- A run that answers, without a report, as far as nesting is allowed, and else is cut short. -/
structure ComesTo {α : Type} (run : Except Abort α × ParserState) (state : ParserState)
    (fits : Prop) (expected : Except Abort α × ParserState) : Prop where
  of_fits : fits → run = expected
  of_not_fits : ¬fits → ∃ position, run = (.error .tooDeep, state.at position)

theorem bind_of_ok {parser : Parser α} {next : α → Parser β} {answer : α}
    (h : parser stream state = (.ok answer, final)) :
    (parser >>= next) stream state = next answer stream final := by
  rw [Setting.bind_apply, h]

theorem bind_of_error {parser : Parser α} {next : α → Parser β} {abort : Abort}
    (h : parser stream state = (.error abort, final)) :
    (parser >>= next) stream state = (.error abort, final) := by
  rw [Setting.bind_apply, h]

/-- What does the same first does the same with what follows. -/
theorem bind_congr_run {parser other : Parser α} {next : α → Parser β} {later : ParserState}
    (h : parser stream state = other stream later) :
    (parser >>= next) stream state = (other >>= next) stream later := by
  rw [Setting.bind_apply, Setting.bind_apply, h]

theorem advance_of_lt (h : state.position + 1 < stream.size) :
    advance stream state = (.ok (stream.token state.position), state.at (state.position + 1)) := by
  show (if state.position + 1 < stream.size then _ else _ : Parser Token) stream state = _
  rw [if_pos h]
  rfl

/-- A loop of which the test fails at once. -/
theorem iterate_of_done {test : Parser Bool} {step : α → Parser α} {start : α} {count : Nat}
    (htest : test stream state = (.ok false, state)) :
    repeatWhile.iterate test step (count + 1) start stream state = (.ok start, state) := by
  rw [repeatWhile.iterate, bind_of_ok htest]
  rfl

theorem iterate_of_more {test : Parser Bool} {step : α → Parser α} {start : α} {count : Nat}
    (htest : test stream state = (.ok true, final)) :
    repeatWhile.iterate test step (count + 1) start stream state =
      (step start >>= repeatWhile.iterate test step count) stream final := by
  rw [repeatWhile.iterate, bind_of_ok htest]
  rfl

theorem repeatWhile_of_done {test : Parser Bool} {step : α → Parser α} {start : α}
    (htest : test stream state = (.ok false, state)) :
    repeatWhile test step start stream state = (.ok start, state) := by
  show repeatWhile.iterate test step stream.size start stream state = _
  obtain ⟨count, hcount⟩ := Nat.exists_eq_succ_of_ne_zero (Nat.ne_of_gt stream.size_pos)
  rw [hcount]
  exact iterate_of_done htest

theorem kind_of_ofToken? {token : Token} (h : Expr.ofToken? token = some value) :
    (∃ kind, token.kind = .literal kind) ∨ token.kind = .identifier ∨
      token.kind = .typeIdentifier := by
  unfold Expr.ofToken? at h
  split at h <;> simp_all

/-- A single token is read as the operand that it is. -/
theorem tokenOperand_of_ofToken?
    (h : Expr.ofToken? (stream.token state.position) = some value) :
    tokenOperand stream state = (.ok value, state.at (state.position + 1)) := by
  have hlt : state.position + 1 < stream.size := TokenStream.succ_lt_size_of_kind rfl fun hend => by
    rcases kind_of_ofToken? h with ⟨kind, hkind⟩ | hkind | hkind <;>
      cases hkind.symm.trans hend
  unfold Expr.ofToken? at h
  rw [tokenOperand, bind_of_ok rfl]
  split at h
  · next kind hkind =>
    rw [hkind]
    dsimp only
    rw [bind_of_ok (advance_of_lt hlt), literalOf]
    cases hliteral : Literal.ofToken (stream.token state.position) with
    | error digits =>
      rw [hliteral] at h
      cases h
    | ok literal =>
      rw [hliteral] at h
      cases h
      rfl
  · next hkind =>
    rw [hkind]
    cases h
    exact bind_of_ok (advance_of_lt hlt)
  · next hkind =>
    rw [hkind]
    cases h
    exact bind_of_ok (advance_of_lt hlt)
  · cases h

theorem startsSuffix_of_endsOperand
    (h : (stream.kind state.position).endsOperand = true) :
    startsSuffix stream state = (.ok false, state) := by
  have hdot : ((stream.token state.position).kind == .dot) = false := by
    rw [TokenKind.endsOperand, Bool.and_eq_true, bne_iff_ne] at h
    exact beq_eq_false_iff_ne.2 h.2
  show (Except.ok ((stream.token state.position).kind == .dot && _), state) = _
  rw [hdot, Bool.false_and]

theorem startsArgument_of_endsOperand
    (h : (stream.kind state.position).endsOperand = true) :
    startsArgument stream state = (.ok false, state) := by
  rw [TokenKind.endsOperand, Bool.and_eq_true, bne_iff_ne, Bool.not_eq_true'] at h
  obtain ⟨hopens, hdot⟩ := h
  rw [startsArgument_apply, show opensArgument (stream.token state.position).kind = false from hopens,
    show ((stream.token state.position).kind == .dot) = false from beq_eq_false_iff_ne.2 hdot]
  rfl

/-- A single token in front of one that ends it is an operand. -/
theorem operand_of_ofToken? (h : Expr.ofToken? (stream.token state.position) = some value)
    (hends : (stream.kind (state.position + 1)).endsOperand = true) :
    operand inner stream state = (.ok value, state.at (state.position + 1)) := by
  have hread := tokenOperand_of_ofToken? h
  have hne : ∀ kind : TokenKind, (∀ literal, kind ≠ .literal literal) → kind ≠ .identifier →
      kind ≠ .typeIdentifier → ((stream.token state.position).kind == kind) = false := by
    intro kind hliteral hname hconstructor
    rw [beq_eq_false_iff_ne]
    rintro rfl
    rcases kind_of_ofToken? h with ⟨literal, hkind⟩ | hkind | hkind
    · exact hliteral literal hkind
    · exact hname hkind
    · exact hconstructor hkind
  have hatom : atom inner stream state = (.ok value, state.at (state.position + 1)) := by
    rw [atom, bind_of_ok rfl]
    rcases kind_of_ofToken? h with ⟨literal, hkind⟩ | hkind | hkind
    · rw [hkind]
      exact hread
    · rw [hkind]
      exact hread
    · have hsquare : ((stream.token (state.position + 1)).kind == .opener .square) = false := by
        refine beq_eq_false_iff_ne.2 fun heq => ?_
        rw [show stream.kind (state.position + 1) = .opener .square from heq] at hends
        cases hends
      rw [hkind]
      dsimp only
      rw [bind_of_ok (show peek 1 stream state = (.ok _, state) from rfl), hsquare, Bool.false_and]
      exact hread
  have hends' : (stream.kind (state.at (state.position + 1)).position).endsOperand = true := hends
  have hsuffixed : postfixExpr inner stream state = (.ok value, state.at (state.position + 1)) := by
    rw [postfixExpr, bind_of_ok hatom]
    exact repeatWhile_of_done (startsSuffix_of_endsOperand hends')
  rw [operand, bind_of_ok rfl]
  rw [hne .operator nofun TokenKind.noConfusion TokenKind.noConfusion, Bool.false_and]
  show application inner stream state = _
  rw [application, bind_of_ok rfl]
  show (if ((stream.token state.position).kind == .keyword .ifWord) = true then _
    else if ((stream.token state.position).kind == .keyword .caseWord) = true then _
    else _ : Parser Expr) stream state = _
  rw [hne (.keyword .ifWord) nofun TokenKind.noConfusion TokenKind.noConfusion,
    hne (.keyword .caseWord) nofun TokenKind.noConfusion TokenKind.noConfusion]
  show (postfixExpr inner >>= _) stream state = _
  rw [bind_of_ok hsuffixed]
  exact repeatWhile_of_done (startsArgument_of_endsOperand hends')

/-! ### One operator -/

/-- Another operator is refused if it is a comparison that chains with the one before. -/
theorem climb_of_chained {soFar : Climb} (h : ((stream.token state.position).fixity.associativity ==
    .none && soFar.chained == some (stream.token state.position).fixity.precedence) = true) :
    climb inner soFar stream state = (.error .failed, { state with
      log := state.log.report (stream.token state.position).chainReport }) := by
  rw [climb, bind_of_ok rfl]
  show (if _ then _ else _ : Parser Climb) stream state = _
  unfold Token.fixity at h
  rw [if_pos h]
  rfl

theorem climb_of_not_chained {soFar : Climb}
    (h : ((stream.token state.position).fixity.associativity == .none &&
      soFar.chained == some (stream.token state.position).fixity.precedence) = false)
    (hlt : state.position + 1 < stream.size)
    (hnext : stream.kind (state.position + 1) ≠ .newline) :
    climb inner soFar stream state =
      (do
        let right ← inner.expression (stream.token state.position).fixity.rightPower
        return {
          left := .binary soFar.left (stream.token state.position).value right
            (soFar.left.span.join right.span)
          chained := if (stream.token state.position).fixity.associativity == .none then
              some (stream.token state.position).fixity.precedence
            else none } : Parser Climb) stream (state.at (state.position + 1)) := by
  have hskip : skipNewlines stream (state.at (state.position + 1)) =
      (.ok (), state.at (state.position + 1)) := by
    show (Except.ok (), state.at (stream.skipWhile (· == .newline) (state.position + 1))) = _
    have hmember : (stream.kind (state.position + 1) == .newline) = false := beq_eq_false_iff_ne.2 hnext
    rw [@TokenStream.skipWhile_eq_self stream (· == .newline) _ hmember]
  rw [climb, bind_of_ok rfl]
  show (if _ then _ else _ : Parser Climb) stream state = _
  unfold Token.fixity at h
  rw [if_neg (Bool.eq_false_iff.1 h)]
  show (advance >>= fun _ => skipNewlines >>= fun _ => _ : Parser Climb) stream state = _
  rw [bind_of_ok (advance_of_lt hlt), bind_of_ok hskip]
  rfl

end Parser

/-! ### Operator trees in a stream -/

namespace OperatorTree

/-- How many tokens a tree takes. -/
def width : OperatorTree → Nat
  | operand _ => 1
  | binary left _ right => left.width + 1 + right.width

/-- The precedence of the outermost operator, if that does not chain. -/
def chained : OperatorTree → Option Nat
  | operand _ => none
  | binary _ op _ =>
    if op.fixity.associativity == .none then some op.fixity.precedence else none

variable {stream : TokenStream} {start : Nat} {tree left right : OperatorTree} {op : Token}

theorem width_eq (tree : OperatorTree) : tree.width = 2 * tree.rest.length + 1 := by
  induction tree with
  | operand => rfl
  | binary left op right ihleft ihright =>
    rw [width, rest, ihleft, ihright, List.length_append, List.length_cons]
    omega

/-- The tokens of a tree stand in a stream from a place on. -/
def StandsAt (tree : OperatorTree) (stream : TokenStream) (start : Nat) : Prop :=
  stream.Alternates start tree.first tree.rest

/-- The parts of a tree stand one behind the other. -/
theorem standsAt_binary : (binary left op right).StandsAt stream start ↔
    left.StandsAt stream start ∧ stream.token (start + left.width) = op ∧ op.kind = .operator ∧
      right.StandsAt stream (start + left.width + 1) := by
  rw [left.width_eq, show start + (2 * left.rest.length + 1) = start + 1 + 2 * left.rest.length by omega]
  constructor
  · rintro ⟨hfirst, hrest⟩
    obtain ⟨hleft, hop, hkind, hvalue, hright⟩ := TokenStream.continues_append.1 hrest
    exact ⟨⟨hfirst, hleft⟩, hop, hkind, hvalue, hright⟩
  · rintro ⟨⟨hfirst, hleft⟩, hop, hkind, hvalue, hright⟩
    exact ⟨hfirst, TokenStream.continues_append.2 ⟨hleft, hop, hkind, hvalue, hright⟩⟩

/-- Something stands behind a tree. -/
theorem StandsAt.lt_size (h : tree.StandsAt stream start) : start + tree.width < stream.size := by
  induction tree generalizing start with
  | operand value =>
    refine TokenStream.succ_lt_size_of_kind rfl fun hend => ?_
    rcases kind_of_ofToken? h.first_eq with ⟨literal, hkind⟩ | hkind | hkind <;>
      cases hkind.symm.trans hend
  | binary left op right _ ihright =>
    have hlt := ihright (standsAt_binary.1 h).2.2.2
    rw [width]
    omega

/-- A tree comes to an end at a place: no operand goes on there, and an operator there is none of
any right operand in the tree. -/
structure EndsAt (tree : OperatorTree) (stream : TokenStream) (stop : Nat) : Prop where
  ends : (stream.kind stop).endsOperand = true
  leftPower_lt : stream.kind stop = .operator → ∀ op ∈ tree.operators,
    (stream.token stop).fixity.leftPower < op.fixity.rightPower

theorem EndsAt.of_right {stop : Nat} (h : (binary left op right).EndsAt stream stop) :
    right.EndsAt stream stop :=
  ⟨h.ends, fun hkind other hmem => h.leftPower_lt hkind other (by
    rw [operators_binary]
    exact List.mem_append_right _ (List.mem_cons_of_mem _ hmem))⟩

/-- On the left of an operator that it may stand in front of, a tree comes to an end. -/
theorem endsAt_left {stop : Nat} (hop : stream.token stop = op) (hkind : op.kind = .operator)
    (h : ∀ other ∈ left.operators, op.GoesAround .left other) : left.EndsAt stream stop where
  ends := by
    rw [TokenStream.kind, hop, hkind]
    rfl
  leftPower_lt _ other hmem := by
    rw [hop]
    exact (h other hmem).leftPower_lt

/-- A grouped tree does not end in a comparison that chains with the one behind it. -/
theorem Grouped.not_chained (h : (binary left op right).Grouped) :
    (op.fixity.associativity == .none && left.chained == some op.fixity.precedence) = false := by
  rw [Bool.and_eq_false_iff, beq_eq_false_iff_ne, beq_eq_false_iff_ne]
  refine Classical.or_iff_not_imp_left.2 fun hnone hchained => ?_
  have hop : op.Compares := Token.compares_of_associativity (Classical.not_not.1 hnone)
  cases left with
  | operand value => cases hchained
  | binary left other right =>
    rw [chained] at hchained
    split at hchained
    · next hother =>
      have hmem : other ∈ (binary left other right).operators := by
        rw [operators_binary]
        exact List.mem_append_right _ List.mem_cons_self
      exact (Token.compares_of_associativity (beq_iff_eq.1 hother)).not_bindsTighter
        ((h.2.2.1 other hmem).bindsTighter hop Associativity.noConfusion)
    · cases hchained

/-! ### Reading a tree -/

variable {budget minPower : Nat} {state : ParserState}

/-- The loop of an expression has read a tree, and has enough rounds left for what follows. -/
def Climbs (tree : OperatorTree) (stream : TokenStream) (budget minPower : Nat)
    (state : ParserState) (start : Nat) : Prop :=
  ∃ count, stream.size ≤ count + (start + tree.width) ∧
    ComesTo (Parser.expression (.ofRules budget (produce budget)) minPower stream (state.at start))
      state (tree.depth ≤ budget + 1)
      ((do
        let whole ← repeatWhile.iterate (startsOperator minPower)
          (climb (.ofRules budget (produce budget))) count
          { left := tree.toExpr, chained := tree.chained }
        return whole.left : Parser Expr) stream (state.at (start + tree.width)))

theorem startsOperator_apply (stream : TokenStream) (state : ParserState) :
    startsOperator minPower stream state =
      (.ok (stream.kind state.position == .operator &&
        decide (minPower ≤ (stream.token state.position).fixity.leftPower)), state) := rfl

/-- Where no operator of at least the power comes next, the loop has come to its end. -/
theorem Climbs.comesTo (h : tree.Climbs stream budget minPower state start)
    (hlt : start + tree.width < stream.size)
    (hstop : stream.kind (start + tree.width) = .operator →
      (stream.token (start + tree.width)).fixity.leftPower < minPower) :
    ComesTo (produce (budget + 1) (.expression minPower) stream (state.at start)) state
      (tree.depth ≤ budget + 1) (.ok tree.toExpr, state.at (start + tree.width)) := by
  obtain ⟨count, hcount, hcomes⟩ := h
  obtain ⟨count, rfl⟩ := Nat.exists_eq_succ_of_ne_zero (n := count) (by omega)
  have hdone : startsOperator minPower stream (state.at (start + tree.width)) =
      (.ok false, state.at (start + tree.width)) := by
    rw [startsOperator_apply]
    congr 2
    rw [Bool.and_eq_false_iff, beq_eq_false_iff_ne, decide_eq_false_iff_not, Nat.not_le]
    exact Classical.or_iff_not_imp_left.2 fun hkind => hstop (Classical.not_not.1 hkind)
  refine ⟨fun hfits => (hcomes.of_fits hfits).trans ?_, hcomes.of_not_fits⟩
  rw [bind_of_ok (iterate_of_done hdone)]
  rfl

theorem comesTo_tooDeep (tree : OperatorTree) (expected : Except Abort Expr × ParserState) :
    ComesTo (produce 0 (.expression minPower) stream (state.at start)) state (tree.depth ≤ 0)
      expected :=
  ⟨fun hle => absurd tree.depth_pos (Nat.not_lt.2 hle), fun _ => ⟨start, rfl⟩⟩

/-- From an operator on, the loop goes into its right operand. -/
theorem Climbs.enter (h : left.Climbs stream budget minPower state start)
    (hgrouped : (binary left op right).Grouped) (hstands : (binary left op right).StandsAt stream start)
    (hpower : minPower ≤ op.fixity.leftPower) :
    ∃ count, stream.size ≤ count + (start + left.width + 1) ∧
      ComesTo (Parser.expression (.ofRules budget (produce budget)) minPower stream (state.at start))
        state (left.depth ≤ budget + 1)
        ((do
          let right ← produce budget (.expression op.fixity.rightPower)
          let whole ← repeatWhile.iterate (startsOperator minPower)
            (climb (.ofRules budget (produce budget))) count
            { left := .binary left.toExpr op.value right (left.toExpr.span.join right.span)
              chained := (binary left op (operand right)).chained }
          return whole.left : Parser Expr) stream (state.at (start + left.width + 1))) := by
  obtain ⟨hleft, hop, hkind, hright⟩ := standsAt_binary.1 hstands
  obtain ⟨count, hcount, hcomes⟩ := h
  have hkind' : stream.kind (start + left.width) = .operator := by
    rw [TokenStream.kind, hop, hkind]
  have hlt : start + left.width + 1 < stream.size :=
    TokenStream.succ_lt_size_of_kind hkind' TokenKind.noConfusion
  have hnext : stream.kind (start + left.width + 1) ≠ .newline := fun heq => by
    rcases kind_of_ofToken? hright.first_eq with ⟨literal, h⟩ | h | h <;> cases h.symm.trans heq
  obtain ⟨count, rfl⟩ := Nat.exists_eq_succ_of_ne_zero (n := count) (by omega)
  refine ⟨count, by omega, ⟨fun hfits => (hcomes.of_fits hfits).trans ?_, hcomes.of_not_fits⟩⟩
  have hmore : startsOperator minPower stream (state.at (start + left.width)) =
      (.ok true, state.at (start + left.width)) := by
    rw [startsOperator_apply]
    congr 2
    rw [Bool.and_eq_true, beq_iff_eq, decide_eq_true_iff]
    refine ⟨hkind', ?_⟩
    show minPower ≤ (stream.token (start + left.width)).fixity.leftPower
    rwa [hop]
  have hclimb : climb (.ofRules budget (produce budget))
      { left := left.toExpr, chained := left.chained } stream (state.at (start + left.width)) = _ :=
    climb_of_not_chained (by
      show ((stream.token (start + left.width)).fixity.associativity == .none &&
        left.chained == some (stream.token (start + left.width)).fixity.precedence) = false
      rw [hop]
      exact hgrouped.not_chained) hlt hnext
  rw [bind_congr_run ((iterate_of_more hmore).trans (bind_congr_run hclimb))]
  show _ = (_ : Parser Expr) stream ((state.at (start + left.width)).at (start + left.width + 1))
  simp only [bind_assoc, pure_bind]
  rw [show (state.at (start + left.width)).position = start + left.width from rfl, hop]
  rfl

/-- A tree that stands in a stream is read. -/
theorem climbs (tree : OperatorTree) (hgrouped : tree.Grouped) (hstands : tree.StandsAt stream start)
    (hpower : ∀ op ∈ tree.operators, minPower ≤ op.fixity.leftPower)
    (hends : tree.EndsAt stream (start + tree.width)) :
    tree.Climbs stream budget minPower state start := by
  induction tree generalizing budget minPower start with
  | operand value =>
    refine ⟨stream.size, Nat.le_add_right .., fun _ => ?_, fun hdeep => ?_⟩
    · have hread : Parser.operand (.ofRules budget (produce budget)) stream (state.at start) = _ :=
        operand_of_ofToken? hstands.first_eq hends.ends
      rw [Parser.expression, bind_of_ok hread]
      rfl
    · exact absurd (Nat.le_add_left ..) hdeep
  | binary left op right ihleft ihright =>
    obtain ⟨hleft, hop, hkind, hright⟩ := standsAt_binary.1 hstands
    have hwidth : start + (binary left op right).width = start + left.width + 1 + right.width := by
      rw [width]
      omega
    rw [operators_binary] at hpower
    have hclimbs : left.Climbs stream budget minPower state start := ihleft hgrouped.1 hleft
      (fun other hmem => hpower other (List.mem_append_left _ hmem))
      (endsAt_left hop hkind hgrouped.2.2.1)
    obtain ⟨count, hcount, hcomes⟩ := hclimbs.enter hgrouped hstands
      (hpower op (List.mem_append_right _ List.mem_cons_self))
    have hlt := hright.lt_size
    have hoperand : ComesTo (produce budget (.expression op.fixity.rightPower) stream
        (state.at (start + left.width + 1))) state (right.depth ≤ budget)
        (.ok right.toExpr, state.at (start + left.width + 1 + right.width)) := by
      cases budget with
      | zero => exact comesTo_tooDeep right _
      | succ budget =>
        refine (ihright hgrouped.2.1 hright (fun other hmem => (hgrouped.2.2.2 other hmem).rightPower_le)
          (hwidth ▸ hends.of_right)).comesTo hlt fun hkind => ?_
        rw [← hwidth] at hkind ⊢
        exact hends.leftPower_lt hkind op (by
          rw [operators_binary]
          exact List.mem_append_right _ List.mem_cons_self)
    refine ⟨count, by omega, ⟨fun hfits => ?_, fun hdeep => ?_⟩⟩
    · rw [depth, Nat.max_le, Nat.succ_le_succ_iff] at hfits
      rw [hcomes.of_fits hfits.1, bind_of_ok (hoperand.of_fits hfits.2), hwidth]
      rfl
    · by_cases hfits : left.depth ≤ budget + 1
      · obtain ⟨position, hcut⟩ := hoperand.of_not_fits fun hle => hdeep (by
          rw [depth, Nat.max_le]
          exact ⟨hfits, Nat.succ_le_succ hle⟩)
        exact ⟨position, by rw [hcomes.of_fits hfits, bind_of_error hcut]⟩
      · exact hcomes.of_not_fits hfits

/-! ### Chains -/

/-- An outermost operator that binds at least as tight as comparisons is one, if a comparison is
exposed. -/
theorem Grouped.compares_of_exposed (h : (binary left op right).Grouped)
    (hexposed : Exposed (binary left op right).operators)
    (hop : op.Compares ∨ op.BindsTighter) : op.Compares := by
  refine hop.resolve_right fun htighter => ?_
  obtain ⟨before, first, between, heq, hfirst, -⟩ := hexposed
  have hmem : first ∈ left.operators ++ op :: right.operators := by
    rw [← operators_binary, heq]
    exact List.mem_append_right _ List.mem_cons_self
  exact hfirst.not_bindsTighter (Nat.lt_of_lt_of_le htighter (IsRoot.le ⟨h.2.2.1, h.2.2.2⟩ first hmem))

/-- Behind a tree with an exposed comparison, another one is refused. -/
theorem comesTo_chainReport (tree : OperatorTree) (hgrouped : tree.Grouped)
    (hstands : tree.StandsAt stream start)
    (hpower : ∀ op ∈ tree.operators, minPower ≤ op.fixity.leftPower) (hle : minPower ≤ 7)
    (hexposed : Exposed tree.operators) (hop : stream.token (start + tree.width) = op)
    (hkind : op.kind = .operator) (hcompares : op.Compares) :
    ComesTo (produce budget (.expression minPower) stream (state.at start)) state (tree.depth ≤ budget)
      (.error .failed, { state.at (start + tree.width) with
        log := state.log.report op.chainReport }) := by
  induction tree generalizing budget minPower start with
  | operand value =>
    obtain ⟨before, first, between, heq, -⟩ := hexposed
    exact absurd heq.symm (List.append_ne_nil_of_right_ne_nil _ (List.cons_ne_nil _ _))
  | binary left root right ihleft ihright =>
    cases budget with
    | zero => exact comesTo_tooDeep _ _
    | succ budget =>
      obtain ⟨hleft, hroot, hrootkind, hright⟩ := standsAt_binary.1 hstands
      have hwidth : start + (binary left root right).width =
          start + left.width + 1 + right.width := by
        rw [width]
        omega
      by_cases htight : root.Compares ∨ root.BindsTighter
      · -- the comparison ends the right operand, and the loop that has read the whole tree meets it
        have hroot : root.Compares := hgrouped.compares_of_exposed hexposed htight
        have hlt := hstands.lt_size
        have hbinds : ∀ other ∈ (binary left root right).operators,
            op.fixity.leftPower < other.fixity.rightPower := fun other hmem => by
          rw [operators_binary] at hmem
          have hle : 4 ≤ other.fixity.precedence :=
            hroot.precedence_eq ▸ IsRoot.le ⟨hgrouped.2.2.1, hgrouped.2.2.2⟩ other hmem
          rcases Nat.lt_or_eq_of_le hle with htighter | heq
          · exact Token.leftPower_lt_of_bindsTighter hcompares htighter
          · rw [hcompares.leftPower_eq, (Token.compares_of_precedence heq.symm).rightPower_eq]
            exact Nat.lt_succ_self 7
        have hclimbs : (binary left root right).Climbs stream budget minPower state start :=
          climbs _ hgrouped hstands hpower
            ⟨by rw [TokenStream.kind, hop, hkind]; rfl, fun _ => by rwa [hop]⟩
        obtain ⟨count, hcount, hcomes⟩ := hclimbs
        obtain ⟨count, rfl⟩ := Nat.exists_eq_succ_of_ne_zero (n := count) (by omega)
        refine ⟨fun hfits => (hcomes.of_fits hfits).trans ?_, hcomes.of_not_fits⟩
        have hmore : startsOperator minPower stream
            (state.at (start + (binary left root right).width)) =
              (.ok true, state.at (start + (binary left root right).width)) := by
          rw [startsOperator_apply]
          congr 2
          rw [Bool.and_eq_true, beq_iff_eq, decide_eq_true_iff]
          show (stream.token (start + (binary left root right).width)).kind = .operator ∧
            minPower ≤ (stream.token (start + (binary left root right).width)).fixity.leftPower
          rw [hop, hcompares.leftPower_eq]
          exact ⟨hkind, hle⟩
        have hclimb : climb (.ofRules budget (produce budget))
            { left := (binary left root right).toExpr
              chained := (binary left root right).chained } stream
            (state.at (start + (binary left root right).width)) = _ :=
          climb_of_chained (by
            show ((stream.token (start + (binary left root right).width)).fixity.associativity ==
              .none && (binary left root right).chained ==
                some (stream.token (start + (binary left root right).width)).fixity.precedence) = true
            rw [hop, hcompares, chained, hroot]
            rfl)
        rw [bind_of_error ((iterate_of_more hmore).trans (bind_of_error hclimb))]
        subst hop
        rfl
      · obtain ⟨hnot, hloose⟩ := not_or.1 htight
        rw [operators_binary] at hexposed hpower
        have hclimbs : left.Climbs stream budget minPower state start := climbs left hgrouped.1 hleft
          (fun other hmem => hpower other (List.mem_append_left _ hmem))
          (endsAt_left hroot hrootkind hgrouped.2.2.1)
        obtain ⟨count, hcount, hcomes⟩ := hclimbs.enter hgrouped hstands
          (hpower root (List.mem_append_right _ List.mem_cons_self))
        have hoperand : ComesTo (produce budget (.expression root.fixity.rightPower) _ _) _ _ _ :=
          ihright hgrouped.2.1 hright
          (fun other hmem => (hgrouped.2.2.2 other hmem).rightPower_le)
          (Token.rightPower_le_of_loose hnot hloose) (hexposed.of_append hnot hloose)
          (by rw [← hwidth, hop])
        refine ⟨fun hfits => ?_, fun hdeep => ?_⟩
        · rw [depth, Nat.max_le, Nat.succ_le_succ_iff] at hfits
          refine (hcomes.of_fits hfits.1).trans ?_
          rw [bind_of_error (hoperand.of_fits hfits.2), hwidth]
          rfl
        · by_cases hfits : left.depth ≤ budget + 1
          · obtain ⟨position, hcut⟩ := hoperand.of_not_fits fun hle => hdeep (by
              rw [depth, Nat.max_le]
              exact ⟨hfits, Nat.succ_le_succ hle⟩)
            exact ⟨position, (hcomes.of_fits hfits).trans (by rw [bind_of_error hcut]; rfl)⟩
          · exact hcomes.of_not_fits hfits

end OperatorTree

/-! ### Sequences of operators and operands -/

namespace Parser

/-- Where single tokens and operators alternate, an expression is the one tree that is grouped as the
operators say. Comparisons that chain are an error, and the only one, at the first of them that has
another one for its left operand. Only the nesting that is left can cut this short. -/
theorem expression_alternates {stream : TokenStream} {state : ParserState} {first : Expr}
    {rest : List (Token × Expr)} (budget : Nat)
    (hstands : stream.Alternates state.position first rest)
    (hends : (stream.kind (state.position + 2 * rest.length + 1)).endsOperand = true)
    (hstop : stream.kind (state.position + 2 * rest.length + 1) ≠ .operator) :
    (Unchained (rest.map Prod.fst) → ∃ tree : OperatorTree,
      tree.Grouped ∧ tree.first = first ∧ tree.rest = rest ∧
      (∀ other : OperatorTree, other.Grouped → other.first = first → other.rest = rest →
        other = tree) ∧
      ComesTo (produce budget (.expression 0) stream state) state (tree.depth ≤ budget)
        (.ok tree.toExpr, state.at (state.position + 2 * rest.length + 1))) ∧
    (¬Unchained (rest.map Prod.fst) → ∃ (before : List (Token × Expr)) (op : Token)
      (value : Expr) (after : List (Token × Expr)) (tree : OperatorTree),
      rest = before ++ (op, value) :: after ∧ Unchained (before.map Prod.fst) ∧
      Chains (before.map Prod.fst) op ∧
      tree.Grouped ∧ tree.first = first ∧ tree.rest = before ∧
      ComesTo (produce budget (.expression 0) stream state) state (tree.depth ≤ budget)
        (.error .failed, { state.at (state.position + 2 * before.length + 1) with
          log := state.log.report op.chainReport })) := by
  constructor
  · intro hunchained
    obtain ⟨tree, hgrouped, rfl, rfl⟩ := OperatorTree.exists_grouped first rest hunchained
    refine ⟨tree, hgrouped, rfl, rfl, fun other hother hfirst hrest =>
      OperatorTree.eq_of_grouped hother hgrouped hfirst hrest, ?_⟩
    have hwidth : state.position + 2 * tree.rest.length + 1 = state.position + tree.width := by
      rw [tree.width_eq, Nat.add_assoc]
    rw [hwidth] at hends hstop ⊢
    cases budget with
    | zero => exact OperatorTree.comesTo_tooDeep tree _
    | succ budget =>
      have hread : tree.StandsAt stream state.position := hstands
      have hclimbs : tree.Climbs stream budget 0 state state.position :=
        tree.climbs hgrouped hread (fun _ _ => Nat.zero_le _) ⟨hends, fun hkind => absurd hkind hstop⟩
      exact hclimbs.comesTo hread.lt_size fun hkind => absurd hkind hstop
  · intro hchained
    obtain ⟨operators, op, others, heq, hunchained, hchains⟩ := exists_first_chain hchained
    obtain ⟨before, pairs, rfl, rfl, hpairs⟩ := List.map_eq_append_iff.1 heq
    obtain ⟨⟨op, value⟩, after, rfl, rfl, rfl⟩ := List.map_eq_cons_iff.1 hpairs
    obtain ⟨tree, hgrouped, rfl, rfl⟩ := OperatorTree.exists_grouped first before hunchained
    have hwidth : state.position + 2 * tree.rest.length + 1 = state.position + tree.width := by
      rw [tree.width_eq, Nat.add_assoc]
    obtain ⟨hbefore, hop, hkind, -⟩ := TokenStream.continues_append.1 hstands.continues
    refine ⟨tree.rest, op, value, after, tree, rfl, hunchained, hchains, hgrouped, rfl, rfl, ?_⟩
    rw [hwidth]
    refine OperatorTree.comesTo_chainReport tree hgrouped
      ⟨hstands.first_eq, hbefore⟩ (fun _ _ => Nat.zero_le _) (Nat.zero_le 7) hchains.1 ?_ hkind
      hchains.2
    rw [← hop, tree.width_eq]
    congr 1
    omega

/-- In `a < b + c == d` the second comparison has the first one for its left operand. -/
theorem exists_expression_alternates :
    ∃ stream ∈ (Token.ofText "a < b + c == d" "f").toOption.bind TokenStream.ofTokens?,
      ∃ first rest, stream.Alternates 0 first rest ∧ ¬Unchained (rest.map Prod.fst) ∧
      ∃ (before : List (Token × Expr)) (op : Token) (value : Expr) (after : List (Token × Expr))
        (tree : OperatorTree), rest = before ++ (op, value) :: after ∧ tree.rest = before ∧
        ComesTo (produce nestingBudget (.expression 0) stream .initial) .initial
          (tree.depth ≤ nestingBudget)
          (.error .failed, { ParserState.initial.at (2 * before.length + 1) with
            log := ParserState.initial.log.report op.chainReport }) := by
  obtain ⟨stream, hstream, hkinds, hvalues⟩ :
      ∃ stream ∈ (Token.ofText "a < b + c == d" "f").toOption.bind TokenStream.ofTokens?,
        (List.range 8).map stream.kind = [.identifier, .operator, .identifier, .operator,
          .identifier, .operator, .identifier, .endOfFile] ∧
        [1, 3, 5].map (fun position => (stream.token position).value) = ["<", "+", "=="] := by
    decide +kernel
  simp only [List.range, List.range.loop, List.map_cons, List.map_nil, List.cons.injEq, and_true]
    at hkinds hvalues
  obtain ⟨h0, h1, h2, h3, h4, h5, h6, h7⟩ := hkinds
  obtain ⟨hless, hplus, hequal⟩ := hvalues
  have hname : ∀ position, stream.kind position = .identifier →
      Expr.ofToken? (stream.token position) =
        some (.identifier (stream.token position).value (stream.token position).span) := by
    intro position hkind
    rw [Expr.ofToken?, show (stream.token position).kind = .identifier from hkind]
  have hstands : stream.Alternates 0 _ [(stream.token 1, _), (stream.token 3, _),
      (stream.token 5, _)] :=
    ⟨hname 0 h0, rfl, h1, hname 2 h2, rfl, h3, hname 4 h4, rfl, h5, hname 6 h6, trivial⟩
  have hless : (stream.token 1).Compares := by
    rw [Token.Compares, Token.fixity, hless]
    decide
  have hplus : (stream.token 3).BindsTighter := by
    rw [Token.BindsTighter, Token.fixity, hplus]
    decide
  have hequal : (stream.token 5).Compares := by
    rw [Token.Compares, Token.fixity, hequal]
    decide
  have hchained : ¬Unchained [stream.token 1, stream.token 3, stream.token 5] := fun hunchained =>
    hunchained [stream.token 1, stream.token 3] (stream.token 5) [] rfl
      ⟨⟨[], stream.token 1, [stream.token 3], rfl, hless, by simpa using hplus⟩, hequal⟩
  obtain ⟨before, op, value, after, tree, heq, -, -, -, -, htree, hcomes⟩ :=
    (@expression_alternates _ .initial _ _ nestingBudget hstands
      (congrArg TokenKind.endsOperand h7) (fun h => by cases h7.symm.trans h)).2 hchained
  refine ⟨stream, hstream, _, _, hstands, hchained, before, op, value, after, tree, heq, htree, ?_⟩
  rwa [show ParserState.initial.position = 0 from rfl, Nat.zero_add] at hcomes

end Parser

end SableFrontend
