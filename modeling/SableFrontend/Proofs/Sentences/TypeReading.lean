import SableFrontend.Proofs.Grammar.Entry
import SableFrontend.Proofs.Parallel.Stream
import SableFrontend.Proofs.Sentences.Type
import SableFrontend.Proofs.Sentences.Words

/-!
All that the grammar of types derives is read. Where a type begins the parser looks for the sign `=>` of a
context, over any number of tokens; each stretch of tokens that the grammar derives is passed by this search
(`Stretch`), so it finds a sign just if the type has a context. All other choices are made by one token.
-/

namespace SableFrontend

namespace TokenStream

/-! ### What the search for a context passes -/

/-- Tokens that are passed by the search for the sign of a context, where at least `least` delimiters are
open. The delimiters among them match, and there are no separators. -/
structure Stretch (stream : TokenStream) (least start stop : Nat) : Prop where
  lt : start < stop
  lt_size : stop < stream.size
  passed : ∀ depth, least ≤ depth → stream.arrowAhead depth start = stream.arrowAhead depth stop
  nested : WellNested (stream.kindsBetween start stop)
  joined : ∀ position, start ≤ position → position < stop → (stream.kind position).isSeparator = false

variable {stream : TokenStream} {least start middle stop : Nat}

namespace Stretch

theorem mono {more : Nat} (h : stream.Stretch least start stop) (hle : least ≤ more) :
    stream.Stretch more start stop :=
  ⟨h.lt, h.lt_size, fun depth hdepth => h.passed depth (Nat.le_trans hle hdepth), h.nested,
    h.joined⟩

theorem append (h : stream.Stretch least start middle) (h' : stream.Stretch least middle stop) :
    stream.Stretch least start stop := by
  refine ⟨Nat.lt_trans h.lt h'.lt, h'.lt_size, fun depth hdepth =>
    (h.passed depth hdepth).trans (h'.passed depth hdepth), ?_, fun position hle hlt => ?_⟩
  · have hnested := h'.nested
    rw [kindsBetween_split (Nat.le_refl middle) h'.lt, kindsBetween_self, List.nil_append] at hnested
    rw [kindsBetween_split (Nat.le_of_lt h.lt) h'.lt]
    exact h.nested.append hnested
  · rcases Nat.lt_or_ge position middle with hmiddle | hmiddle
    · exact h.joined position hle hmiddle
    · exact h'.joined position hmiddle hlt

theorem token {kind : TokenKind} (h : stream.kind start = kind) (hplain : kind.isPlain = true)
    (hend : kind ≠ .endOfFile) (hjoined : kind.isSeparator = false) :
    stream.Stretch 1 start (start + 1) := by
  have hsize := succ_lt_size_of_kind h hend
  have hnested : WellNested (stream.kindsBetween start (start + 1)) := by
    rw [kindsBetween_split (Nat.le_refl start) (Nat.lt_succ_self start), kindsBetween_self, kindsBetween_self]
    exact .plain (h ▸ hplain) .nil
  have halone : ∀ position, start ≤ position → position < start + 1 →
      (stream.kind position).isSeparator = false := fun position hle hlt => by
    rw [Nat.le_antisymm (Nat.le_of_lt_succ hlt) hle, h, hjoined]
  refine ⟨Nat.lt_succ_self _, hsize, fun depth hdepth => ?_, hnested, halone⟩
  rw [arrowAhead_eq (Nat.lt_of_succ_lt hsize)]
  have hne : depth ≠ 0 := Nat.ne_of_gt hdepth
  rw [show (stream.token start).kind = kind from h]
  cases kind <;> first | exact if_neg hne | exact Bool.noConfusion hplain

/-- A token that ends no context and is not the sign of one. -/
theorem mild {kind : TokenKind} (h : stream.kind start = kind) (hplain : kind.isPlain = true)
    (hsign : (stream.token start).isOperator "=>" = false) (hends : endsContext kind = false) :
    stream.Stretch 0 start (start + 1) := by
  have hjoined : kind.isSeparator = false := by
    cases kind <;> first | rfl | exact Bool.noConfusion hends
  have htoken := token h hplain (fun heq => by rw [heq] at hends; cases hends) hjoined
  refine ⟨htoken.lt, htoken.lt_size, fun depth _ => ?_, htoken.nested, htoken.joined⟩
  rcases depth with _ | depth
  · rw [arrowAhead_eq (Nat.lt_trans htoken.lt htoken.lt_size), hsign,
      show (stream.token start).kind = kind from h]
    cases kind <;> first | rfl | exact Bool.noConfusion hplain | exact Bool.noConfusion hends
  · exact htoken.passed _ (Nat.succ_pos depth)

/-- Brackets are passed at every depth, if what is inside of them is passed inside of brackets. -/
theorem enclosed {bracket : Bracket} (hopen : stream.kind start = .opener bracket)
    (h : start + 1 = middle ∨ stream.Stretch 1 (start + 1) middle)
    (hclose : stream.kind middle = .closer bracket) : stream.Stretch 0 start (middle + 1) := by
  have hstart := succ_lt_size_of_kind hopen TokenKind.noConfusion
  have hmiddle := succ_lt_size_of_kind hclose TokenKind.noConfusion
  have hle : start + 1 ≤ middle := h.elim Nat.le_of_eq fun h => Nat.le_of_lt h.lt
  have hinner : WellNested (stream.kindsBetween (start + 1) middle) := by
    rcases h with rfl | h
    · rw [kindsBetween_self]
      exact .nil
    · exact h.nested
  have hnested : WellNested (stream.kindsBetween start (middle + 1)) := by
    rw [kindsBetween_split (Nat.le_refl start) (by omega), kindsBetween_self, hopen,
      kindsBetween_split hle (Nat.lt_succ_self middle), kindsBetween_self, hclose]
    exact .pair bracket hinner .nil
  have hjoined : ∀ position, start ≤ position → position < middle + 1 →
      (stream.kind position).isSeparator = false := by
    intro position hfirst hlast
    rcases Nat.eq_or_lt_of_le hfirst with rfl | hinside
    · rw [hopen]; rfl
    rcases Nat.eq_or_lt_of_le (Nat.le_of_lt_succ hlast) with rfl | hbefore
    · rw [hclose]; rfl
    · exact (h.resolve_left (by omega)).joined position hinside hbefore
  refine ⟨Nat.lt_succ_of_lt hle, hmiddle, fun depth _ => ?_, hnested, hjoined⟩
  have hinside : stream.arrowAhead (depth + 1) (start + 1) = stream.arrowAhead (depth + 1) middle := by
    rcases h with rfl | h
    · rfl
    · exact h.passed _ (Nat.succ_pos depth)
  rw [arrowAhead_eq (Nat.lt_of_succ_lt hstart), show (stream.token start).kind = _ from hopen]
  refine hinside.trans ?_
  rw [arrowAhead_eq (Nat.lt_of_succ_lt hmiddle), show (stream.token middle).kind = _ from hclose]
  rfl

theorem repeated {α : Type} {item : Nat → Nat → α → Prop} {answers : List α}
    (h : Repeated item start stop answers)
    (hitem : ∀ {start stop answer}, item start stop answer → stream.Stretch least start stop) :
    start = stop ∨ stream.Stretch least start stop := by
  induction h with
  | none => exact Or.inl rfl
  | more hfirst _ ih =>
    rcases ih with rfl | hrest
    · exact Or.inr (hitem hfirst)
    · exact Or.inr ((hitem hfirst).append hrest)

theorem listed {α : Type} {item : Nat → Nat → α → Prop} {answers : List α}
    (h : stream.Listed item start stop answers)
    (hitem : ∀ {start stop answer}, item start stop answer → stream.Stretch 1 start stop) :
    stream.Stretch 1 start stop := by
  induction h with
  | one hfirst => exact hitem hfirst
  | more hfirst hcomma _ ih => exact ((hitem hfirst).append (token hcomma rfl TokenKind.noConfusion rfl)).append ih

end Stretch

end TokenStream

/-- How many delimiters are open at least, where the search for a context passes what is derived by a
rule. -/
def TypeRule.least : TypeRule → Nat
  | .type => 1
  | .arrow | .application => 0

namespace TypeGrammar

open TokenStream

variable {stream : TokenStream} {nested : Bool} {reads : TypeRule → Nat → Nat → TypeExpr → Prop}
  {start stop : Nat} {value : TypeExpr}

section

variable (hreads : ∀ {rule start stop value}, reads rule start stop value →
  stream.Stretch rule.least start stop)

include hreads

theorem Atom.stretch (h : Atom stream reads start stop value) : stream.Stretch 0 start stop := by
  cases h with
  | var h => exact .mild h rfl (by simp [Token.isOperator, show (stream.token start).kind = _ from h]) rfl
  | con h => exact .mild h rfl (by simp [Token.isOperator, show (stream.token start).kind = _ from h]) rfl
  | unit hopen hclose => exact .enclosed hopen (Or.inl rfl) hclose
  | round hopen h hclose => exact .enclosed hopen (Or.inr (hreads h)) hclose
  | tuple hopen h hclose => exact .enclosed hopen (Or.inr (.listed h hreads)) hclose

theorem Applied.stretch (h : Applied stream reads start stop value) : stream.Stretch 0 start stop := by
  induction h with
  | atom h => exact h.stretch hreads
  | app _ hargument ih => exact ih.append (hargument.stretch hreads)

theorem Constrained.stretch {constraint : Constraint} (h : Constrained stream reads start stop constraint) :
    stream.Stretch 0 start stop := by
  cases h with
  | of hname h =>
    have hstart : stream.Stretch 0 start (start + 1) :=
      .mild hname rfl (by simp [Token.isOperator, show (stream.token start).kind = _ from hname]) rfl
    rcases Stretch.repeated h (fun hatom => Atom.stretch hreads hatom) with rfl | hrest
    · exact hstart
    · exact hstart.append hrest

theorem Context.stretch {constraints : List Constraint} (h : Context stream reads start stop constraints) :
    stream.Stretch 0 start stop := by
  cases h with
  | one h => exact h.stretch hreads
  | round hopen h hclose =>
    exact .enclosed hopen (Or.inr (.listed h fun h =>
      (Constrained.stretch hreads h).mono (Nat.zero_le 1))) hclose

theorem Effects.stretch {entries : List TypeExpr} {close : Nat}
    (hopen : stream.kind start = .opener .square) (h : Effects stream reads (start + 1) close entries)
    (hclose : stream.kind close = .closer .square) : stream.Stretch 0 start (close + 1) := by
  cases h with
  | none => exact .enclosed hopen (Or.inl rfl) hclose
  | some h _ =>
    exact .enclosed hopen (Or.inr (.listed h fun h => (hreads h).mono (Nat.zero_le 1))) hclose

theorem Application.stretch (h : Application stream nested reads start stop value) :
    stream.Stretch 0 start stop := by
  induction h with
  | applied h => exact h.stretch hreads
  | effects hopen h hclose => exact h.stretch hreads hopen hclose
  | result hopen h hclose hresult => exact (h.stretch hreads hopen hclose).append (hresult.stretch hreads)
  | chained _ hopen h hclose _ ih => exact (h.stretch hreads hopen hclose).append ih

theorem Arrow.stretch (h : Arrow stream nested reads start stop value) : stream.Stretch 0 start stop := by
  cases h with
  | one h => exact h.stretch hreads
  | arrow h hsign hresult =>
    obtain ⟨hkind, hvalue⟩ := Token.isOperator_iff.1 hsign
    have hmild := Stretch.mild hkind rfl (by simp [Token.isOperator, hvalue]) rfl
    exact ((h.stretch hreads).append hmild).append (hreads hresult)

theorem Whole.stretch (h : Whole stream nested reads start stop value) : stream.Stretch 1 start stop := by
  cases h with
  | plain h => exact (h.stretch hreads).mono (Nat.zero_le 1)
  | qualified h hsign hbody =>
    obtain ⟨hkind, -⟩ := Token.isOperator_iff.1 hsign
    exact (((h.stretch hreads).mono (Nat.zero_le 1)).append (.token hkind rfl TokenKind.noConfusion rfl)).append
      ((hbody.stretch hreads).mono (Nat.zero_le 1))

end

theorem Derives.stretch {budget : Nat} {rule : TypeRule} (h : Derives stream nested budget rule start stop value) :
    stream.Stretch rule.least start stop := by
  induction budget generalizing rule start stop value with
  | zero => cases h
  | succ budget ih =>
    cases rule with
    | type => exact Whole.stretch ih h
    | arrow => exact Arrow.stretch ih h
    | application => exact Application.stretch ih h

end TypeGrammar

/-! ### What belongs to the grammar is read -/

/-- What may stand behind what is derived by a rule: behind an application no further argument, behind any
other type only a comma, a closer or the end. -/
def TypeRule.Follows : TypeRule → TokenKind → Prop
  | .application, kind => Parser.opensTypeAtom kind = false
  | .type, kind | .arrow, kind => kind = .comma ∨ kind.isCloser = true ∨ kind = .endOfFile

namespace TypeRule

theorem Follows.opensTypeAtom {rule : TypeRule} {kind : TokenKind} (h : rule.Follows kind) :
    Parser.opensTypeAtom kind = false := by
  cases rule with
  | application => exact h
  | type | arrow =>
    rcases h with rfl | hclose | rfl
    · rfl
    · cases kind <;> first | rfl | exact Bool.noConfusion hclose
    · rfl

theorem Follows.of_type {rule : TypeRule} {kind : TokenKind} (h : TypeRule.Follows .type kind) :
    rule.Follows kind := by
  cases rule with
  | application => exact h.opensTypeAtom
  | type | arrow => exact h

theorem Follows.isOperator {token : Token} {spelling : String} (h : TypeRule.Follows .type token.kind) :
    token.isOperator spelling = false := by
  refine Bool.eq_false_iff.2 fun hsign => ?_
  rw [(Token.isOperator_iff.1 hsign).1] at h
  rcases h with h | h | h <;> cases h

/-- At the end of a type the search for a context ends in vain. -/
theorem Follows.arrowAhead {stream : TokenStream} {position : Nat}
    (h : TypeRule.Follows .type (stream.kind position)) (hlt : position < stream.size) :
    stream.arrowAhead 0 position = false := by
  rw [TokenStream.arrowAhead_eq hlt, h.isOperator]
  change TypeRule.Follows .type (stream.token position).kind at h
  rcases h with hkind | hkind | hkind
  · rw [hkind]; rfl
  · cases heq : (stream.token position).kind <;> rw [heq] at hkind <;>
      first | rfl | exact Bool.noConfusion hkind
  · rw [hkind]; rfl

end TypeRule

namespace Parser

open TokenStream TypeGrammar

variable {stream : TokenStream} {inner : TypeRule → Parser TypeExpr}
  {reads : TypeRule → Nat → Nat → TypeExpr → Prop} {start stop : Nat} {value : TypeExpr}

theorem opensTypeAtom_of_atom (h : Atom stream reads start stop value) :
    opensTypeAtom (stream.kind start) = true := by
  cases h with
  | var h | con h => rw [h]; rfl
  | unit hopen | round hopen | tuple hopen => rw [hopen]; rfl

theorem opensTypeAtom_of_applied (h : Applied stream reads start stop value) :
    opensTypeAtom (stream.kind start) = true := by
  induction h with
  | atom h => exact opensTypeAtom_of_atom h
  | app _ _ ih => exact ih

/-- What is derived by each rule is passed by the search for a context, does not begin with a closer, and is
read by the parser for the rule. -/
structure Legible (stream : TokenStream) (inner : TypeRule → Parser TypeExpr)
    (reads : TypeRule → Nat → Nat → TypeExpr → Prop) : Prop where
  stretch : ∀ {rule start stop value}, reads rule start stop value → stream.Stretch rule.least start stop
  opens : ∀ {rule start stop value}, reads rule start stop value →
    (stream.kind start).isCloser = false
  consumes : ∀ {rule start stop value}, reads rule start stop value →
    rule.Follows (stream.kind stop) → stream.Consumes (inner rule) start value stop

section

variable (h : Legible stream inner reads)

include h

theorem consumes_roundType (hopen : stream.kind start = .opener .round)
    (hatom : Atom stream reads start stop value) : stream.Consumes (roundType inner) start value stop := by
  refine .bind (.advance (by rw [hopen]; exact TokenKind.noConfusion)) ?_
  have hno : ∀ {middle value}, reads .type (start + 1) middle value →
      stream.Consumes (isAt (.closer .round)) (start + 1) false (start + 1) := by
    intro middle value hvalue
    refine .isAt_eq (beq_eq_false_iff_ne.2 fun hkind => ?_)
    have hopens := h.opens hvalue
    rw [hkind] at hopens
    cases hopens
  cases hatom with
  | var hkind | con hkind => rw [hopen] at hkind; cases hkind
  | unit _ hclose =>
    refine .bind (.isAt_eq (beq_iff_eq.2 hclose)) (.ite_pos rfl ?_)
    exact .bind (.advance (by rw [hclose]; exact TokenKind.noConfusion)) (.bind .spanFrom .pure)
  | round _ hfirst hclose =>
    refine .bind (hno hfirst) (.ite_neg Bool.false_ne_true ?_)
    refine .bind (h.consumes hfirst (Or.inr (Or.inl (by rw [hclose]; rfl)))) ?_
    refine .bind (.isAt_eq (by rw [hclose])) (.ite_pos rfl ?_)
    exact .bind (.expect hclose TokenKind.noConfusion) .pure
  | tuple _ hlisted hclose =>
    have hbehind : ∀ {start stop answer}, stream.kind start = .comma → reads .type (start + 1) stop answer →
        TypeRule.Follows .type (stream.kind stop) →
        stream.Consumes (advance >>= fun _ => inner .type) start answer stop := fun hcomma hread hfollows =>
      .bind (.advance (by rw [hcomma]; exact TokenKind.noConfusion)) (h.consumes hread hfollows)
    obtain ⟨head, rest, middle, heq, hhead, hfollows, hplace, hrest⟩ := hlisted.exists_consumes
      (fun hread => (h.stretch hread).lt) hbehind
      (Nat.lt_of_succ_lt (succ_lt_size_of_kind hclose TokenKind.noConfusion)) (Or.inl rfl)
      (Or.inr (Or.inl (by rw [hclose]; rfl))) (by rw [hclose]; exact TokenKind.noConfusion)
    cases heq
    have hcomma : stream.kind middle = .comma := hplace.resolve_right nofun
    refine .bind (hno hhead) (.ite_neg Bool.false_ne_true (.bind (h.consumes hhead hfollows) ?_))
    refine .bind (.isAt_eq (by rw [hcomma])) (.ite_neg (by decide) (.bind hrest ?_))
    exact .bind (.expect hclose TokenKind.noConfusion) (.bind .spanFrom .pure)

theorem consumes_typeAtom (hatom : Atom stream reads start stop value) :
    stream.Consumes (typeAtom inner) start value stop := by
  refine .bind .current ?_
  have hround := fun hopen => consumes_roundType h hopen hatom
  cases hatom with
  | var hkind =>
    rw [show (stream.token start).kind = _ from hkind]
    exact .bind (.advance (by rw [hkind]; exact TokenKind.noConfusion)) .pure
  | con hkind =>
    rw [show (stream.token start).kind = _ from hkind]
    exact .bind (.advance (by rw [hkind]; exact TokenKind.noConfusion)) .pure
  | unit hopen | round hopen | tuple hopen =>
    rw [show (stream.token start).kind = _ from hopen]
    exact hround hopen

/-- The loop over the arguments goes on from each application to those that it is the function of. -/
theorem consumes_appliedType (happlied : Applied stream reads start stop value)
    (hdone : opensTypeAtom (stream.kind stop) = false) (hsize : stop < stream.size) :
    stream.Consumes (appliedType inner) start value stop := by
  let loop (count : Nat) (function : TypeExpr) : Parser TypeExpr :=
    repeatWhile.iterate startsTypeAtom (fun function => do
      let argument ← typeAtom inner
      return .app function argument (← spanFrom (stream.token start).span)) count function
  have hloop : ∃ head middle, Atom stream reads start middle head ∧ middle ≤ stop ∧
      ∀ last final, (∀ count, stream.size ≤ count + stop →
        stream.Consumes (loop count value) stop last final) →
      ∀ count, stream.size ≤ count + middle → stream.Consumes (loop count head) middle last final := by
    clear hdone hsize
    induction happlied with
    | atom hatom => exact ⟨_, _, hatom, Nat.le_refl _, fun last final hrest => hrest⟩
    | @app middle stop function argument _ hargument ih =>
      have hlt := (hargument.stretch h.stretch).lt
      have hsize := (hargument.stretch h.stretch).lt_size
      obtain ⟨head, first, hhead, hle, hloop⟩ := ih
      refine ⟨head, first, hhead, by omega, fun last final hrest => hloop last final fun count hcount => ?_⟩
      obtain ⟨count, rfl⟩ := Nat.exists_eq_succ_of_ne_zero (show count ≠ 0 by omega)
      exact .iterate_step (.isAtAny_eq (opensTypeAtom_of_atom hargument))
        (.bind (consumes_typeAtom h hargument) (.bind .spanFrom .pure)) (hrest count (by omega))
  obtain ⟨head, middle, hhead, -, hloop⟩ := hloop
  refine .bind .current (.bind (consumes_typeAtom h hhead) (.read ?_))
  refine hloop value stop (fun count hcount => ?_) stream.size (Nat.le_add_right ..)
  obtain ⟨count, rfl⟩ := Nat.exists_eq_succ_of_ne_zero (show count ≠ 0 by omega)
  exact .iterate_done (.isAtAny_eq hdone)

theorem consumes_constraint {answer : Constraint} (hconstraint : Constrained stream reads start stop answer)
    (hdone : opensTypeAtom (stream.kind stop) = false) (hsize : stop < stream.size) :
    stream.Consumes (constraint inner) start answer stop := by
  cases hconstraint with
  | of hname harguments =>
    have hcollect : stream.Consumes (collectWhile startsTypeAtom (typeAtom inner)) (start + 1) _ stop :=
      harguments.consumes (fun hatom => (Atom.stretch h.stretch hatom).lt) (fun hatom =>
        ⟨.isAtAny_eq (opensTypeAtom_of_atom hatom), consumes_typeAtom h hatom⟩) hsize (.isAtAny_eq hdone)
    exact .bind (.expect hname TokenKind.noConfusion) (.bind hcollect (.bind .spanFrom .pure))

theorem consumes_context {constraints : List Constraint}
    (hcontext : Context stream reads start stop constraints)
    (hdone : opensTypeAtom (stream.kind stop) = false) (hsize : stop < stream.size) :
    stream.Consumes (context inner) start constraints stop := by
  cases hcontext with
  | one hconstraint =>
    have hname : stream.kind start = .typeIdentifier := by cases hconstraint with | of hname => exact hname
    refine .bind (.isAt_eq (by rw [hname]; rfl)) (.ite_neg Bool.false_ne_true ?_)
    exact .bind (consumes_constraint h hconstraint hdone hsize) .pure
  | round hopen hlisted hclose =>
    have hcloses := Nat.lt_of_succ_lt (succ_lt_size_of_kind hclose TokenKind.noConfusion)
    have hnext : ∀ {start stop answer}, Constrained stream reads start stop answer →
        TypeRule.Follows .type (stream.kind stop) →
        stream.Consumes (constraint inner) start answer stop := fun hconstraint hfollows =>
      consumes_constraint h hconstraint hfollows.opensTypeAtom (hconstraint.stretch h.stretch).lt_size
    have hbehind : ∀ {start stop answer}, stream.kind start = .comma →
        Constrained stream reads (start + 1) stop answer → TypeRule.Follows .type (stream.kind stop) →
        stream.Consumes (advance >>= fun _ => constraint inner) start answer stop :=
      fun hcomma hconstraint hfollows =>
        .bind (.advance (by rw [hcomma]; exact TokenKind.noConfusion)) (hnext hconstraint hfollows)
    obtain ⟨head, rest, middle, rfl, hhead, hfollows, -, hrest⟩ := hlisted.exists_consumes
      (fun hconstraint => (hconstraint.stretch h.stretch).lt) hbehind hcloses (Or.inl rfl)
      (Or.inr (Or.inl (by rw [hclose]; rfl))) (by rw [hclose]; exact TokenKind.noConfusion)
    refine .bind (.isAt_eq (beq_iff_eq.2 hopen)) (.ite_pos rfl ?_)
    refine .bind (.advance (by rw [hopen]; exact TokenKind.noConfusion)) ?_
    refine .bind (hnext hhead hfollows) (.bind hrest ?_)
    exact .bind (.expect hclose TokenKind.noConfusion) .pure

variable (hnewline : ∀ position, stream.kind position ≠ .newline)

include hnewline

theorem consumes_effectEntries {entries : List TypeExpr} (heffects : Effects stream reads start stop entries)
    (hclose : stream.kind stop = .closer .square) :
    stream.Consumes (effectEntries inner) start entries stop := by
  have hskip : ∀ {position}, stream.Consumes skipNewlines position () position :=
    .skipWhile (beq_eq_false_iff_ne.2 (hnewline _))
  refine .bind hskip ?_
  cases heffects with
  | none => exact .bind (.isAt_eq (beq_iff_eq.2 hclose)) (.ite_pos rfl .pure)
  | some hlisted =>
    have hbehind : ∀ {start stop answer}, stream.kind start = .comma →
        reads .application (start + 1) stop answer → TypeRule.Follows .type (stream.kind stop) →
        stream.Consumes (advance >>= fun _ => skipNewlines >>= fun _ => inner .application >>= fun entry =>
          skipNewlines >>= fun _ => Pure.pure entry) start answer stop := fun hcomma hread hfollows =>
      .bind (.advance (by rw [hcomma]; exact TokenKind.noConfusion)) (.bind hskip
        (.bind (h.consumes hread hfollows.of_type) (.bind hskip .pure)))
    obtain ⟨head, rest, middle, rfl, hhead, hfollows, -, hrest⟩ := hlisted.exists_consumes
      (fun hread => (h.stretch hread).lt) hbehind
      (Nat.lt_of_succ_lt (succ_lt_size_of_kind hclose TokenKind.noConfusion)) (Or.inl rfl)
      (Or.inr (Or.inl (by rw [hclose]; rfl))) (by rw [hclose]; exact TokenKind.noConfusion)
    have hopens := h.opens hhead
    refine .bind (.isAt_eq (beq_eq_false_iff_ne.2 fun hkind => ?_)) (.ite_neg Bool.false_ne_true ?_)
    · rw [hkind] at hopens
      cases hopens
    · exact .bind (h.consumes hhead hfollows.of_type) (.bind hskip (.bind hrest .pure))

theorem consumes_typeApplication (happlication : Application stream false reads start stop value)
    (hdone : opensTypeAtom (stream.kind stop) = false) (hsize : stop < stream.size) :
    stream.Consumes (typeApplication inner) start value stop := by
  have heffects : ∀ {close entries}, stream.kind start = .opener .square →
      Effects stream reads (start + 1) close entries → stream.kind close = .closer .square →
      ∀ {result last}, stream.Consumes (do
        let result ← if ← startsTypeAtom then some <$> appliedType inner else Pure.pure none
        return .ofEntries entries result (← spanFrom (stream.token start).span)) (close + 1) result last →
      stream.Consumes (typeApplication inner) start result last := by
    intro close entries hopen heffects hclose result last hrest
    have hrows : checkRow entries = Pure.pure () := by
      cases heffects with
      | none => rfl
      | some _ hrows => exact TypeExpr.checkRow_of_rowsLast hrows
    refine .bind (.isAt_eq (beq_iff_eq.2 hopen)) (.ite_pos rfl ?_)
    refine .bind (.advance (by rw [hopen]; exact TokenKind.noConfusion)) ?_
    refine .bind (consumes_effectEntries h hnewline heffects hclose) ?_
    refine .bind (.expect hclose TokenKind.noConfusion) ?_
    rw [hrows]
    exact .bind .pure hrest
  cases happlication with
  | applied happlied =>
    have hopens := opensTypeAtom_of_applied happlied
    refine .bind (.isAt_eq (beq_eq_false_iff_ne.2 fun hkind => ?_)) (.ite_neg Bool.false_ne_true
      (consumes_appliedType h happlied hdone hsize))
    rw [hkind] at hopens
    cases hopens
  | effects hopen hinside hclose =>
    exact heffects hopen hinside hclose (.bind (.isAtAny_eq hdone) (.ite_neg Bool.false_ne_true
      (.bind .pure (.bind .spanFrom .pure))))
  | result hopen hinside hclose hresult =>
    have hopens := opensTypeAtom_of_applied hresult
    exact heffects hopen hinside hclose (.bind (.isAtAny_eq hopens) (.ite_pos rfl
      (.bind (.map (consumes_appliedType h hresult hdone hsize)) (.bind .spanFrom .pure))))
  | chained hnested => cases hnested

theorem consumes_arrowType (harrow : Arrow stream false reads start stop value)
    (hfollows : TypeRule.Follows .arrow (stream.kind stop)) (hsize : stop < stream.size) :
    stream.Consumes (arrowType inner) start value stop := by
  refine .bind .current ?_
  cases harrow with
  | one happlication =>
    refine .bind (consumes_typeApplication h hnewline happlication hfollows.opensTypeAtom hsize) ?_
    exact .bind .isAtOperator (.ite_neg (Bool.eq_false_iff.1 (TypeRule.Follows.isOperator hfollows)) .pure)
  | arrow happlication hsign hresult =>
    have hkind : stream.kind _ = .operator := (Token.isOperator_iff.1 hsign).1
    have hlt := (happlication.stretch h.stretch).lt_size
    refine .bind (consumes_typeApplication h hnewline happlication (by rw [hkind]; rfl) hlt) ?_
    refine .bind .isAtOperator (.ite_pos hsign (.bind (.advance (kind_ne_of_isOperator hsign)) ?_))
    refine .bind (.skipWhile (beq_eq_false_iff_ne.2 (hnewline _))) ?_
    exact .bind (h.consumes hresult hfollows) (.bind .spanFrom .pure)

theorem consumes_typeExpr (hwhole : Whole stream false reads start stop value)
    (hfollows : TypeRule.Follows .type (stream.kind stop)) (hsize : stop < stream.size) :
    stream.Consumes (typeExpr inner) start value stop := by
  have hahead : ∀ {verdict}, stream.arrowAhead 0 start = verdict →
      stream.Consumes contextAhead start verdict start := fun heq _ history => ⟨history, by rw [← heq]; rfl⟩
  refine .bind .current ?_
  cases hwhole with
  | plain harrow =>
    have hno := ((harrow.stretch h.stretch).passed 0 (Nat.le_refl 0)).trans (hfollows.arrowAhead hsize)
    exact .bind (hahead hno) (.ite_neg Bool.false_ne_true (consumes_arrowType h hnewline harrow hfollows hsize))
  | qualified hcontext hsign hbody =>
    have hkind : stream.kind _ = .operator := (Token.isOperator_iff.1 hsign).1
    have hstretch := hcontext.stretch h.stretch
    have hyes : stream.arrowAhead 0 start = true := by
      rw [hstretch.passed 0 (Nat.le_refl 0), arrowAhead_eq hstretch.lt_size,
        show (stream.token _).kind = _ from hkind, hsign]
      rfl
    refine .bind (hahead hyes) (.ite_pos rfl ?_)
    refine .bind (consumes_context h hcontext (by rw [hkind]; rfl) hstretch.lt_size) ?_
    refine .bind (.expectOperator hsign) (.bind (.skipWhile (beq_eq_false_iff_ne.2 (hnewline _))) ?_)
    exact .bind (consumes_arrowType h hnewline hbody hfollows hsize) (.bind .spanFrom .pure)

end

theorem isCloser_of_derives {nested : Bool} {budget : Nat} {rule : TypeRule}
    (h : Derives stream nested budget rule start stop value) : (stream.kind start).isCloser = false := by
  have happlied : ∀ {reads stop value}, Applied stream reads start stop value →
      (stream.kind start).isCloser = false := by
    intro reads stop value happlied
    have hopens := opensTypeAtom_of_applied happlied
    cases hkind : stream.kind start <;> rw [hkind] at hopens <;>
      first | rfl | exact Bool.noConfusion hopens
  have happlication : ∀ {reads stop value}, Application stream nested reads start stop value →
      (stream.kind start).isCloser = false := by
    intro reads stop value happlication
    cases happlication with
    | applied h => exact happlied h
    | effects hopen | result hopen | chained _ hopen => rw [hopen]; rfl
  have harrow : ∀ {reads stop value}, Arrow stream nested reads start stop value →
      (stream.kind start).isCloser = false := by
    intro reads stop value harrow
    cases harrow with
    | one h | arrow h => exact happlication h
  cases budget with
  | zero => cases h
  | succ budget =>
    cases rule with
    | application => exact happlication h
    | arrow => exact harrow h
    | type =>
      cases h with
      | plain h => exact harrow h
      | qualified h =>
        cases h with
        | one h => cases h with | of hname => rw [hname]; rfl
        | round hopen => rw [hopen]; rfl

/-- What is a type by the grammar is read as one, without a word. -/
theorem legible_typeAt (hnewline : ∀ position, stream.kind position ≠ .newline) (budget : Nat) :
    Legible stream (typeAt budget) (Derives stream false budget) := by
  induction budget with
  | zero => exact ⟨fun h => h.elim, fun h => h.elim, fun h => h.elim⟩
  | succ budget ih =>
    refine ⟨Derives.stretch, isCloser_of_derives, fun {rule start stop value} h hfollows => ?_⟩
    have hsize := h.stretch.lt_size
    cases rule with
    | type => exact consumes_typeExpr ih hnewline h hfollows hsize
    | arrow => exact consumes_arrowType ih hnewline h hfollows hsize
    | application => exact consumes_typeApplication ih hnewline h hfollows hsize

end Parser

end SableFrontend
