import SableFrontend.Grammar.Operator
import SableFrontend.Token.Basic
import SableFrontend.Tree.Expr

/-!
Operands joined by binary operators. Read from left to right an operator tree is a first operand and,
behind it, pairs of an operator and an operand. Of the trees that read the same at most one is grouped
as the precedence of its operators and their sides say (`OperatorTree.eq_of_grouped`). There is one
unless two comparisons chain: they have no side, so nothing says which of them is the outer one
(`exists_grouped`).
-/

namespace SableFrontend

/-! ### Fixities -/

namespace Fixity

/-- The fixity of the comparisons. -/
def ofComparison : Fixity := ⟨4, .none⟩

/-- To which side the operators of a precedence group. -/
def sideOf : Nat → Associativity
  | 2 | 3 | 5 | 8 => .right
  | 4 => .none
  | _ => .left

theorem mem_table_of_lookup {entries : List (String × Fixity)} {op : String} {fixity : Fixity}
    (h : entries.lookup op = some fixity) : (op, fixity) ∈ entries := by
  induction entries with
  | nil => cases h
  | cons entry rest ih =>
    rw [List.lookup_cons] at h
    split at h
    · next heq =>
      cases h
      exact List.mem_cons.2 (Or.inl (by rw [beq_iff_eq.1 heq]))
    · exact List.mem_cons_of_mem _ (ih h)

theorem ofOperator_cases (op : String) : (op, ofOperator op) ∈ table ∨ ofOperator op = ofOther := by
  unfold ofOperator
  cases hlookup : table.lookup op with
  | none => exact Or.inr rfl
  | some fixity => exact Or.inl (mem_table_of_lookup hlookup)

/-- Operators of one precedence group to one side. -/
theorem associativity_ofOperator (op : String) :
    (ofOperator op).associativity = sideOf (ofOperator op).precedence := by
  have htable : ∀ entry ∈ table, entry.2.associativity = sideOf entry.2.precedence := by decide
  rcases ofOperator_cases op with hmem | hother
  · exact htable _ hmem
  · rw [hother]
    rfl

theorem precedence_pos (op : String) : 0 < (ofOperator op).precedence := by
  have htable : ∀ entry ∈ table, 0 < entry.2.precedence := by decide
  rcases ofOperator_cases op with hmem | hother
  · exact htable _ hmem
  · rw [hother]
    decide

/-- The comparisons are the six operators that are spelled so. -/
theorem ofOperator_eq_ofComparison_iff {op : String} :
    ofOperator op = ofComparison ↔ op ∈ ["==", "!=", "<", ">", "<=", ">="] := by
  constructor
  · intro h
    rcases ofOperator_cases op with hmem | hother
    · rw [h] at hmem
      revert hmem
      simp +decide [table, ofComparison]
    · rw [hother] at h
      cases h
  · revert op
    decide

end Fixity

namespace Token

/-- The fixity of an operator. -/
def fixity (op : Token) : Fixity := Fixity.ofOperator op.value

/-- Whether an operator is a comparison. -/
def Compares (op : Token) : Prop := op.fixity = Fixity.ofComparison

/-- Whether an operator binds tighter than the comparisons. -/
def BindsTighter (op : Token) : Prop := Fixity.ofComparison.precedence < op.fixity.precedence

/-- Whether an operator may stand around another one on one side of it: that one binds tighter, or as
tight and groups to this side. -/
def GoesAround (op : Token) (side : Associativity) (other : Token) : Prop :=
  op.fixity.precedence < other.fixity.precedence ∨
    op.fixity.precedence = other.fixity.precedence ∧ other.fixity.associativity = side

variable {op other : Token} {side : Associativity}

theorem GoesAround.le (h : op.GoesAround side other) :
    op.fixity.precedence ≤ other.fixity.precedence :=
  h.elim Nat.le_of_lt fun heq => Nat.le_of_eq heq.1

theorem associativity_eq (h : op.fixity.precedence = other.fixity.precedence) :
    op.fixity.associativity = other.fixity.associativity := by
  rw [fixity, fixity, Fixity.associativity_ofOperator, Fixity.associativity_ofOperator]
  exact congrArg _ h

theorem compares_of_precedence (h : op.fixity.precedence = 4) : op.Compares := by
  have hside := Fixity.associativity_ofOperator op.value
  unfold fixity at h
  rw [h] at hside
  show Fixity.ofOperator op.value = ⟨4, .none⟩
  cases hfixity : Fixity.ofOperator op.value with
  | mk precedence associativity =>
    rw [hfixity] at h hside
    rw [show precedence = 4 from h, show associativity = .none from hside]

/-- Only comparisons have no side. -/
theorem compares_of_associativity (h : op.fixity.associativity = .none) : op.Compares := by
  refine compares_of_precedence ?_
  rw [fixity, Fixity.associativity_ofOperator] at h
  unfold Fixity.sideOf at h
  split at h <;> first | assumption | cases h

theorem Compares.precedence_eq (h : op.Compares) : op.fixity.precedence = 4 :=
  congrArg Fixity.precedence h

theorem Compares.associativity_eq (h : op.Compares) : op.fixity.associativity = .none :=
  congrArg Fixity.associativity h

theorem Compares.not_bindsTighter (h : op.Compares) : ¬op.BindsTighter := fun htighter =>
  Nat.lt_irrefl 4 (Nat.lt_of_lt_of_eq htighter h.precedence_eq)

theorem GoesAround.of_le (h : op.fixity.precedence ≤ other.fixity.precedence)
    (hside : op.fixity.associativity = side) : op.GoesAround side other :=
  (Nat.lt_or_eq_of_le h).imp_right fun heq => ⟨heq, (associativity_eq heq).symm.trans hside⟩

/-- Of two operators, not each can stand around the other one. -/
theorem GoesAround.not_both (h : op.GoesAround .right other) (h' : other.GoesAround .left op) :
    False := by
  have heq : op.fixity.precedence = other.fixity.precedence := Nat.le_antisymm h.le h'.le
  rcases h with hlt | ⟨-, hside⟩
  · exact Nat.ne_of_lt hlt heq
  · rcases h' with hlt | ⟨-, hside'⟩
    · exact Nat.ne_of_gt hlt heq
    · rw [Token.associativity_eq heq, hside] at hside'
      cases hside'

/-- What a comparison stands around on the left binds tighter. -/
theorem GoesAround.bindsTighter (h : op.GoesAround side other) (hop : op.Compares)
    (hside : side ≠ .none) : other.BindsTighter := by
  rcases h with hlt | ⟨heq, hother⟩
  · exact Nat.lt_of_le_of_lt (Nat.le_of_eq hop.precedence_eq.symm) hlt
  · exact absurd (hother.symm.trans ((Token.associativity_eq heq).symm.trans hop.associativity_eq)) hside

end Token

/-! ### Chains of comparisons -/

/-- A comparison stands among the operators, and all behind it bind tighter: another comparison
would have it for its left operand. -/
def Exposed (operators : List Token) : Prop :=
  ∃ before op between, operators = before ++ op :: between ∧ op.Compares ∧
    ∀ other ∈ between, other.BindsTighter

/-- A comparison behind other operators chains with one of them. -/
def Chains (before : List Token) (op : Token) : Prop := Exposed before ∧ op.Compares

/-- No comparison chains with one in front of it. -/
def Unchained (operators : List Token) : Prop :=
  ∀ before op after, operators = before ++ op :: after → ¬Chains before op

section

variable {op : Token} {before after operators : List Token}

theorem Exposed.append_left (h : Exposed operators) (before : List Token) :
    Exposed (before ++ operators) := by
  obtain ⟨front, op, between, rfl, hop, hbetween⟩ := h
  exact ⟨before ++ front, op, between, (List.append_assoc ..).symm, hop, hbetween⟩

/-- An operator that binds looser than comparisons hides those in front of it. -/
theorem Exposed.of_append (h : Exposed (before ++ op :: after)) (hop : ¬op.Compares)
    (hloose : ¬op.BindsTighter) : Exposed after := by
  obtain ⟨front, first, between, heq, hfirst, hbetween⟩ := h
  rcases List.append_eq_append_iff.1 heq with ⟨middle, rfl, hmiddle⟩ | ⟨middle, rfl, hmiddle⟩
  · cases middle with
    | nil => exact absurd ((List.cons.inj hmiddle).1 ▸ hfirst) hop
    | cons next middle =>
      obtain ⟨rfl, rfl⟩ := List.cons.inj hmiddle
      exact ⟨middle, first, between, rfl, hfirst, hbetween⟩
  · cases middle with
    | nil => exact absurd ((List.cons.inj hmiddle).1 ▸ hfirst) hop
    | cons next middle =>
      obtain ⟨rfl, rfl⟩ := List.cons.inj hmiddle
      exact absurd (hbetween op (List.mem_append_right _ List.mem_cons_self)) hloose

theorem Unchained.of_append (before : List Token) (h : Unchained (before ++ operators)) :
    Unchained operators :=
  fun front op after heq hchains => h (before ++ front) op after
    (by rw [heq, List.append_assoc]) ⟨hchains.1.append_left before, hchains.2⟩

theorem Unchained.prefix (h : Unchained (before ++ after)) : Unchained before :=
  fun front op rest heq => h front op (rest ++ after) (by rw [heq, List.append_assoc]; rfl)

/-- Of the comparisons that chain, one is the first. -/
theorem exists_first_chain (h : ¬Unchained operators) :
    ∃ before op after, operators = before ++ op :: after ∧ Unchained before ∧ Chains before op := by
  induction hlength : operators.length using Nat.strongRecOn generalizing operators with
  | ind length ih =>
    obtain ⟨before, op, after, rfl, hchains⟩ : ∃ before op after,
        operators = before ++ op :: after ∧ Chains before op :=
      Classical.byContradiction fun hnone => h fun before op after heq hchains =>
        hnone ⟨before, op, after, heq, hchains⟩
    by_cases hbefore : Unchained before
    · exact ⟨before, op, after, rfl, hbefore, hchains⟩
    · obtain ⟨front, first, rest, rfl, hfront⟩ := ih before.length
        (by rw [← hlength, List.length_append, List.length_cons]; omega) hbefore rfl
      exact ⟨front, first, rest ++ op :: after, by rw [List.append_assoc]; rfl, hfront⟩

end

/-! ### Trees -/

/-- Operands joined by binary operators. -/
inductive OperatorTree where
  | operand (value : Expr)
  | binary (left : OperatorTree) (op : Token) (right : OperatorTree)

namespace OperatorTree

/-- The operand furthest to the left. -/
def first : OperatorTree → Expr
  | operand value => value
  | binary left _ _ => left.first

/-- What stands behind the first operand. -/
def rest : OperatorTree → List (Token × Expr)
  | operand _ => []
  | binary left op right => left.rest ++ (op, right.first) :: right.rest

/-- The operators from left to right. -/
def operators (tree : OperatorTree) : List Token := tree.rest.map Prod.fst

/-- The expression that a tree stands for. -/
def toExpr : OperatorTree → Expr
  | operand value => value
  | binary left op right =>
    .binary left.toExpr op.value right.toExpr (left.toExpr.span.join right.toExpr.span)

/-- How many right operands lie inside one another, with the tree around them. -/
def depth : OperatorTree → Nat
  | operand _ => 1
  | binary left _ right => max left.depth (right.depth + 1)

/-- At each node, the operators on its left bind tighter or, where they bind as tight, group to the
left, and those on its right bind tighter or group to the right. -/
def Grouped : OperatorTree → Prop
  | operand _ => True
  | binary left op right => left.Grouped ∧ right.Grouped ∧
    (∀ other ∈ left.operators, op.GoesAround .left other) ∧
    ∀ other ∈ right.operators, op.GoesAround .right other

variable {tree left right other : OperatorTree} {op : Token}

theorem operators_binary : (binary left op right).operators =
    left.operators ++ op :: right.operators := by
  simp [operators, rest]

theorem depth_pos (tree : OperatorTree) : 0 < tree.depth := by
  induction tree with
  | operand => exact Nat.one_pos
  | binary left op right ih => exact Nat.lt_of_lt_of_le ih (Nat.le_max_left ..)

/-! ### Uniqueness -/

/-- Of two operators in a row, not both can be the outermost one. -/
theorem Grouped.not_before {left left' right right' : OperatorTree} {op op' : Token}
    {value value' : Expr} (h : (binary left op right).Grouped)
    (h' : (binary left' op' right').Grouped) (hleft : (op, value) ∈ left'.rest)
    (hright : (op', value') ∈ right.rest) : False :=
  (h.2.2.2 op' (List.mem_map_of_mem hright)).not_both (h'.2.2.1 op (List.mem_map_of_mem hleft))

/-- Where one tree reads like the beginning of another, both have the same root. -/
theorem Grouped.middle_eq_nil {left left' right right' : OperatorTree} {op op' : Token}
    (h : (binary left op right).Grouped) (h' : (binary left' op' right').Grouped)
    {middle : List (Token × Expr)} (hleft : left'.rest = left.rest ++ middle)
    (hright : (op, right.first) :: right.rest = middle ++ (op', right'.first) :: right'.rest) :
    middle = [] := by
  cases middle with
  | nil => rfl
  | cons pair middle =>
    obtain ⟨rfl, hrest⟩ := List.cons.inj (List.cons_append ▸ hright)
    have hmem : (op, right.first) ∈ left'.rest := by
      rw [hleft]
      exact List.mem_append_right _ List.mem_cons_self
    have hmem' : (op', right'.first) ∈ right.rest := by
      rw [hrest]
      exact List.mem_append_right _ List.mem_cons_self
    exact (h.not_before h' hmem hmem').elim

/-- Trees that read the same and are grouped are the same. -/
theorem eq_of_grouped (h : tree.Grouped) (h' : other.Grouped) (hfirst : tree.first = other.first)
    (hrest : tree.rest = other.rest) : tree = other := by
  induction tree generalizing other with
  | operand value =>
    cases other with
    | operand value' => rw [show value = value' from hfirst]
    | binary left op right => exact absurd hrest.symm (by simp [rest])
  | binary left op right ihleft ihright =>
    cases other with
    | operand value => exact absurd hrest (by simp [rest])
    | binary left' op' right' =>
      obtain ⟨hleft, hsame⟩ : left.rest = left'.rest ∧
          (op, right.first) :: right.rest = (op', right'.first) :: right'.rest := by
        rw [rest, rest] at hrest
        -- the roots stand at the same place, since neither can stand in front of the other
        rcases List.append_eq_append_iff.1 hrest with ⟨middle, hleft, hright⟩ | ⟨middle, hleft, hright⟩
        · obtain rfl := h.middle_eq_nil h' hleft hright
          exact ⟨by rw [hleft, List.append_nil], hright⟩
        · obtain rfl := h'.middle_eq_nil h hleft hright
          exact ⟨by rw [hleft, List.append_nil], hright.symm⟩
      obtain ⟨hop, hright⟩ := List.cons.inj hsame
      obtain ⟨rfl, hvalue⟩ := Prod.mk.inj hop
      rw [ihleft h.1 h'.1 hfirst hleft, ihright h.2.1 h'.2.1 hvalue hright]

/-! ### Existence -/

/-- An operator that may stand around all others. -/
def IsRoot (op : Token) (before after : List Token) : Prop :=
  (∀ other ∈ before, op.GoesAround .left other) ∧ ∀ other ∈ after, op.GoesAround .right other

theorem IsRoot.cons {before after : List Token} {next : Token} (h : IsRoot op before after)
    (hnext : op.GoesAround .left next) : IsRoot op (next :: before) after :=
  ⟨List.forall_mem_cons.2 ⟨hnext, h.1⟩, h.2⟩

theorem IsRoot.le {before after : List Token} (h : IsRoot op before after) :
    ∀ other ∈ before ++ op :: after, op.fixity.precedence ≤ other.fixity.precedence := by
  intro other hmem
  rcases List.mem_append.1 hmem with hmem | hmem
  · exact (h.1 other hmem).le
  · rcases List.mem_cons.1 hmem with rfl | hmem
    · exact Nat.le_refl _
    · exact (h.2 other hmem).le

/-- Among operators of which no comparisons chain, one can be the outermost. -/
theorem exists_root {operators : List Token} (hne : operators ≠ []) (h : Unchained operators) :
    ∃ before op after, operators = before ++ op :: after ∧ IsRoot op before after := by
  induction operators with
  | nil => exact absurd rfl hne
  | cons next rest ih =>
    cases rest with
    | nil => exact ⟨[], next, [], rfl, List.forall_mem_nil _, List.forall_mem_nil _⟩
    | cons second rest =>
      obtain ⟨before, op, after, heq, hroot⟩ :=
        ih (List.cons_ne_nil _ _) (Unchained.of_append [next] h)
      rw [heq] at h ⊢
      rcases Nat.lt_or_ge next.fixity.precedence op.fixity.precedence with hlt | hge
      · exact ⟨[], next, before ++ op :: after, rfl, List.forall_mem_nil _, fun other hmem =>
          Or.inl (Nat.lt_of_lt_of_le hlt (hroot.le other hmem))⟩
      rcases Nat.lt_or_eq_of_le hge with hgt | hprecedence
      · exact ⟨next :: before, op, after, rfl, hroot.cons (Or.inl hgt)⟩
      have hsides : op.fixity.associativity = next.fixity.associativity :=
        Token.associativity_eq hprecedence
      cases hside : op.fixity.associativity with
      | left =>
        exact ⟨next :: before, op, after, rfl,
          hroot.cons (Or.inr ⟨hprecedence, hsides.symm.trans hside⟩)⟩
      | right =>
        refine ⟨[], next, before ++ op :: after, rfl, List.forall_mem_nil _, fun other hmem => ?_⟩
        have hle := hroot.le other hmem
        rw [hprecedence] at hle
        exact .of_le hle (hsides.symm.trans hside)
      | none =>
        -- two comparisons, with nothing looser in between
        have hop : op.Compares := Token.compares_of_associativity hside
        have hnext : next.Compares := Token.compares_of_associativity (hsides.symm.trans hside)
        exact absurd ⟨⟨[], next, before, rfl, hnext, fun other hmem =>
          (hroot.1 other hmem).bindsTighter hop Associativity.noConfusion⟩, hop⟩ (h (next :: before) op after rfl)

/-- Where no comparisons chain, there is a grouped tree. -/
theorem exists_grouped (first : Expr) (rest : List (Token × Expr))
    (h : Unchained (rest.map Prod.fst)) :
    ∃ tree : OperatorTree, tree.Grouped ∧ tree.first = first ∧ tree.rest = rest := by
  induction hlength : rest.length using Nat.strongRecOn generalizing first rest with
  | ind length ih =>
    by_cases hne : rest = []
    · exact ⟨operand first, trivial, rfl, hne.symm⟩
    · obtain ⟨operators, op, others, heq, hroot⟩ :=
        exists_root (fun hnil => hne (List.map_eq_nil_iff.1 hnil)) h
      obtain ⟨before, pairs, rfl, rfl, hpairs⟩ := List.map_eq_append_iff.1 heq
      obtain ⟨⟨op, value⟩, after, rfl, rfl, rfl⟩ := List.map_eq_cons_iff.1 hpairs
      rw [List.length_append, List.length_cons] at hlength
      rw [heq] at h
      obtain ⟨left, hleft, rfl, rfl⟩ := ih before.length (by omega) first before h.prefix rfl
      obtain ⟨right, hright, rfl, rfl⟩ := ih after.length (by omega) value after
        (Unchained.of_append (left.operators ++ [op]) (by
          rw [List.append_assoc]
          exact h)) rfl
      exact ⟨binary left op right, ⟨hleft, hright, hroot.1, hroot.2⟩, rfl, rfl⟩

end OperatorTree

end SableFrontend
