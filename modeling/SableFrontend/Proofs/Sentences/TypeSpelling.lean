import SableFrontend.Proofs.Sentences.TypeReading
import SableFrontend.Proofs.Sentences.Words
import SableFrontend.Proofs.Tree.Structure

/-!
Types as they are written. `TypeExpr.words` writes a type with round brackets around each part that is not
a name or a tuple; parameters, arguments, results and effects have brackets in any case, unless they may
stand `bare`. Written down in this way a type belongs to the grammar (`TypeExpr.derives_words`), so it is
read as the same type again (`TypeExpr.parse_written`).
-/

namespace SableFrontend

open TokenStream TypeGrammar

namespace TypeExpr

/-! ### Writing -/

/-- The types that are written without brackets of their own around them: names and tuples. -/
def isAtomic : TypeExpr → Bool
  | var .. | con .. | tuple .. => true
  | _ => false

/-- A part of a type, written as `words`, with brackets if it needs them. -/
def bracketed (type : TypeExpr) (words : List Word) : List Word :=
  if type.isAtomic then words else Word.enclosed .round words

/-- A part that has brackets in any case, unless it needs none and may stand bare. -/
def apart (bare : Bool) (type : TypeExpr) (words : List Word) : List Word :=
  if bare && type.isAtomic then words else Word.enclosed .round words

/-- How deep a part nests of which the words without brackets nest `depth` levels deep. -/
def bracketedNesting (type : TypeExpr) (depth : Nat) : Nat :=
  if type.isAtomic then depth else depth + 1

def apartNesting (bare : Bool) (type : TypeExpr) (depth : Nat) : Nat :=
  if bare && type.isAtomic then depth else depth + 1

end TypeExpr

mutual

/-- The words of a type. -/
def TypeExpr.words (bare : Bool) : TypeExpr → List Word
  | .var name _ => [{ kind := .identifier, value := name }]
  | .con name _ => [{ kind := .typeIdentifier, value := name }]
  | .app function argument _ =>
    function.bracketed (function.words bare) ++ argument.apart bare (argument.words bare)
  | .arrow parameter result _ =>
    parameter.apart bare (parameter.words bare) ++
      .sign "->" :: result.apart bare (result.words bare)
  | .tuple elements _ => Word.enclosed .round (List.intercalate [Word.comma]
      (elements.map fun element => element.bracketed (element.words bare)))
  | .effectful effects row result _ =>
    .opener .square :: (List.intercalate [Word.comma]
      ((effects.map fun effect => effect.apart bare (effect.words bare)) ++
        row.toList.map fun row => [{ kind := .identifier, value := row.name }]) ++
      .closer .square ::
        (match result with | none => [] | some result => result.apart bare (result.words bare)))
  | .qualified constraints body _ =>
    let written := List.intercalate [Word.comma] (constraints.map fun constraint => constraint.words bare)
    (if bare && constraints.length == 1 then written else Word.enclosed .round written) ++
      .sign "=>" :: body.bracketed (body.words bare)

def Constraint.words (bare : Bool) : Constraint → List Word
  | { className := className, arguments := arguments, span := _ } =>
    { kind := .typeIdentifier, value := className } ::
      arguments.flatMap fun argument => argument.apart bare (argument.words bare)

end

mutual

/-- How many levels the words of a type nest in others. -/
def TypeExpr.nesting (bare : Bool) : TypeExpr → Nat
  | .var _ _ | .con _ _ => 0
  | .app function argument _ =>
    max (function.bracketedNesting (function.nesting bare)) (argument.apartNesting bare (argument.nesting bare))
  | .arrow parameter result _ =>
    max (parameter.apartNesting bare (parameter.nesting bare))
      (result.apartNesting bare (result.nesting bare) + 1)
  | .tuple elements _ =>
    (elements.map fun element => element.bracketedNesting (element.nesting bare) + 1).foldr max 0
  | .effectful effects row result _ =>
    max ((effects.map fun effect => effect.apartNesting bare (effect.nesting bare) + 1).foldr max
        (row.elim 0 fun _ => 1))
      (match result with | none => 0 | some result => result.apartNesting bare (result.nesting bare))
  | .qualified constraints body _ =>
    max ((constraints.map fun constraint => constraint.nesting bare).foldr max 0)
      (body.bracketedNesting (body.nesting bare))

def Constraint.nesting (bare : Bool) : Constraint → Nat
  | { className := _, arguments := arguments, span := _ } =>
    (arguments.map fun argument => argument.apartNesting bare (argument.nesting bare)).foldr max 0

end

namespace TypeExpr

/-- The types that can be written: their names are names, no tuple has one element alone, no effect is a
variable, and there is at least one constraint in a context and one argument in a constraint. -/
inductive Writable : TypeExpr → Prop
  | var {name : String} {span : Span} (hname : Word.isName { kind := .identifier, value := name } = true) :
      Writable (.var name span)
  | con {name : String} {span : Span}
      (hname : Word.isName { kind := .typeIdentifier, value := name } = true) : Writable (.con name span)
  | app {function argument : TypeExpr} {span : Span} (hfunction : Writable function)
      (hargument : Writable argument) : Writable (.app function argument span)
  | arrow {parameter result : TypeExpr} {span : Span} (hparameter : Writable parameter)
      (hresult : Writable result) : Writable (.arrow parameter result span)
  | tuple {elements : List TypeExpr} {span : Span} (hlength : elements.length ≠ 1)
      (helements : ∀ element ∈ elements, Writable element) : Writable (.tuple elements span)
  | effectful {effects : List TypeExpr} {row : Option RowVariable} {result : Option TypeExpr} {span : Span}
      (heffects : ∀ effect ∈ effects, Writable effect)
      (hvariables : ∀ effect ∈ effects, effect.asRowVariable? = none)
      (hrow : ∀ rest, row = some rest → Word.isName { kind := .identifier, value := rest.name } = true)
      (hresult : ∀ type, result = some type → Writable type) : Writable (.effectful effects row result span)
  | qualified {constraints : List Constraint} {body : TypeExpr} {span : Span} (hsome : constraints ≠ [])
      (hconstraints : ∀ constraint ∈ constraints, constraint.arguments ≠ [] ∧
        Word.isName { kind := .typeIdentifier, value := constraint.className } = true)
      (harguments : ∀ constraint ∈ constraints, ∀ argument ∈ constraint.arguments, Writable argument)
      (hbody : Writable body) : Writable (.qualified constraints body span)

variable {bare : Bool} {type : TypeExpr}

/-! ### The words can be read -/

theorem readable_bracketed {words : List Word} (h : Word.Readable words) :
    Word.Readable (type.bracketed words) := by
  unfold bracketed
  split
  · exact h
  · exact h.enclosed .round

theorem readable_apart {words : List Word} (h : Word.Readable words) :
    Word.Readable (type.apart bare words) := by
  unfold apart
  split
  · exact h
  · exact h.enclosed .round

theorem readable_words (h : type.Writable) : Word.Readable (type.words bare) := by
  induction h with
  | var hname | con hname =>
    rw [words]
    exact Word.Readable.name hname
  | app _ _ hfunction hargument =>
    rw [words]
    exact (readable_bracketed hfunction).append (readable_apart hargument)
  | arrow _ _ hparameter hresult =>
    rw [words]
    exact (readable_apart hparameter).append (.append (.singleton (Word.legible_sign rfl rfl) rfl rfl)
      (readable_apart hresult))
  | tuple _ _ helements =>
    rw [words]
    refine .enclosed .round (.intercalate fun part hpart => ?_)
    obtain ⟨element, hmem, rfl⟩ := List.mem_map.1 hpart
    exact readable_bracketed (helements element hmem)
  | @effectful effects row result span _ _ hrow _ heffects hresult =>
    have hentries : Word.Readable (List.intercalate [Word.comma]
        ((effects.map fun effect => effect.apart bare (effect.words bare)) ++
          row.toList.map fun row => [{ kind := .identifier, value := row.name }])) := by
      refine .intercalate (List.forall_mem_append.2 ⟨fun part hpart => ?_, fun part hpart => ?_⟩)
      · obtain ⟨effect, hmem, rfl⟩ := List.mem_map.1 hpart
        exact readable_apart (heffects effect hmem)
      · obtain ⟨rest, hmem, rfl⟩ := List.mem_map.1 hpart
        exact Word.Readable.name (hrow rest (Option.mem_toList.1 hmem))
    have hlist := hentries.enclosed .square
    cases result with
    | none =>
      rw [words]
      exact hlist
    | some type =>
      have hall := hlist.append (readable_apart (hresult type rfl) : Word.Readable (type.apart bare _))
      rw [words]
      rwa [Word.enclosed, List.cons_append, List.append_assoc] at hall
  | @qualified constraints body span _ hconstraints _ _ harguments hbody =>
    rw [words]
    have hcontext : Word.Readable (List.intercalate [Word.comma]
        (constraints.map fun constraint => constraint.words bare)) := by
      refine .intercalate fun part hpart => ?_
      obtain ⟨constraint, hmem, rfl⟩ := List.mem_map.1 hpart
      have harguments := harguments constraint hmem
      have hname := (hconstraints constraint hmem).2
      obtain ⟨className, arguments, span⟩ := constraint
      rw [Constraint.words]
      exact (Word.Readable.name hname).append (.flatMap fun argument hmem => readable_apart (harguments argument hmem))
    have hsign : Word.Readable [.sign "=>"] := .singleton (Word.legible_sign rfl rfl) rfl rfl
    have hsigned := hsign.append (readable_bracketed hbody : Word.Readable (body.bracketed _))
    split
    · exact hcontext.append hsigned
    · exact (hcontext.enclosed .round).append hsigned

/-! ### The words are derived -/

/-- Wherever the words of a type stand, the grammar derives the type. -/
def Derivable (bare : Bool) (type : TypeExpr) : Prop :=
  ∀ {stream : TokenStream} {start budget : Nat}, stream.Holds start (type.words bare) →
    type.nesting bare ≤ budget →
    ∃ value : TypeExpr, value.relocate .forget = type.relocate .forget ∧
      Whole stream false (Derives stream false budget) start (start + (type.words bare).length) value ∧
      (type.isAtomic = true → Atom stream (Derives stream false budget) start
        (start + (type.words bare).length) value)

namespace Derivable

variable {stream : TokenStream} {start budget depth : Nat}

theorem enclosed (h : type.Derivable bare) (hholds : stream.Holds start (Word.enclosed .round (type.words bare)))
    (hnesting : type.nesting bare + 1 ≤ budget) :
    ∃ value : TypeExpr, value.relocate .forget = type.relocate .forget ∧ Atom stream
      (Derives stream false budget) start (start + (Word.enclosed .round (type.words bare)).length) value := by
  obtain ⟨hopen, hwords, hclose⟩ := hholds.enclosed
  obtain ⟨budget, rfl⟩ := Nat.exists_eq_succ_of_ne_zero (Nat.ne_of_gt (Nat.zero_lt_of_lt hnesting))
  obtain ⟨value, hvalue, hwhole, -⟩ := h hwords (Nat.le_of_succ_le_succ hnesting)
  rw [Word.length_enclosed]
  exact ⟨value, hvalue, .round hopen hwhole hclose⟩

theorem bracketed (h : type.Derivable bare) (hholds : stream.Holds start (type.bracketed (type.words bare)))
    (hnesting : type.bracketedNesting (type.nesting bare) ≤ budget) :
    ∃ value : TypeExpr, value.relocate .forget = type.relocate .forget ∧ Atom stream
      (Derives stream false budget) start (start + (type.bracketed (type.words bare)).length) value := by
  unfold TypeExpr.bracketed bracketedNesting at *
  split at hnesting
  · next hatomic =>
    rw [if_pos hatomic] at hholds ⊢
    obtain ⟨value, hvalue, -, hatom⟩ := h hholds hnesting
    exact ⟨value, hvalue, hatom hatomic⟩
  · next hcompound =>
    rw [if_neg hcompound] at hholds ⊢
    exact h.enclosed hholds hnesting

theorem apart (h : type.Derivable bare) (hholds : stream.Holds start (type.apart bare (type.words bare)))
    (hnesting : type.apartNesting bare (type.nesting bare) ≤ budget) :
    ∃ value : TypeExpr, value.relocate .forget = type.relocate .forget ∧ Atom stream
      (Derives stream false budget) start (start + (type.apart bare (type.words bare)).length) value := by
  unfold TypeExpr.apart apartNesting at *
  split at hnesting
  · next hbare =>
    rw [if_pos hbare] at hholds ⊢
    obtain ⟨value, hvalue, -, hatom⟩ := h hholds hnesting
    exact ⟨value, hvalue, hatom (Bool.and_eq_true_iff.1 hbare).2⟩
  · next hmarked =>
    rw [if_neg hmarked] at hholds ⊢
    exact h.enclosed hholds hnesting

/-- An atom is derived by every rule, one level further in. -/
theorem exists_derives {words : List Word} {rule : TypeRule}
    (h : ∀ {budget}, depth ≤ budget → ∃ value : TypeExpr, value.relocate .forget = type.relocate .forget ∧
      Atom stream (Derives stream false budget) start (start + words.length) value)
    (hnesting : depth + 1 ≤ budget) :
    ∃ value : TypeExpr, value.relocate .forget = type.relocate .forget ∧
      Derives stream false budget rule start (start + words.length) value := by
  obtain ⟨budget, rfl⟩ := Nat.exists_eq_succ_of_ne_zero (Nat.ne_of_gt (Nat.zero_lt_of_lt hnesting))
  obtain ⟨value, hvalue, hatom⟩ := h (Nat.le_of_succ_le_succ hnesting)
  refine ⟨value, hvalue, ?_⟩
  cases rule with
  | type => exact .plain (.one (.applied (.atom hatom)))
  | arrow => exact .one (.applied (.atom hatom))
  | application => exact .applied (.atom hatom)

/-- An atom is derived as a whole type. -/
theorem of_atom (h : ∀ {stream : TokenStream} {start budget : Nat}, stream.Holds start (type.words bare) →
    type.nesting bare ≤ budget → ∃ value : TypeExpr, value.relocate .forget = type.relocate .forget ∧
      Atom stream (Derives stream false budget) start (start + (type.words bare).length) value) :
    type.Derivable bare := by
  intro stream start budget hholds hnesting
  obtain ⟨value, hvalue, hatom⟩ := h hholds hnesting
  exact ⟨value, hvalue, .plain (.one (.applied (.atom hatom))), fun _ => hatom⟩

/-- The words of a constraint are derived, if those of its arguments are. -/
theorem exists_constrained {constraint : Constraint} (hsome : constraint.arguments ≠ [])
    (h : ∀ argument ∈ constraint.arguments, argument.Derivable bare)
    (hholds : stream.Holds start (constraint.words bare)) (hnesting : constraint.nesting bare ≤ budget) :
    ∃ value : Constraint, value.relocate .forget = constraint.relocate .forget ∧ Constrained stream
      (Derives stream false budget) start (start + (constraint.words bare).length) value := by
  obtain ⟨className, arguments, span⟩ := constraint
  rw [Constraint.nesting, foldr_max_le_iff] at hnesting
  rw [Constraint.words] at hholds ⊢
  have hatoms : ∀ argument ∈ arguments, ∀ {start},
      stream.Holds start (argument.apart bare (argument.words bare)) →
      ∃ value : TypeExpr, value.relocate .forget = argument.relocate .forget ∧ Atom stream
        (Derives stream false budget) start (start + (argument.apart bare (argument.words bare)).length)
        value := fun argument hmem start hwords =>
    Derivable.apart (h argument hmem) hwords (hnesting.2 _ (List.mem_map_of_mem hmem))
  obtain ⟨answers, hanswers, hrepeated⟩ :=
    Holds.repeated hholds.2 fun argument hmem _ _ _ => hatoms argument hmem
  obtain _ | ⟨answer, answers⟩ := answers
  · exact absurd (List.map_eq_nil_iff.1 hanswers.symm) hsome
  rw [List.length_cons, Nat.add_comm _ 1, ← Nat.add_assoc]
  refine ⟨_, ?_, .of hholds.kind hrepeated⟩
  rw [Constraint.relocate, Constraint.relocate, hholds.value, Span.relocate_forget _ span]
  exact congrArg (Constraint.mk className · _) hanswers

/-- The words of a context are derived, in brackets or bare, if those of its constraints are. -/
theorem exists_context {constraints : List Constraint} {words : List Word} (hsome : constraints ≠ [])
    (h : ∀ constraint ∈ constraints, ∀ {start}, stream.Holds start (constraint.words bare) →
      ∃ value : Constraint, value.relocate .forget = constraint.relocate .forget ∧ Constrained stream
        (Derives stream false budget) start (start + (constraint.words bare).length) value)
    (hholds : stream.Holds start words) (hwords : words =
      if bare && constraints.length == 1 then
        List.intercalate [Word.comma] (constraints.map fun constraint => constraint.words bare)
      else Word.enclosed .round
        (List.intercalate [Word.comma] (constraints.map fun constraint => constraint.words bare))) :
    ∃ values : List Constraint,
      (values.map fun value => value.relocate .forget) = constraints.map (fun value => value.relocate .forget) ∧
        Context stream (Derives stream false budget) start (start + words.length) values := by
  split at hwords
  · next hbare =>
    subst hwords
    obtain ⟨answers, hanswers, hlisted⟩ :=
      hholds.listed hsome fun constraint hmem _ _ _ => h constraint hmem
    cases hlisted with
    | one hread => exact ⟨_, hanswers, .one hread⟩
    | more _ _ hrest =>
      rw [Bool.and_eq_true, beq_iff_eq, ← List.length_map, ← hanswers] at hbare
      cases hrest <;> cases hbare.2
  · subst hwords
    obtain ⟨hopen, hinside, hclose⟩ := hholds.enclosed
    obtain ⟨answers, hanswers, hlisted⟩ :=
      hinside.listed hsome fun constraint hmem _ _ _ => h constraint hmem
    rw [Word.length_enclosed]
    exact ⟨answers, hanswers, .round hopen hlisted hclose⟩

theorem var_of_asRowVariable? {row : RowVariable} (h : type.asRowVariable? = some row) :
    .var row.name row.span = type := by
  cases type <;> cases h
  rfl

/-- Types that are the same up to their places are variables together. -/
theorem asRowVariable?_congr {other : TypeExpr} (h : type.relocate .forget = other.relocate .forget) :
    (type.asRowVariable? = none → other.asRowVariable? = none) ∧
      ∀ row, type.asRowVariable? = some row → ∃ row', other.asRowVariable? = some row' ∧
        row'.relocate .forget = row.relocate .forget := by
  have hmoved := congrArg asRowVariable? h
  rw [relocate_asRowVariable?, relocate_asRowVariable?] at hmoved
  constructor
  · intro hnone
    rw [hnone] at hmoved
    exact Option.map_eq_none_iff.1 hmoved.symm
  · intro row hrow
    rw [hrow] at hmoved
    exact Option.map_eq_some_iff.1 hmoved.symm

/-- The words of a list of effects are derived, if those of the effects are. -/
theorem exists_effects {effects : List TypeExpr} {row : Option RowVariable}
    (hvariables : ∀ effect ∈ effects, effect.asRowVariable? = none)
    (h : ∀ effect ∈ effects, effect.Derivable bare)
    (hholds : stream.Holds start (List.intercalate [Word.comma]
      ((effects.map fun effect => effect.apart bare (effect.words bare)) ++
        row.toList.map fun row => [{ kind := .identifier, value := row.name }])))
    (hnesting : (effects.map fun effect => effect.apartNesting bare (effect.nesting bare) + 1).foldr max
      (row.elim 0 fun _ => 1) ≤ budget) :
    ∃ (before : List TypeExpr) (last : Option RowVariable),
      (before.map fun entry => entry.relocate .forget) = effects.map (fun effect => effect.relocate .forget) ∧
      last.map (·.relocate .forget) = row.map (·.relocate .forget) ∧
      (∀ entry ∈ before, entry.asRowVariable? = none) ∧
      Effects stream (Derives stream false budget) start (start + (List.intercalate [Word.comma]
        ((effects.map fun effect => effect.apart bare (effect.words bare)) ++
          row.toList.map fun row => [{ kind := .identifier, value := row.name }])).length)
        (before ++ last.toList.map fun row => .var row.name row.span) := by
  let entries : List (List Word × TypeExpr) :=
    (effects.map fun effect => (effect.apart bare (effect.words bare), effect)) ++
      row.toList.map fun row => ([{ kind := .identifier, value := row.name }], .var row.name row.span)
  have hwords : ((effects.map fun effect => effect.apart bare (effect.words bare)) ++
      row.toList.map fun row => [{ kind := .identifier, value := row.name }]) = entries.map Prod.fst := by
    rw [List.map_append, List.map_map, List.map_map]
    rfl
  rw [hwords] at hholds ⊢
  have hentries : ∀ entry ∈ entries, ∀ {start}, stream.Holds start entry.1 →
      ∃ value : TypeExpr, value.relocate .forget = entry.2.relocate .forget ∧
        Derives stream false budget .application start (start + entry.1.length) value := by
    rw [foldr_max_le_iff] at hnesting
    refine List.forall_mem_append.2 ⟨fun entry hmem start hread => ?_, fun entry hmem start hread => ?_⟩
    · obtain ⟨effect, heffect, rfl⟩ := List.mem_map.1 hmem
      exact exists_derives (apart (h effect heffect) hread) (hnesting.2 _ (List.mem_map_of_mem heffect))
    · obtain ⟨last, hlast, rfl⟩ := List.mem_map.1 hmem
      obtain rfl := Option.mem_toList.1 hlast
      refine exists_derives (fun {budget} _ => ⟨_, ?_, .var hread.kind⟩) (show 0 + 1 ≤ budget from hnesting.1)
      rw [hread.value, relocate, relocate, Span.relocate_forget _ last.span]
  by_cases hnone : entries = []
  · obtain ⟨hnone, hrow⟩ := List.append_eq_nil_iff.1 hnone
    obtain rfl := List.map_eq_nil_iff.1 hnone
    cases row with
    | none => exact ⟨[], none, rfl, rfl, nofun, .none _⟩
    | some => cases hrow
  · obtain ⟨answers, hanswers, hlisted⟩ :=
      hholds.listed hnone fun entry hmem _ _ _ => hentries entry hmem
    rw [List.map_append, List.map_map, List.map_map] at hanswers
    obtain ⟨before, after, rfl, hbefore, hafter⟩ := List.map_eq_append_iff.1 hanswers
    have hplain : ∀ entry ∈ before, entry.asRowVariable? = none := by
      intro entry hmem
      have hmoved : entry.relocate .forget ∈ effects.map (fun effect => effect.relocate .forget) :=
        hbefore ▸ List.mem_map_of_mem hmem
      obtain ⟨effect, heffect, hsame⟩ := List.mem_map.1 hmoved
      exact (asRowVariable?_congr hsame).1 (hvariables effect heffect)
    have hrows : ∀ last : Option RowVariable,
        RowsLast (before ++ last.toList.map fun row => .var row.name row.span) := by
      intro last entry hmem
      cases last with
      | none =>
        rw [Option.toList_none, List.map_nil, List.append_nil] at hmem
        exact hplain entry (List.dropLast_subset _ hmem)
      | some last =>
        rw [Option.toList_some, List.map_singleton, List.dropLast_concat] at hmem
        exact hplain entry hmem
    cases row with
    | none =>
      obtain rfl := List.map_eq_nil_iff.1 hafter
      exact ⟨before, none, hbefore, rfl, hplain, .some hlisted (hrows none)⟩
    | some last =>
      obtain ⟨entry, rfl, hentry⟩ := List.map_eq_singleton_iff.1 hafter
      obtain ⟨last', hlast', hsame⟩ := (asRowVariable?_congr hentry.symm).2 last rfl
      rw [← var_of_asRowVariable? hlast'] at hlisted
      exact ⟨before, some last', hbefore, congrArg some hsame, hplain, .some hlisted (hrows (some last'))⟩

end Derivable

/-- A list of effects is taken apart again into the effects and the row. -/
theorem ofEntries_append {before : List TypeExpr} {last : Option RowVariable} {result : Option TypeExpr}
    {span : Span} (h : ∀ entry ∈ before, entry.asRowVariable? = none) :
    ofEntries (before ++ last.toList.map fun row => .var row.name row.span) result span =
      .effectful before last result span := by
  have hfilter : (before.filter fun entry => entry.asRowVariable?.isNone) = before :=
    List.filter_eq_self.2 fun entry hmem => by rw [h entry hmem]; rfl
  have hrows : before.filterMap asRowVariable? = [] := List.filterMap_eq_nil_iff.2 h
  rw [ofEntries, List.filter_append, List.filterMap_append, hfilter, hrows]
  cases last with
  | none => simp
  | some last => simp [asRowVariable?]

theorem derivable_words (h : type.Writable) : type.Derivable bare := by
  induction h with
  | @var name span =>
    refine Derivable.of_atom fun {stream start budget} hholds _ => ?_
    rw [words] at hholds ⊢
    refine ⟨_, ?_, .var hholds.kind⟩
    rw [hholds.value, relocate, relocate, Span.relocate_forget _ span]
  | @con name span =>
    refine Derivable.of_atom fun {stream start budget} hholds _ => ?_
    rw [words] at hholds ⊢
    refine ⟨_, ?_, .con hholds.kind⟩
    rw [hholds.value, relocate, relocate, Span.relocate_forget _ span]
  | @app function argument span _ _ hfunction hargument =>
    intro stream start budget hholds hnesting
    rw [words] at hholds ⊢
    rw [nesting] at hnesting
    obtain ⟨hfirst, hsecond⟩ := holds_append.1 hholds
    obtain ⟨value, hvalue, hatom⟩ := hfunction.bracketed hfirst (Nat.max_le.1 hnesting).1
    obtain ⟨value', hvalue', hatom'⟩ := hargument.apart hsecond (Nat.max_le.1 hnesting).2
    rw [List.length_append, ← Nat.add_assoc]
    refine ⟨_, ?_, .plain (.one (.applied (.app (.atom hatom) hatom'))), nofun⟩
    rw [relocate, relocate, hvalue, hvalue', Span.relocate_forget _ span]
  | @arrow parameter result span _ _ hparameter hresult =>
    intro stream start budget hholds hnesting
    rw [words] at hholds ⊢
    rw [nesting] at hnesting
    obtain ⟨hfirst, hsign, hsecond⟩ := holds_append.1 hholds
    obtain ⟨hnesting, hnesting'⟩ := Nat.max_le.1 hnesting
    obtain ⟨value, hvalue, hatom⟩ := hparameter.apart hfirst hnesting
    obtain ⟨value', hvalue', harrow⟩ := Derivable.exists_derives (hresult.apart hsecond) hnesting'
    rw [List.length_append, List.length_cons, ← Nat.add_assoc, ← Nat.add_assoc, Nat.add_right_comm _ _ 1]
    refine ⟨_, ?_, .plain (.arrow (.applied (.atom hatom)) (Token.isOperator_iff.2 ?_)
      harrow), nofun⟩
    · rw [relocate, relocate, hvalue, hvalue', Span.relocate_forget _ span]
    · exact ⟨congrArg Word.kind hsign, congrArg Word.value hsign⟩
  | @tuple elements span hlength _ helements =>
    refine Derivable.of_atom fun {stream start budget} hholds hnesting => ?_
    rw [words] at hholds ⊢
    rw [nesting, foldr_max_le_iff] at hnesting
    obtain ⟨hopen, hinside, hclose⟩ := hholds.enclosed
    rw [Word.length_enclosed]
    cases elements with
    | nil =>
      refine ⟨_, ?_, .unit hopen hclose⟩
      rw [relocate, relocate, Span.relocate_forget _ span]
    | cons first rest =>
      obtain ⟨second, more, rfl⟩ := List.exists_cons_of_ne_nil (show rest ≠ [] from fun h => hlength (by rw [h]; rfl))
      have hitems : ∀ element ∈ first :: second :: more, ∀ {start},
          stream.Holds start (element.bracketed (element.words bare)) →
          ∃ value : TypeExpr, value.relocate .forget = element.relocate .forget ∧ Derives stream false budget
            .type start (start + (element.bracketed (element.words bare)).length) value :=
        fun element hmem start hwords =>
          Derivable.exists_derives (Derivable.bracketed (helements element hmem) hwords)
            (hnesting.2 _ (List.mem_map_of_mem hmem))
      obtain ⟨answers, hanswers, hlisted⟩ :=
        hinside.listed (List.cons_ne_nil first _) fun element hmem _ _ _ => hitems element hmem
      obtain _ | ⟨answer, _ | ⟨answer', answers⟩⟩ := answers
      · cases hanswers
      · cases (List.cons.inj hanswers).2
      refine ⟨_, ?_, .tuple hopen hlisted hclose⟩
      rw [relocate, relocate, Span.relocate_forget _ span]
      exact congrArg (TypeExpr.tuple · _) hanswers
  | @effectful effects row result span _ hvariables _ _ heffects hresult =>
    intro stream start budget hholds hnesting
    cases result with
    | none =>
      rw [words] at hholds ⊢
      rw [nesting, Nat.max_le] at hnesting
      obtain ⟨hopen, hrest⟩ := hholds
      obtain ⟨hinside, hclose⟩ := holds_append.1 hrest
      obtain ⟨before, last, hbefore, hlast, hplain, hentries⟩ :=
        Derivable.exists_effects hvariables heffects hinside hnesting.1
      have hread : Application stream false (Derives stream false budget) start _ _ :=
        .effects (congrArg Word.kind hopen) hentries hclose.kind
      rw [ofEntries_append hplain] at hread
      rw [List.length_cons, List.length_append, List.length_singleton, ← Nat.add_assoc, ← Nat.add_assoc,
        Nat.add_right_comm start]
      refine ⟨_, ?_, .plain (.one hread), nofun⟩
      rw [relocate, relocate, hbefore, hlast, Span.relocate_forget _ span]
    | some type =>
      rw [words] at hholds ⊢
      rw [nesting, Nat.max_le] at hnesting
      obtain ⟨hopen, hrest⟩ := hholds
      obtain ⟨hinside, hclose, htype⟩ := holds_append.1 hrest
      obtain ⟨before, last, hbefore, hlast, hplain, hentries⟩ :=
        Derivable.exists_effects hvariables heffects hinside hnesting.1
      obtain ⟨value, hvalue, hatom⟩ := Derivable.apart (hresult type rfl) htype hnesting.2
      have hread : Application stream false (Derives stream false budget) start _ _ :=
        .result (congrArg Word.kind hopen) hentries (congrArg Word.kind hclose) (.atom hatom)
      rw [ofEntries_append hplain] at hread
      rw [List.length_cons, List.length_append, List.length_cons, Nat.add_comm _ 1, Nat.add_comm _ 1,
        ← Nat.add_assoc, ← Nat.add_assoc, ← Nat.add_assoc]
      refine ⟨_, ?_, .plain (.one hread), nofun⟩
      rw [relocate, relocate, hbefore, hlast, hvalue, Span.relocate_forget _ span]
  | @qualified constraints body span hsome hconstraints _ _ harguments hbody =>
    intro stream start budget hholds hnesting
    rw [words] at hholds ⊢
    rw [nesting, Nat.max_le, foldr_max_le_iff] at hnesting
    obtain ⟨hnesting, hnesting'⟩ := hnesting
    obtain ⟨hcontext, hsign, hbodyWords⟩ := holds_append.1 hholds
    obtain ⟨values, hvalues, hcontext⟩ := Derivable.exists_context hsome
      (fun constraint hmem start hwords => Derivable.exists_constrained (hconstraints constraint hmem).1
        (harguments constraint hmem) hwords (hnesting.2 _ (List.mem_map_of_mem hmem))) hcontext rfl
    obtain ⟨value, hvalue, hatom⟩ := hbody.bracketed hbodyWords hnesting'
    rw [List.length_append, List.length_cons, ← Nat.add_assoc, ← Nat.add_assoc, Nat.add_right_comm _ _ 1]
    refine ⟨_, ?_, .qualified hcontext (Token.isOperator_iff.2 ?_) (.one (.applied (.atom hatom))), nofun⟩
    · rw [relocate, relocate, hvalue, Span.relocate_forget _ span]
      exact congrArg (TypeExpr.qualified · _ _) hvalues
    · exact ⟨congrArg Word.kind hsign, congrArg Word.value hsign⟩

/-! ### Reading what is written -/

/-- A type as a text, with one space in front of each word. -/
def render (bare : Bool) (type : TypeExpr) : String := String.ofList (Word.spaced (type.words bare))

/-- A type that is written down is read as the same type again, without a word. Any blanks may stand between
its words, such as one space in front of each. -/
theorem parse_written (bare : Bool) (h : type.Writable) (hnesting : type.nesting bare < nestingBudget) :
    Written (type.words bare) (type.render bare).toList ∧
    ∀ text file : String, Written (type.words bare) text.toList →
      ∃ tokens value final, Token.ofText text file = .ok tokens ∧
        runParser (Parser.whole (Parser.typeAt nestingBudget .type)) tokens = (.ok value, final) ∧
        final.log.diagnostics = #[] ∧ parseType text file = .ok value ∧
        value.outline.sameStructure type.outline = true := by
  refine ⟨by rw [render, String.toList_ofList]; exact written_spaced _, fun text file hwritten => ?_⟩
  obtain ⟨tokens, stream, hlexes, hstream, hholds, hend, hplain⟩ :=
    TokenStream.exists_of_written file hwritten (readable_words h)
  have hnewline : ∀ position, stream.kind position ≠ .newline := fun position hkind => by
    have hplain := hplain position
    rw [hkind] at hplain
    cases hplain
  obtain ⟨value, hsame, hwhole, -⟩ := derivable_words h hholds (Nat.le_of_lt_succ hnesting)
  rw [Nat.zero_add] at hwhole
  have hiff := @whole_iff stream _ _ value _ hplain (Parser.recognizes_typeAt hnewline nestingBudget .type)
    fun h hstop => (Parser.legible_typeAt hnewline nestingBudget).consumes h (Or.inr (Or.inr hstop))
  obtain ⟨final, hrun, hquiet⟩ := hiff.2 ⟨_, hwhole, hend⟩
  have hrunParser : runParser (Parser.whole (Parser.typeAt nestingBudget .type)) tokens =
      (.ok value, final) := by
    rw [runParser, hstream]
    exact hrun
  refine ⟨tokens, value, final, hlexes, hrunParser, hquiet, parseWhole_eq_ok hlexes hstream hrun hquiet, ?_⟩
  refine @Outline.sameStructure_of_relocate_eq .forget .forget _ _ ?_
  rw [← outline_relocate, ← outline_relocate, hsame]

/-- A type of every form, written down and read again. -/
theorem exists_parse_written :
    let name := TypeExpr.var "a" default
    let type := TypeExpr.qualified
      [{ className := "Show", arguments := [name], span := default },
        { className := "Eq", arguments := [.app (.con "List" default) name default], span := default }]
      (.arrow name (.effectful [.con "IO" default] (some { name := "e", span := default })
        (some (.tuple [name, .tuple [] default] default)) default) default) default
    type.Writable ∧ type.nesting true < nestingBudget ∧ ∃ tokens value final,
      Token.ofText (type.render true) "" = .ok tokens ∧
      runParser (Parser.whole (Parser.typeAt nestingBudget .type)) tokens = (.ok value, final) ∧
      final.log.diagnostics = #[] ∧ parseType (type.render true) "" = .ok value ∧
      value.outline.sameStructure type.outline = true := by
  intro name type
  have hname : name.Writable := .var (by decide)
  have hlist : Writable (.app (.con "List" default) name default) := .app (.con (by decide)) hname
  have htuple : Writable (.tuple [name, .tuple [] default] default) :=
    .tuple (by decide) (List.forall_mem_cons.2 ⟨hname, List.forall_mem_singleton.2
      (.tuple (by decide) nofun)⟩)
  have heffects : Writable (.effectful [.con "IO" default] (some { name := "e", span := default })
      (some (.tuple [name, .tuple [] default] default)) default) :=
    .effectful (List.forall_mem_singleton.2 (.con (by decide))) (List.forall_mem_singleton.2 rfl)
      (fun rest hrest => by cases hrest; decide) (fun type htype => by cases htype; exact htuple)
  have hwritable : type.Writable := .qualified (List.cons_ne_nil _ _)
    (List.forall_mem_cons.2 ⟨⟨List.cons_ne_nil _ _, by decide⟩,
      List.forall_mem_singleton.2 ⟨List.cons_ne_nil _ _, by decide⟩⟩)
    (List.forall_mem_cons.2 ⟨List.forall_mem_singleton.2 hname,
      List.forall_mem_singleton.2 (List.forall_mem_singleton.2 hlist)⟩)
    (.arrow hname heffects)
  have hnesting : type.nesting true < nestingBudget := by
    simp [type, name, nesting, Constraint.nesting, apartNesting, bracketedNesting, isAtomic, nestingBudget]
  obtain ⟨hwritten, hread⟩ := parse_written true hwritable hnesting
  exact ⟨hwritable, hnesting, hread _ "" hwritten⟩

end TypeExpr

end SableFrontend
