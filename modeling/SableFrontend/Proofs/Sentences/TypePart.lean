import SableFrontend.Proofs.Sentences.TypeSentence
import SableFrontend.Proofs.Sentences.TypeSpelling
import SableFrontend.Proofs.Token.Part

/-!
Types in a part of a source. What the grammar derives depends on the words that it is derived from, so a type
in a source is derived from a part that holds its words alone, with other places (`Derives.part`). It is
then all that such a part holds, so that parsing it gives the type (`parseType_of_part`).
-/

namespace SableFrontend

open TokenStream TypeGrammar

/-! ### The same words -/

namespace TokenStream.Part

variable {stream other : TokenStream} {first last position : Nat}

theorem token_kind_eq (h : stream.Part first last other) (hfirst : first ≤ position)
    (hlast : position < last) : other.kind (position - first) = stream.kind position :=
  congrArg Word.kind (h.word_eq hfirst hlast)

/-- A token of the part, and the place behind it. -/
theorem step {kind : TokenKind} (h : stream.Part first last other) (hkind : stream.kind position = kind)
    (hfirst : first ≤ position) (hlast : position < last) :
    other.kind (position - first) = kind ∧ position + 1 - first = position - first + 1 :=
  ⟨(h.token_kind_eq hfirst hlast).trans hkind, Nat.sub_add_comm hfirst⟩

theorem value_eq (h : stream.Part first last other) (hfirst : first ≤ position) (hlast : position < last) :
    (other.token (position - first)).value = (stream.token position).value :=
  congrArg Word.value (h.word_eq hfirst hlast)

theorem isOperator_eq (h : stream.Part first last other) (hfirst : first ≤ position)
    (hlast : position < last) (spelling : String) :
    (other.token (position - first)).isOperator spelling = (stream.token position).isOperator spelling := by
  rw [Token.isOperator, Token.isOperator, h.value_eq hfirst hlast]
  exact congrArg (· == TokenKind.operator && _) (h.token_kind_eq hfirst hlast)

end TokenStream.Part

namespace TokenStream

section

variable {α β : Type} {stream other : TokenStream} {first last start stop : Nat} {moved : α → β}
  {item item' : Nat → Nat → α → Prop} {answers : List α}
  (hlt : ∀ {start stop answer}, item start stop answer → start < stop)
  (hitem : ∀ {start stop answer}, item start stop answer → first ≤ start → stop ≤ last →
    ∃ answer', moved answer' = moved answer ∧ item' (start - first) (stop - first) answer')

include hlt hitem

theorem Repeated.part (hrepeated : Repeated item start stop answers) (hstart : first ≤ start)
    (hstop : stop ≤ last) : ∃ answers', answers'.map moved = answers.map moved ∧
      Repeated item' (start - first) (stop - first) answers' := by
  induction hrepeated with
  | none => exact ⟨[], rfl, .none _⟩
  | more hanswer hrest ih =>
    have hmiddle := hlt hanswer
    have hbehind := hrest.le fun h => hlt h
    obtain ⟨answer', hmoved, hanswer'⟩ := hitem hanswer hstart (by omega)
    obtain ⟨answers', hmoveds, hrepeated'⟩ := ih (by omega) hstop
    exact ⟨answer' :: answers', by rw [List.map_cons, List.map_cons, hmoved, hmoveds],
      .more hanswer' hrepeated'⟩

theorem Listed.part (h : stream.Part first last other) (hlisted : stream.Listed item start stop answers)
    (hstart : first ≤ start) (hstop : stop ≤ last) :
    ∃ answers', answers'.map moved = answers.map moved ∧
      other.Listed item' (start - first) (stop - first) answers' := by
  have hbounds : ∀ {start stop answers}, stream.Listed item start stop answers → start < stop := by
    intro start stop answers hlisted
    induction hlisted with
    | one hanswer => exact hlt hanswer
    | more hanswer _ _ ih => exact Nat.lt_trans (hlt hanswer) (Nat.lt_of_succ_lt ih)
  induction hlisted with
  | one hanswer =>
    obtain ⟨answer', hmoved, hanswer'⟩ := hitem hanswer hstart hstop
    exact ⟨[answer'], congrArg (fun answer => [answer]) hmoved, .one hanswer'⟩
  | @more start middle stop answer answers hanswer hcomma hrest ih =>
    have hmiddle := hlt hanswer
    have hbehind := hbounds hrest
    obtain ⟨answer', hmoved, hanswer'⟩ := hitem hanswer hstart (by omega)
    obtain ⟨answers', hmoveds, hlisted'⟩ := ih (by omega) hstop
    rw [Nat.sub_add_comm (show first ≤ middle by omega)] at hlisted'
    refine ⟨answer' :: answers', by rw [List.map_cons, List.map_cons, hmoved, hmoveds],
      .more hanswer' ?_ hlisted'⟩
    rw [h.token_kind_eq (by omega) (by omega), hcomma]

end

end TokenStream

/-! ### The same effects -/

namespace TypeExpr

theorem relocate_ofEntries (r : Relocation) (entries : List TypeExpr) (result : Option TypeExpr)
    (span : Span) : (ofEntries entries result span).relocate r =
      ofEntries (r.move entries) (r.move result) (span.relocate r) := by
  have hrow : ((r.move entries).filterMap asRowVariable?).head? =
      r.move (entries.filterMap asRowVariable?).head? := by
    rw [r.move_filterMap relocate_asRowVariable?]
    exact List.head?_map
  have heffects : ((r.move entries).filter fun entry => entry.asRowVariable?.isNone) =
      r.move (entries.filter fun entry => entry.asRowVariable?.isNone) := by
    refine r.move_filter (fun entry => ?_) entries
    rw [show (r.move entry).asRowVariable? = _ from entry.relocate_asRowVariable?]
    cases entry.asRowVariable? <;> rfl
  rw [ofEntries, ofEntries, hrow, heffects]
  exact relocate_effectful ..

theorem RowsLast.congr {entries entries' : List TypeExpr} (h : RowsLast entries)
    (hmoved : entries'.map (relocate .forget) = entries.map (relocate .forget)) : RowsLast entries' := by
  intro entry' hmem
  have hmem' := List.mem_map_of_mem (f := relocate .forget) hmem
  rw [List.map_dropLast, hmoved, ← List.map_dropLast] at hmem'
  obtain ⟨entry, hentry, hsame⟩ := List.mem_map.1 hmem'
  exact (Derivable.asRowVariable?_congr hsame).1 (h entry hentry)

theorem ofEntries_congr {entries entries' : List TypeExpr} {result result' : Option TypeExpr}
    {span span' : Span}
    (hentries : entries'.map (relocate .forget) = entries.map (relocate .forget))
    (hresult : result'.map (relocate .forget) = result.map (relocate .forget)) :
    (ofEntries entries' result' span').relocate .forget =
      (ofEntries entries result span).relocate .forget := by
  have hentries' : Relocation.forget.move entries' = Relocation.forget.move entries := hentries
  have hresult' : Relocation.forget.move result' = Relocation.forget.move result := hresult
  rw [relocate_ofEntries, relocate_ofEntries, hentries', hresult', Span.relocate_forget span' span]

end TypeExpr

/-! ### The same types -/

namespace TypeGrammar

variable {stream other : TokenStream} {nested : Bool} {first last start stop : Nat} {value : TypeExpr}
  {reads reads' : TypeRule → Nat → Nat → TypeExpr → Prop}

/-- A type that a part of a source holds, up to the places in it. -/
def Held (first : Nat) (language : Nat → Nat → TypeExpr → Prop) (start stop : Nat)
    (value : TypeExpr) : Prop :=
  ∃ value' : TypeExpr, value'.relocate .forget = value.relocate .forget ∧
    language (start - first) (stop - first) value'

section

variable (h : stream.Part first last other)
  (hstretch : ∀ {rule start stop value}, reads rule start stop value →
    stream.Stretch rule.least start stop)
  (hreads : ∀ {rule start stop value}, reads rule start stop value → first ≤ start → stop ≤ last →
    Held first (reads' rule) start stop value)

include h hstretch hreads

theorem Atom.part (hatom : Atom stream reads start stop value) (hstart : first ≤ start)
    (hstop : stop ≤ last) : Held first (Atom other reads') start stop value := by
  have hlt := (hatom.stretch hstretch).lt
  cases hatom with
  | var hname =>
    obtain ⟨hname, hnext⟩ := h.step hname hstart (by omega)
    rw [Held, hnext]
    refine ⟨_, ?_, .var hname⟩
    rw [h.value_eq hstart (by omega), TypeExpr.relocate, TypeExpr.relocate, Span.relocate_forget]
  | con hname =>
    obtain ⟨hname, hnext⟩ := h.step hname hstart (by omega)
    rw [Held, hnext]
    refine ⟨_, ?_, .con hname⟩
    rw [h.value_eq hstart (by omega), TypeExpr.relocate, TypeExpr.relocate, Span.relocate_forget]
  | unit hopen hclose =>
    obtain ⟨hopen, hnext⟩ := h.step hopen hstart (by omega)
    obtain ⟨hclose, hstop⟩ := h.step hclose (by omega) (by omega)
    rw [hnext] at hclose hstop
    rw [Held, hstop]
    refine ⟨_, ?_, .unit hopen hclose⟩
    rw [TypeExpr.relocate, TypeExpr.relocate, Span.relocate_forget]
  | round hopen hinside hclose =>
    have hinner := (hstretch hinside).lt
    obtain ⟨hopen, hnext⟩ := h.step hopen hstart (by omega)
    obtain ⟨hclose, hstop⟩ := h.step hclose (by omega) (by omega)
    obtain ⟨value', hmoved, hread⟩ := hreads hinside (by omega) (by omega)
    rw [hnext] at hread
    rw [Held, hstop]
    exact ⟨value', hmoved, .round hopen hread hclose⟩
  | tuple hopen hlisted hclose =>
    have hinner := (Stretch.listed hlisted hstretch).lt
    obtain ⟨hopen, hnext⟩ := h.step hopen hstart (by omega)
    obtain ⟨hclose, hstop⟩ := h.step hclose (by omega) (by omega)
    obtain ⟨values, hmoved, hread⟩ := Listed.part (fun hread => (hstretch hread).lt) hreads h hlisted
      (by omega) (by omega)
    rw [hnext] at hread
    rw [Held, hstop]
    obtain _ | ⟨value₁, _ | ⟨value₂, values⟩⟩ := values
    · cases hmoved
    · cases (List.cons.inj hmoved).2
    refine ⟨_, ?_, .tuple hopen hread hclose⟩
    rw [TypeExpr.relocate, TypeExpr.relocate, Span.relocate_forget]
    exact congrArg (TypeExpr.tuple · _) hmoved

theorem Applied.part (happlied : Applied stream reads start stop value) (hstart : first ≤ start)
    (hstop : stop ≤ last) : Held first (Applied other reads') start stop value := by
  induction happlied with
  | atom hatom =>
    obtain ⟨value', hmoved, hread⟩ := hatom.part h hstretch hreads hstart hstop
    exact ⟨value', hmoved, .atom hread⟩
  | app hfunction hargument ih =>
    have hmiddle := (hfunction.stretch hstretch).lt
    have hbehind := (hargument.stretch hstretch).lt
    obtain ⟨function', hfunction', hread⟩ := ih (by omega)
    obtain ⟨argument', hargument', hread'⟩ := hargument.part h hstretch hreads (by omega) hstop
    refine ⟨_, ?_, .app hread hread'⟩
    rw [TypeExpr.relocate, TypeExpr.relocate, hfunction', hargument', Span.relocate_forget]

theorem Constrained.part {constraint : Constraint}
    (hconstrained : Constrained stream reads start stop constraint) (hstart : first ≤ start) (hstop : stop ≤ last) :
    ∃ constraint' : Constraint, constraint'.relocate .forget = constraint.relocate .forget ∧
      Constrained other reads' (start - first) (stop - first) constraint' := by
  have hlt := (hconstrained.stretch hstretch).lt
  cases hconstrained with
  | of hname harguments =>
    have hatom : ∀ {start stop value}, Atom stream reads start stop value → first ≤ start →
        stop ≤ last → Held first (Atom other reads') start stop value := Atom.part h hstretch hreads
    obtain ⟨hname, hnext⟩ := h.step hname hstart (by omega)
    obtain ⟨arguments, hmoved, hread⟩ := Repeated.part (fun hatom => (hatom.stretch hstretch).lt) hatom
      harguments (by omega) hstop
    rw [hnext] at hread
    obtain _ | ⟨argument, arguments⟩ := arguments
    · cases hmoved
    refine ⟨_, ?_, .of hname hread⟩
    rw [Constraint.relocate, Constraint.relocate, h.value_eq hstart (by omega), Span.relocate_forget]
    exact congrArg (Constraint.mk _ · _) hmoved

theorem Context.part {constraints : List Constraint} (hcontext : Context stream reads start stop constraints)
    (hstart : first ≤ start) (hstop : stop ≤ last) :
    ∃ constraints' : List Constraint,
      constraints'.map (Constraint.relocate .forget) = constraints.map (Constraint.relocate .forget) ∧
        Context other reads' (start - first) (stop - first) constraints' := by
  have hconstrained : ∀ {start stop constraint}, Constrained stream reads start stop constraint →
      first ≤ start → stop ≤ last → ∃ constraint' : Constraint,
        constraint'.relocate .forget = constraint.relocate .forget ∧
          Constrained other reads' (start - first) (stop - first) constraint' :=
    Constrained.part h hstretch hreads
  cases hcontext with
  | one hone =>
    obtain ⟨constraint', hmoved, hread⟩ := hconstrained hone hstart hstop
    exact ⟨[constraint'], congrArg (fun constraint => [constraint]) hmoved, .one hread⟩
  | round hopen hlisted hclose =>
    have hstretch' : ∀ {start stop constraint}, Constrained stream reads start stop constraint →
        stream.Stretch 1 start stop := fun hread => (hread.stretch hstretch).mono (Nat.zero_le 1)
    have hinner := (Stretch.listed hlisted hstretch').lt
    obtain ⟨hopen, hnext⟩ := h.step hopen hstart (by omega)
    obtain ⟨hclose, hstop⟩ := h.step hclose (by omega) (by omega)
    obtain ⟨constraints', hmoved, hread⟩ := Listed.part (fun hread => (hstretch' hread).lt) hconstrained h
      hlisted (by omega) (by omega)
    rw [hnext] at hread
    rw [hstop]
    exact ⟨constraints', hmoved, .round hopen hread hclose⟩

theorem Effects.part {entries : List TypeExpr} (heffects : Effects stream reads start stop entries)
    (hstart : first ≤ start) (hstop : stop ≤ last) :
    ∃ entries' : List TypeExpr,
      entries'.map (TypeExpr.relocate .forget) = entries.map (TypeExpr.relocate .forget) ∧
        Effects other reads' (start - first) (stop - first) entries' := by
  cases heffects with
  | none => exact ⟨[], rfl, .none _⟩
  | some hlisted hrows =>
    obtain ⟨entries', hmoved, hread⟩ := Listed.part (fun hread => (hstretch hread).lt) hreads h hlisted
      hstart hstop
    exact ⟨entries', hmoved, .some hread (hrows.congr hmoved)⟩

theorem Application.part (happlication : Application stream nested reads start stop value)
    (hstart : first ≤ start) (hstop : stop ≤ last) :
    Held first (Application other nested reads') start stop value := by
  induction happlication with
  | applied happlied =>
    obtain ⟨value', hmoved, hread⟩ := happlied.part h hstretch hreads hstart hstop
    exact ⟨value', hmoved, .applied hread⟩
  | effects hopen heffects hclose =>
    have hlt := (heffects.stretch hstretch hopen hclose).lt
    obtain ⟨hopen, hnext⟩ := h.step hopen hstart (by omega)
    obtain ⟨hclose, hbehind⟩ := h.step hclose (by omega) (by omega)
    obtain ⟨entries', hmoved, hread⟩ := heffects.part h hstretch hreads (by omega) (by omega)
    rw [hnext] at hread
    rw [Held, hbehind]
    exact ⟨_, TypeExpr.ofEntries_congr hmoved rfl, .effects hopen hread hclose⟩
  | result hopen heffects hclose hresult =>
    have hlt := (heffects.stretch hstretch hopen hclose).lt
    have hlt' := (hresult.stretch hstretch).lt
    obtain ⟨hopen, hnext⟩ := h.step hopen hstart (by omega)
    obtain ⟨hclose, hbehind⟩ := h.step hclose (by omega) (by omega)
    obtain ⟨entries', hmoved, hread⟩ := heffects.part h hstretch hreads (by omega) (by omega)
    obtain ⟨result', hmoved', hread'⟩ := hresult.part h hstretch hreads (by omega) hstop
    rw [hnext] at hread
    rw [hbehind] at hread'
    have hresults : (some result').map (TypeExpr.relocate .forget) = Option.map _ (some _) :=
      congrArg some hmoved'
    exact ⟨_, TypeExpr.ofEntries_congr hmoved hresults, .result hopen hread hclose hread'⟩
  | chained hnested hopen heffects hclose hresult ih =>
    have hlt := (heffects.stretch hstretch hopen hclose).lt
    have hlt' := (hresult.stretch hstretch).lt
    obtain ⟨hopen, hnext⟩ := h.step hopen hstart (by omega)
    obtain ⟨hclose, hbehind⟩ := h.step hclose (by omega) (by omega)
    obtain ⟨entries', hmoved, hread⟩ := heffects.part h hstretch hreads (by omega) (by omega)
    obtain ⟨result', hmoved', hread'⟩ := ih (by omega) hstop
    rw [hnext] at hread
    rw [hbehind] at hread'
    have hresults : (some result').map (TypeExpr.relocate .forget) = Option.map _ (some _) :=
      congrArg some hmoved'
    exact ⟨_, TypeExpr.ofEntries_congr hmoved hresults, .chained hnested hopen hread hclose hread'⟩

theorem Arrow.part (harrow : Arrow stream nested reads start stop value) (hstart : first ≤ start)
    (hstop : stop ≤ last) : Held first (Arrow other nested reads') start stop value := by
  cases harrow with
  | one happlication =>
    obtain ⟨value', hmoved, hread⟩ := happlication.part h hstretch hreads hstart hstop
    exact ⟨value', hmoved, .one hread⟩
  | arrow happlication hsign hresult =>
    have hlt := (happlication.stretch hstretch).lt
    have hlt' := (hstretch hresult).lt
    obtain ⟨parameter', hmoved, hread⟩ := happlication.part h hstretch hreads hstart (by omega)
    obtain ⟨result', hmoved', hread'⟩ := hreads hresult (by omega) hstop
    rw [← h.isOperator_eq (by omega) (by omega)] at hsign
    rw [Nat.sub_add_comm (show first ≤ _ by omega)] at hread'
    refine ⟨_, ?_, .arrow hread hsign hread'⟩
    rw [TypeExpr.relocate, TypeExpr.relocate, hmoved, hmoved', Span.relocate_forget]

theorem Whole.part (hwhole : Whole stream nested reads start stop value) (hstart : first ≤ start)
    (hstop : stop ≤ last) : Held first (Whole other nested reads') start stop value := by
  cases hwhole with
  | plain harrow =>
    obtain ⟨value', hmoved, hread⟩ := harrow.part h hstretch hreads hstart hstop
    exact ⟨value', hmoved, .plain hread⟩
  | qualified hcontext hsign hbody =>
    have hlt := (hcontext.stretch hstretch).lt
    have hlt' := (hbody.stretch hstretch).lt
    obtain ⟨constraints', hmoved, hread⟩ := hcontext.part h hstretch hreads hstart (by omega)
    obtain ⟨body', hmoved', hread'⟩ := hbody.part h hstretch hreads (by omega) hstop
    rw [← h.isOperator_eq (by omega) (by omega)] at hsign
    rw [Nat.sub_add_comm (show first ≤ _ by omega)] at hread'
    refine ⟨_, ?_, .qualified hread hsign hread'⟩
    rw [TypeExpr.relocate, TypeExpr.relocate, hmoved', Span.relocate_forget]
    exact congrArg (TypeExpr.qualified · _ _) hmoved

end

/-- What the grammar derives between two places of a part it derives from the part alone. -/
theorem Derives.part {budget : Nat} {rule : TypeRule} (h : stream.Part first last other)
    (hderives : Derives stream nested budget rule start stop value) (hstart : first ≤ start)
    (hstop : stop ≤ last) : Held first (Derives other nested budget rule) start stop value := by
  induction budget generalizing rule start stop value with
  | zero => cases hderives
  | succ budget ih =>
    cases rule with
    | type => exact Whole.part h Derives.stretch ih hderives hstart hstop
    | arrow => exact Arrow.part h Derives.stretch ih hderives hstart hstop
    | application => exact Application.part h Derives.stretch ih hderives hstart hstop

end TypeGrammar

/-! ### The part as a type -/

/-- A part of a source that holds the words of a type alone is parsed to the type, with other places. -/
theorem parseType_of_part {stream other : TokenStream} {first last budget : Nat} {value : TypeExpr}
    {text file : String} {tokens : Array Token} (hderives : Derives stream false budget .type first last value)
    (hbudget : budget ≤ nestingBudget) (hlexes : Token.ofText text file = .ok tokens)
    (hstream : TokenStream.ofTokens? tokens = some other) (h : stream.Part first last other) :
    ∃ value', parseType text file = .ok value' ∧ value'.outline.sameStructure value.outline = true := by
  have hstretch := hderives.stretch
  obtain ⟨value', hmoved, hread⟩ :=
    (hderives.budget_mono hbudget).part h (Nat.le_refl first) (Nat.le_refl last)
  rw [Nat.sub_self] at hread
  have hplain : ∀ position, (other.kind position).isSeparator = false := by
    intro position
    rcases Nat.lt_or_ge position (last - first) with hlt | hge
    · have hkind := h.token_kind_eq (Nat.le_add_left first position) (by omega)
      rw [Nat.add_sub_cancel] at hkind
      rw [hkind, hstretch.joined _ (Nat.le_add_left first position) (by omega)]
    · rw [h.kind_eq hge]
      rfl
  have hnewline : ∀ position, other.kind position ≠ .newline := fun position hkind => by
    have hplain := hplain position
    rw [hkind] at hplain
    cases hplain
  have hiff := @whole_iff other _ _ value' _ hplain (Parser.recognizes_typeAt hnewline nestingBudget .type)
    fun h hstop => (Parser.legible_typeAt hnewline nestingBudget).consumes h (Or.inr (Or.inr hstop))
  obtain ⟨final, hrun, hquiet⟩ := hiff.2 ⟨_, hread, h.kind_eq (Nat.le_refl _)⟩
  refine ⟨value', parseWhole_eq_ok hlexes hstream hrun hquiet, ?_⟩
  refine @Outline.sameStructure_of_relocate_eq .forget .forget _ _ ?_
  rw [← TypeExpr.outline_relocate, ← TypeExpr.outline_relocate, hmoved]

end SableFrontend
