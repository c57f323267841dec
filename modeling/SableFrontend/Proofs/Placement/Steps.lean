import SableFrontend.Proofs.Grammar.Loops
import SableFrontend.Proofs.Placement.Grouping

/-!
What a parser has read on its way. `Setting.Passed` says of a state that a parser has come to how far
it is from where the parser began, and carries along the trees that were read in between: each sits
between the two positions, and is well made if nothing has been reported until now. The rules of
this module take such a state one step further, and a production is followed from its first step to
its last. At the end a node is put around what has been carried along (`Passed.node`), and that is
all that the next production outwards has to know about.

A node ends at the token consumed last, so it matters which token that is: never a line break. Some
steps pass over line breaks and some may consume nothing at all, which is what a `Footing` keeps
apart.
-/

namespace SableFrontend

/-- Nothing has been reported, and nothing would have gone unheard. -/
def ParserState.Quiet (state : ParserState) : Prop :=
  state.log.muted = 0 ∧ state.log.diagnostics = #[]

/-- The kinds of tokens that a node may end with. -/
def TokenKind.isSolid : TokenKind → Bool
  | newline | endOfFile => false
  | _ => true

/-- What is known of the token consumed last: nothing; that it is no line break, if any token has
been consumed; or that there is one and it is no line break. -/
inductive Footing where
  | loose
  | firm
  | solid

/-- The footing after two parts of a way. -/
def Footing.after : Footing → Footing → Footing
  | before, firm => before
  | _, loose => loose
  | _, solid => solid

namespace TokenStream

variable (stream : TokenStream)

/-- What a footing says about a way from one position to another. -/
def Stands (start position : Nat) : Footing → Prop
  | .loose => True
  | .firm => position = start ∨ start < position ∧ stream.kind (position - 1) ≠ .newline
  | .solid => start < position ∧ stream.kind (position - 1) ≠ .newline

variable {stream} {start position later : Nat} {footing footing' : Footing}

theorem Stands.of_solid (h : stream.Stands start position .solid) :
    stream.Stands start position footing := by
  cases footing with
  | loose => trivial
  | firm => exact Or.inr h
  | solid => exact h

theorem Stands.trans (h : stream.Stands start position footing)
    (h' : stream.Stands position later footing') (hle : start ≤ position) :
    stream.Stands start later (footing.after footing') := by
  cases footing' with
  | loose => cases footing <;> trivial
  | firm =>
    rcases h' with rfl | ⟨hlt, hkind⟩
    · exact h
    · exact Stands.of_solid ⟨Nat.lt_of_le_of_lt hle hlt, hkind⟩
  | solid => cases footing <;> exact ⟨Nat.lt_of_le_of_lt hle h'.1, h'.2⟩

end TokenStream

namespace Setting

open SableFrontend.Parser

variable (set : Setting)

/-- Every place that has been reported may be shown. -/
def Marked (log : Log) : Prop :=
  ∀ diagnostic ∈ log.diagnostics, ∀ label ∈ diagnostic.labels, set.stream.Marks label.span

/-- A parser has come from one state to another and has read trees on the way. -/
structure Passed (start : ParserState) (footing : Footing) (read : List Outline)
    (state : ParserState) : Prop where
  le : start.position ≤ state.position
  lt : state.position < set.stream.size
  quiet : state.Quiet → start.Quiet
  marked : set.Marked start.log → set.Marked state.log
  stands : set.stream.Stands start.position state.position footing
  sits : ∀ tree ∈ read, set.stream.Sits state.Quiet start.position state.position tree

/-- Nothing has happened since a state but reports. -/
structure Tells (start state : ParserState) : Prop where
  position_eq : state.position = start.position
  quiet : state.Quiet → start.Quiet
  marked : set.Marked start.log → set.Marked state.log

/-- A parser gives up in a state. If it fails, it does not do so in silence. -/
structure Halts (start : ParserState) (abort : Abort) (state : ParserState) : Prop where
  passed : set.Passed start .loose [] state
  loud : abort = .failed → ¬state.Quiet

/-- A parser reads trees between where it begins and where it ends, wherever it is started. -/
def Builds {α : Type} [Forest α] (parser : Parser α) : Prop :=
  ∀ state, state.position < set.stream.size →
    set.Runs parser state (fun answer final => set.Passed state .solid (trees answer) final)
      (set.Halts state)

variable {set} {α β : Type} {start state final : ParserState} {footing footing' : Footing}
  {before more : List Outline}

/-! ### Ways -/

namespace Passed

theorem refl (h : state.position < set.stream.size) : set.Passed state .firm [] state where
  le := Nat.le_refl _
  lt := h
  quiet h := h
  marked h := h
  stands := Or.inl rfl
  sits _ hmem := absurd hmem List.not_mem_nil

theorem trans (h : set.Passed start footing before state)
    (h' : set.Passed state footing' more final) :
    set.Passed start (footing.after footing') (before ++ more) final where
  le := Nat.le_trans h.le h'.le
  lt := h'.lt
  quiet hquiet := h.quiet (h'.quiet hquiet)
  marked hmarked := h'.marked (h.marked hmarked)
  stands := h.stands.trans h'.stands h.le
  sits tree hmem := by
    rcases List.mem_append.1 hmem with hmem | hmem
    · exact (h.sits tree hmem).mono (Nat.le_refl _) h'.le h'.quiet
    · exact (h'.sits tree hmem).mono h.le (Nat.le_refl _) id

/-- A part of the way that ends on solid ground. -/
theorem onward (h : set.Passed start footing before state)
    (h' : set.Passed state .solid more final) : set.Passed start .solid (before ++ more) final := by
  have hboth := h.trans h'
  cases footing <;> exact hboth

/-- A part of the way on which no tree was read. -/
theorem further (h : set.Passed start footing before state)
    (h' : set.Passed state footing' [] final) :
    set.Passed start (footing.after footing') before final :=
  List.append_nil before ▸ h.trans h'

/-- Less may be known of the token consumed last. -/
theorem loosen (h : set.Passed start .solid before state) : set.Passed start footing before state :=
  { h with stands := h.stands.of_solid }

theorem forget (h : set.Passed start footing before state) :
    set.Passed start .loose [] state :=
  { h with
    stands := trivial
    sits := fun _ hmem => absurd hmem List.not_mem_nil }

/-- Some of the trees may be left aside. -/
theorem subset (h : set.Passed start footing before state)
    (hsubset : more ⊆ before) : set.Passed start footing more state :=
  { h with sits := fun tree hmem => h.sits tree (hsubset hmem) }

theorem sitsAll (h : set.Passed start footing before state)
    (hsits : ∀ tree ∈ more, set.stream.Sits state.Quiet start.position state.position tree) :
    set.Passed start footing more state :=
  { h with sits := hsits }

theorem halts {abort : Abort} (h : set.Passed start footing before state)
    (h' : set.Halts state abort final) : set.Halts start abort final where
  passed := (h.trans h'.passed).forget
  loud := h'.loud

/-! ### Nodes -/

/-- The extent of what has been read with a solid footing. -/
theorem spans (h : set.Passed start .solid before state) :
    set.stream.Spans (set.stream.reach start.position (state.position - 1)) start.position
      (state.position - 1) where
  le := Nat.le_sub_one_of_lt h.stands.1
  lt := by
    have hlt := h.lt
    have hpos := h.stands.1
    omega
  kind_ne := h.stands.2
  eq := rfl

/-- A node that extends over everything that has been read. -/
theorem sitsAt (h : set.Passed start .solid before state) {node : Outline}
    (hspan : node.span = set.stream.reach start.position (state.position - 1))
    (hchildren : node.children ⊆ before)
    (hmade : state.Quiet → node.WellMade) :
    set.stream.SitsAt state.Quiet start.position (state.position - 1) node where
  spans := hspan ▸ h.spans
  made := hmade
  children child hmem := (h.sits child (hchildren hmem)).mono (Nat.le_refl _)
    (by have hpos := h.stands.1; omega) id

theorem node (h : set.Passed start .solid before state) {node : Outline}
    (hspan : node.span = set.stream.reach start.position (state.position - 1))
    (hchildren : node.children ⊆ before)
    (hmade : state.Quiet → node.WellMade) : set.Passed start .solid [node] state :=
  h.sitsAll fun tree hmem => by
    rw [List.mem_singleton.1 hmem]
    exact (h.sitsAt hspan hchildren hmade).sits (Nat.le_refl _)
      (by have hpos := h.stands.1; omega)

/-- A node that is a single token. -/
theorem leaf (h : set.Passed start .solid before state)
    (hstate : state = { start with position := start.position + 1 }) {node : Outline}
    (hspan : node.span = (set.stream.token start.position).span)
    (hchildren : node.children = []) (hmade : node.WellMade) :
    set.Passed start .solid [node] state := by
  refine h.node ?_ ?_ fun _ => hmade
  · rw [hspan, hstate]
    rfl
  · rw [hchildren]
    exact List.nil_subset _

/-- A node that is put around a tree, at the place of the tree. -/
theorem wrap (h : set.Passed start .solid before state) {tree node : Outline} (htree : tree ∈ before)
    (hspan : node.span = tree.span) (hchildren : node.children ⊆ [tree])
    (hmade : state.Quiet → node.WellMade) : set.Passed start .solid [node] state :=
  h.sitsAll fun _ hmem => by
    rw [List.mem_singleton.1 hmem]
    exact (h.sits tree htree).wrap hspan hmade hchildren

/-- A node from the start of a tree that was read before to the token consumed last. -/
theorem nodeFrom (h : set.Passed start footing before state) {target node : Outline}
    (htarget : target ∈ before) (h' : set.Passed state .solid more final)
    (hspan : node.span = target.span.join (set.stream.token (final.position - 1)).span)
    (hchildren : node.children ⊆ target :: more)
    (hmade : final.Quiet → node.WellMade) : set.Passed start .solid [node] final := by
  have hall := h.onward h'
  obtain ⟨first, last, hfirst, hlast, hat⟩ := (h.sits target htarget).exists_at
  have hle := hat.spans.le
  obtain ⟨hlt, hkind⟩ := h'.stands
  have hsize := h'.lt
  refine hall.sitsAll fun tree hmem => ?_
  rw [List.mem_singleton.1 hmem]
  have hspans := hat.spans.join (.token (by omega) hkind) (by omega)
  refine .intro hfirst (by omega) (hspan ▸ hspans) hmade fun child hchild => ?_
  rcases List.mem_cons.1 (hchildren hchild) with rfl | hread
  · exact (hat.mono h'.quiet).sits (Nat.le_refl _) (by omega)
  · exact (h'.sits child hread).mono (by omega) (by omega) id

/-- A node from the start of one tree to the end of another that was read behind it. -/
theorem nodeBetween (h : set.Passed start footing before state) {target last node : Outline}
    (htarget : target ∈ before) (h' : set.Passed state .solid more final) (hlast : last ∈ more)
    (hspan : node.span = target.span.join last.span)
    (hchildren : node.children ⊆ [target, last])
    (hmade : final.Quiet → node.WellMade) : set.Passed start .solid [node] final := by
  have hall := h.onward h'
  obtain ⟨first, stop, hfirst, hstop, hat⟩ := (h.sits target htarget).exists_at
  obtain ⟨first', stop', hfirst', hstop', hat'⟩ := (h'.sits last hlast).exists_at
  have hle := hat.spans.le
  have hle' := hat'.spans.le
  refine hall.sitsAll fun tree hmem => ?_
  rw [List.mem_singleton.1 hmem]
  have hspans := hat.spans.join hat'.spans (by omega)
  refine .intro hfirst (by omega) (hspan ▸ hspans) hmade fun child hchild => ?_
  rcases List.mem_pair.1 (hchildren hchild) with rfl | rfl
  · exact (hat.mono h'.quiet).sits (Nat.le_refl _) (by omega)
  · exact hat'.sits (by omega) (by omega)

/-- A node from the first token to the end of a tree. -/
theorem nodeTo (h : set.Passed start .solid before state) {last node : Outline}
    (hlast : last ∈ before)
    (hspan : node.span = (set.stream.token start.position).span.join last.span)
    (hchildren : node.children ⊆ [last])
    (hmade : state.Quiet → node.WellMade) : set.Passed start .solid [node] state := by
  obtain ⟨first, stop, hfirst, hstop, hat⟩ := (h.sits last hlast).exists_at
  have hle := hat.spans.le
  refine h.sitsAll fun tree hmem => ?_
  rw [List.mem_singleton.1 hmem]
  have hspans : set.stream.Spans node.span start.position stop := by
    refine ⟨by omega, hat.spans.lt, hat.spans.kind_ne, ?_⟩
    rw [hspan, hat.spans.eq]
    rfl
  refine .intro (Nat.le_refl _) hstop hspans hmade fun child hchild => ?_
  rw [List.mem_singleton.1 (hchildren hchild)]
  exact hat.sits hfirst (Nat.lt_succ_self _)

/-- A chain of nodes that all extend over everything that has been read: each has an element and the
rest of the chain below it. -/
theorem chain (h : set.Passed start .solid before state) [Forest α] {outline : α → Outline}
    {cons : α → α → α} (htree : ∀ value, trees value = [outline value])
    (hspan : ∀ first rest, (outline (cons first rest)).span =
      set.stream.reach start.position (state.position - 1))
    (hchildren : ∀ first rest, (outline (cons first rest)).children = [outline first, outline rest])
    (hmade : ∀ first rest, (outline (cons first rest)).WellMade) {elements : List α} {last : α}
    (helements : trees elements ⊆ before) (hlast : trees last ⊆ before) :
    set.Passed start .solid (trees (elements.foldr cons last)) state := by
  have hsits : ∀ elements : List α, trees elements ⊆ before →
      set.stream.Sits state.Quiet start.position state.position
        (outline (elements.foldr cons last)) := by
    intro elements
    induction elements with
    | nil => exact fun _ => h.sits _ (hlast (by simp [htree]))
    | cons first rest ih =>
      intro hmem
      rw [trees_cons, List.append_subset, htree] at hmem
      have hfirst := h.sits _ (hmem.1 (List.mem_singleton_self _))
      have hboth : set.Passed start .solid [outline first, outline (rest.foldr cons last)] state :=
        h.sitsAll fun tree htree => by
          rcases List.mem_pair.1 htree with rfl | rfl
          · exact hfirst
          · exact ih hmem.2
      refine (hboth.node (hspan first _) ?_ fun _ => hmade first _).sits _
        (List.mem_singleton_self _)
      rw [hchildren]
      exact List.Subset.refl _
  refine h.sitsAll fun tree hmem => ?_
  rw [htree] at hmem
  rw [List.mem_singleton.1 hmem]
  exact hsits elements helements

end Passed

/-! ### Looking -/

theorem Runs.spanFromPrevious {place : Span} {returns : Span → ParserState → Prop}
    {stops : Abort → ParserState → Prop}
    (h : returns (place.join (set.stream.token (state.position - 1)).span) state) :
    set.Runs (Parser.spanFrom place) state returns stops := h

/-! ### Moving -/

/-- A step that changes nothing but the position, and it forward. -/
theorem Passed.moved (h : set.Passed start footing before state) {position : Nat}
    (hle : state.position ≤ position) (hlt : position < set.stream.size)
    (hstands : set.stream.Stands start.position position footing') :
    set.Passed start footing' before { state with position := position } where
  le := Nat.le_trans h.le hle
  lt := hlt
  quiet := h.quiet
  marked := h.marked
  stands := hstands
  sits tree hmem := (h.sits tree hmem).mono (Nat.le_refl _) hle id

section

variable {returns : Token → ParserState → Prop} {stops : Abort → ParserState → Prop}

theorem Passed.advance (h : set.Passed start footing before state) {kind : TokenKind}
    (hkind : set.stream.kind state.position = kind) (hsolid : kind.isSolid = true)
    (next : ∀ final, set.Passed start .solid before final →
      final = { state with position := state.position + 1 } →
      returns (set.stream.token state.position) final) :
    set.Runs advance state returns stops := by
  have hend : set.stream.kind state.position ≠ .endOfFile := fun heq => by
    rw [← hkind, heq] at hsolid
    cases hsolid
  have hlt := TokenStream.succ_lt_size h.lt hend
  refine .advance hlt (next _ (h.moved (Nat.le_succ _) hlt ⟨Nat.lt_succ_of_le h.le, ?_⟩) rfl)
  rw [Nat.add_sub_cancel, hkind]
  rintro rfl
  cases hsolid

end

/-- Consuming the current token, whatever it is; the last one stays. -/
theorem Passed.advanceAny (h : set.Passed start footing before state)
    {returns : Token → ParserState → Prop} {stops : Abort → ParserState → Prop}
    (next : ∀ final, set.Passed start .loose before final →
      returns (set.stream.token state.position) final) :
    set.Runs Parser.advance state returns stops := by
  refine .bind (.read (.bind (.get (.ite (fun hlt => ?_) fun _ => ?_))))
  · exact .bind (.moveTo (.pure (next _ (h.moved (Nat.le_succ _) hlt trivial))))
  · exact .pure (next _ { h with stands := trivial })

section

variable {returns : Unit → ParserState → Prop} {stops : Abort → ParserState → Prop}

theorem Passed.skipWhile (h : set.Passed start footing before state) {isMember : TokenKind → Bool}
    (hplain : ∀ kind, isMember kind = true → kind.isPlain = true)
    (next : ∀ final, set.Passed start .loose before final →
      final.position = set.stream.skipWhile isMember state.position → returns () final) :
    set.Runs (skipWhile isMember) state returns stops := by
  obtain ⟨hwithin, -, -⟩ := TokenStream.within_skipWhile hplain h.lt
  refine .bind (.read (.bind (.get (.moveTo (next _ ?_ rfl)))))
  exact h.moved hwithin.le hwithin.lt trivial

theorem Passed.skipNewlines (h : set.Passed start footing before state)
    (next : ∀ final, set.Passed start .loose before final → returns () final) :
    set.Runs skipNewlines state returns stops := by
  refine h.skipWhile (fun kind hkind => ?_) fun final h' _ => next final h'
  rw [beq_iff_eq.1 hkind]
  rfl

theorem Passed.skipSeparators (h : set.Passed start footing before state) {commas : Bool}
    (next : ∀ final, set.Passed start .loose before final →
      final.position = set.stream.skipWhile (·.separates commas) state.position →
      returns () final) :
    set.Runs (skipSeparators commas) state returns stops :=
  h.skipWhile (fun _ hkind => TokenKind.isPlain_of_separates hkind) next

end

/-! ### Reporting -/

theorem not_quiet_report (log : Log) (diagnostic : Diagnostic) :
    ¬ParserState.Quiet { state with log := log.report diagnostic } := by
  rintro ⟨hmuted, hnone⟩
  rw [Log.report_muted] at hmuted
  simp [Log.report, hmuted] at hnone

/-- A report that points at what may be shown. -/
theorem tells_report {diagnostic : Diagnostic}
    (hmarks : ∀ label ∈ diagnostic.labels, set.stream.Marks label.span) :
    set.Tells state { state with log := state.log.report diagnostic } where
  position_eq := rfl
  quiet hquiet := absurd hquiet (not_quiet_report _ _)
  marked hmarked := by
    intro other hmem
    unfold Log.report at hmem
    split at hmem
    · rcases Array.mem_push.1 hmem with hmem | rfl
      · exact hmarked other hmem
      · exact hmarks
    · exact hmarked other hmem

/-- Reports leave what has been read where it is. -/
theorem Passed.told (h : set.Passed start footing before state) (h' : set.Tells state final) :
    set.Passed start footing before final where
  le := h'.position_eq ▸ h.le
  lt := h'.position_eq ▸ h.lt
  quiet hquiet := h.quiet (h'.quiet hquiet)
  marked hmarked := h'.marked (h.marked hmarked)
  stands := h'.position_eq ▸ h.stands
  sits tree hmem := by
    rw [h'.position_eq]
    exact (h.sits tree hmem).mono (Nat.le_refl _) (Nat.le_refl _) h'.quiet

theorem Passed.report (h : set.Passed start footing before state) {diagnostic : Diagnostic}
    (hmarks : ∀ label ∈ diagnostic.labels, set.stream.Marks label.span)
    {returns : Unit → ParserState → Prop} {stops : Abort → ParserState → Prop}
    (next : ∀ final, set.Passed start footing before final → final.position = state.position →
      ¬final.Quiet → returns () final) :
    set.Runs (report diagnostic) state returns stops :=
  next _ (h.told (tells_report hmarks)) rfl (not_quiet_report _ _)

/-- A report with a single label. -/
theorem marks_errorAt {kind : DiagnosticKind} {message : String} {span : Span}
    {notes expected : List String} (h : set.stream.Marks span) :
    ∀ label ∈ (Diagnostic.errorAt kind message span notes expected).labels,
      set.stream.Marks label.span := by
  intro label hmem
  rw [List.mem_singleton.1 hmem]
  exact h

theorem Passed.reportError (h : set.Passed start footing before state) {kind : DiagnosticKind}
    {message : String} {span : Span} {notes : List String} (hmarks : set.stream.Marks span)
    {returns : Unit → ParserState → Prop} {stops : Abort → ParserState → Prop}
    (next : ∀ final, set.Passed start footing before final → final.position = state.position →
      ¬final.Quiet → returns () final) :
    set.Runs (reportError kind message span notes) state returns stops :=
  h.report (marks_errorAt hmarks) next

/-- The current token may be shown. -/
theorem Passed.marks (h : set.Passed start footing before state) :
    set.stream.Marks (set.stream.token state.position).span :=
  Or.inl ⟨_, h.lt, rfl⟩

/-- A tree that has been read may be shown. -/
theorem Passed.marksTree (h : set.Passed start footing before state) {tree : Outline}
    (hmem : tree ∈ before) : set.stream.Marks tree.span :=
  (h.sits tree hmem).marks

theorem Passed.marksChild (h : set.Passed start footing before state) {tree child : Outline}
    (hmem : tree ∈ before) (hchild : child ∈ tree.children) : set.stream.Marks child.span :=
  ((h.sits tree hmem).child hchild).marks

/-! ### Giving up -/

theorem Passed.throw (h : set.Passed start footing before state) {abort : Abort}
    (hloud : abort = .failed → ¬state.Quiet) {returns : α → ParserState → Prop} :
    set.Runs (throw abort : Parser α) state returns (set.Halts start) :=
  Runs.throw ⟨h.forget, hloud⟩

theorem Passed.failWith (h : set.Passed start footing before state) {kind : DiagnosticKind}
    {message : String} {span : Span} {notes : List String} (hmarks : set.stream.Marks span)
    {returns : α → ParserState → Prop} :
    set.Runs (failWith kind message span notes) state returns (set.Halts start) :=
  .bind (h.reportError hmarks fun _ h' _ hloud => h'.throw fun _ => hloud)

theorem Passed.unexpected (h : set.Passed start footing before state) {expected : List String}
    {context : String} {returns : α → ParserState → Prop} :
    set.Runs (unexpected expected context) state returns (set.Halts start) :=
  .bind (.current (.bind (h.report (marks_errorAt h.marks) fun _ h' _ hloud =>
    h'.throw fun _ => hloud)))

/-! ### Expecting a token -/

section

variable {context : String} {returns : Token → ParserState → Prop}

theorem Passed.expect (h : set.Passed start footing before state) {kind : TokenKind}
    (hsolid : kind.isSolid = true)
    (next : ∀ final, set.stream.kind state.position = kind →
      set.Passed start .solid before final →
      final = { state with position := state.position + 1 } →
      returns (set.stream.token state.position) final) :
    set.Runs (expect kind context) state returns (set.Halts start) := by
  refine .bind (.isAt (.ite (fun hat => ?_) (fun _ => h.unexpected)))
  have hkind := beq_iff_eq.1 hat
  exact h.advance hkind hsolid fun final h' hfinal => next final hkind h' hfinal

theorem Passed.expectOperator (h : set.Passed start footing before state) {spelling : String}
    (next : ∀ final, set.Passed start .solid before final →
      returns (set.stream.token state.position) final) :
    set.Runs (expectOperator spelling context) state returns (set.Halts start) := by
  refine .bind (.isAtOperator (.ite (fun hat => ?_) (fun _ => h.unexpected)))
  rw [Token.isOperator, Bool.and_eq_true, beq_iff_eq] at hat
  exact h.advance hat.1 rfl fun final h' _ => next final h'

end

/-! ### Parts of productions -/

/-- A part of a production may be followed from where it begins. -/
theorem Passed.locally (h : set.Passed start footing before state) {parser : Parser α}
    {returns : α → ParserState → Prop}
    (hparser : set.Runs parser state returns (set.Halts state)) :
    set.Runs parser state returns (set.Halts start) :=
  hparser.mono (fun _ _ hreturns => hreturns) fun _ _ hhalts => h.halts hhalts

theorem Passed.build [Forest α] (h : set.Passed start footing before state) {parser : Parser α}
    (hparser : set.Builds parser) {returns : α → ParserState → Prop}
    (next : ∀ answer final, set.Passed start .solid (before ++ trees answer) final →
      set.Passed state .solid (trees answer) final → returns answer final) :
    set.Runs parser state returns (set.Halts start) :=
  h.locally ((hparser state h.lt).mono
    (fun answer final h' => next answer final (h.onward h') h') fun _ _ hhalts => hhalts)

theorem Passed.literalOf (h : set.Passed start footing before state) {token : Token}
    {returns : Literal → ParserState → Prop}
    (next : ∀ literal, literal.span = token.span → returns literal state) :
    set.Runs (literalOf token) state returns (set.Halts start) := by
  unfold Parser.literalOf
  split
  · next literal hliteral =>
    refine next literal ?_
    unfold Literal.ofToken at hliteral
    split at hliteral
    · cases hvalue : Numeral.integerValue token.value.toList with
      | error digits =>
        rw [hvalue] at hliteral
        cases hliteral
      | ok value =>
        rw [hvalue] at hliteral
        cases hliteral
        rfl
    all_goals
      cases hliteral
      rfl
  · exact h.throw Abort.noConfusion

end Setting

end SableFrontend
