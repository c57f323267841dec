import SableFrontend.Proofs.Grammar.Entry
import SableFrontend.Proofs.Grammar.Reading
import SableFrontend.Proofs.Parallel.Declaration

/-!
Stretches that recur. What stands at one place of a stream may stand in another one as well, with its
tokens at other places (`Setting.Recurs`). What is read of it there without a word is then read
(`Recurs.reads`). In particular what is accepted as a whole source is read wherever it stands in front
of a token at which an item may end, or of a colon (`Accepted.reads`), and so is what is read as a whole
source without an error, with the same reports (`Admitted.leaves`).
-/

namespace SableFrontend

open TokenStream SableFrontend.Parser Setting

/-- The tokens of a stretch of a stream stand in another stream, at other places. Nothing that is open
around the stretch is closed in it, and both stretches come to an end where they should. -/
structure Setting.Recurs (set : Setting) (other : TokenStream) (relocation : Relocation)
    (first start length : Nat) : Prop where
  within : set.stream.Within first (first + length)
  opened_eq : set.stream.opened (first + length) = set.stream.opened first
  depth_le : (set.stream.opened first).length ≤ (other.opened start).length
  lt : start + length < other.size
  token_eq : ∀ k < length,
    other.token (start + k) = (set.stream.token (first + k)).relocate relocation
  touches_eq : ∀ k, k + 1 < length →
    (other.token (start + k)).touches (other.token (start + (k + 1))) =
      (set.stream.token (first + k)).touches (set.stream.token (first + (k + 1)))
  formBefore_eq : set.stream.kind first = .opener .square →
    other.formBefore? start = set.stream.formBefore? first
  boundary : (set.stream.kind (first + length)).isBoundary = true
  limit : (other.kind (start + length)).isLimit = true

namespace Setting.Recurs

variable {set set' : Setting} {other : TokenStream} {relocation : Relocation}
  {first start length : Nat}

theorem kind_eq (h : set.Recurs other relocation first start length) {k : Nat} (hlt : k < length) :
    other.kind (start + k) = set.stream.kind (first + k) := by
  rw [TokenStream.kind, h.token_eq k hlt]
  rfl

/-- The same delimiters of the stretch are open in both streams. -/
theorem exists_opened (h : set.Recurs other relocation first start length) {k : Nat}
    (hle : k ≤ length) :
    ∃ inner, set.stream.opened (first + k) = inner ++ set.stream.opened first ∧
      other.opened (start + k) = inner ++ other.opened start := by
  induction k with
  | zero => exact ⟨[], rfl, rfl⟩
  | succ k ih =>
    obtain ⟨inner, hleft, hright⟩ := ih (Nat.le_of_succ_le hle)
    have hlt : first + k < set.stream.size :=
      Nat.lt_of_le_of_lt (Nat.add_le_add_left (Nat.le_of_succ_le hle) first) h.within.lt
    have hlt' : start + k < other.size :=
      Nat.lt_of_le_of_lt (Nat.add_le_add_left (Nat.le_of_succ_le hle) start) h.lt
    have hkind := h.kind_eq hle
    rw [← Nat.add_assoc, ← Nat.add_assoc]
    cases hmine : set.stream.kind (first + k) with
    | opener bracket =>
      exact ⟨bracket :: inner, by rw [opened_succ_opener hlt hmine, hleft]; rfl,
        by rw [opened_succ_opener hlt' (hkind.trans hmine), hright]; rfl⟩
    | closer bracket =>
      -- what is closed has been opened in the stretch
      have hsuffix := h.within.suffix (first + k + 1) (by omega) (by omega)
      obtain ⟨outer, houter⟩ := set.balanced.closer_fits hlt hmine
      rw [opened_succ_closer hlt hmine, hleft] at hsuffix ⊢
      rw [opened_succ_closer hlt' (hkind.trans hmine), hright]
      cases inner with
      | cons _ inner => exact ⟨inner, rfl, rfl⟩
      | nil =>
        have hlength := hsuffix.length_le
        rw [hleft, List.nil_append] at houter
        rw [houter, List.nil_append, List.tail_cons, List.length_cons] at hlength
        omega
    | endOfFile =>
      have hlast := set.balanced.end_last hlt hmine
      have hmore := h.within.lt
      omega
    | _ =>
      have hplain : (set.stream.kind (first + k)).isPlain = true := by rw [hmine]; rfl
      exact ⟨inner, by rw [opened_succ_plain hlt hplain, hleft],
        by rw [opened_succ_plain hlt' (hkind ▸ hplain), hright]⟩

/-- Behind the stretch as much is open as in front of it. -/
theorem opened_add (h : set.Recurs other relocation first start length) :
    other.opened (start + length) = other.opened start := by
  obtain ⟨inner, hleft, hright⟩ := h.exists_opened (Nat.le_refl _)
  rw [h.opened_eq] at hleft
  have hlength := congrArg List.length hleft
  rw [List.length_append] at hlength
  rw [hright, List.eq_nil_of_length_eq_zero (l := inner) (by omega), List.nil_append]

/-- Nothing that is open around the other stretch is closed in it, either. -/
theorem within_other (h : set.Recurs other relocation first start length) :
    other.Within start (start + length) := by
  refine ⟨Nat.le_add_right .., h.lt, fun k hfirst hlast => ?_⟩
  obtain ⟨inner, -, hright⟩ := h.exists_opened (show k - start ≤ length by omega)
  rw [Nat.add_sub_cancel' hfirst] at hright
  exact ⟨inner, hright.symm⟩

/-- How both stretches end: either with the closer of what surrounds them, or in front of something
that is no line break. -/
def Ends (set : Setting) (other : TokenStream) (relocation : Relocation) (first start length : Nat) :
    Bool → Prop
  | true => other.token (start + length) = (set.stream.token (first + length)).relocate relocation ∧
      (set.stream.kind (first + length)).endsGroup = true
  | false => set.stream.kind (first + length) ≠ .newline

/-- Both stretches side by side. -/
def parallel (h : set.Recurs other relocation first start length) (balanced : other.Balanced)
    (closed : Bool) (hends : Ends set other relocation first start length closed)
    (reported : List Diagnostic) : Parallel set where
  other := other
  relocation := relocation
  base := first
  otherBase := start
  reach := length
  lift := (other.opened start).length - (set.stream.opened first).length
  exact := closed
  final := closed
  reported := []
  otherReported := reported
  within := h.within
  opened_eq := h.opened_eq
  other_lt := h.lt
  token_add_eq := h.token_eq
  touches_add_eq := h.touches_eq
  depth_add_eq k hk := by
    obtain ⟨inner, hleft, hright⟩ := h.exists_opened hk
    have hle := h.depth_le
    rw [balanced.depth_eq (Nat.lt_of_le_of_lt (Nat.add_le_add_left hk start) h.lt),
      set.balanced.depth_eq (Nat.lt_of_le_of_lt (Nat.add_le_add_left hk first) h.within.lt), hleft,
      hright, List.length_append, List.length_append]
    omega
  formBefore_eq := h.formBefore_eq
  boundary := h.boundary
  other_limit := h.limit
  last_eq hclosed := by
    subst hclosed
    exact hends.1
  last_ne_newline hclosed := by
    subst hclosed
    exact hends
  ends hclosed := by
    subst hclosed
    exact ⟨rfl, hends.2⟩

/-- What is read of a stretch is read of the other one, and the same is reported. -/
theorem leaves {α : Type} [Relocatable α] {parser parser' : Parser α} {answer : α}
    {state final : ParserState} {waived : α → ParserState → Prop}
    (h : set.Recurs set'.stream relocation first start length) {closed : Bool}
    (hends : Ends set set'.stream relocation first start length closed) {log : Log}
    (hagrees : (h.parallel set'.balanced closed hends log.diagnostics.toList).Agrees waived
      parser parser' state)
    (hrun : parser set.stream state = (.ok answer, final)) (hstate : state.log = .empty)
    (hfinal : final.log.muted = 0)
    (helse : ∀ diagnostic ∈ final.log.diagnostics, diagnostic.kind ≠ .missingElseBranch)
    (hbase : first ≤ state.position) (hle : final.position ≤ first + length)
    (hwaived : ¬waived answer final) (hlog : log.muted = 0) :
    set'.Leaves log parser' (start + (state.position - first)) (relocation.move answer)
      (start + (final.position - first))
      ((relocation.move final.log.diagnostics.toList).foldl Log.report log) := by
  intro history
  generalize hP : h.parallel set'.balanced closed hends log.diagnostics.toList = P at hagrees
  have hreported : P.reported = [] := by rw [← hP]; rfl
  have hforward := hagrees.forward
  rw [hrun] at hforward
  have hrelated : P.Related state
      { position := start + (state.position - first), log := log, history := history } := by
    refine ⟨?_, ?_, ?_, ⟨[], ?_, ?_⟩, ?_⟩
    · rw [← hP]
      exact hbase
    · rw [← hP]
      exact Nat.le_trans hforward hle
    · rw [← hP]
      rfl
    · rw [hreported, hstate]
      rfl
    · rw [← hP]
      exact (List.append_nil _).symm
    · rw [hstate]
      exact hlog
  have hseen : P.Seen waived (.ok answer, final) := by
    refine ⟨?_, hwaived⟩
    rintro (hpast | ⟨-, -, diagnostic, hmem, hkind⟩)
    · rw [← hP] at hpast
      exact Nat.not_lt_of_le hle hpast
    · exact helse diagnostic (Array.mem_toList_iff.1 (List.mem_of_mem_drop hmem)) hkind
  obtain ⟨last, hlast, hrelated'⟩ := hagrees.mirrored _ hrelated (by rw [hrun]; exact hseen)
  rw [hrun] at hlast hrelated'
  obtain ⟨reports, hleft, hright⟩ := hrelated'.reports
  rw [hreported, List.nil_append] at hleft
  have hright' : parser' set'.stream
      { position := start + (state.position - first), log := log, history := history } =
        (.ok (relocation.move answer), last) := by
    rw [← hP] at hlast
    exact hlast
  unfold Runs
  rw [hright']
  refine ⟨rfl, ?_, Log.eq_foldl_report hlog (hrelated'.muted_eq.trans hfinal) ?_⟩
  · rw [hrelated'.position_eq, ← hP]
    rfl
  · rw [hright, hleft, ← hP]
    rfl

/-- What is read of a stretch without a word is read of the other one. -/
theorem reads {α : Type} [Relocatable α] {parser parser' : Parser α} {answer : α}
    {state final : ParserState} {waived : α → ParserState → Prop}
    (h : set.Recurs set'.stream relocation first start length) {closed : Bool}
    (hends : Ends set set'.stream relocation first start length closed) {log : Log}
    (hagrees : (h.parallel set'.balanced closed hends log.diagnostics.toList).Agrees waived
      parser parser' state)
    (hrun : parser set.stream state = (.ok answer, final)) (hstate : state.log = .empty)
    (hfinal : final.log = .empty) (hbase : first ≤ state.position)
    (hle : final.position ≤ first + length) (hwaived : ¬waived answer final) (hlog : log.muted = 0) :
    set'.Reads log parser' (start + (state.position - first)) (relocation.move answer)
      (start + (final.position - first)) := by
  have hleaves := h.leaves hends hagrees hrun hstate (by rw [hfinal]; rfl)
    (fun _ hmem => absurd (hfinal ▸ hmem) (Array.not_mem_empty _)) hbase hle hwaived hlog
  rw [hfinal] at hleaves
  exact hleaves

end Setting.Recurs

/-! ### Empty logs -/

theorem Log.eq_empty {log : Log} (hmuted : log.muted = 0) (h : log.diagnostics.toList = []) :
    log = .empty := by
  show Log.mk log.diagnostics log.muted = .mk #[] 0
  rw [Array.toList_inj.1 h, hmuted]

/-- What has been reported is not taken back. -/
theorem ParserState.log_eq_empty_of_reportAll {state : ParserState} {diagnostics : List Diagnostic}
    (hmuted : state.log.muted = 0) (h : (state.reportAll diagnostics).log = .empty) :
    state.log = .empty ∧ diagnostics = [] := by
  obtain ⟨hlog, -⟩ := ParserState.reportAll_log hmuted diagnostics
  rw [h] at hlog
  obtain ⟨hnone, hreports⟩ := List.append_eq_nil_iff.1 hlog.symm
  exact ⟨Log.eq_empty hmuted hnone, hreports⟩

/-! ### Sources that are accepted -/

theorem Parser.boundNesting_eq_ok {α : Type} {parser : Parser α} {stream : TokenStream}
    {state final : ParserState} {answer : α}
    (h : boundNesting parser stream state = (.ok answer, final)) :
    parser stream state = (.ok answer, final) := by
  unfold boundNesting at h
  rw [tryCatch_apply] at h
  cases hrun : parser stream state with
  | mk result last =>
    rw [hrun] at h
    cases result with
    | ok value => exact h
    | error abort => cases abort <;> cases h

/-- A source that a parser reads as a whole without an error, and with no separators around it. -/
structure Admitted {α : Type} (parser : Parser α) where
  source : TokenStream
  balanced : source.Balanced
  value : α
  final : ParserState
  run : whole parser source .initial = (.ok value, final)
  errorless : ∀ diagnostic ∈ final.log.diagnostics, diagnostic.isError = false
  begins : (source.kind 0).isSeparator = false
  ends : (source.kind (source.size - 2)).isSeparator = false

namespace Admitted

variable {α : Type} {parser : Parser α} (admitted : Admitted parser)

/-- How many tokens there are in front of the end of the file. -/
def length : Nat := admitted.source.size - 1

/-- Reading the source by itself. -/
def setting : Setting := Entry.expression.setting admitted.balanced

/-- What is reported of the source. -/
def reports : List Diagnostic := admitted.final.log.diagnostics.toList

theorem kind_length : admitted.source.kind admitted.length = .endOfFile :=
  admitted.source.kind_last

/-- The parser reads the source up to its end. -/
theorem exists_run {moved : Bool} (hobeys : admitted.setting.Obeys moved parser) :
    admitted.final.log.muted = 0 ∧ ∃ history, parser admitted.source .initial =
      (.ok admitted.value,
        { position := admitted.length, log := admitted.final.log, history := history }) := by
  have hseparates : ∀ kind : TokenKind, kind.separates false = kind.isSeparator :=
    fun kind => by rw [TokenKind.separates, Bool.false_and, Bool.or_false]
  have hskip : admitted.source.skipWhile (·.separates false) 0 = 0 :=
    skipWhile_eq_self ((hseparates _).trans admitted.begins)
  have hrun := admitted.run
  rw [show whole parser admitted.source .initial = boundNesting (do
      let answer ← parser
      skipSeparators false
      if !(← isAt .endOfFile) then unexpected ["end of input"] ""
      return answer) admitted.source { ParserState.initial with
        position := admitted.source.skipWhile (·.separates false) 0 } from rfl, hskip] at hrun
  replace hrun := boundNesting_eq_ok hrun
  rw [bind_apply] at hrun
  cases hparser : parser admitted.source .initial with
  | mk result middle =>
    rw [show parser admitted.source { ParserState.initial with position := 0 } = (result, middle)
      from hparser] at hrun
    cases result with
    | error => cases hrun
    | ok answer =>
      have hreached := (hobeys .initial admitted.source.size_pos).returns hparser
      replace hrun : (if !(admitted.source.kind (admitted.source.skipWhile (·.separates false)
          middle.position) == .endOfFile) then unexpected ["end of input"] "" >>= fun _ => pure answer
        else pure answer : Parser α) admitted.source { middle with
          position := admitted.source.skipWhile (·.separates false) middle.position } = _ := hrun
      split at hrun
      · cases hrun
      · next hend =>
        obtain ⟨hvalue, hfinal⟩ := Prod.mk.inj hrun
        injection hvalue with hvalue
        have hlt : admitted.source.skipWhile (·.separates false) middle.position <
            admitted.source.size := (within_skipWhile (fun _ => TokenKind.isPlain_of_separates)
              hreached.lt).1.lt
        have hlast := admitted.balanced.end_last hlt (by simpa using hend)
        -- the token in front of the end is no separator, so none has been skipped
        have hposition : middle.position = admitted.length := by
          refine Nat.le_antisymm ?_ (Nat.le_of_not_lt fun hless => ?_)
          · have hmiddle : middle.position < admitted.source.size := hreached.lt
            unfold length
            omega
          · have hmember : (admitted.source.kind (admitted.source.size - 2)).separates false = true :=
              @isMember_of_lt_skipWhile _ (·.separates false) middle.position _
                (by unfold length at hless; omega) (by unfold length at hless; omega)
            rw [hseparates, admitted.ends] at hmember
            cases hmember
        rw [← hfinal]
        exact ⟨hreached.follows.muted_eq, middle.history, by rw [← hvalue, ← hposition]⟩

/-- The source stands in a stream, with its tokens at other places. -/
structure StandsIn (stream : TokenStream) (relocation : Relocation) (start : Nat) : Prop where
  lt : start + admitted.length < stream.size
  token_eq : ∀ k < admitted.length,
    stream.token (start + k) = (admitted.source.token k).relocate relocation
  touches_eq : ∀ k, k + 1 < admitted.length →
    (stream.token (start + k)).touches (stream.token (start + (k + 1))) =
      (admitted.source.token k).touches (admitted.source.token (k + 1))
  formBefore_eq : stream.formBefore? start = none
  limit : (stream.kind (start + admitted.length)).isLimit = true

instance decidableStandsIn (stream : TokenStream) (relocation : Relocation) (start : Nat) :
    Decidable (admitted.StandsIn stream relocation start) :=
  decidable_of_iff (start + admitted.length < stream.size ∧
      (∀ k < admitted.length,
        stream.token (start + k) = (admitted.source.token k).relocate relocation) ∧
      (∀ k < admitted.length, k + 1 < admitted.length →
        (stream.token (start + k)).touches (stream.token (start + (k + 1))) =
          (admitted.source.token k).touches (admitted.source.token (k + 1))) ∧
      stream.formBefore? start = none ∧ (stream.kind (start + admitted.length)).isLimit = true)
    ⟨fun ⟨hlt, htoken, htouches, hform, hlimit⟩ =>
        ⟨hlt, htoken, fun k hk => htouches k (Nat.lt_of_succ_lt hk) hk, hform, hlimit⟩,
      fun h => ⟨h.lt, h.token_eq, fun k _ => h.touches_eq k, h.formBefore_eq, h.limit⟩⟩

theorem StandsIn.recurs {admitted : Admitted parser} {stream : TokenStream} {relocation : Relocation}
    {start : Nat} (h : admitted.StandsIn stream relocation start) :
    admitted.setting.Recurs stream relocation 0 start admitted.length where
  within := by
    rw [Nat.zero_add]
    exact ⟨Nat.zero_le _, Nat.sub_one_lt_of_lt admitted.source.size_pos, fun k _ _ => by
      rw [opened_zero]; exact List.nil_suffix⟩
  opened_eq := by
    rw [Nat.zero_add, opened_zero]
    exact admitted.balanced.settled
  depth_le := by rw [opened_zero]; exact Nat.zero_le _
  lt := h.lt
  token_eq k hk := by
    rw [Nat.zero_add]
    exact h.token_eq k hk
  touches_eq k hk := by
    rw [Nat.zero_add, Nat.zero_add]
    exact h.touches_eq k hk
  formBefore_eq _ := h.formBefore_eq
  boundary := by
    rw [Nat.zero_add, show admitted.setting.stream.kind admitted.length = _ from
      admitted.kind_length]
    rfl
  limit := h.limit

/-- What takes in tokens does not read an empty source. -/
theorem length_pos (hobeys : admitted.setting.Obeys true parser) : 0 < admitted.length := by
  obtain ⟨-, history, hrun⟩ := admitted.exists_run hobeys
  exact ((hobeys .initial admitted.source.size_pos).returns hrun).progress rfl

theorem StandsIn.kind_eq {admitted : Admitted parser} {stream : TokenStream} {relocation : Relocation}
    {start k : Nat} (h : admitted.StandsIn stream relocation start) (hlt : k < admitted.length) :
    stream.kind (start + k) = admitted.source.kind k := by
  rw [TokenStream.kind, h.token_eq k hlt]
  rfl

/-- It is not reported that a conditional lacks its last branch: that would be an error. -/
theorem ne_missingElse {moved : Bool} (hobeys : admitted.setting.Obeys moved parser) :
    ∀ diagnostic ∈ admitted.final.log.diagnostics, diagnostic.kind ≠ .missingElseBranch := by
  obtain ⟨-, history, hrun⟩ := admitted.exists_run hobeys
  obtain ⟨reported, hreported, hadmits⟩ :=
    ((hobeys .initial admitted.source.size_pos).returns hrun).follows.reports
  intro diagnostic hmem hkind
  have hmember : diagnostic ∈ reported := by
    rw [← Array.mem_toList_iff, hreported] at hmem
    exact hmem
  rcases hadmits diagnostic hmember with herror | hmismatch
  · have hno := admitted.errorless diagnostic hmem
    rw [Diagnostic.isError, herror.severity_eq] at hno
    cases hno
  · rw [hmismatch.kind_eq] at hkind
    cases hkind

/-- What is read by itself without an error is read where it stands, and the same is reported. -/
theorem leaves {set : Setting} {relocation : Relocation} {start : Nat} {moved : Bool} {log : Log}
    [Relocatable α] (h : admitted.StandsIn set.stream relocation start)
    (hobeys : admitted.setting.Obeys moved parser)
    (hmirrors : ∀ P : Parallel admitted.setting, P.Mirrors true parser) (hlog : log.muted = 0) :
    set.Leaves log parser start (relocation.move admitted.value) (start + admitted.length)
      ((relocation.move admitted.reports).foldl Log.report log) := by
  obtain ⟨hmuted, history, hrun⟩ := admitted.exists_run hobeys
  have hends : Recurs.Ends admitted.setting set.stream relocation 0 start admitted.length false := by
    show admitted.source.kind (0 + admitted.length) ≠ .newline
    rw [Nat.zero_add, admitted.kind_length]
    exact TokenKind.noConfusion
  exact h.recurs.leaves hends (hmirrors _ .initial admitted.source.size_pos fun _ => rfl) hrun rfl
    hmuted (admitted.ne_missingElse hobeys) (Nat.zero_le _) (Nat.le_of_eq (Nat.zero_add _).symm) id
    hlog

end Admitted

/-- A source that a parser accepts as a whole, without a word, and with no separators around it. -/
structure Accepted {α : Type} (parser : Parser α) where
  source : TokenStream
  balanced : source.Balanced
  value : α
  final : ParserState
  run : whole parser source .initial = (.ok value, final)
  quiet : final.log.diagnostics = #[]
  begins : (source.kind 0).isSeparator = false
  ends : (source.kind (source.size - 2)).isSeparator = false

namespace Accepted

/-- The source that a text is, if it is accepted. -/
def ofText? {α : Type} (parser : Parser α) (text : String) : Option (Accepted parser) :=
  match TokenStream.ofText? text "" with
  | none => none
  | some ⟨source, balanced⟩ =>
    match hrun : whole parser source .initial with
    | (.ok value, { position := position, log := ⟨⟨[]⟩, muted⟩, history := history }) =>
      if h : (source.kind 0).isSeparator = false ∧
          (source.kind (source.size - 2)).isSeparator = false then
        some {
          source := source
          balanced := balanced
          value := value
          final := { position := position, log := ⟨#[], muted⟩, history := history }
          run := hrun
          quiet := rfl
          begins := h.1
          ends := h.2 }
      else none
    | _ => none

variable {α : Type} {parser : Parser α} (accepted : Accepted parser)

/-- How many tokens there are in front of the end of the file. -/
def length : Nat := accepted.source.size - 1

/-- Reading the source by itself. -/
def setting : Setting := Entry.expression.setting accepted.balanced

/-- What is read without a word is read without an error. -/
def admitted : Admitted parser :=
  { accepted with
    errorless := fun _ hmem => absurd (accepted.quiet ▸ hmem) (Array.not_mem_empty _) }

theorem kind_length : accepted.source.kind accepted.length = .endOfFile :=
  accepted.source.kind_last

/-- The parser reads the source up to its end. -/
theorem exists_run {moved : Bool} (hobeys : accepted.setting.Obeys moved parser) :
    ∃ history, parser accepted.source .initial =
      (.ok accepted.value, { position := accepted.length, log := .empty, history := history }) := by
  obtain ⟨hmuted, history, hrun⟩ := accepted.admitted.exists_run hobeys
  refine ⟨history, ?_⟩
  rw [← Log.eq_empty hmuted (congrArg Array.toList accepted.quiet)]
  exact hrun

/-- The source stands in a stream, with its tokens at other places. -/
structure StandsIn (stream : TokenStream) (relocation : Relocation) (start : Nat) : Prop where
  lt : start + accepted.length < stream.size
  token_eq : ∀ k < accepted.length,
    stream.token (start + k) = (accepted.source.token k).relocate relocation
  touches_eq : ∀ k, k + 1 < accepted.length →
    (stream.token (start + k)).touches (stream.token (start + (k + 1))) =
      (accepted.source.token k).touches (accepted.source.token (k + 1))
  formBefore_eq : stream.formBefore? start = none
  limit : (stream.kind (start + accepted.length)).isLimit = true

theorem StandsIn.admitted {accepted : Accepted parser} {stream : TokenStream}
    {relocation : Relocation} {start : Nat} (h : accepted.StandsIn stream relocation start) :
    accepted.admitted.StandsIn stream relocation start :=
  ⟨h.lt, h.token_eq, h.touches_eq, h.formBefore_eq, h.limit⟩

instance decidableStandsIn (stream : TokenStream) (relocation : Relocation) (start : Nat) :
    Decidable (accepted.StandsIn stream relocation start) :=
  decidable_of_iff (accepted.admitted.StandsIn stream relocation start)
    ⟨fun h => ⟨h.lt, h.token_eq, h.touches_eq, h.formBefore_eq, h.limit⟩, StandsIn.admitted⟩

theorem StandsIn.recurs {accepted : Accepted parser} {stream : TokenStream} {relocation : Relocation}
    {start : Nat} (h : accepted.StandsIn stream relocation start) :
    accepted.setting.Recurs stream relocation 0 start accepted.length :=
  h.admitted.recurs

/-- What takes in tokens does not accept an empty source. -/
theorem length_pos (hobeys : accepted.setting.Obeys true parser) : 0 < accepted.length :=
  accepted.admitted.length_pos hobeys

theorem StandsIn.kind_eq {accepted : Accepted parser} {stream : TokenStream} {relocation : Relocation}
    {start k : Nat} (h : accepted.StandsIn stream relocation start) (hlt : k < accepted.length) :
    stream.kind (start + k) = accepted.source.kind k :=
  h.admitted.kind_eq hlt

/-- What is accepted by itself is read where it stands, if the parser agrees with itself in front of
what follows there. -/
theorem reads_of_agrees {set : Setting} {relocation : Relocation} {start : Nat} {moved : Bool}
    {log : Log} [Relocatable α] (h : accepted.StandsIn set.stream relocation start)
    (hobeys : accepted.setting.Obeys moved parser)
    (hagrees : ∀ P : Parallel accepted.setting, P.base = 0 →
      P.other.kind (P.otherBase + P.reach) = set.stream.kind (start + accepted.length) →
      P.Agrees Parallel.never parser parser .initial) (hlog : log.muted = 0) :
    set.Reads log parser start (relocation.move accepted.value) (start + accepted.length) := by
  obtain ⟨history, hrun⟩ := accepted.exists_run hobeys
  have hends : Recurs.Ends accepted.setting set.stream relocation 0 start accepted.length false := by
    show accepted.source.kind (0 + accepted.length) ≠ .newline
    rw [Nat.zero_add, accepted.kind_length]
    exact TokenKind.noConfusion
  exact h.recurs.reads hends (hagrees _ rfl rfl) hrun rfl rfl (Nat.zero_le _)
    (Nat.le_of_eq (Nat.zero_add _).symm) id hlog

/-- What is accepted by itself is read wherever it stands. -/
theorem reads {set : Setting} {relocation : Relocation} {start : Nat} {moved : Bool} {log : Log}
    [Relocatable α] (h : accepted.StandsIn set.stream relocation start)
    (hobeys : accepted.setting.Obeys moved parser)
    (hmirrors : ∀ P : Parallel accepted.setting, P.Mirrors true parser) (hlog : log.muted = 0) :
    set.Reads log parser start (relocation.move accepted.value) (start + accepted.length) :=
  accepted.reads_of_agrees h hobeys
    (fun P _ _ => hmirrors P .initial accepted.source.size_pos fun _ => rfl) hlog

end Accepted

/-- An expression that is read by itself without an error is read wherever it stands. -/
theorem Admitted.leaves_expression {set : Setting} {relocation : Relocation} {start budget : Nat}
    {log : Log} (admitted : Admitted (α := Expr) (produce budget (.expression 0)))
    (h : admitted.StandsIn set.stream relocation start) (hlog : log.muted = 0) :
    set.Leaves log (α := Expr) (produce budget (.expression 0)) start
      (relocation.move admitted.value) (start + admitted.length)
      ((relocation.move admitted.reports).foldl Log.report log) :=
  admitted.leaves h (obeys_produce Or.inr Abort.Arises.tooDeep budget (.expression 0))
    (fun P => (P.nestsAlike_ofRules Or.inr Abort.Arises.tooDeep budget).expression 0) hlog

/-- An expression that is accepted by itself is read wherever it stands. -/
theorem Accepted.reads_expression {set : Setting} {relocation : Relocation} {start budget : Nat}
    {log : Log} (accepted : Accepted (α := Expr) (produce budget (.expression 0)))
    (h : accepted.StandsIn set.stream relocation start) (hlog : log.muted = 0) :
    set.Reads log (α := Expr) (produce budget (.expression 0)) start
      (relocation.move accepted.value) (start + accepted.length) :=
  accepted.reads h (obeys_produce Or.inr Abort.Arises.tooDeep budget (.expression 0))
    (fun P => (P.nestsAlike_ofRules Or.inr Abort.Arises.tooDeep budget).expression 0) hlog

end SableFrontend
