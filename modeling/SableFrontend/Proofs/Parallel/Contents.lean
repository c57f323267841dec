import SableFrontend.Proofs.Parallel.Recurrence
import SableFrontend.Proofs.Parallel.TopLevel

/-!
The contents of brackets. Where the tokens between a pair of delimiters recur between another one, the
items that were read there without a word are read again, whatever has been read between the opener and
them (`Recurs.reads_iterate`).
-/

namespace SableFrontend

open TokenStream SableFrontend.Parser Setting

variable {α : Type}

/-- What surrounds the items that are read from a place on. -/
def TokenStream.enclosureAt (stream : TokenStream) (position : Nat) (closer : TokenKind)
    (commas : Bool) : Enclosure where
  first := position
  level := stream.depth position
  closer := closer
  commas := commas

/-- Reading items is entering what surrounds them and taking rounds. -/
theorem Parser.items_apply (item : Parser α) (closer : TokenKind) (commas : Bool) (what : String)
    (stream : TokenStream) (state : ParserState) :
    items item closer commas what stream state =
      let within := stream.enclosureAt state.position closer commas
      match repeatWhile.iterate (startsItem within) (nextItem item within what) stream.size [] stream
        { state with
          position := stream.skipWhile (·.separates commas) state.position
          history := .entered within :: state.history } with
      | (.ok reversed, middle) =>
        (.ok reversed.reverse, { middle with
          history := .finished within middle.position :: middle.history })
      | (.error abort, middle) => (.error abort, middle) := by
  dsimp only
  generalize hwithin : stream.enclosureAt state.position closer commas = within
  generalize hentered : ({ state with
    position := stream.skipWhile (·.separates commas) state.position
    history := .entered within :: state.history } : ParserState) = entered
  have hitems : items item closer commas what stream state =
      (repeatWhile.iterate (startsItem within) (nextItem item within what) stream.size [] >>=
        fun reversed => do
          note (.finished within (← get).position)
          return reversed.reverse : Parser (List α)) stream entered := by
    rw [← hentered, ← hwithin]
    rfl
  rw [hitems, bind_apply]
  cases repeatWhile.iterate (startsItem within) (nextItem item within what) stream.size [] stream
    entered with
  | mk result middle => cases result <;> rfl

/-- What rounds read is what the items are. -/
theorem Setting.Reads.items_of_iterate {set : Setting} {log : Log} {item : Parser α}
    {closer : TokenKind} {commas : Bool} {what : String} {start close : Nat} {reversed : List α}
    (h : set.Reads log (repeatWhile.iterate (startsItem (set.stream.enclosureAt start closer commas))
      (Parser.nextItem item (set.stream.enclosureAt start closer commas) what) set.stream.size [])
      (set.stream.skipWhile (·.separates commas) start) reversed close) :
    set.Reads log (Parser.items item closer commas what) start reversed.reverse close := by
  intro history
  obtain ⟨answers, middle, hrun, rfl, hposition, hlog⟩ := (h (.entered
    (set.stream.enclosureAt start closer commas) :: history)).exists_ok
  unfold Runs
  rw [items_apply]
  dsimp only
  rw [hrun]
  exact ⟨rfl, hposition, hlog⟩

/-- One item in front of those that more rounds read. -/
theorem Setting.Reads.iterate_cons {set : Setting} {log : Log} {item : Parser α} {within : Enclosure}
    {what : String} {count start stop close : Nat} {answer : α} {reversed : List α}
    (hstart : set.stream.kind start ≠ within.closer) (hend : set.stream.kind start ≠ .endOfFile)
    (hitem : set.Reads log item start answer stop)
    (hstop : set.stream.kind stop = within.closer ∨
      (set.stream.kind stop).separates within.commas = true)
    (hrest : set.Reads log (repeatWhile.iterate (startsItem within) (Parser.nextItem item within what)
      count []) (set.stream.skipWhile (·.separates within.commas) stop) reversed close) :
    set.Reads log (repeatWhile.iterate (startsItem within) (Parser.nextItem item within what)
      (count + 1) []) start (reversed ++ [answer]) close := by
  have htest : set.Reads log (startsItem within) start true start := by
    refine Reads.isAt.bind (Reads.isAt.bind ?_)
    rw [beq_eq_false_iff_ne.2 hstart, beq_eq_false_iff_ne.2 hend]
    exact .pure
  refine htest.bind (.ite_pos rfl ((hitem.nextItem hstop []).bind ?_))
  rw [← List.nil_append [answer], iterate_append]
  exact hrest.map

/-- The rounds that read items without a word read them again where they recur. -/
theorem Setting.Recurs.reads_iterate [Relocatable α] {set set' : Setting} {relocation : Relocation}
    {item : Parser α} {answers : List α} {state final : ParserState} {bracket : Bracket}
    {commas : Bool} {what : String} {within : Enclosure} {start length count : Nat} {log : Log}
    (h : set.Recurs set'.stream relocation state.position start length)
    (hends : Recurs.Ends set set'.stream relocation state.position start length true)
    (hopens : set.stream.Opens state.position (.closer bracket)) (hitem : set.Obeys true item)
    (hmirrors : ∀ P : Parallel set, P.MirrorsInside true item)
    (hrun : items item (.closer bracket) commas what set.stream state = (.ok answers, final))
    (hstate : state.log = .empty) (hfinal : final.log = .empty)
    (hstop : final.position = state.position + length)
    (hcloser : within.closer = .closer bracket) (hcommas : within.commas = commas)
    (hlevel : within.level = (set'.stream.opened start).length)
    (hcount : set'.stream.size ≤ count + start) (hlog : log.muted = 0) :
    set'.Reads log (repeatWhile.iterate (startsItem within) (nextItem item within what) count [])
      (set'.stream.skipWhile (·.separates commas) start) (relocation.move answers).reverse
      (start + length) := by
  have hlt : state.position < set.stream.size := Nat.lt_of_le_of_lt h.within.le h.within.lt
  have hpart : set.IsPart (set.stream.enclosureAt state.position (.closer bracket) commas) :=
    ⟨hlt, hopens, set.balanced.depth_eq hlt⟩
  let P := h.parallel set'.balanced true hends log.diagnostics.toList
  have hsheltered : P.Sheltered state.position := Or.inl rfl
  have hplain : ∀ kind : TokenKind, kind.separates commas = true → kind.isPlain = true :=
    fun _ => TokenKind.isPlain_of_separates
  have hskip : set'.stream.skipWhile (·.separates commas) start =
      start + (set.stream.skipWhile (·.separates commas) state.position - state.position) := by
    have heq := hsheltered.skipWhile_eq hplain (Nat.le_refl _) (Nat.le_add_right ..)
    rw [show P.place state.position = start from P.place_base] at heq
    exact heq
  rw [items_apply] at hrun
  dsimp only at hrun
  generalize hentered : ({ state with
    position := set.stream.skipWhile (·.separates commas) state.position
    history := .entered (set.stream.enclosureAt state.position (.closer bracket) commas) ::
      state.history } : ParserState) = entered at hrun
  have hposition : entered.position = set.stream.skipWhile (·.separates commas) state.position := by
    rw [← hentered]
  have hempty : entered.log = .empty := by rw [← hentered, ← hstate]
  cases hloop : repeatWhile.iterate
      (startsItem (set.stream.enclosureAt state.position (.closer bracket) commas))
      (nextItem item (set.stream.enclosureAt state.position (.closer bracket) commas) what)
      set.stream.size [] set.stream entered with
  | mk result middle =>
    rw [hloop] at hrun
    cases result with
    | error abort => cases hrun
    | ok reversed =>
      obtain ⟨hanswers, rfl⟩ := Prod.mk.inj hrun
      injection hanswers with hanswers
      subst hanswers
      have hskipped := within_skipWhile hplain hlt
      have hbetween : set.Between
          (set.stream.enclosureAt state.position (.closer bracket) commas) entered :=
        ⟨hposition ▸ hskipped.1, hposition ▸ hskipped.2.1⟩
      have hagrees : P.Agrees Parallel.never
          (repeatWhile.iterate
            (startsItem (set.stream.enclosureAt state.position (.closer bracket) commas))
            (nextItem item (set.stream.enclosureAt state.position (.closer bracket) commas) what)
            set.stream.size [])
          (repeatWhile.iterate (startsItem within) (nextItem item within what) count
            (P.relocation.move [])) entered := by
        refine .rounds hpart hitem (hmirrors P) (fun _ => by rw [hempty]; rfl) hbetween hcloser hcommas
          ?_ (Or.inr fun _ => Nat.le_refl _) hsheltered (Nat.le_add_right ..) ?_
        · rw [hlevel]
          show _ = set.stream.depth state.position + _
          rw [set.balanced.depth_eq hlt]
          exact (Nat.add_sub_cancel' h.depth_le).symm
        · have hless := h.lt
          have hle := hskipped.1.le
          show state.position + length < count + entered.position
          rw [hposition]
          omega
      have hreads := h.reads hends hagrees hloop hempty hfinal
        (hposition ▸ hskipped.1.le) (Nat.le_of_eq hstop) id hlog
      rw [hposition, ← hskip, hstop, Nat.add_sub_cancel_left] at hreads
      rw [show (relocation.move reversed.reverse).reverse = relocation.move reversed from
        (congrArg List.reverse List.map_reverse).trans (List.reverse_reverse _)]
      exact hreads

end SableFrontend
