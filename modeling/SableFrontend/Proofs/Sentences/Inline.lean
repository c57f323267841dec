import SableFrontend.Proofs.Sentences.Calculus

/-!
What is read on one line. Line breaks are passed over between some parts of a production and end others,
so a language is often known only of stretches in which there are none (`Inline`). Such a stretch has no
line breaks in its parts either, and a production that may pass over some stays where it is.
-/

namespace SableFrontend.TokenStream

open Parser

variable {α : Type} {stream : TokenStream} {start middle stop : Nat}

/-- There are no line breaks in a stretch. -/
def Unbroken (stream : TokenStream) (start stop : Nat) : Prop :=
  ∀ position, start ≤ position → position < stop → stream.kind position ≠ .newline

theorem Unbroken.part {first last : Nat} (h : stream.Unbroken start stop) (hfirst : start ≤ first)
    (hlast : last ≤ stop) : stream.Unbroken first last :=
  fun position hle hlt => h position (Nat.le_trans hfirst hle) (Nat.lt_of_lt_of_le hlt hlast)

/-- A token of another kind in front makes no difference. -/
theorem Unbroken.cons (h : stream.Unbroken (start + 1) stop) (hkind : stream.kind start ≠ .newline) :
    stream.Unbroken start stop := by
  intro position hle hlt
  rcases Nat.eq_or_lt_of_le hle with rfl | hmore
  · exact hkind
  · exact h position hmore hlt

/-- Nor does one behind. -/
theorem Unbroken.concat (h : stream.Unbroken start stop) (hkind : stream.kind stop ≠ .newline) :
    stream.Unbroken start (stop + 1) := by
  intro position hle hlt
  rcases Nat.eq_or_lt_of_le (Nat.le_of_lt_succ hlt) with rfl | hless
  · exact hkind
  · exact h position hle hless

/-- Where there are no line breaks none are passed over. -/
theorem Unbroken.skipWhile_eq (h : stream.Unbroken start stop)
    (hle : stream.skipWhile (· == .newline) start ≤ stop) :
    stream.skipWhile (· == .newline) start = start := by
  by_cases hkind : stream.kind start = .newline
  · rcases Nat.eq_or_lt_of_le (stream.le_skipWhile (· == .newline) start) with heq | hlt
    · exact heq.symm
    · exact absurd hkind (h start (Nat.le_refl _) (Nat.lt_of_lt_of_le hlt hle))
  · exact skipWhile_eq_self (beq_eq_false_iff_ne.2 hkind)

/-- A stretch that belongs to a language if there are no line breaks in it. -/
structure Inline (stream : TokenStream) (language : Nat → Nat → α → Prop) (start stop : Nat) (answer : α) :
    Prop where
  le : start ≤ stop
  holds : stream.Unbroken start stop → language start stop answer

namespace Inline

variable {language language' : Nat → Nat → α → Prop} {answer : α}

theorem mono (h : stream.Inline language start stop answer)
    (himplies : language start stop answer → language' start stop answer) :
    stream.Inline language' start stop answer :=
  ⟨h.le, fun hplain => himplies (h.holds hplain)⟩

/-- Line breaks may be passed over in front of a stretch. -/
theorem behindBreaks (h : stream.Inline language (stream.skipWhile (· == .newline) start) stop answer) :
    stream.Inline language start stop answer := by
  have hle := h.le
  refine ⟨Nat.le_trans (stream.le_skipWhile _ start) hle, fun hplain => ?_⟩
  have hsame := hplain.skipWhile_eq hle
  rw [hsame] at h
  exact h.holds hplain

/-- Line breaks may be passed over behind a stretch. -/
theorem beforeBreaks (h : stream.Inline language start stop answer) :
    stream.Inline language start (stream.skipWhile (· == .newline) stop) answer := by
  have hbehind := stream.le_skipWhile (· == .newline) stop
  refine ⟨Nat.le_trans h.le hbehind, fun hplain => ?_⟩
  have hsame := Unbroken.skipWhile_eq (hplain.part h.le (Nat.le_refl _)) (Nat.le_refl _)
  rw [hsame] at hplain ⊢
  exact h.holds hplain

end Inline

variable {item item' : Nat → Nat → α → Prop} {answers : List α}

theorem Listed.inline (h : stream.Listed item' start stop answers)
    (hitem : ∀ {start stop answer}, item' start stop answer → stream.Inline item start stop answer) :
    stream.Inline (stream.Listed item) start stop answers := by
  induction h with
  | one hfirst => exact ⟨(hitem hfirst).le, fun hplain => .one ((hitem hfirst).holds hplain)⟩
  | more hfirst hcomma _ ih =>
    have hfirst := hitem hfirst
    have hle := hfirst.le
    have hle' := ih.le
    exact ⟨by omega, fun hplain => .more (hfirst.holds (hplain.part (Nat.le_refl _) (by omega))) hcomma
      (ih.holds (hplain.part (by omega) (Nat.le_refl _)))⟩

theorem Repeated.inline (h : Repeated item' start stop answers)
    (hitem : ∀ {start stop answer}, item' start stop answer → stream.Inline item start stop answer) :
    stream.Inline (Repeated item) start stop answers := by
  induction h with
  | none => exact ⟨Nat.le_refl _, fun _ => .none _⟩
  | more hfirst _ ih =>
    have hfirst := hitem hfirst
    exact ⟨Nat.le_trans hfirst.le ih.le, fun hplain =>
      .more (hfirst.holds (hplain.part (Nat.le_refl _) ih.le))
        (ih.holds (hplain.part hfirst.le (Nat.le_refl _)))⟩

/-- Going on behind the line breaks at a place. -/
theorem Yields.skipNewlines {state : ParserState} {returns : Unit → ParserState → Prop}
    (h : returns () { state with position := stream.skipWhile (· == .newline) state.position }) :
    stream.Yields Parser.skipNewlines state returns := by
  intro answer final hrun
  cases hrun
  exact h

theorem Recognizes.mono {parser : Parser α} {language language' : Nat → Nat → α → Prop}
    (h : stream.Recognizes parser language)
    (himplies : ∀ {start stop answer}, language start stop answer → language' start stop answer) :
    stream.Recognizes parser language' :=
  fun _ hmuted => h.yields hmuted fun _ _ hmuted hle hanswer =>
    ⟨hmuted, hle, fun hquiet => himplies (hanswer hquiet)⟩

end SableFrontend.TokenStream
