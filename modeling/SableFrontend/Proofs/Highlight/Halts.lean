import SableFrontend.Proofs.Highlight.Stretches

/-!
The places between the stretches of a highlighted text. `Halts` follows highlighting one match at a time;
the match at a place where it halts is a stretch of the text (`Halts.mem_stretches`), some such match covers
every place (`exists_halts`), and no other stretch does (`Halts.eq_of_covers`).
-/

namespace SableFrontend.Highlight

variable {state : State} {text shown left rest : List Char} {first : Char} {place : Nat}

/-- What a match takes of the text that it is found at. -/
def Match.taken (found : Match) (first : Char) (rest : List Char) : List Char :=
  first :: rest.take (found.length - 1)

/-- Highlighting halts between two stretches: with the text that it has shown, its state and the text that
is left. -/
inductive Halts (text : List Char) : List Char → State → List Char → Prop
  | start : Halts text [] .root text
  | next {shown : List Char} {state : State} {first : Char} {rest : List Char} {found : Match}
      (h : Halts text shown state (first :: rest))
      (hfound : matchAt state shown.getLast? first rest = found) :
      Halts text (shown ++ found.taken first rest) found.next (rest.drop (found.length - 1))

namespace Halts

theorem append_eq (h : Halts text shown state left) : shown ++ left = text := by
  induction h with
  | start => rfl
  | next h hfound ih => rw [← ih, List.append_assoc, Match.taken, List.cons_append, List.take_append_drop]

/-- The stretch that begins where highlighting halts. -/
def stretch (shown : List Char) (state : State) (first : Char) (rest : List Char) : Stretch where
  offset := shown.length
  category := (matchAt state shown.getLast? first rest).category
  text := (matchAt state shown.getLast? first rest).taken first rest

theorem stretchesFrom_eq (shown : List Char) (state : State) (first : Char) (rest : List Char) :
    stretchesFrom shown.length state shown.getLast? (first :: rest) = stretch shown state first rest ::
      stretchesFrom (shown ++ (stretch shown state first rest).text).length
        (matchAt state shown.getLast? first rest).next
        (shown ++ (stretch shown state first rest).text).getLast?
        (rest.drop ((matchAt state shown.getLast? first rest).length - 1)) := by
  rw [stretchesFrom_cons, List.length_append, List.getLast?_append, Option.or_of_isSome (by
    rw [List.getLast?_isSome]
    exact List.cons_ne_nil _ _)]
  rfl

/-- The stretches of a text are those in front of a halt, and those behind it. -/
theorem exists_before (h : Halts text shown state left) :
    ∃ before, stretchesFrom 0 .root none text =
        before ++ stretchesFrom shown.length state shown.getLast? left ∧
      ∀ stretch ∈ before, stretch.offset + stretch.text.length ≤ shown.length := by
  induction h with
  | start => exact ⟨[], rfl, nofun⟩
  | @next shown state first rest found h hfound ih =>
    obtain ⟨before, heq, hbefore⟩ := ih
    subst hfound
    refine ⟨before ++ [stretch shown state first rest], ?_, fun other hmem => ?_⟩
    · rw [heq, stretchesFrom_eq, List.append_assoc]
      rfl
    · rw [List.length_append]
      rcases List.mem_append.1 hmem with hmem | hmem
      · exact Nat.le_add_right_of_le (hbefore other hmem)
      · rw [List.mem_singleton.1 hmem]
        exact Nat.le_refl _

theorem mem_stretches (h : Halts text shown state (first :: rest)) :
    stretch shown state first rest ∈ stretchesFrom 0 .root none text := by
  obtain ⟨before, heq, -⟩ := h.exists_before
  rw [heq, stretchesFrom_eq]
  exact List.mem_append_right _ List.mem_cons_self

end Halts

theorem offset_le_of_mem {offset : Nat} {before : Option Char} {stretch : Stretch}
    (h : stretch ∈ stretchesFrom offset state before text) : offset ≤ stretch.offset := by
  fun_induction stretchesFrom offset state before text with
  | case1 => cases h
  | case2 offset state before first rest found more covered ih =>
    rcases List.mem_cons.1 h with rfl | hmem
    · exact Nat.le_refl _
    · exact Nat.le_of_add_right_le (ih hmem)

/-- Only the stretch that begins where highlighting halts takes up what it takes up. -/
theorem Halts.eq_of_covers (h : Halts text shown state (first :: rest)) {other : Stretch}
    (hmem : other ∈ stretchesFrom 0 .root none text) (hcovers : other.Covers place)
    (hhere : (stretch shown state first rest).Covers place) : other = stretch shown state first rest := by
  obtain ⟨before, heq, hbefore⟩ := h.exists_before
  obtain ⟨hfirst, hlast⟩ := hhere
  rw [heq, stretchesFrom_eq] at hmem
  rcases List.mem_append.1 hmem with hmem | hmem
  · have hend := hbefore other hmem
    have hle : shown.length ≤ place := hfirst
    exact absurd hcovers.2 (Nat.not_lt.2 (Nat.le_trans hend hle))
  rcases List.mem_cons.1 hmem with heq | hmem
  · exact heq
  · have hle := offset_le_of_mem hmem
    rw [List.length_append] at hle
    exact absurd hlast (Nat.not_lt.2 (Nat.le_trans hle hcovers.1))

/-- Every place of a text is taken up by the match at some halt. -/
theorem exists_halts (hplace : place < text.length) :
    ∃ shown state first rest, Halts text shown state (first :: rest) ∧
      (Halts.stretch shown state first rest).Covers place := by
  -- from any halt in front of the place
  have hfrom : ∀ count, ∀ {shown left : List Char} {state : State}, left.length ≤ count →
      Halts text shown state left → shown.length ≤ place →
      ∃ shown state first rest, Halts text shown state (first :: rest) ∧
        (Halts.stretch shown state first rest).Covers place := by
    intro count
    induction count with
    | zero =>
      intro shown left state hcount h hle
      obtain rfl := List.length_eq_zero_iff.1 (Nat.le_zero.1 hcount)
      have htext := h.append_eq
      rw [List.append_nil] at htext
      rw [htext] at hle
      omega
    | succ count ih =>
      intro shown left state hcount h hle
      cases left with
      | nil =>
        have htext := h.append_eq
        rw [List.append_nil] at htext
        rw [htext] at hle
        omega
      | cons first rest =>
        by_cases hhere : place < shown.length + (Halts.stretch shown state first rest).text.length
        · exact ⟨shown, state, first, rest, h, hle, hhere⟩
        · refine ih ?_ (h.next rfl) ?_
          · rw [List.length_cons] at hcount
            rw [List.length_drop]
            omega
          · rw [List.length_append]
            exact Nat.le_of_not_lt hhere
  exact hfrom _ (Nat.le_refl _) .start (Nat.zero_le _)

/-- The stretch that takes up a place has the shade of the place. -/
theorem Halts.shade_eq (h : Halts text shown state (first :: rest)) {shade : Shade}
    (hshade : (shadesFrom .root none text)[place]? = some shade)
    (hcovers : (stretch shown state first rest).Covers place) :
    (stretch shown state first rest).category.shade = shade := by
  obtain ⟨other, hmem, hother, hplace⟩ :=
    (exists_covers_stretchesFrom_iff 0 .root none text shade place).2 ⟨Nat.zero_le _, hshade⟩
  rw [← h.eq_of_covers hmem hplace hcovers]
  exact hother

end SableFrontend.Highlight
