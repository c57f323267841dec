import SableFrontend.Proofs.Token.BracketWindow

/-!
What the window costs. The rules that settle the form of square brackets make sense without a limit
to the tokens that may be looked at (`BracketForm.unlimited`). The window cuts them short: where the
token that decides lies inside of it, the form is the one without a limit, and everywhere else it is
that one or a block (`BracketForm.atIndex_eq_unlimited_or_block`). A scan that is cut short never
takes brackets for something that they are not, except for a block.
-/

namespace SableFrontend.BracketForm

/-! ### The rules without a limit -/

/-- The kinds of all tokens after an index. -/
def kindsAfter (tokens : Array Token) (index : Nat) : List TokenKind :=
  (tokens.toList.drop (index + 1)).map Token.kind

/-- The form of the square bracket at an index by the same rules, where all tokens after it may be
looked at. -/
def unlimited (tokens : Array Token) (index : Nat) : BracketForm :=
  let before := if 0 < index then tokens[index - 1]? else none
  let content := ofContent (kindsAfter tokens index).length (kindsAfter tokens index)
  match tokens[index]? with
  | none => content
  | some opener => (ofNeighbour? before opener).getD content

/-- How many kinds stand before the one that decides, `depth` delimiters further in than the square
brackets: a telling sign or the closer at the depth of the brackets, or the end of the file. -/
def beforeDecision (depth : Nat) : List TokenKind → Nat
  | [] => 0
  | kind :: rest =>
    match kind with
    | .opener _ => beforeDecision (depth + 1) rest + 1
    | .closer _ => if depth = 0 then 0 else beforeDecision (depth - 1) rest + 1
    | .endOfFile => 0
    | _ => if depth = 0 ∧ (decision? kind).isSome = true then 0 else beforeDecision depth rest + 1

/-- Among the first `limit` kinds stand both the first that is no separator and the one that decides
from there on. -/
def DecidesWithin (limit : Nat) (kinds : List TokenKind) : Prop :=
  let skipped := (kinds.takeWhile TokenKind.isSeparator).length
  skipped < limit ∧ skipped + beforeDecision 0 (kinds.drop skipped) < limit

instance (limit : Nat) (kinds : List TokenKind) : Decidable (DecidesWithin limit kinds) :=
  inferInstanceAs (Decidable (_ ∧ _))

/-! ### Scanning -/

/-- Any other kind decides by itself, or is passed over. -/
theorem settle_cons_of_plain {kind : TokenKind} (depth : Nat) (rest : List TokenKind)
    (hopener : kind.isOpener = false) (hcloser : kind.isCloser = false)
    (hend : kind ≠ .endOfFile) :
    settle depth (kind :: rest) =
      if depth = 0 then (decision? kind).getD (settle depth rest) else settle depth rest := by
  cases depth <;> cases kind <;>
    first | rfl | exact absurd rfl hend | exact Bool.noConfusion hopener | exact Bool.noConfusion hcloser

theorem beforeDecision_cons_of_plain {kind : TokenKind} (depth : Nat) (rest : List TokenKind)
    (hopener : kind.isOpener = false) (hcloser : kind.isCloser = false)
    (hend : kind ≠ .endOfFile) :
    beforeDecision depth (kind :: rest) =
      if depth = 0 ∧ (decision? kind).isSome = true then 0 else beforeDecision depth rest + 1 := by
  cases kind <;>
    first | rfl | exact absurd rfl hend | exact Bool.noConfusion hopener | exact Bool.noConfusion hcloser

/-- A scan that is cut short finds what the whole scan finds, or nothing. -/
theorem settle_take_eq_or_block (depth limit : Nat) (kinds : List TokenKind) :
    settle depth (kinds.take limit) = settle depth kinds ∨
      settle depth (kinds.take limit) = block := by
  induction kinds generalizing depth limit with
  | nil => exact Or.inl (by rw [List.take_nil])
  | cons kind rest ih =>
    cases limit with
    | zero => exact Or.inr rfl
    | succ more =>
      rw [List.take_succ_cons]
      unfold settle
      split
      · exact ih ..
      · split
        · exact Or.inr rfl
        · exact ih ..
      · exact Or.inr rfl
      · split
        · exact Or.inl rfl
        · exact ih ..

/-- A scan that reaches what decides finds what the whole scan finds. -/
theorem settle_take_of_beforeDecision_lt {depth limit : Nat} {kinds : List TokenKind}
    (h : beforeDecision depth kinds < limit) :
    settle depth (kinds.take limit) = settle depth kinds := by
  induction kinds generalizing depth limit with
  | nil => rw [List.take_nil]
  | cons kind rest ih =>
    obtain ⟨more, rfl⟩ := Nat.exists_eq_succ_of_ne_zero (Nat.ne_of_gt (Nat.zero_lt_of_lt h))
    rw [List.take_succ_cons]
    by_cases hplain : kind.isOpener = false ∧ kind.isCloser = false ∧ kind ≠ .endOfFile
    · obtain ⟨hopener, hcloser, hend⟩ := hplain
      rw [beforeDecision_cons_of_plain _ _ hopener hcloser hend] at h
      rw [settle_cons_of_plain _ _ hopener hcloser hend,
        settle_cons_of_plain _ _ hopener hcloser hend]
      by_cases hdecides : depth = 0 ∧ (decision? kind).isSome = true
      · obtain ⟨form, hform⟩ := Option.isSome_iff_exists.1 hdecides.2
        rw [if_pos hdecides.1, if_pos hdecides.1, hform, Option.getD_some, Option.getD_some]
      · rw [if_neg hdecides] at h
        rw [ih (Nat.lt_of_succ_lt_succ h)]
    · cases kind with
      | opener bracket => exact @ih (depth + 1) _ (Nat.lt_of_succ_lt_succ h)
      | closer bracket =>
        simp only [beforeDecision] at h
        simp only [settle]
        split
        · rfl
        · next hdepth =>
          rw [if_neg hdepth] at h
          exact ih (Nat.lt_of_succ_lt_succ h)
      | endOfFile => rfl
      | _ => exact absurd ⟨rfl, rfl, TokenKind.noConfusion⟩ hplain

/-! ### Limits -/

variable {limit more : Nat} {first : TokenKind} {kinds rest : List TokenKind}

theorem ofContent_nil (limit : Nat) : ofContent limit [] = block := by rw [ofContent]

theorem ofContent_cons_of_separator (h : first.isSeparator = true) :
    ofContent (more + 1) (first :: rest) = ofContent more rest := by
  rw [ofContent, if_pos h]

/-- The form that the first kind behind the separators settles, without a scan. -/
def ofFirst? (first : TokenKind) (rest : List TokenKind) : Option BracketForm :=
  if first = .closer .square then some ambiguous
  else if first = .dot then some accessor
  else if first = .operator then some operatorSection
  else if opensBlock first then some block
  else if startsLeftSection (first :: rest) then some leftSection
  else none

/-- Behind the separators, a limit matters to the scan alone. -/
theorem ofContent_cons_of_not_separator (h : ¬first.isSeparator = true) :
    ofContent (more + 1) (first :: rest) =
      (ofFirst? first rest).getD (settle 0 ((first :: rest).take (more + 1))) := by
  simp only [ofContent, if_neg h, ofFirst?]
  repeat (split; rfl)
  rfl

theorem take_length_cons : (first :: rest).take (rest.length + 1) = first :: rest := by
  rw [← List.length_cons, List.take_length]

/-- A limited look at the content shows what an unlimited one shows, or a block. -/
theorem ofContent_eq_or_block (limit : Nat) (kinds : List TokenKind) :
    ofContent limit kinds = ofContent kinds.length kinds ∨ ofContent limit kinds = block := by
  induction kinds generalizing limit with
  | nil => exact Or.inr (ofContent_nil limit)
  | cons first rest ih =>
    cases limit with
    | zero => exact Or.inr rfl
    | succ more =>
      rw [List.length_cons]
      by_cases hseparator : first.isSeparator = true
      · rw [ofContent_cons_of_separator hseparator, ofContent_cons_of_separator hseparator]
        exact ih more
      · rw [ofContent_cons_of_not_separator hseparator, ofContent_cons_of_not_separator hseparator,
          take_length_cons]
        cases ofFirst? first rest with
        | none => exact settle_take_eq_or_block ..
        | some form => exact Or.inl rfl

/-- A limit behind what decides does not matter. -/
theorem ofContent_of_decidesWithin (h : DecidesWithin limit kinds) :
    ofContent limit kinds = ofContent kinds.length kinds := by
  induction kinds generalizing limit with
  | nil => rw [ofContent_nil, ofContent_nil]
  | cons first rest ih =>
    obtain ⟨hskipped, hdecision⟩ := h
    obtain ⟨more, rfl⟩ := Nat.exists_eq_succ_of_ne_zero (Nat.ne_of_gt (Nat.zero_lt_of_lt hskipped))
    rw [List.length_cons]
    by_cases hseparator : first.isSeparator = true
    · rw [List.takeWhile_cons_of_pos hseparator, List.length_cons] at hskipped hdecision
      rw [List.drop_succ_cons] at hdecision
      rw [ofContent_cons_of_separator hseparator, ofContent_cons_of_separator hseparator]
      exact ih ⟨Nat.lt_of_succ_lt_succ hskipped, by omega⟩
    · rw [List.takeWhile_cons_of_neg hseparator, List.length_nil, List.drop_zero,
        Nat.zero_add] at hdecision
      rw [ofContent_cons_of_not_separator hseparator, ofContent_cons_of_not_separator hseparator,
        take_length_cons, settle_take_of_beforeDecision_lt hdecision]

/-- A left section is told by two tokens behind the limit at most. -/
theorem ofContent_take_add_two (limit : Nat) (kinds : List TokenKind) :
    ofContent limit (kinds.take (limit + 2)) = ofContent limit kinds := by
  induction kinds generalizing limit with
  | nil => rw [List.take_nil]
  | cons first rest ih =>
    cases limit with
    | zero => rfl
    | succ more =>
      rw [show more + 1 + 2 = more + 2 + 1 from rfl, List.take_succ_cons]
      by_cases hseparator : first.isSeparator = true
      · rw [ofContent_cons_of_separator hseparator, ofContent_cons_of_separator hseparator]
        exact ih more
      · have hleft : startsLeftSection (first :: rest.take (more + 2)) =
            startsLeftSection (first :: rest) :=
          startsLeftSection_take (Nat.le_add_left ..)
            (by rw [List.take_take, Nat.min_self])
        have hscan : (first :: rest.take (more + 2)).take (more + 1) =
            (first :: rest).take (more + 1) := by
          rw [List.take_succ_cons, List.take_succ_cons, List.take_take,
            Nat.min_eq_left (Nat.le_add_right ..)]
        simp only [ofContent, hleft, hscan, if_neg hseparator]

/-! ### The window -/

/-- The form of a square bracket is the one without a limit wherever the token that decides lies in
the window, and in any case it is that one or a block. -/
theorem atIndex_eq_unlimited_or_block {tokens : Array Token} {index : Nat}
    (hopener : tokens[index]?.map Token.kind = some (.opener .square)) :
    ∃ form, atIndex tokens (index : Int) = .ok form ∧
      (DecidesWithin window (kindsAfter tokens index) → form = unlimited tokens index) ∧
      (form = unlimited tokens index ∨ form = block) := by
  obtain ⟨opener, htoken, hkind⟩ := Option.map_eq_some_iff.1 hopener
  refine ⟨_, atIndex_natCast htoken hkind, ?_⟩
  rw [contentAfter_eq, ofContent_take_add_two, unlimited, htoken, kindsAfter]
  dsimp only
  cases ofNeighbour? (if 0 < index then tokens[index - 1]? else none) opener with
  | some form => exact ⟨fun _ => rfl, Or.inl rfl⟩
  | none => exact ⟨ofContent_of_decidesWithin, ofContent_eq_or_block ..⟩

/-- The window takes a lambda whose first sign stands behind it for a block. -/
theorem exists_atIndex_eq_unlimited_or_block :
    ∃ tokens ∈ (Token.ofText ("[x" ++ String.ofList (List.replicate 63 'x' |>.flatMap fun c => [' ', c])
        ++ ": y]") "f").toOption,
      tokens[0]?.map Token.kind = some (.opener .square) ∧ unlimited tokens 0 = lambda ∧
      ∃ form, atIndex tokens 0 = .ok form ∧
        (DecidesWithin window (kindsAfter tokens 0) → form = unlimited tokens 0) ∧
        (form = unlimited tokens 0 ∨ form = block) := by
  obtain ⟨tokens, htokens, hopener, hform⟩ :
      ∃ tokens ∈ (Token.ofText ("[x" ++ String.ofList (List.replicate 63 'x' |>.flatMap fun c => [' ', c])
          ++ ": y]") "f").toOption,
        tokens[0]?.map Token.kind = some (.opener .square) ∧ unlimited tokens 0 = lambda := by
    decide +kernel
  exact ⟨tokens, htokens, hopener, hform, atIndex_eq_unlimited_or_block hopener⟩

end SableFrontend.BracketForm
