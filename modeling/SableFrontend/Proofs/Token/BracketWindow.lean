import SableFrontend.Token.BracketForm
import SableFrontend.Token.Lexing
import SableFrontend.Token.Stream

/-!
How far ahead the form of square brackets is looked for. All that counts is what stands before them
and the kinds behind them (`BracketForm.atIndex_natCast`), of which the first `window` settle the
form, with one exception: whether the brackets are a left section is told by three tokens, and only
the first of these has to stand in the window. So two lists that agree in the window have the same
form there just if both or neither of them hold a left section that runs out of it
(`BracketForm.eq_iff_overhangs_iff`).
-/

namespace SableFrontend.BracketForm

variable {tokens tokens' : Array Token} {index : Nat}

/-! ### What the form depends on -/

theorem tokenAt?_natCast (tokens : Array Token) (place : Nat) :
    tokenAt? tokens (place : Int) = tokens[place]? := by
  rcases Nat.lt_or_ge place tokens.size with hlt | hge
  · rw [tokenAt?, Text.resolveIndex?_natCast hlt, Option.bind_some]
  · have hnone : Text.resolveIndex? tokens.size (place : Int) = none := by
      simp [Text.resolveIndex?, Nat.not_lt.2 hge]
    rw [tokenAt?, hnone, Option.bind_none, Array.getElem?_eq_none hge]

/-- The kinds that may be looked at behind a square bracket. -/
theorem contentAfter_eq (tokens : Array Token) (index : Nat) :
    contentAfter tokens (index : Int) =
      ((tokens.toList.drop (index + 1)).map Token.kind).take (window + 2) := by
  have hcount : ∀ count, (List.range count).filterMap (fun (k : Nat) =>
      (tokenAt? tokens ((index : Int) + 1 + (k : Int))).map Token.kind) =
      ((tokens.toList.drop (index + 1)).map Token.kind).take count := by
    intro count
    induction count with
    | zero => rfl
    | succ count ih =>
      have hplace : (index : Int) + 1 + (count : Int) = ((index + 1 + count : Nat) : Int) := by omega
      rw [List.range_succ, List.filterMap_append, ih, List.take_add_one, List.getElem?_map,
        List.getElem?_drop, List.filterMap_cons, List.filterMap_nil, hplace, tokenAt?_natCast,
        Array.getElem?_toList]
      cases tokens[index + 1 + count]? <;> rfl
  exact hcount (window + 2)

/-- What the form of a square bracket depends on. -/
theorem atIndex_natCast {opener : Token} (hopener : tokens[index]? = some opener)
    (hkind : opener.kind = .opener .square) :
    atIndex tokens (index : Int) =
      .ok ((ofNeighbour? (if 0 < index then tokens[index - 1]? else none) opener).getD
        (ofContent window (contentAfter tokens index))) := by
  have hbefore : (if 0 < (index : Int) then tokenAt? tokens ((index : Int) - 1) else none) =
      if 0 < index then tokens[index - 1]? else none := by
    by_cases hpos : 0 < index
    · rw [if_pos hpos, if_pos (by omega),
        show (index : Int) - 1 = ((index - 1 : Nat) : Int) by omega, tokenAt?_natCast]
    · rw [if_neg hpos, if_neg (by omega)]
  rw [atIndex, tokenAt?_natCast, hopener]
  dsimp only
  rw [if_pos hkind, hbefore]

/-- Only a square bracket has a form. -/
theorem exists_opener_of_atIndex {form : BracketForm}
    (h : atIndex tokens (index : Int) = .ok form) :
    ∃ opener, tokens[index]? = some opener ∧ opener.kind = .opener .square := by
  rw [atIndex, tokenAt?_natCast] at h
  cases htoken : tokens[index]? with
  | none =>
    rw [htoken] at h
    cases h
  | some opener =>
    rw [htoken] at h
    dsimp only at h
    split at h
    · next hkind => exact ⟨opener, rfl, hkind⟩
    · cases h

/-! ### What is inside -/

theorem ofNeighbour?_eq_some {before : Option Token} {opener : Token} {form : BracketForm}
    (h : ofNeighbour? before opener = some form) : form = record ∨ form = recordUpdate := by
  unfold ofNeighbour? at h
  split at h
  · cases h
  · split at h
    · split at h <;> cases h
      · exact Or.inl rfl
      · exact Or.inr rfl
    · cases h

/-- Where nothing but separators stands in front of the closer, there are no clauses. -/
theorem ofContent_of_skipped (count : Nat) {limit : Nat} {kinds : List TokenKind}
    (hskipped : ∀ k < count, ∀ kind, kinds[k]? = some kind → kind.isSeparator = true)
    (hclose : ∀ kind, kinds[count]? = some kind → kind = .closer .square) :
    ofContent limit kinds = block ∨ ofContent limit kinds = ambiguous := by
  induction kinds generalizing limit count with
  | nil =>
    rw [ofContent]
    exact Or.inl rfl
  | cons first rest ih =>
    cases limit with
    | zero => exact Or.inl rfl
    | succ limit =>
      rw [ofContent]
      cases count with
      | zero =>
        obtain rfl := hclose first rfl
        exact Or.inr rfl
      | succ count =>
        rw [if_pos (hskipped 0 (Nat.succ_pos _) first rfl)]
        exact ih count (fun k hk kind hkind => hskipped (k + 1) (Nat.succ_lt_succ hk) kind hkind) hclose

theorem atIndex_of_skipped (count : Nat) {form : BracketForm}
    (h : atIndex tokens (index : Int) = .ok form)
    (hskipped : ∀ k < count, ∀ token, tokens[index + 1 + k]? = some token →
      token.kind.isSeparator = true)
    (hclose : ∀ token, tokens[index + 1 + count]? = some token → token.kind = .closer .square) :
    form ≠ lambda ∧ form ≠ handler := by
  obtain ⟨opener, hopener, hkind⟩ := exists_opener_of_atIndex h
  have hkinds : ∀ {k kind}, (contentAfter tokens (index : Int))[k]? = some kind →
      ∃ token, tokens[index + 1 + k]? = some token ∧ token.kind = kind := by
    intro k kind hk
    rw [contentAfter_eq, List.getElem?_take] at hk
    split at hk
    · rw [List.getElem?_map, List.getElem?_drop, Array.getElem?_toList] at hk
      exact Option.map_eq_some_iff.1 hk
    · cases hk
  have hcontent : ofContent window (contentAfter tokens (index : Int)) = block ∨
      ofContent window (contentAfter tokens (index : Int)) = ambiguous := by
    refine ofContent_of_skipped count (fun k hk kind hkind => ?_) fun kind hkind => ?_
    · obtain ⟨token, htoken, rfl⟩ := hkinds hkind
      exact hskipped k hk token htoken
    · obtain ⟨token, htoken, rfl⟩ := hkinds hkind
      exact hclose token htoken
  rw [atIndex_natCast hopener hkind] at h
  obtain rfl := Except.ok.inj h
  cases hneighbour : ofNeighbour? (if 0 < index then tokens[index - 1]? else none) opener with
  | some form => rcases ofNeighbour?_eq_some hneighbour with rfl | rfl <;> exact ⟨nofun, nofun⟩
  | none => rcases hcontent with heq | heq <;> rw [Option.getD_none, heq] <;> exact ⟨nofun, nofun⟩

/-- At its own depth, a sign tells one of three forms. -/
theorem settle_cases (depth : Nat) (kinds : List TokenKind) :
    settle depth kinds = block ∨ settle depth kinds = lambda ∨ settle depth kinds = handler := by
  induction kinds generalizing depth with
  | nil => exact Or.inl rfl
  | cons kind rest ih =>
    unfold settle
    split
    · exact ih _
    · split
      · exact Or.inl rfl
      · exact ih _
    · exact Or.inl rfl
    · split
      · next form hform => cases kind <;> cases hform <;> simp
      · exact ih _

theorem settle_ne_leftSection (depth : Nat) (kinds : List TokenKind) :
    settle depth kinds ≠ leftSection := by
  rcases settle_cases depth kinds with h | h | h <;> rw [h] <;> exact nofun

/-- Nothing that is inside of square brackets makes them an update. -/
theorem ofContent_ne_recordUpdate (limit : Nat) (kinds : List TokenKind) :
    ofContent limit kinds ≠ recordUpdate := by
  fun_induction ofContent limit kinds with
  | case3 _ _ _ _ ih => exact ih
  | case9 first rest more =>
    rcases settle_cases 0 ((first :: rest).take (more + 1)) with h | h | h <;> rw [h] <;> exact nofun
  | _ => exact nofun

/-! ### In a stream -/

section

variable {stream : TokenStream} {position : Nat}

theorem getElem?_of_kind {kind : TokenKind} (hkind : stream.kind position = kind)
    (hend : kind ≠ .endOfFile) : stream.tokens[position]? = some (stream.token position) := by
  unfold TokenStream.kind at hkind
  unfold TokenStream.token at hkind ⊢
  cases htoken : stream.tokens[position]? with
  | some token => rfl
  | none =>
    rw [htoken] at hkind
    exact absurd (hkind.symm.trans stream.last_kind) hend

/-- Only a square bracket has a form in a stream. -/
theorem kind_of_atIndex {form : BracketForm}
    (h : atIndex stream.tokens (position : Int) = .ok form) :
    position < stream.size ∧ stream.kind position = .opener .square := by
  obtain ⟨opener, hopener, hkind⟩ := exists_opener_of_atIndex h
  obtain ⟨hlt, -⟩ := Array.getElem?_eq_some_iff.1 hopener
  refine ⟨hlt, ?_⟩
  rw [TokenStream.kind, TokenStream.token, hopener, Option.getD_some, hkind]

/-- The form of a square bracket in a stream with a token before it. -/
theorem atIndex_succ (hbefore : stream.kind position ≠ .endOfFile)
    (hopener : stream.kind (position + 1) = .opener .square) :
    atIndex stream.tokens ((position + 1 : Nat) : Int) =
      .ok ((ofNeighbour? (some (stream.token position)) (stream.token (position + 1))).getD
        (ofContent window (contentAfter stream.tokens (position + 1 : Nat)))) := by
  rw [atIndex_natCast (getElem?_of_kind hopener TokenKind.noConfusion) hopener,
    if_pos (Nat.succ_pos position), Nat.add_sub_cancel, getElem?_of_kind rfl hbefore]

/-- A constructor that touches square brackets makes them a record. -/
theorem atIndex_record (hkind : stream.kind position = .typeIdentifier)
    (hopener : stream.kind (position + 1) = .opener .square)
    (htouches : (stream.token position).touches (stream.token (position + 1)) = true) :
    atIndex stream.tokens ((position + 1 : Nat) : Int) = .ok record := by
  have hkind' : (stream.token position).kind = .typeIdentifier := hkind
  rw [atIndex_succ (by rw [hkind]; exact TokenKind.noConfusion) hopener, ofNeighbour?]
  simp only [htouches, hkind', if_true, Option.getD_some]

/-- A point makes square brackets an update just if it touches them. -/
theorem exists_atIndex_dot (hkind : stream.kind position = .dot)
    (hopener : stream.kind (position + 1) = .opener .square) :
    ∃ form, atIndex stream.tokens ((position + 1 : Nat) : Int) = .ok form ∧
      (form = recordUpdate ↔
        (stream.token position).touches (stream.token (position + 1)) = true) := by
  have hkind' : (stream.token position).kind = .dot := hkind
  rw [atIndex_succ (by rw [hkind]; exact TokenKind.noConfusion) hopener, ofNeighbour?]
  cases htouches : (stream.token position).touches (stream.token (position + 1)) with
  | true => simp [hkind']
  | false => simp [ofContent_ne_recordUpdate]

end

/-! ### The window -/

variable {limit : Nat} {kinds kinds' : List TokenKind}

/-- No more than three kinds tell a left section. -/
theorem startsLeftSection_congr (first second third : TokenKind) (rest rest' : List TokenKind) :
    startsLeftSection (first :: second :: third :: rest) =
      startsLeftSection (first :: second :: third :: rest') := by
  cases second <;> try rfl
  cases third <;> try rfl
  rename_i bracket
  cases bracket <;> rfl

theorem startsLeftSection_take {more : Nat} {first : TokenKind} {rest rest' : List TokenKind}
    (hmore : 2 ≤ more) (htake : rest.take more = rest'.take more) :
    startsLeftSection (first :: rest) = startsLeftSection (first :: rest') := by
  obtain ⟨more, rfl⟩ := Nat.exists_eq_add_of_le' hmore
  rcases rest with _ | ⟨second, _ | ⟨third, rest⟩⟩ <;>
    rcases rest' with _ | ⟨second', _ | ⟨third', rest'⟩⟩ <;>
    simp only [List.take_nil, List.take_succ_cons, List.cons.injEq, reduceCtorEq, and_false] at htake
  · rfl
  · rw [htake.1]
  · obtain ⟨rfl, rfl, -⟩ := htake
    exact startsLeftSection_congr ..

/-- Whether a left section shows behind which the kinds that may be looked at have come to an
end: all of them but the last two are separators. -/
def RunsOut (limit : Nat) (kinds : List TokenKind) : Prop :=
  ofContent limit kinds = leftSection ∧
    limit ≤ ((kinds.take limit).takeWhile TokenKind.isSeparator).length + 2

theorem runsOut_cons_separator {first : TokenKind} (hfirst : first.isSeparator = true)
    (rest : List TokenKind) : RunsOut (limit + 1) (first :: rest) ↔ RunsOut limit rest := by
  rw [RunsOut, RunsOut, ofContent, if_pos hfirst, List.take_succ_cons,
    List.takeWhile_cons_of_pos hfirst, List.length_cons]
  exact and_congr_right fun _ => by omega

/-- The kinds that may be looked at settle the form, but for a left section that runs out of
them. -/
theorem ofContent_congr (htake : kinds.take limit = kinds'.take limit)
    (hruns : RunsOut limit kinds ↔ RunsOut limit kinds') :
    ofContent limit kinds = ofContent limit kinds' := by
  induction limit generalizing kinds kinds' with
  | zero => cases kinds <;> cases kinds' <;> rfl
  | succ more ih =>
    cases kinds with
    | nil =>
      cases kinds' with
      | nil => rfl
      | cons => cases htake
    | cons first rest =>
      cases kinds' with
      | nil => cases htake
      | cons first' rest' =>
        obtain ⟨rfl, hrest⟩ := List.cons.inj htake
        by_cases hseparator : first.isSeparator = true
        · rw [ofContent, ofContent, if_pos hseparator, if_pos hseparator]
          exact ih hrest (by
            rwa [runsOut_cons_separator hseparator, runsOut_cons_separator hseparator] at hruns)
        · have hsettle : settle 0 ((first :: rest).take (more + 1)) =
              settle 0 ((first :: rest').take (more + 1)) := by rw [htake]
          have hleft : ∀ kinds, ((first :: kinds).take (more + 1)).takeWhile
              TokenKind.isSeparator = [] := fun kinds => by
            rw [List.take_succ_cons, List.takeWhile_cons_of_neg hseparator]
          have hne := settle_ne_leftSection 0 ((first :: rest').take (more + 1))
          rw [RunsOut, RunsOut, hleft, hleft] at hruns
          simp only [ofContent, if_neg hseparator, hsettle] at hruns ⊢
          rcases Nat.lt_or_ge more 2 with hfew | hmany
          · have hroom : more + 1 ≤ ([] : List TokenKind).length + 2 := hfew
            simp only [hroom, and_true] at hruns
            grind
          · rw [startsLeftSection_take hmany hrest]

/-! ### Two lists that agree in the window -/

/-- Whether the brackets at an index are a left section of which the end stands behind the window:
all of the window but its last two tokens are separators. -/
def Overhangs (tokens : Array Token) (index : Nat) : Prop :=
  atIndex tokens (index : Int) = .ok leftSection ∧
    window ≤ (((contentAfter tokens (index : Int)).take window).takeWhile
      TokenKind.isSeparator).length + 2

/-- What stands in front of the brackets does not make them a left section. -/
theorem ofNeighbour?_ne_leftSection (before : Option Token) (opener : Token) :
    ofNeighbour? before opener ≠ some leftSection := fun h => by
  rcases ofNeighbour?_eq_some h with h | h <;> cases h

/-- The form of the square brackets at one index of two lists, which agree on the bracket, the token
in front of it and those of the window behind it. -/
theorem eq_iff_overhangs_iff
    (hopener : tokens[index]?.map Token.kind = some (.opener .square))
    (hbefore : tokens[index - 1]? = tokens'[index - 1]?)
    (hagree : ∀ ahead ≤ window, tokens[index + ahead]? = tokens'[index + ahead]?) :
    ∃ form form', atIndex tokens (index : Int) = .ok form ∧
      atIndex tokens' (index : Int) = .ok form' ∧
      (form = form' ↔ (Overhangs tokens index ↔ Overhangs tokens' index)) := by
  obtain ⟨opener, htoken, hkind⟩ := Option.map_eq_some_iff.1 hopener
  have htoken' : tokens'[index]? = some opener := (hagree 0 (Nat.zero_le _)).symm.trans htoken
  have hwindow : (contentAfter tokens (index : Int)).take window =
      (contentAfter tokens' (index : Int)).take window := by
    rw [contentAfter_eq, contentAfter_eq, List.take_take, List.take_take,
      Nat.min_eq_left (Nat.le_add_right ..)]
    refine List.ext_getElem? fun place => ?_
    rw [List.getElem?_take, List.getElem?_take]
    split
    · next hlt =>
      rw [List.getElem?_map, List.getElem?_map, List.getElem?_drop, List.getElem?_drop,
        Array.getElem?_toList, Array.getElem?_toList, Nat.add_assoc, Nat.add_comm 1 place,
        hagree (place + 1) hlt]
    · rfl
  refine ⟨_, _, atIndex_natCast htoken hkind, atIndex_natCast htoken' hkind, ?_⟩
  rw [Overhangs, Overhangs, atIndex_natCast htoken hkind, atIndex_natCast htoken' hkind, ← hbefore,
    ← hwindow]
  have hne := ofNeighbour?_ne_leftSection (if 0 < index then tokens[index - 1]? else none) opener
  generalize ofNeighbour? (if 0 < index then tokens[index - 1]? else none) opener = form? at hne ⊢
  cases form? with
  | some form => exact iff_of_true rfl Iff.rfl
  | none =>
    refine ⟨fun hform => by rw [hform], fun hruns => ofContent_congr hwindow ?_⟩
    rw [RunsOut, RunsOut, ← hwindow]
    simpa only [Except.ok.injEq, Option.getD_none] using hruns

/-- A left section that ends with the window, and with another token behind it. -/
theorem exists_eq_iff_overhangs_iff :
    ∃ tokens ∈ (Token.ofText ("[" ++ String.ofList (List.replicate 61 ';') ++ "x+]") "f").toOption,
    ∃ tokens' ∈ (Token.ofText ("[" ++ String.ofList (List.replicate 61 ';') ++ "x+]y") "f").toOption,
      tokens[0]?.map Token.kind = some (.opener .square) ∧ tokens[0]? = tokens'[0]? ∧
      (∀ ahead ≤ window, tokens[0 + ahead]? = tokens'[0 + ahead]?) ∧
      ∃ form form', atIndex tokens 0 = .ok form ∧ atIndex tokens' 0 = .ok form' ∧
        (form = form' ↔ (Overhangs tokens 0 ↔ Overhangs tokens' 0)) := by
  obtain ⟨tokens, htokens, tokens', htokens', hopener, hbefore, hagree⟩ :
      ∃ tokens ∈ (Token.ofText ("[" ++ String.ofList (List.replicate 61 ';') ++ "x+]") "f").toOption,
      ∃ tokens' ∈
        (Token.ofText ("[" ++ String.ofList (List.replicate 61 ';') ++ "x+]y") "f").toOption,
        tokens[0]?.map Token.kind = some (.opener .square) ∧ tokens[0]? = tokens'[0]? ∧
        ∀ ahead ≤ window, tokens[0 + ahead]? = tokens'[0 + ahead]? := by decide +kernel
  exact ⟨tokens, htokens, tokens', htokens', hopener, hbefore, hagree,
    eq_iff_overhangs_iff hopener hbefore hagree⟩

/-- Behind as many separators as leave room for its operand only, a left section is told by tokens
outside of the window. -/
theorem exists_ne_of_agree :
    ∃ tokens ∈ (Token.ofText ("[" ++ String.ofList (List.replicate 63 ';') ++ "x+]") "f").toOption,
    ∃ tokens' ∈ (Token.ofText ("[" ++ String.ofList (List.replicate 63 ';') ++ "x+y]") "f").toOption,
      tokens[0]?.map Token.kind = some (.opener .square) ∧
      (∀ ahead ≤ window, tokens[0 + ahead]? = tokens'[0 + ahead]?) ∧
      (atIndex tokens 0).toOption = some leftSection ∧ (atIndex tokens' 0).toOption = some block := by
  decide +kernel

end SableFrontend.BracketForm
