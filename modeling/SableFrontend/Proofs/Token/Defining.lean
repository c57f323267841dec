import SableFrontend.Proofs.Sentences.Words
import SableFrontend.Proofs.Token.Respacing

/-!
The text of a value and the text of its definition. Reading takes the same turns on a text wherever it
starts with as much open (`Turns.again`), and blanks in front of it only make its first gap longer. So
behind `x = ` stand the tokens of the value (`Token.Defines`), and one of the two texts can be read if the
other can.
-/

namespace SableFrontend

open Lexeme

namespace LexState

variable {file : String} {state last next : LexState} {first : Char} {rest text left : List Char}

/-- Behind its first turn reading goes on. -/
theorem Turns.tail {count extra : Nat} (h : Turns file count state (first :: rest) last [])
    (hstep : state.step file first rest = .ok (next, extra)) :
    ∃ count', Turns file count' next (rest.drop extra) last [] := by
  cases h with
  | more hstep' hmore =>
    obtain ⟨rfl, rfl⟩ := Prod.mk.inj (Except.ok.inj (hstep.symm.trans hstep'))
    exact ⟨_, hmore⟩

/-- Behind some of its turns reading goes on. -/
theorem Turns.drop {count count' : Nat} (h : Turns file count state text next left)
    (h' : Turns file count' state text last []) : ∃ count, Turns file count next left last [] := by
  induction h generalizing count' with
  | none => exact ⟨count', h'⟩
  | more hstep _ ih =>
    obtain ⟨_, hrest⟩ := h'.tail hstep
    exact ih hrest

/-- What is read of a text is read of it wherever as much is open, and the tokens are the same. -/
theorem Turns.again {count : Nat} (h : Turns file count state text last left) (hleft : left = [])
    {added : List Token} (hadded : last.tokens.toList = state.tokens.toList ++ added)
    {place place' : Position} {passed passed' : List Char} (hplace : state.position = place.after passed)
    (hgap : passed = [] ↔ passed' = []) {state' : LexState} (hbrackets : state'.brackets = state.brackets)
    (hplace' : state'.position = place'.after passed') :
    ∃ last' added', Turns file count state' text last' [] ∧
      last'.tokens.toList = state'.tokens.toList ++ added' ∧ last'.brackets = last.brackets ∧
      Token.Paired file place (added ++ [.endAt file last.position]) place'
        (added' ++ [.endAt file last'.position]) := by
  -- the gap grows with what is passed over, and ends with every token
  induction h generalizing added place place' passed passed' state' with
  | none state text =>
    subst hleft
    obtain rfl : added = [] := List.self_eq_append_right.1 hadded
    refine ⟨state', [], .none state' [], (List.append_nil _).symm, hbrackets, ?_⟩
    rw [hplace, hplace']
    exact .last hgap
  | @more count extra state mid last first rest left hstep hmore ih =>
    obtain ⟨lexeme, added?, hscan, hposition, hadds, -, -, halike⟩ := step_alike hstep
    obtain ⟨mid', hstep', hbrackets', hposition', hadds'⟩ := halike hbrackets hscan rfl
    cases hadds with
    | nothing hsame _ =>
      cases hadds' with
      | nothing hsame' _ =>
        obtain ⟨last', added', hturns, hadded', hlast, hpaired⟩ := @ih hleft added (hsame ▸ hadded)
          place place' (passed ++ first :: rest.take extra) (passed' ++ first :: rest.take extra)
          (by rw [hposition, hplace, Position.after_append]) (by simp) mid' hbrackets'
          (by rw [hposition', hplace', Position.after_append])
        exact ⟨last', added', .more hstep' hturns, hsame' ▸ hadded', hlast, hpaired⟩
    | token kind value hsame =>
      cases hadds' with
      | token _ _ hsame' =>
        obtain ⟨more, hmoreAdded, -⟩ := hmore.exists_added
        obtain ⟨last', added', hturns, hadded', hlast, hpaired⟩ := @ih hleft more hmoreAdded
          mid.position mid'.position [] [] (Position.after_nil _).symm Iff.rfl mid' hbrackets'
          (Position.after_nil _).symm
        rw [hsame, Array.toList_push, List.append_assoc] at hmoreAdded
        obtain rfl : added = _ := List.append_cancel_left (hadded.symm.trans hmoreAdded)
        rw [hsame', Array.toList_push, List.append_assoc] at hadded'
        refine ⟨last', _, .more hstep' hturns, hadded', hlast, ?_⟩
        rw [hposition, hposition'] at hpaired
        exact .cons hgap hplace hplace' (scan_shows hscan) nofun hpaired

end LexState

/-- A text and the blanks that it begins with. -/
theorem exists_blanks (text : List Char) : ∃ gap more : List Char, text = gap ++ more ∧
    gap.all isBlank = true ∧ more.head?.any isBlank = false := by
  refine ⟨text.takeWhile isBlank, text.dropWhile isBlank, List.takeWhile_append_dropWhile.symm,
    List.all_takeWhile, ?_⟩
  have hstops := List.head?_dropWhile_not isBlank text
  cases hhead : (text.dropWhile isBlank).head? with
  | none => rfl
  | some c =>
    rw [hhead] at hstops
    exact hstops

namespace LexState

variable {file : String} {state state' last : LexState} {text : List Char} {count : Nat}

/-- Reading a text behind one blank more gives the same tokens. -/
theorem Turns.behind_blank (h : Turns file count state text last []) {added : List Token}
    (hadded : last.tokens.toList = state.tokens.toList ++ added)
    (hbrackets : state'.brackets = state.brackets) :
    ∃ count' last' added', Turns file count' state' (' ' :: text) last' [] ∧
      last'.tokens.toList = state'.tokens.toList ++ added' ∧ last'.brackets = last.brackets ∧
      Token.Paired file state.position (added ++ [.endAt file last.position])
        (state'.position.after [' ']) (added' ++ [.endAt file last'.position]) := by
  obtain ⟨gap, more, rfl, hgap, hmore⟩ := exists_blanks text
  obtain ⟨_, mid, hturns, htokens, hsame, hplace⟩ := @exists_gapTurns file state gap hgap more hmore
  obtain ⟨_, mid', hturns', htokens', hsame', hplace'⟩ :=
    @exists_gapTurns file state' (' ' :: gap) hgap more hmore
  obtain ⟨_, hrest⟩ := hturns.drop h
  obtain ⟨last', added', hagain, hadded', hlast, hpaired⟩ := hrest.again rfl (htokens ▸ hadded) hplace
    (Iff.refl (gap = [])) (hsame'.trans (hbrackets.trans hsame.symm))
    (hplace'.trans (Position.after_append state'.position [' '] gap))
  obtain ⟨_, hall⟩ := hturns'.trans hagain
  exact ⟨_, last', added', hall, htokens' ▸ hadded', hlast, hpaired⟩

/-- A text that can be read behind one blank more can be read. -/
theorem Turns.without_blank (h : Turns file count state' (' ' :: text) last [])
    (hbrackets : state'.brackets = state.brackets) :
    ∃ count last', Turns file count state text last' [] ∧ last'.brackets = last.brackets := by
  obtain ⟨gap, more, rfl, hgap, hmore⟩ := exists_blanks text
  obtain ⟨_, mid, hturns, -, hsame, hplace⟩ := @exists_gapTurns file state gap hgap more hmore
  obtain ⟨_, mid', hturns', -, hsame', hplace'⟩ :=
    @exists_gapTurns file state' (' ' :: gap) hgap more hmore
  obtain ⟨_, hrest⟩ := hturns'.drop h
  obtain ⟨added, hadded, -⟩ := hrest.exists_added
  obtain ⟨last', _, hagain, -, hlast, -⟩ := hrest.again rfl hadded
    (hplace'.trans (Position.after_append state'.position [' '] gap)) (Iff.refl (gap = []))
    (hsame.trans (hbrackets.symm.trans hsame'.symm)) hplace
  obtain ⟨_, hall⟩ := hturns.trans hagain
  exact ⟨_, last', hall, hlast⟩

/-- The turns on what a definition of `x` begins with. -/
theorem exists_turns_define (file : String) (text : List Char) :
    ∃ count state, Turns file count .initial ("x =".toList ++ ' ' :: text) state (' ' :: text) ∧
      state.brackets = [] ∧
      state.tokens.toList.map Token.word = [{ kind := .identifier, value := "x" }, .sign "="] := by
  obtain ⟨lexeme, first, rest, hread, hvalue, -, hscan⟩ :=
    @Word.legible_of_isName { kind := .identifier, value := "x" } (by decide)
  obtain ⟨rfl, rfl⟩ := List.cons.inj (show ['x'] = first :: rest from hvalue)
  obtain ⟨lexeme', first, rest, hread', hvalue', -, hscan'⟩ :=
    @Word.legible_sign "=" '=' [] rfl (by decide)
  obtain ⟨rfl, rfl⟩ := List.cons.inj (show ['='] = first :: rest from hvalue')
  have hstops : Word.goesOn { kind := .identifier, value := "x" } ' ' = false := by decide
  have hstops' : (Word.sign "=").goesOn ' ' = false := by decide
  obtain ⟨named, hnamed, hbrackets, htokens⟩ := @step_word file .initial _ _ _ _ _ hread
    (hscan (' ' :: '=' :: ' ' :: text) hstops) nofun
  obtain ⟨count, spaced, hspaced, hsame, hbrackets', -⟩ := @exists_gapTurns file named
    [' '] rfl ('=' :: ' ' :: text) rfl
  obtain ⟨signed, hsigned, hbrackets'', htokens'⟩ := @step_word file spaced _ _ _ _ _ hread'
    (hscan' (' ' :: text) hstops') nofun
  obtain ⟨total, hall⟩ := hspaced.trans (.more hsigned (.none signed _))
  refine ⟨total + 1, signed, .more hnamed hall, ?_, ?_⟩
  · rw [hbrackets'', hbrackets', hbrackets]
    rfl
  · rw [htokens', hsame, htokens]
    rfl

end LexState

namespace Token

variable {text file : String} {tokens defining : Array Token}

/-- The tokens of a text, and those of the definition of `x` by that text. -/
inductive Defines (file : String) (tokens defining : Array Token) : Prop
  | of {name sign : Token} {rest : List Token} {place : Position}
      (htokens : defining.toList = name :: sign :: rest)
      (hname : name.word = { kind := .identifier, value := "x" }) (hsign : sign.word = .sign "=")
      (hpaired : Paired file .origin tokens.toList place rest)

/-- What can be read can be read behind `x = `. -/
theorem exists_defining (h : Token.ofText text file = .ok tokens) :
    ∃ defining, Token.ofText ("x = " ++ text) file = .ok defining ∧ Defines file tokens defining := by
  obtain ⟨count, last, hturns, hopened, rfl⟩ := Token.ofText_eq_ok h
  obtain ⟨_, state, hbegin, hbrackets, hwords⟩ := LexState.exists_turns_define file text.toList
  obtain ⟨_, last', added, hbehind, hadded, hlast, hpaired⟩ :=
    @LexState.Turns.behind_blank _ _ state _ _ _ hturns _ (List.nil_append _).symm hbrackets
  obtain ⟨_, hall⟩ := hbegin.trans hbehind
  have hclosed : last'.opened = [] := by
    unfold LexState.brackets at hlast
    rw [hopened] at hlast
    exact List.map_eq_nil_iff.1 hlast
  refine ⟨last'.tokens.push (.endAt file last'.position), ?_, ?_⟩
  · rw [Token.ofText, LexRun.ofText, String.toList_append]
    show (LexState.run file .initial ("x =".toList ++ ' ' :: text.toList)).toExcept = _
    rw [LexState.run_of_turns hall hclosed]
    rfl
  · obtain ⟨name, rest, hlist, hname, hrest⟩ := List.map_eq_cons_iff.1 hwords
    obtain ⟨sign, rest, rfl, hsign, hnil⟩ := List.map_eq_cons_iff.1 hrest
    obtain rfl := List.map_eq_nil_iff.1 hnil
    refine @Defines.of _ _ _ _ _ (added ++ [.endAt file last'.position])
      (state.position.after [' ']) ?_ hname hsign ?_
    · rw [Array.toList_push, hadded, hlist]
      rfl
    · rw [Array.toList_push]
      exact hpaired

/-- What can be read behind `x = ` can be read. -/
theorem exists_defined (h : Token.ofText ("x = " ++ text) file = .ok defining) :
    ∃ tokens, Token.ofText text file = .ok tokens ∧ Defines file tokens defining := by
  obtain ⟨count, last, hturns, hopened, -⟩ := Token.ofText_eq_ok h
  obtain ⟨_, state, hbegin, hbrackets, -⟩ := LexState.exists_turns_define file text.toList
  rw [String.toList_append] at hturns
  obtain ⟨_, hbehind⟩ := hbegin.drop hturns
  obtain ⟨_, last', hall, hlast⟩ := @LexState.Turns.without_blank _ .initial _ _ _ _ hbehind hbrackets
  have hclosed : last'.opened = [] := by
    unfold LexState.brackets at hlast
    rw [hopened] at hlast
    exact List.map_eq_nil_iff.1 hlast
  have hlexes : Token.ofText text file = .ok (last'.tokens.push (.endAt file last'.position)) := by
    rw [Token.ofText, LexRun.ofText, LexState.run_of_turns hall hclosed]
    rfl
  obtain ⟨defining', hlexes', hdefines⟩ := exists_defining hlexes
  obtain rfl := Except.ok.inj (h.symm.trans hlexes')
  exact ⟨_, hlexes, hdefines⟩

end Token

end SableFrontend
