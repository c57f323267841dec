import SableFrontend.Proofs.Grammar.Entry
import SableFrontend.Proofs.Parallel.Suffix
import SableFrontend.Proofs.Token.Respacing
import SableFrontend.Proofs.Tree.Structure

/-!
What stands between the tokens of a source does not matter, apart from whether anything does. A
source with other gaps has the same tokens at other places, of which the same neighbours touch
(`Token.Paired`), and that is all that a parser sees of a token list: the whole of one stream is
the end of the other (`Setting.endsLike_of_paired`).
-/

namespace SableFrontend

open TokenStream Parser Setting

variable {file : String}

/-- A stream of the same tokens at other places. -/
theorem Setting.endsLike_of_paired {set : Setting} {other : TokenStream} {r : Relocation}
    (balanced : other.Balanced)
    (hmoved : other.tokens.toList = set.stream.tokens.toList.map (Token.relocate r))
    (htouches : List.zipWith Token.touches other.tokens.toList other.tokens.toList.tail =
      List.zipWith Token.touches set.stream.tokens.toList set.stream.tokens.toList.tail) :
    set.EndsLike other r 0 0 := by
  have hsize : other.size = set.stream.size := by
    rw [TokenStream.size, TokenStream.size, ← Array.length_toList, hmoved, List.length_map,
      Array.length_toList]
  have hget : ∀ {stream : TokenStream} {position : Nat}, position < stream.size →
      stream.tokens.toList[position]? = some (stream.token position) := fun hlt => by
    rw [Array.getElem?_toList, getElem?_tokens hlt]
  have htoken : ∀ position < set.stream.size,
      other.token position = (set.stream.token position).relocate r := by
    intro position hlt
    have hmap := hget (hsize ▸ hlt : position < other.size)
    rw [hmoved, List.getElem?_map, hget hlt] at hmap
    exact (Option.some.inj hmap).symm
  have hneighbours : ∀ {stream : TokenStream} {position : Nat}, position + 1 < stream.size →
      (List.zipWith Token.touches stream.tokens.toList stream.tokens.toList.tail)[position]? =
        some ((stream.token position).touches (stream.token (position + 1))) := fun hlt => by
    rw [List.getElem?_zipWith, List.getElem?_tail, hget hlt, hget (Nat.lt_of_succ_lt hlt)]
  refine ⟨set.stream.size_pos, by omega, fun offset hlt => ?_, fun offset hlt => ?_,
    fun offset hlt => ?_, set.stream.opened_zero, fun _ => rfl⟩
  · rw [Nat.zero_add] at hlt ⊢
    exact htoken offset hlt
  · rw [Nat.zero_add] at hlt
    rw [Nat.zero_add, Nat.zero_add]
    refine Option.some.inj ?_
    rw [← hneighbours hlt, ← hneighbours (hsize ▸ hlt), htouches]
  · rw [Nat.zero_add] at hlt ⊢
    have hkinds : (List.map (Token.relocate r) (set.stream.tokens.toList.take offset)).map
        Token.kind = (set.stream.tokens.toList.take offset).map Token.kind := by
      rw [List.map_map]
      rfl
    rw [balanced.depth_eq (hsize ▸ hlt), set.balanced.depth_eq hlt, opened, opened, hmoved,
      ← List.map_take, openBrackets, openBrackets, hkinds]

/-- Reading a module from the same tokens at other places gives the same, at those places. -/
theorem Setting.moduleSource_of_paired {set : Setting} (hwarns : set.Warns)
    (hdeep : set.allows .tooDeep) {other : TokenStream} {r : Relocation}
    (hends : set.EndsLike other r 0 0)
    (hlt : (moduleSource set.stream .initial).2.position < set.stream.size) :
    (moduleSource other .initial).1 = (moduleSource set.stream .initial).1.map r.move ∧
      (moduleSource other .initial).2.log.diagnostics.toList =
        r.move (moduleSource set.stream .initial).2.log.diagnostics.toList := by
  have hbegin : set.EndsLike other r ParserState.initial.position ParserState.initial.position :=
    hends
  obtain ⟨final, reports, heq, hreports, hreports', -⟩ := hbegin.mirrored rfl
    (fun P hmove hbase hfinal hlift _ => P.agrees_moduleSource hwarns hdeep hbase hlift hfinal) hlt
  rw [heq, hreports]
  exact ⟨rfl, hreports'⟩

/-- What parsing two sources gives is the same, but for the places: modules of the same structure and
the same diagnostics, or the same number with too many digits. -/
def ParseResult.SameButPlaces :
    Except OverlongInteger ParseResult → Except OverlongInteger ParseResult → Prop
  | .ok result, .ok result' =>
    (∃ source source', result.module? = some source ∧ result'.module? = some source' ∧
      source.sameStructure source' = true) ∧
    result'.diagnostics.map (Diagnostic.relocate .forget) =
      result.diagnostics.map (Diagnostic.relocate .forget)
  | .error literal, .error literal' => literal' = literal
  | _, _ => False

/-- What parsing a source gives is what parsing another one gives, at other places. -/
def ParseResult.Moved (r : Relocation) :
    Except OverlongInteger ParseResult → Except OverlongInteger ParseResult → Prop
  | .ok result, .ok result' =>
    (∃ source, result.module? = some source ∧ result'.module? = some (r.move source)) ∧
    result'.diagnostics = r.move result.diagnostics
  | .error literal, .error literal' => literal' = literal
  | _, _ => False

theorem ParseResult.Moved.sameButPlaces {r : Relocation}
    {result result' : Except OverlongInteger ParseResult} (h : ParseResult.Moved r result result') :
    ParseResult.SameButPlaces result result' := by
  cases result <;> cases result'
  · exact h
  · exact h
  · exact h
  next result result' =>
  obtain ⟨⟨source, hsource, hsource'⟩, hreports⟩ := h
  refine ⟨⟨source, r.move source, hsource, hsource', ?_⟩, ?_⟩
  · have hmove : Relocation.forget.move (r.move source) = Relocation.forget.move source :=
      Relocation.move_move ..
    exact Module.sameStructure_of_relocate_eq hmove.symm
  · have hmove : Relocation.forget.move (r.move result.diagnostics) =
        Relocation.forget.move result.diagnostics := Relocation.move_move ..
    rw [← hreports] at hmove
    exact hmove

/-- The same tokens at other places, of which the same neighbours touch, are parsed to the same at
those places. -/
theorem parseSource_of_relocated {source other name : String} {tokens tokens' : Array Token}
    {r : Relocation} (h : Token.ofText source file = .ok tokens)
    (h' : Token.ofText other name = .ok tokens')
    (hmoved : tokens'.toList = tokens.toList.map (Token.relocate r))
    (htouches : List.zipWith Token.touches tokens'.toList tokens'.toList.tail =
      List.zipWith Token.touches tokens.toList tokens.toList.tail) :
    ParseResult.Moved r (parseSource source file) (parseSource other name) := by
  obtain ⟨stream, hstream, htokens, balanced⟩ := TokenStream.exists_of_ofText h
  obtain ⟨stream', hstream', htokens', balanced'⟩ := TokenStream.exists_of_ofText h'
  rw [← htokens, ← htokens'] at hmoved htouches
  have hends : (Entry.module.setting balanced).EndsLike stream' r 0 0 :=
    endsLike_of_paired balanced' hmoved htouches
  have hwarns : (Entry.module.setting balanced).Warns := Or.inr
  have hdeep : (Entry.module.setting balanced).allows .tooDeep := Abort.Arises.tooDeep
  have hlt := moduleSource_position_lt hwarns hdeep
  have hsame := moduleSource_of_paired hwarns hdeep hends hlt
  have hran : Entry.module.Ran balanced (moduleSource stream .initial).1
    (moduleSource stream .initial).2 := Entry.module.ran balanced
  have hfailed : (moduleSource stream .initial).1 ≠ .error .failed :=
    Entry.module_ne_failed balanced
  replace hsame : (moduleSource stream' .initial).1 = (moduleSource stream .initial).1.map r.move ∧
    (moduleSource stream' .initial).2.log.diagnostics.toList =
      r.move (moduleSource stream .initial).2.log.diagnostics.toList := hsame
  unfold parseSource
  rw [h, h']
  dsimp only [runParser]
  rw [hstream, hstream']
  dsimp only
  generalize moduleSource stream .initial = run at hsame hran hfailed
  generalize moduleSource stream' .initial = run' at hsame
  obtain ⟨answer, final⟩ := run
  obtain ⟨answer', final'⟩ := run'
  obtain ⟨hanswer, hreports⟩ := hsame
  dsimp only at hanswer hreports hran hfailed
  subst hanswer
  cases answer with
  | ok source => exact ⟨⟨source, rfl, rfl⟩, hreports⟩
  | error abort =>
    obtain ⟨harises, htooDeep⟩ := hran.arises abort rfl
    cases harises with
    | failed => exact absurd rfl hfailed
    | tooDeep => exact absurd rfl htooDeep
    | overlong => exact rfl

theorem parseSource_of_paired {source other : String} {tokens tokens' : Array Token}
    (h : Token.ofText source file = .ok tokens) (h' : Token.ofText other file = .ok tokens')
    (hpaired : Token.Paired file .origin tokens.toList .origin tokens'.toList) :
    ParseResult.SameButPlaces (parseSource source file) (parseSource other file) := by
  obtain ⟨r, hmoved⟩ := hpaired.exists_relocation
  exact (parseSource_of_relocated h h' hmoved hpaired.zipWith_touches_eq).sameButPlaces

/-- Parsing a source with other gaps between its tokens gives the same tokens, a module of the same
structure, and the same diagnostics, at other places. -/
theorem parseSource_respaced {source other : String} {tokens : Array Token}
    (h : Token.ofText source file = .ok tokens)
    (hother : Respaced source.toList 0 tokens.toList other.toList) :
    (∃ tokens', Token.ofText other file = .ok tokens' ∧
      tokens'.toList.map (fun token => (token.kind, token.value)) =
        tokens.toList.map (fun token => (token.kind, token.value))) ∧
    ParseResult.SameButPlaces (parseSource source file) (parseSource other file) := by
  obtain ⟨tokens', h', hpaired⟩ := Token.ofText_respaced h hother
  exact ⟨⟨tokens', h', hpaired.map_eq⟩, parseSource_of_paired h h' hpaired⟩

/-- A comment, and the blank in front of it, as two blanks. -/
theorem exists_parseSource_respaced :
    ∃ tokens, Token.ofText "x = 1 #c\n" "f" = .ok tokens ∧
      Respaced "x = 1 #c\n".toList 0 tokens.toList "x =\t1  \n".toList ∧
      ∃ tokens', Token.ofText "x =\t1  \n" "f" = .ok tokens' ∧
        tokens'.toList.map (fun token => (token.kind, token.value)) =
          tokens.toList.map (fun token => (token.kind, token.value)) := by
  let gaps := [[], [' '], ['\t'], [' ', ' '], []]
  have hlexes : (Token.ofText "x = 1 #c\n" "f").toOption.any (fun tokens =>
      Token.takeGaps 0 tokens.toList gaps &&
        Token.respace "x = 1 #c\n".toList tokens.toList gaps == "x =\t1  \n".toList) = true := by
    decide +kernel
  cases h : Token.ofText "x = 1 #c\n" "f" with
  | error error =>
    rw [h] at hlexes
    cases hlexes
  | ok tokens =>
    rw [h] at hlexes
    obtain ⟨htake, hrespace⟩ := Bool.and_eq_true_iff.1
      (show (Token.takeGaps 0 tokens.toList gaps && _) = true from hlexes)
    have hother : Respaced "x = 1 #c\n".toList 0 tokens.toList "x =\t1  \n".toList := by
      rw [← beq_iff_eq.1 hrespace]
      exact respaced_respace htake
    exact ⟨tokens, rfl, hother, (parseSource_respaced h hother).1⟩

end SableFrontend
