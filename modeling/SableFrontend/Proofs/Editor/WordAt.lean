import SableFrontend.Editor.Document
import SableFrontend.Proofs.Sentences.Words
import SableFrontend.Proofs.Source.SpanText
import SableFrontend.Proofs.Token.WordToken

/-!
The word at a place of a document. It is looked for on the line that an editor shows, backwards and
forwards from the place, while the tokens come from one reading forwards. On a text whose lines end in the
common ways both find the same words (`Editor.wordAt_token`).
-/

namespace SableFrontend

open Text

/-! ### Words of a line -/

namespace Editor

variable {lead word tail : List Char}

/-- From every place in a word, both its ends among these, the same word is found. -/
theorem wordAround_of_standsAlone (h : StandsAlone lead word tail) {count : Nat}
    (hle : count ≤ word.length) : wordAround (lead ++ (word ++ tail)) (lead.length + count) = word := by
  have hbefore : ((lead ++ word.take count).reverse.takeWhile isWordChar).reverse = word.take count := by
    have hall : (word.take count).reverse.all isWordChar = true := List.all_eq_true.2 fun c hmem =>
      h.all_isWordChar c (List.mem_of_mem_take (List.mem_reverse.1 hmem))
    have hstops : lead.reverse.head?.any isWordChar = false := by
      rw [List.head?_reverse]
      exact h.before_ends
    rw [List.reverse_append, Word.takeWhile_append_of_stops hall hstops, List.reverse_reverse]
  have hbehind : (word.drop count ++ tail).takeWhile isWordChar = word.drop count := by
    have hall : (word.drop count).all isWordChar = true := List.all_eq_true.2 fun c hmem =>
      h.all_isWordChar c (List.mem_of_mem_drop hmem)
    exact Word.takeWhile_append_of_stops hall h.behind_starts
  rw [wordAround, List.take_length_add_append, List.take_append_of_le_length hle, hbefore,
    ← List.drop_drop, List.drop_left, List.drop_append_of_le_length hle, hbehind,
    List.take_append_drop]

theorem wordInLine_of_standsAlone (h : StandsAlone lead word tail) {count : Nat}
    (hle : count ≤ word.length) :
    wordInLine (lead ++ (word ++ tail)) ((lead.length + count : Nat) : Int) = word := by
  have hlength : (lead ++ (word ++ tail)).length = lead.length + (word.length + tail.length) := by
    rw [List.length_append, List.length_append]
  have hpos := List.length_pos_iff.2 h.ne_nil
  rw [wordInLine]
  split
  · exact wordAround_of_standsAlone h hle
  · -- the word ends the line, and its last character counts
    next hend =>
    have hcount : count = word.length ∧ tail = [] := by
      rw [← List.length_eq_zero_iff]
      omega
    rw [if_pos (by omega), Int.toNat_natCast, hcount.1, Nat.add_sub_assoc hpos]
    exact wordAround_of_standsAlone h (Nat.sub_le _ _)

theorem wordInLine_nil (character : Int) : wordInLine [] character = [] := by
  rw [wordInLine, if_neg (by simp), if_neg (by simp; omega)]

theorem wordAt_eq (source : String) (line : Nat) (character : Int) :
    wordAt source ⟨line, character⟩ =
      String.ofList (wordInLine ((lines source.toList)[line]?.getD []) character) := by
  rw [wordAt, if_neg (by simp), Int.toNat_natCast]
  cases (lines source.toList)[line]? with
  | none => rw [Option.getD_none, wordInLine_nil]
  | some line => rfl

end Editor

/-! ### Words of a text -/

namespace Text

variable {front lead word behind tail : List Char}

theorem StandsAlone.not_mem {c : Char} (h : StandsAlone lead word behind) (hc : isWordChar c = false) :
    c ∉ word := fun hmem => by
  rw [h.all_isWordChar c hmem] at hc
  cases hc

/-- A word of a text stands alone on its line. -/
theorem StandsAlone.of_append (h : StandsAlone (front ++ lead) word behind) (htail : tail <+: behind) :
    StandsAlone lead word tail where
  ne_nil := h.ne_nil
  all_isWordChar := h.all_isWordChar
  before_ends := by
    cases hlast : lead.getLast? with
    | none => rfl
    | some c =>
      have hbefore := h.before_ends
      rwa [List.getLast?_append, hlast] at hbefore
  behind_starts := by
    obtain ⟨more, rfl⟩ := htail
    cases tail with
    | nil => rfl
    | cons c rest => exact h.behind_starts

/-- The line that a word is on goes on behind it up to the line end, without a carriage return there. -/
theorem StandsAlone.exists_line (h : StandsAlone lead word behind) (hlead : '\n' ∉ lead) :
    ∃ tail, tail <+: behind ∧
      withoutReturn ((lead ++ (word ++ behind)).takeWhile (· != '\n')) = lead ++ (word ++ tail) := by
  have hword : '\n' ∉ word := h.not_mem (by decide)
  rw [takeWhile_append_of_not_mem hlead, takeWhile_append_of_not_mem hword]
  have hprefix := List.takeWhile_prefix (· != '\n') (l := behind)
  generalize behind.takeWhile (· != '\n') = rest at hprefix
  rcases withoutReturn_append (lead ++ (word ++ rest)) with ⟨hsame, -⟩ | hreturn
  · exact ⟨rest, hprefix, hsame⟩
  · -- the carriage return is behind the word
    have hlast := congrArg List.getLast? hreturn
    rw [List.getLast?_concat, List.getLast?_append, List.getLast?_append] at hlast
    cases hrest : rest.getLast? with
    | none =>
      obtain ⟨c, hc⟩ := Option.isSome_iff_exists.1 (List.getLast?_isSome.2 h.ne_nil)
      rw [hrest, hc] at hlast
      obtain rfl : c = '\r' := Option.some.inj hlast
      exact absurd (List.mem_of_getLast? hc) (h.not_mem (by decide))
    | some c =>
      rw [hrest] at hlast
      obtain rfl : c = '\r' := Option.some.inj hlast
      obtain ⟨tail, rfl⟩ := List.getLast?_eq_some_iff.1 hrest
      refine ⟨tail, (List.prefix_append tail ['\r']).trans hprefix, ?_⟩
      rw [← List.append_assoc word, ← List.append_assoc lead, withoutReturn_concat]

end Text

namespace Editor

/-- From every place in a name or reserved word, both its ends among these, the word that is found is the
one that was read there, if no line ends but in the common ways. -/
theorem wordAt_token {source file : String} {tokens : Array Token} {token : Token} {character : Int}
    (hread : Token.ofText source file = .ok tokens) (hlines : EndsLinesPlainly source.toList)
    (hmem : token ∈ tokens) (hword : token.kind.isWord = true)
    (hfirst : token.span.startColumn - 1 ≤ character) (hlast : character ≤ token.span.endColumn - 1) :
    wordAt source ⟨token.span.startLine - 1, character⟩ = token.value := by
  obtain ⟨⟨before, behind, htext, hstart, hstop, halone⟩, -⟩ :=
    Token.isWordOf_of_ofText hread hmem hword
  have hstands : token.StandsIn source.toList := by
    obtain ⟨count, last, hturns, -, rfl⟩ := Token.ofText_eq_ok hread
    rcases Array.mem_push.1 hmem with hold | rfl
    · exact hturns.stands.tokens token hold
    · cases hword
  obtain ⟨front, lead, rfl, hfront, hlead⟩ := exists_last_line before
  generalize hvalue : token.value.toList = word at htext hstop halone
  have hnone : '\n' ∉ lead ++ word := fun hmem => (List.mem_append.1 hmem).elim hlead
    (halone.not_mem (by decide))
  have hbegins := hstands.startsAt
  have hends := hstands.stopsAt.resolve_right fun hbreak => by
    rw [hbreak.1] at hword
    cases hword
  have hstart' : token.span.start.toNat = (front ++ lead).length := by omega
  have hstop' : token.span.stop.toNat = (front ++ (lead ++ word)).length := by
    rw [hstop, List.length_append, List.length_append, List.length_append]
    omega
  rw [hstart', htext, Position.inText, List.take_left] at hbegins
  have htext' : source.toList = front ++ (lead ++ word) ++ behind := by
    rw [htext]
    simp only [List.append_assoc]
  rw [hstop', htext', Position.inText, List.take_left] at hends
  obtain ⟨-, hline, hcolumn⟩ := hbegins
  obtain ⟨-, -, hcolumn'⟩ := hends
  rw [(Position.after_line_start hfront hlead).1] at hline
  rw [(Position.after_line_start hfront hlead).2] at hcolumn
  rw [(Position.after_line_start hfront hnone).2, List.length_append] at hcolumn'
  obtain ⟨count, rfl⟩ : ∃ count : Nat, character = (lead.length + count : Nat) :=
    ⟨(character - lead.length).toNat, by omega⟩
  have hnumber : token.span.startLine - 1 = (front.count '\n' : Nat) := by omega
  obtain ⟨tail, htail, hshown⟩ := (halone.of_append (List.prefix_refl behind)).exists_line hlead
  rw [htext, List.append_assoc] at hlines
  rw [hnumber, wordAt_eq, htext, List.append_assoc, hlines.getD_lines_append hfront, hshown,
    wordInLine_of_standsAlone (halone.of_append htail) (by omega), ← hvalue, String.ofList_toList]

/-- A name behind a string, at the end of a line, and from behind its last character. -/
theorem exists_wordAt_token : wordAt "\"a\"bc\r\nd" ⟨0, 5⟩ = "bc" := by
  have hmem : ((Token.ofText "\"a\"bc\r\nd" "f").toOption.bind (·[1]?)).any (fun token =>
      token.kind.isWord && token.value == "bc" && token.span.startLine == 1 &&
        token.span.startColumn == 4 && token.span.endColumn == 6) = true := by decide +kernel
  cases hread : Token.ofText "\"a\"bc\r\nd" "f" with
  | error error =>
    rw [hread] at hmem
    cases hmem
  | ok tokens =>
    rw [hread] at hmem
    obtain ⟨token, hget, htoken⟩ := (Option.any_eq_true _ _).1 hmem
    simp only [Bool.and_eq_true, beq_iff_eq] at htoken
    obtain ⟨⟨⟨⟨hword, hvalue⟩, hline⟩, hstart⟩, hstop⟩ := htoken
    have hplain : EndsLinesPlainly "\"a\"bc\r\nd".toList := by decide
    have hfound : wordAt "\"a\"bc\r\nd" ⟨token.span.startLine - 1, 5⟩ = token.value :=
      wordAt_token hread hplain (Array.mem_of_getElem? hget) hword (by omega) (by omega)
    rwa [hline, hvalue] at hfound

end Editor

end SableFrontend
