import SableFrontend.Proofs.Diagnostic.Lines
import SableFrontend.Proofs.Token.Joining
import SableFrontend.Proofs.Token.Places
import SableFrontend.Source.Text

/-!
Two ways to take the text of a span out of a source: what stands between its offsets, and what its lines
and columns enclose, cut out of the lines that people are shown and joined again. If no character but the
newline ends a line, both give the same text (`SourceText.spanText_between`).
-/

namespace SableFrontend

/-! ### Lines and columns along a text -/

namespace Position

theorem after_column_of_not_mem {text : List Char} (h : '\n' ∉ text) (place : Position) :
    (place.after text).column = place.column + text.length := by
  induction text generalizing place with
  | nil => rfl
  | cons c rest ih =>
    rw [List.mem_cons, not_or] at h
    rw [after_cons, ih h.2, advance, if_neg (Ne.symm h.1), List.length_cons]
    dsimp only
    omega

/-- The place behind some characters of a line. -/
theorem after_line_start {before line : List Char}
    (h : before = [] ∨ before.getLast? = some '\n') (hline : '\n' ∉ line) :
    (origin.after (before ++ line)).line = before.count '\n' + 1 ∧
      (origin.after (before ++ line)).column = line.length + 1 := by
  rw [after_line, after_append, after_column_of_not_mem hline, List.count_append,
    List.count_eq_zero.2 hline]
  refine ⟨Nat.add_comm _ _, ?_⟩
  rcases h with rfl | hlast
  · exact Nat.add_comm _ _
  · obtain ⟨init, rfl⟩ := List.getLast?_eq_some_iff.1 hlast
    rw [after_append]
    exact Nat.add_comm _ _

end Position

namespace Text

/-- Where the line of a number starts. -/
theorem exists_line_start {text : List Char} {count : Nat} (h : count ≤ text.count '\n') :
    ∃ before rest, text = before ++ rest ∧ (before = [] ∨ before.getLast? = some '\n') ∧
      before.count '\n' = count := by
  induction count with
  | zero => exact ⟨[], text, rfl, Or.inl rfl, rfl⟩
  | succ count ih =>
    obtain ⟨before, rest, rfl, -, hcount⟩ := ih (Nat.le_of_succ_le h)
    rw [List.count_append] at h
    have hmem : '\n' ∈ rest := List.count_pos_iff.1 (by omega)
    obtain ⟨first, more, rfl, hfirst⟩ := List.eq_append_cons_of_mem hmem
    refine ⟨before ++ (first ++ ['\n']), more, by simp, Or.inr (by simp), ?_⟩
    rw [List.count_append, List.count_append, hcount, List.count_eq_zero.2 hfirst]
    rfl

/-- The line that a text ends in. -/
theorem exists_last_line (text : List Char) :
    ∃ before line, text = before ++ line ∧ (before = [] ∨ before.getLast? = some '\n') ∧
      '\n' ∉ line := by
  obtain ⟨before, line, rfl, hbefore, hcount⟩ := @exists_line_start text _ (Nat.le_refl _)
  rw [List.count_append] at hcount
  exact ⟨before, line, rfl, hbefore, List.count_eq_zero.1 (by omega)⟩

theorem slice_append_append {α : Type} (front covered behind : List α) {start stop : Nat}
    (hstart : start = front.length) (hstop : stop = front.length + covered.length) :
    slice (front ++ (covered ++ behind)) start stop = covered := by
  subst hstart hstop
  have hle : front.length + covered.length ≤ (front ++ (covered ++ behind)).length := by
    simp only [List.length_append]
    omega
  rw [slice, clampIndex_natCast, clampIndex_natCast, Nat.min_eq_left hle,
    Nat.min_eq_left (Nat.le_of_add_right_le hle), ← List.append_assoc, ← List.length_append,
    List.take_left, List.drop_left]

/-- No character but the newline ends a line. -/
def NewlinesOnly (text : List Char) : Prop := ∀ c ∈ text, isLineBreak c = true → c = '\n'

-- over the members of the text, and not over all characters
instance (text : List Char) : Decidable (NewlinesOnly text) :=
  List.decidableBAll (fun c => isLineBreak c = true → c = '\n') text

theorem NewlinesOnly.endsLinesPlainly {text : List Char} (h : NewlinesOnly text) :
    EndsLinesPlainly text := by
  induction text with
  | nil => trivial
  | cons c rest ih =>
    exact ⟨fun hbreak => Or.inl (h c List.mem_cons_self hbreak),
      ih fun d hmem => h d (List.mem_cons_of_mem c hmem)⟩

theorem NewlinesOnly.withoutReturn_eq {text line : List Char} (h : NewlinesOnly text)
    (hmem : ∀ c ∈ line, c ∈ text) : withoutReturn line = line := by
  refine if_neg fun hlast => ?_
  exact absurd (h '\r' (hmem '\r' (List.mem_of_getLast? hlast)) (by decide)) (by decide)

end Text

namespace SourceText

open Text

variable {content : String} {before rest : List Char}

theorem lineAt_of_newlinesOnly (h : NewlinesOnly content.toList)
    (hsplit : content.toList = before ++ rest)
    (hbefore : before = [] ∨ before.getLast? = some '\n') :
    (ofString content).lineAt (before.count '\n' + 1) = rest.takeWhile (· != '\n') := by
  have hplain := h.endsLinesPlainly
  rw [hsplit] at hplain
  have hline := hplain.getD_lines_append hbefore
  rw [← hsplit, h.withoutReturn_eq fun c hmem => ?_] at hline
  · rw [lineAt, line?, if_pos (by omega), Int.add_sub_cancel, Int.toNat_natCast]
    exact hline
  · rw [hsplit]
    exact List.mem_append_right _ (List.takeWhile_sublist _ |>.mem hmem)

/-! ### The lines of a span -/

section

variable {file : String} {front lead covered behind : List Char}

/-- The lines that a span over several lines covers, of a text in which only newline characters end
lines. -/
theorem coveredPart_between (h : NewlinesOnly content.toList)
    (hsplit : content.toList = front ++ (lead ++ (covered ++ behind)))
    (hfront : front = [] ∨ front.getLast? = some '\n') (hlead : '\n' ∉ lead)
    (hmem : '\n' ∈ covered) {number : Nat} (hle : number ≤ covered.count '\n') :
    (ofString content).coveredPart
        (.between file (Position.origin.after (front ++ lead))
          (Position.origin.after (front ++ lead ++ covered)))
        (((Position.origin.after (front ++ lead)).line : Int) + number) =
      (covered.splitOn '\n')[number]?.getD [] := by
  have hmany := List.count_pos_iff.2 hmem
  obtain ⟨hstart, hcolumn⟩ := Position.after_line_start hfront hlead
  have hend : (Position.origin.after (front ++ lead ++ covered)).line =
      front.count '\n' + 1 + covered.count '\n' := by
    rw [Position.after_append, Position.after_line, hstart]
  obtain ⟨before, rest, rfl, hbefore, rfl⟩ := exists_line_start hle
  rw [getElem?_splitOn hbefore, coveredPart]
  simp only [Span.between, hstart, hcolumn, hend, Option.getD_some]
  by_cases hfirst : before.count '\n' = 0
  · -- the first line, from the column of the span on
    have hnil : before = [] := hbefore.resolve_right fun hlast =>
      List.count_eq_zero.1 hfirst (List.mem_of_getLast? hlast)
    subst hnil
    have hline := lineAt_of_newlinesOnly h hsplit hfront
    rw [takeWhile_append_of_not_mem hlead, takeWhile_append_of_mem hmem] at hline
    rw [if_pos (by simp), hfirst, Int.natCast_succ, Int.natCast_zero, Int.add_zero, hline,
      Text.sliceFrom, Int.natCast_succ, Int.add_sub_cancel, clampIndex_natCast, List.length_append,
      Nat.min_eq_left (Nat.le_add_right _ _), List.drop_left]
    rfl
  · have hlast : before.getLast? = some '\n' := hbefore.resolve_left fun hnil => hfirst (by rw [hnil]; rfl)
    have hbehind : (front ++ lead ++ before).getLast? = some '\n' := by simp [hlast]
    have hlines : content.toList = front ++ lead ++ before ++ (rest ++ behind) := by
      rw [hsplit]
      simp
    have hline := lineAt_of_newlinesOnly h hlines (Or.inr hbehind)
    have hnumber : ((front.count '\n' + 1 : Nat) : Int) + (before.count '\n' : Nat) =
        ((front ++ lead ++ before).count '\n' : Nat) + 1 := by
      rw [List.count_append, List.count_append, List.count_eq_zero.2 hlead]
      omega
    rw [if_neg (by omega), hnumber, hline, List.count_append, List.count_append,
      List.count_eq_zero.2 hlead, List.count_append]
    split
    · -- the last line, up to the column of the end
      next hstop =>
      have hrest : '\n' ∉ rest := List.count_eq_zero.1 (by omega)
      have hself := takeWhile_append_of_not_mem hrest []
      rw [List.append_nil] at hself
      rw [← List.append_assoc, (Position.after_line_start (Or.inr hbehind) hrest).2,
        takeWhile_append_of_not_mem hrest, hself, Text.sliceTo, Int.natCast_succ,
        Int.add_sub_cancel, clampIndex_natCast, List.length_append,
        Nat.min_eq_left (Nat.le_add_right _ _), List.take_left]
      exact (List.append_nil rest).symm
    · next hmore =>
      rw [takeWhile_append_of_mem (List.count_pos_iff.1 (by omega))]

/-- The lines that a span encloses, joined again, are the text between its places. -/
theorem textByLines_between (h : NewlinesOnly content.toList)
    (hsplit : content.toList = front ++ (lead ++ (covered ++ behind)))
    (hfront : front = [] ∨ front.getLast? = some '\n') (hlead : '\n' ∉ lead) :
    (ofString content).textByLines
        (.between file (Position.origin.after (front ++ lead))
          (Position.origin.after (front ++ lead ++ covered))) = covered := by
  obtain ⟨hstart, hcolumn⟩ := Position.after_line_start hfront hlead
  have hend : (Position.origin.after (front ++ lead ++ covered)).line =
      (Position.origin.after (front ++ lead)).line + covered.count '\n' := by
    rw [Position.after_append, Position.after_line]
  by_cases hmem : '\n' ∈ covered
  · have hmany := List.count_pos_iff.2 hmem
    have hcount : (((Position.origin.after (front ++ lead ++ covered)).line : Int) + 1 -
        (Position.origin.after (front ++ lead)).line).toNat = (covered.splitOn '\n').length := by
      rw [hend, length_splitOn]
      omega
    have hparts : (List.range (covered.splitOn '\n').length).map (fun k : Nat =>
        (ofString content).coveredPart
          (.between file (Position.origin.after (front ++ lead))
            (Position.origin.after (front ++ lead ++ covered)))
          ((Position.origin.after (front ++ lead)).line + (k : Int))) = covered.splitOn '\n' := by
      refine List.ext_getElem (by simp) fun k _ hk => ?_
      have hle : k ≤ covered.count '\n' := by
        rw [length_splitOn] at hk
        exact Nat.le_of_lt_succ hk
      rw [List.getElem_map, List.getElem_range,
        coveredPart_between h hsplit hfront hlead hmem hle, List.getElem?_eq_getElem hk]
      rfl
    rw [textByLines, if_neg (by simp only [Span.between]; omega)]
    simp only [Span.between] at hparts ⊢
    rw [hcount, hparts, List.intercalate_splitOn]
  · have hsame : (Position.origin.after (front ++ lead ++ covered)).line =
        (Position.origin.after (front ++ lead)).line := by
      rw [hend, List.count_eq_zero.2 hmem]
      rfl
    have hcolumn' : (Position.origin.after (front ++ lead ++ covered)).column =
        lead.length + covered.length + 1 := by
      rw [Position.after_append, Position.after_column_of_not_mem hmem, hcolumn]
      omega
    have hline := lineAt_of_newlinesOnly h hsplit hfront
    rw [takeWhile_append_of_not_mem hlead, takeWhile_append_of_not_mem hmem] at hline
    rw [textByLines, if_pos (by simp only [Span.between, hsame])]
    simp only [Span.between, hstart, hcolumn, hcolumn', Int.natCast_succ, Int.add_sub_cancel, hline]
    exact slice_append_append lead covered _ rfl rfl

end

/-- By its offsets, and by its lines and columns alone, a span between two places of a text has the text
between these, if no character but the newline ends a line. -/
theorem spanText_between (content file : String) {first last : Nat}
    (h : NewlinesOnly content.toList) (hlt : first < last) (hle : last ≤ content.toList.length) :
    let span := Span.between file (.inText content.toList first) (.inText content.toList last)
    (ofString content).spanText span = (content.toList.drop first).take (last - first) ∧
      (ofString content).spanText { span with start := 0, stop := 0 } =
        (content.toList.drop first).take (last - first) := by
  intro span
  obtain ⟨front, lead, hbefore, hfront, hlead⟩ := exists_last_line (content.toList.take first)
  generalize hcovered : (content.toList.drop first).take (last - first) = covered
  have htake : content.toList.take last = content.toList.take first ++ covered := by
    rw [← hcovered, ← List.take_add, Nat.add_sub_of_le (Nat.le_of_lt hlt)]
  have hsplit : content.toList = content.toList.take first ++ (covered ++ content.toList.drop last) := by
    rw [← List.append_assoc, ← htake, List.take_append_drop]
  have hspan : span = .between file (Position.origin.after (front ++ lead))
      (Position.origin.after (front ++ lead ++ covered)) := by
    rw [← hbefore, ← htake]
    rfl
  have hstart : span.start = first := by
    exact congrArg Int.ofNat (Position.offset_inText (Nat.le_of_lt (Nat.lt_of_lt_of_le hlt hle)))
  have hstop : span.stop = last := congrArg Int.ofNat (Position.offset_inText hle)
  constructor
  · have hlength : (content.toList.take first).length = first :=
      List.length_take_of_le (Nat.le_of_lt (Nat.lt_of_lt_of_le hlt hle))
    rw [spanText, if_pos (by omega), hstart, hstop, ofString]
    dsimp only
    rw [hsplit]
    refine slice_append_append _ _ _ (by rw [hlength]) ?_
    rw [hlength, ← hcovered, List.length_take, List.length_drop]
    omega
  · rw [spanText, if_neg (Int.lt_irrefl 0)]
    rw [hbefore, List.append_assoc] at hsplit
    have hlines : (ofString content).textByLines span = covered := by
      rw [hspan]
      exact textByLines_between h hsplit hfront hlead
    exact hlines

/-- A span from the end of one line to the end of the text, and one that is a single newline. -/
theorem exists_spanText_between :
    (ofString "ab\n\ncd\n").spanText (.between "f" (.inText "ab\n\ncd\n".toList 2)
        (.inText "ab\n\ncd\n".toList 7)) = "\n\ncd\n".toList ∧
      (ofString "ab\n\ncd\n").spanText { Span.between "f" (.inText "ab\n\ncd\n".toList 3)
          (.inText "ab\n\ncd\n".toList 4) with start := 0, stop := 0 } = ['\n'] := by
  have hplain : NewlinesOnly "ab\n\ncd\n".toList := by decide
  exact ⟨(spanText_between "ab\n\ncd\n" "f" hplain (by decide) (by decide)).1,
    (spanText_between "ab\n\ncd\n" "f" hplain (by decide) (by decide)).2⟩

end SourceText

end SableFrontend
