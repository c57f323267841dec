import Mathlib
import SableFrontend.Command.Run
import SableFrontend.Proofs.Project.Settings
import SableFrontend.Proofs.Tree.Distinct
import SableFrontend.Proofs.Tree.Listing

/-!
Viewing sources. What is written of a module says which module it is, up to the places of its parts:
the text divides into rows, the rows say what the outline is, and the outline what the tree is.
-/

namespace SableFrontend

/-! ### Places are not listed -/

section

variable {r : Relocation} {depth : Nat}

mutual

theorem Outline.listing_relocate (node : Outline) {depth : Nat} :
    (node.relocate r).listing depth = node.listing depth := by
  match node with
  | { kind := _, fields := fields, span := _ } =>
    simp [Outline.listing, listFields_relocate fields]

theorem listFields_relocate (fields : List OutlineField) {depth : Nat} :
    listFields depth (relocateFields r fields) = listFields depth fields := by
  match fields with
  | [] => simp [listFields]
  | field :: rest => simp [listFields, field.listing_relocate, listFields_relocate rest]

theorem OutlineField.listing_relocate (field : OutlineField) {depth : Nat} :
    (field.relocate r).listing depth = field.listing depth := by
  match field with
  | { name := _, value := value } => simp [OutlineField.listing, value.listing_relocate]

theorem OutlineValue.listing_relocate (value : OutlineValue) {depth : Nat} {name : String} :
    (value.relocate r).listing depth name = value.listing depth name := by
  match value with
  | .node value => simp [OutlineValue.listing, value.listing_relocate]
  | .nodes [] => simp
  | .nodes (value :: values) =>
    simp [OutlineValue.listing, value.listing_relocate, listNodes_relocate values]
  | .absent | .flag _ | .text _ | .integer _ | .float _ | .attachment _ | .texts _ => simp

theorem listNodes_relocate (nodes : List Outline) {depth : Nat} :
    listNodes depth (relocateNodes r nodes) = listNodes depth nodes := by
  match nodes with
  | [] => simp [listNodes]
  | node :: rest => simp [listNodes, node.listing_relocate, listNodes_relocate rest]

end

end

/-! ### Listed modules -/

/-- What is written of a module: the lines of its outline. -/
def Module.listed (source : Module) : String :=
  String.join ((source.outline.listing 0).map fun line => line.spelled ++ "\n")

theorem Module.toList_listed (source : Module) :
    source.listed.toList = ListingRow.joined (source.outline.rows 0) := by
  simp [listed, ListingRow.joined, Outline.rows, String.toList_join, List.flatMap_map,
    ListingLine.toList_spelled]

theorem Module.listed_eq_of_forget {left right : Module}
    (h : left.relocate .forget = right.relocate .forget) : left.listed = right.listed := by
  have houtline : left.outline.relocate .forget = right.outline.relocate .forget := by
    rw [← outline_relocate, h, outline_relocate]
  have hlisting := congrArg (Outline.listing 0) houtline
  rw [Outline.listing_relocate, Outline.listing_relocate] at hlisting
  rw [listed, hlisting, listed]

/-- A listing says which module is listed, up to places, if the numbers in it can be told apart. -/
theorem Module.forget_eq_of_listed {left right : Module} {S : Set Binary64}
    (hS : S.InjOn Binary64.text) (hl : ∀ x ∈ left.outline.floats, x ∈ S)
    (hr : ∀ x ∈ right.outline.floats, x ∈ S) (h : left.listed = right.listed) :
    left.relocate .forget = right.relocate .forget := by
  have hrows : left.outline.rows 0 = right.outline.rows 0 := by
    refine ListingRow.joined_inj (Outline.legible_rows left.shaped 0)
      (Outline.legible_rows right.shaped 0) ?_
    rw [← toList_listed, h, toList_listed]
  obtain ⟨houtline, -⟩ := Outline.forget_eq_of_rows hS left.outline right.outline left.shaped
    right.shaped hl hr (ListingRow.stops_nil 0) (ListingRow.stops_nil 0) (by rw [hrows])
  rw [← outline_relocate, ← outline_relocate] at houtline
  exact outline_inj.1 houtline

/-! ### What is written -/

namespace Paint

theorem plainFrom_of_escape_not_mem {text : List Char} (h : '\x1b' ∉ text) :
    plainFrom 0 text = text := by
  induction text with
  | nil => rfl
  | cons c rest ih =>
    rw [List.mem_cons, not_or] at h
    rw [plainFrom, if_neg (Ne.symm h.1)]
    exact congrArg (c :: ·) (ih h.2)

theorem plain_of_isVisible {text : String} (h : Text.isVisible text = true) : plain text = text := by
  have hescape : '\x1b' ∉ text.toList := fun hmem => by
    cases List.all_eq_true.1 h _ hmem
  rw [plain, plainFrom_of_escape_not_mem hescape, String.ofList_toList]

end Paint

/-- A listing that is written to its end is written line by line. -/
theorem messages_writeListing {lines : List ListingLine}
    (h : (writeListing lines).verdict = .success) :
    (writeListing lines).messages = lines.map fun line => ⟨.output, line.spelled⟩ := by
  induction lines with
  | nil => rfl
  | cons line rest ih =>
    unfold writeListing at h ⊢
    split at h
    · cases h
    split at h
    · cases h
    · next hdepth _ hinteger =>
      rw [if_neg hdepth]
      exact congrArg (_ :: ·) (ih h)

/-- The tree of a source is listed to the end when the source is viewed. -/
def IsViewed (name source : String) (tree : Module) : Prop :=
  (viewOf name source).verdict = .success ∧
    ∃ result, parseSource source name = .ok result ∧ result.module? = some tree

theorem IsViewed.messages_eq {name source : String} {tree : Module} (h : IsViewed name source tree) :
    (viewOf name source).messages =
      (tree.outline.listing 0).map fun line => ⟨.output, line.spelled⟩ := by
  obtain ⟨hverdict, result, hparse, htree⟩ := h
  unfold viewOf at hverdict ⊢
  rw [hparse] at hverdict ⊢
  dsimp only at hverdict ⊢
  rw [htree] at hverdict ⊢
  split at hverdict
  · next heq _ =>
    cases heq
    exact messages_writeListing hverdict
  · cases hverdict

/-- The text that can be read when a source is viewed is the listing of its tree. -/
theorem IsViewed.plainText_eq {name source : String} {tree : Module} (h : IsViewed name source tree) :
    (viewOf name source).plainText .output = tree.listed := by
  have hline : ∀ line ∈ tree.outline.listing 0, Text.isVisible line.spelled = true := by
    intro line hmem
    refine List.all_eq_true.2 fun c hc => ?_
    rw [line.toList_spelled] at hc
    exact (Outline.legible_rows tree.shaped 0 _ (List.mem_map_of_mem hmem)).isPrintable_of_mem hc
  have hlines : (viewOf name source).plainLines .output =
      (tree.outline.listing 0).map fun line => line.spelled ++ "\n" := by
    rw [Outcome.plainLines, h.messages_eq, List.filter_eq_self.2 (by simp), List.map_map]
    refine List.map_congr_left fun line hmem => ?_
    rw [Function.comp_apply, Paint.plain_of_isVisible (hline line hmem)]
  have hreturn : '\r' ∉ tree.listed.toList := by
    rw [Module.listed, String.toList_join, List.mem_flatMap]
    rintro ⟨text, htext, hmem⟩
    obtain ⟨line, hline', rfl⟩ := List.mem_map.1 htext
    rw [String.toList_append, List.mem_append] at hmem
    rcases hmem with hmem | hmem
    · cases List.all_eq_true.1 (hline line hline') _ hmem
    · simp at hmem
  rw [Outcome.plainText, hlines, ← Module.listed, Text.joinLineEnds_of_return_not_mem hreturn,
    String.ofList_toList]

/-- Listings are faithful: modules whose numbers can be told apart by their texts are listed alike
exactly if they are equal up to the places of their parts, and so are sources that are viewed. -/
theorem Module.listed_eq_iff {left right : Module} {S : Set Binary64}
    (hS : S.InjOn Binary64.text) (hl : ∀ x ∈ left.outline.floats, x ∈ S)
    (hr : ∀ x ∈ right.outline.floats, x ∈ S) :
    (left.listed = right.listed ↔ left.relocate .forget = right.relocate .forget) ∧
      ∀ name source name' source', IsViewed name source left → IsViewed name' source' right →
        ((viewOf name source).plainText .output = (viewOf name' source').plainText .output ↔
          left.relocate .forget = right.relocate .forget) := by
  have hlisted : left.listed = right.listed ↔ left.relocate .forget = right.relocate .forget :=
    ⟨forget_eq_of_listed hS hl hr, listed_eq_of_forget⟩
  refine ⟨hlisted, fun name source name' source' hview hview' => ?_⟩
  rw [hview.plainText_eq, hview'.plainText_eq]
  exact hlisted

/-- A module that defines `x` as a number. -/
def numberModule (value : Binary64) (span : Span) : Module :=
  ⟨none, [.definition ⟨"x", [⟨[], .literal (.float value span), span⟩], span⟩], span⟩

/-- A number is listed alike at two places, and unlike another number. -/
theorem numberModule_listed :
    (numberModule ⟨false, 0x3FF8000000000000⟩ default).listed =
      (numberModule ⟨false, 0x3FF8000000000000⟩ ⟨"f", 1, 1, 1, 2, 0, 1⟩).listed ∧
    (numberModule ⟨false, 0x3FF8000000000000⟩ default).listed ≠
      (numberModule ⟨true, 0⟩ default).listed := by
  have hdistinct : Set.InjOn Binary64.text {⟨false, 0x3FF8000000000000⟩, ⟨true, 0⟩} := by
    have hne : Binary64.text ⟨false, 0x3FF8000000000000⟩ ≠ Binary64.text ⟨true, 0⟩ := by
      decide +kernel
    rintro x (rfl | rfl) y (rfl | rfl) heq
    exacts [rfl, absurd heq hne, absurd heq.symm hne, rfl]
  have hfloats : ∀ value span, (numberModule value span).outline.floats = [value] := fun _ _ => rfl
  refine ⟨(Module.listed_eq_iff hdistinct (by simp [hfloats]) (by simp [hfloats])).1.2 ?_,
    mt (Module.listed_eq_iff hdistinct (by simp [hfloats]) (by simp [hfloats])).1.1 ?_⟩
  · simp only [numberModule, Module.relocate, List.map_cons, List.map_nil, Declaration.relocate,
      TermDef.relocate, Clause.relocate, Expr.relocate]
    rfl
  · simp [numberModule, Module.relocate, Literal.relocate]

end SableFrontend
