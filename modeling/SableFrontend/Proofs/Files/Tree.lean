import SableFrontend.Files.Tree
import SableFrontend.Proofs.Files.Association
import SableFrontend.Proofs.Files.Path

/-!
What stands where in a tree of files after something was put into it, and where paths lead. What is
put below a location is put into what stands at the location (`FileTree.get?_put_append`), and a
path of names leads to what stands at them (`FileTree.lookupLocation_of_get?`).
-/

namespace SableFrontend

variable {tree found content : FileTree} {place here rest : Location}

namespace FileTree

/-! ### What stands where -/

theorem get?_append : tree.get? (place ++ rest) = (tree.get? place).bind (·.get? rest) := by
  induction place generalizing tree with
  | nil => rfl
  | cons name place ih =>
    rw [List.cons_append, get?, get?]
    cases tree.children.lookup name with
    | none => rfl
    | some child => exact ih

theorem get?_empty_cons (name : String) : empty.get? (name :: rest) = none := rfl

theorem put_cons (tree : FileTree) (name : String) (rest : Location) (content : FileTree) :
    tree.put (name :: rest) content =
      .directory ((name, ((tree.children.lookup name).getD empty).put rest content) ::
        tree.children.filter fun entry => entry.1 != name) := by
  rw [put]

/-- What is put below a location is put into what stands there. -/
theorem get?_put_append :
    (tree.put (place ++ rest) content).get? place =
      some (((tree.get? place).getD empty).put rest content) := by
  induction place generalizing tree with
  | nil => rfl
  | cons name place ih =>
    rw [List.cons_append, put_cons, get?, children, lookup_cons_eq, if_pos rfl, Option.bind_some,
      ih, get?]
    cases tree.children.lookup name with
    | none => cases place <;> rfl
    | some child => rfl

theorem isDirectory_put (tree : FileTree) (name : String) (content : FileTree) :
    (tree.put (name :: rest) content).isDirectory = true := by
  rw [put_cons]
  rfl

/-- What is put under one name leaves what stands under others. -/
theorem get?_put_of_ne {name other : String} {more : Location} (h : other ≠ name) :
    (tree.put (name :: more) content).get? (other :: rest) = tree.get? (other :: rest) := by
  rw [put_cons, get?, get?, children, lookup_cons_eq, if_neg h, lookup_filter_ne, if_neg h]

theorem isDirectory_of_get?_cons {name : String} (h : tree.get? (name :: rest) = some found) :
    tree.isDirectory = true := by
  cases tree with
  | file => cases h
  | directory => rfl

/-! ### Where paths lead -/

/-- Names lead to what stands at them. -/
theorem follow_of_get? {root : FileTree} {names : Location}
    (hnames : ∀ name ∈ names, Path.IsName name) (h : root.get? (here ++ names) = some found) :
    root.follow here names = .found (here ++ names) found := by
  induction names generalizing here with
  | nil =>
    rw [List.append_nil] at h ⊢
    rw [follow, h]
  | cons name rest ih =>
    obtain ⟨⟨hlong, hmoves, hup⟩, hrest⟩ := List.forall_mem_cons.1 hnames
    rw [get?_append] at h
    obtain ⟨inner, hinner, hfound⟩ := Option.bind_eq_some_iff.1 h
    have hdirectory := isDirectory_of_get?_cons hfound
    rw [follow, hinner]
    cases inner with
    | file => cases hdirectory
    | directory entries =>
      have hstep : Path.step here name = here ++ [name] := by
        rw [Path.step, if_neg hup, if_pos hmoves]
      dsimp only
      rw [hlong, if_neg Bool.false_ne_true, hstep, ih hrest]
      · rw [List.append_assoc]
        rfl
      · rw [List.append_assoc, get?_append, hinner]
        exact hfound

/-- Looking up a location finds what stands there. -/
theorem lookupLocation_of_get? {root : FileTree}
    (hnames : ∀ name ∈ place, Path.IsName name)
    (hlong : (Path.ofLocation place).isTooLong = false) (h : root.get? place = some found) :
    root.lookup [] (.ofLocation place) = .found place found := by
  rw [lookup, hlong, if_neg Bool.false_ne_true]
  exact follow_of_get? hnames h

end FileTree

end SableFrontend
