import Mathlib.Algebra.GroupWithZero.Nat
import SableFrontend.Files.Path

/-!
Where paths lead by their names alone, and how long they are to write. A location that a path leads
to is spelled with names of the path and is no longer to write than the path
(`Path.utf8ByteSize_text_resolve_le`).
-/

namespace SableFrontend.Path

variable {here : Location} {steps rest : List String} {name : String}

/-- A name that can be looked up by itself and leads on. -/
def IsName (name : String) : Prop := isLongName name = false ∧ moves name = true ∧ name ≠ ".."

instance : DecidablePred IsName := fun _ => inferInstanceAs (Decidable (_ ∧ _ ∧ _))

/-- Every name of where steps lead was there before or is the name of a step that leads on. -/
theorem mem_foldl_step (h : name ∈ steps.foldl step here) :
    name ∈ here ∨ name ∈ steps ∧ moves name = true ∧ name ≠ ".." := by
  induction steps generalizing here with
  | nil => exact Or.inl h
  | cons first rest ih =>
    rcases ih h with hstep | ⟨hmem, hname⟩
    · rw [step] at hstep
      split at hstep
      · exact Or.inl (List.dropLast_subset here hstep)
      next hup =>
      split at hstep
      · next hmoves =>
        rcases List.mem_append.1 hstep with hhere | hfirst
        · exact Or.inl hhere
        · obtain rfl := List.mem_singleton.1 hfirst
          exact Or.inr ⟨List.mem_cons_self .., hmoves, hup⟩
      · exact Or.inl hstep
    · exact Or.inr ⟨List.mem_cons_of_mem _ hmem, hname⟩

/-- Names lead on one after the other. -/
theorem foldl_step_eq (h : ∀ name ∈ rest, moves name = true ∧ name ≠ "..") :
    rest.foldl step here = here ++ rest := by
  induction rest generalizing here with
  | nil => exact (List.append_nil here).symm
  | cons name rest ih =>
    obtain ⟨⟨hmoves, hup⟩, hrest⟩ := List.forall_mem_cons.1 h
    have hstep : step here name = here ++ [name] := by rw [step, if_neg hup, if_pos hmoves]
    rw [List.foldl_cons, hstep, ih hrest, List.append_assoc]
    rfl

/-- A path with names behind it leads on from where the path leads. -/
theorem resolve_append {path : Path} {names : List String}
    (h : ∀ name ∈ names, moves name = true ∧ name ≠ "..") :
    resolve here { path with steps := path.steps ++ names } = path.resolve here ++ names := by
  rw [resolve, List.foldl_append, foldl_step_eq h]
  rfl

/-! ### Lengths -/

/-- The bytes of the names of a path, each with a slash. -/
def bytes (steps : List String) : Nat := (steps.map (·.utf8ByteSize + 1)).sum

@[simp] theorem bytes_nil : bytes [] = 0 := rfl

@[simp] theorem bytes_cons (name : String) (rest : List String) :
    bytes (name :: rest) = name.utf8ByteSize + 1 + bytes rest := rfl

@[simp] theorem bytes_append : bytes (steps ++ rest) = bytes steps + bytes rest := by
  rw [bytes, List.map_append, List.sum_append, bytes, bytes]

theorem utf8ByteSize_intercalate (name : String) (rest : List String) :
    (String.intercalate "/" (name :: rest)).utf8ByteSize + 1 = bytes (name :: rest) := by
  induction rest generalizing name with
  | nil => simp
  | cons next rest ih =>
    rw [String.intercalate_cons_cons, String.utf8ByteSize_append, String.utf8ByteSize_append,
      Nat.add_assoc _ _ 1, ih, bytes_cons name]
    rfl

/-- The bytes of a path from the root: those of its names, and of the first slash if it has none. -/
theorem utf8ByteSize_text (steps : List String) :
    (text { absolute := true, steps := steps }).utf8ByteSize = max 1 (bytes steps) := by
  cases steps with
  | nil => rfl
  | cons name rest =>
    have hbytes := utf8ByteSize_intercalate name rest
    have hslash : "/".utf8ByteSize = 1 := rfl
    rw [text, String.utf8ByteSize_append]
    simp only [if_pos, hslash, bytes_cons] at hbytes ⊢
    omega

theorem bytes_step_le : bytes (step here name) ≤ bytes here + bytes [name] := by
  rw [step]
  split
  · by_cases hnil : here = []
    · subst hnil
      exact Nat.zero_le _
    · have hlast := congrArg bytes (List.dropLast_concat_getLast hnil)
      rw [bytes_append] at hlast
      omega
  · split
    · exact Nat.le_of_eq bytes_append
    · exact Nat.le_add_right ..

theorem bytes_foldl_step_le : bytes (steps.foldl step here) ≤ bytes here + bytes steps := by
  induction steps generalizing here with
  | nil => exact Nat.le_refl _
  | cons name rest ih =>
    have hstep : bytes (step here name) ≤ bytes here + bytes [name] := bytes_step_le
    have hrest : bytes (rest.foldl step (step here name)) ≤ bytes (step here name) + bytes rest := ih
    rw [List.foldl_cons]
    simp only [bytes_cons, bytes_nil] at hstep ⊢
    omega

/-- A location below where a path leads is no longer to write than the path with the same names behind
it. -/
theorem isTooLong_resolve {path : Path} (habsolute : path.absolute = true) {names : List String}
    (h : isTooLong { path with steps := path.steps ++ names } = false) :
    isTooLong (ofLocation (path.resolve [] ++ names)) = false := by
  obtain ⟨absolute, steps⟩ := path
  cases habsolute
  simp only [isTooLong, decide_eq_false_iff_not, Nat.not_lt, ofLocation, utf8ByteSize_text,
    bytes_append] at h ⊢
  have hsteps : bytes (resolve [] { absolute := true, steps := steps }) ≤ bytes steps :=
    Nat.le_trans bytes_foldl_step_le (Nat.le_of_eq (Nat.zero_add _))
  omega

theorem isTooLong_of_append {place rest : Location}
    (h : isTooLong (ofLocation (place ++ rest)) = false) : isTooLong (ofLocation place) = false := by
  simp only [isTooLong, decide_eq_false_iff_not, Nat.not_lt, ofLocation, utf8ByteSize_text,
    bytes_append] at h ⊢
  omega

end SableFrontend.Path
