import SableFrontend.Proofs.Files.Association
import SableFrontend.Proofs.Toml.Strings
import SableFrontend.Toml.Document

/-!
Statements do not take back what a document already says: a text that stands at a path of tables
stays there, whatever is read after it (`Toml.text?_readStatements`). Every statement changes the
document by `Toml.updateAt`, at whose end either nothing is changed or a key is given a value that
had none, or had an array.
-/

namespace SableFrontend.Toml

variable {table changed : Table} {path : Path} {key stem value : String}

namespace Table

/-- The text at a path of tables, if there is one. -/
def text? : Path → Table → Option String
  | [], _ => none
  | [key], table =>
    match table.get? key with
    | some (.text value) => some value
    | _ => none
  | key :: path, table =>
    match table.get? key with
    | some (.table entries) => text? path entries
    | _ => none

theorem get?_cons (name : String) (old : Value) (rest : Table) :
    get? ((name, old) :: rest) key = if key = name then some old else rest.get? key :=
  lookup_cons_eq ..

theorem get?_set_of_ne {other : String} (new : Value) (h : other ≠ key) :
    (table.set key new).get? other = table.get? other := by
  induction table with
  | nil => rw [set, get?_cons, if_neg h]
  | cons entry rest ih =>
    obtain ⟨name, old⟩ := entry
    rw [set, get?_cons]
    split
    · next hname => rw [get?_cons, hname, if_neg h, if_neg h]
    · rw [get?_cons, ih]

/-- What a key is given does not matter to a path that begins with another one. -/
theorem text?_set_of_ne {first : String} (new : Value) (h : first ≠ key) :
    (table.set key new).text? (first :: path) = table.text? (first :: path) := by
  cases path with
  | nil => simp only [text?, get?_set_of_ne new h]
  | cons => simp only [text?, get?_set_of_ne new h]

theorem get?_of_text?_singleton (h : table.text? [key] = some value) :
    table.get? key = some (.text value) := by
  rw [text?] at h
  split at h
  · next found hfound => rw [hfound, Option.some.inj h]
  · cases h

/-- A path that leads to a text begins with a key that has a text or a table. -/
theorem get?_of_text?_cons {first : String} (h : table.text? (first :: path) = some value) :
    path = [] ∧ table.get? first = some (.text value) ∨
      ∃ entries, table.get? first = some (.table entries) ∧ text? path entries = some value := by
  cases path with
  | nil => exact Or.inl ⟨rfl, get?_of_text?_singleton h⟩
  | cons =>
    rw [text?] at h
    · split at h
      · next entries hentries => exact Or.inr ⟨entries, hentries, h⟩
      · cases h
    · simp

theorem text?_cons_of_table {first second : String} {entries : Table}
    (h : table.get? first = some (.table entries)) :
    table.text? (first :: second :: path) = text? (second :: path) entries := by
  rw [text?, h]
  simp

/-- Where a table is exchanged for one that keeps its texts, all texts are kept. -/
theorem text?_set_table {first : String} {entries inner : Table}
    (hget : table.get? first = some (.table entries))
    (hinner : ∀ path value, text? path entries = some value → text? path inner = some value)
    (h : table.text? path = some value) :
    (table.set first (.table inner)).text? path = some value := by
  cases path with
  | nil => cases h
  | cons key path =>
    by_cases hkey : key = first
    · subst hkey
      rcases get?_of_text?_cons h with ⟨-, htext⟩ | ⟨found, htable, hfound⟩
      · rw [hget] at htext
        cases htext
      · obtain rfl : entries = found := Value.table.inj (Option.some.inj (hget.symm.trans htable))
        cases path with
        | nil => cases hfound
        | cons second path =>
          rw [text?_cons_of_table (get?_set_self table key _)]
          exact hinner _ _ hfound
    · rw [text?_set_of_ne _ hkey, h]

end Table

/-- A change of a table that keeps the texts in it. -/
def KeepsTexts (change : Table → Except Fault Table) : Prop :=
  ∀ table changed, change table = .ok changed → ∀ path value,
    Table.text? path table = some value → Table.text? path changed = some value

/-- Giving a key a value keeps the texts, unless it had a text or a table. -/
theorem text?_set {new : Value} (hkey : ∀ old, table.get? key = some old →
      (∀ found, old ≠ .text found) ∧ ∀ entries, old ≠ .table entries)
    (h : table.text? path = some value) : (table.set key new).text? path = some value := by
  cases path with
  | nil => cases h
  | cons first path =>
    by_cases hfirst : first = key
    · subst hfirst
      rcases Table.get?_of_text?_cons h with ⟨-, hget⟩ | ⟨entries, hget, -⟩
      · exact absurd rfl ((hkey _ hget).1 value)
      · exact absurd rfl ((hkey _ hget).2 entries)
    · rw [Table.text?_set_of_ne new hfirst, h]

theorem keepsTexts_insertNew (new : Value) : KeepsTexts (insertNew stem new) := by
  intro table changed hchange path value h
  rw [insertNew] at hchange
  split at hchange
  · next hnone =>
    cases hchange
    exact text?_set (fun old hold => by rw [hnone] at hold; cases hold) h
  · cases hchange

theorem keepsTexts_appendTable : KeepsTexts (appendTable stem) := by
  intro table changed hchange path value h
  rw [appendTable] at hchange
  split at hchange
  · next hnone =>
    cases hchange
    exact text?_set (fun old hold => by rw [hnone] at hold; cases hold) h
  · next items hitems =>
    cases hchange
    refine text?_set (fun old hold => ?_) h
    rw [hitems] at hold
    cases hold
    exact ⟨fun _ => nofun, fun _ => nofun⟩
  · cases hchange

theorem keepsTexts_ok : KeepsTexts .ok := fun _ _ hchange _ _ h => Except.ok.inj hchange ▸ h

/-- The induction is on the path of the change, with which the path of the text goes along as long
as their keys are the same. -/
theorem KeepsTexts.updateAt {change : Table → Except Fault Table} (hkeeps : KeepsTexts change)
    (throughArrays : Bool) (place : Path) : KeepsTexts (updateAt throughArrays change place) := by
  induction place with
  | nil => exact hkeeps
  | cons key place ih =>
    intro table changed hchange path value h
    rw [Toml.updateAt] at hchange
    split at hchange
    · next hnone =>
      obtain ⟨inner, -, rfl⟩ := exists_of_map_eq_ok hchange
      exact text?_set (fun old hold => by rw [hnone] at hold; cases hold) h
    · next entries hentries =>
      obtain ⟨inner, hinner, rfl⟩ := exists_of_map_eq_ok hchange
      exact Table.text?_set_table hentries (ih _ _ hinner) h
    · next items hitems =>
      split at hchange
      · obtain ⟨inner, -, rfl⟩ := exists_of_map_eq_ok hchange
        refine text?_set (fun old hold => ?_) h
        rw [hitems] at hold
        cases hold
        exact ⟨fun _ => nofun, fun _ => nofun⟩
      · cases hchange
    · cases hchange

/-! ### Statements -/

variable {progress next : Progress} {text left : List Char} {fuel : Nat}

theorem text?_openTable {opened : Path} (h : openTable progress opened = .ok next)
    (htext : progress.root.text? path = some value) : next.root.text? path = some value := by
  rw [openTable] at h
  split at h
  · cases h
  · obtain ⟨root, hroot, rfl⟩ := exists_of_map_eq_ok h
    exact keepsTexts_ok.updateAt true opened _ _ hroot _ _ htext

theorem text?_openItem {opened : Path} (h : openItem progress opened = .ok next)
    (htext : progress.root.text? path = some value) : next.root.text? path = some value := by
  rw [openItem] at h
  split at h
  · cases h
  · obtain ⟨root, hroot, rfl⟩ := exists_of_map_eq_ok h
    exact keepsTexts_appendTable.updateAt true _ _ _ hroot _ _ htext

theorem text?_addPair {place : Path} {new : Value} (h : addPair progress place new = .ok next)
    (htext : progress.root.text? path = some value) : next.root.text? path = some value := by
  rw [addPair] at h
  dsimp only at h
  split at h
  · cases h
  · obtain ⟨root, hroot, h⟩ := exists_of_bind_eq_ok h
    cases h
    exact (keepsTexts_insertNew new).updateAt true _ _ _ hroot _ _ htext

theorem text?_readStatement (h : readStatement progress text = .ok (next, left))
    (htext : progress.root.text? path = some value) : next.root.text? path = some value := by
  rw [readStatement.eq_def] at h
  split at h
  · next rest =>
    obtain ⟨⟨opened, after⟩, hread, h⟩ := exists_of_bind_eq_ok h
    obtain ⟨item, hitem, h⟩ := exists_of_bind_eq_ok h
    split at h
    · cases h
      exact text?_openItem hitem htext
    · cases h
  · next rest _ =>
    obtain ⟨⟨opened, after⟩, hread, h⟩ := exists_of_bind_eq_ok h
    obtain ⟨item, hitem, h⟩ := exists_of_bind_eq_ok h
    split at h
    · cases h
      exact text?_openTable hitem htext
    · cases h
  · split at h
    · obtain ⟨⟨⟨place, new⟩, after⟩, hread, h⟩ := exists_of_bind_eq_ok h
      obtain ⟨item, hitem, h⟩ := exists_of_bind_eq_ok h
      cases h
      exact text?_addPair hitem htext
    · cases h
      exact htext
  · cases h
    exact htext

/-- A text that a document has at a path of tables stays there, whatever is read after it. -/
theorem text?_readStatements (h : readStatements fuel progress text = .ok next)
    (htext : progress.root.text? path = some value) : next.root.text? path = some value := by
  induction fuel generalizing progress text with
  | zero => cases h
  | succ fuel ih =>
    rw [readStatements] at h
    obtain ⟨⟨read, after⟩, hread, h⟩ := exists_of_bind_eq_ok h
    obtain ⟨line, hline, h⟩ := exists_of_bind_eq_ok h
    have hkept := text?_readStatement hread htext
    split at h
    · cases h
      exact hkept
    · exact ih h hkept
    · cases h

end SableFrontend.Toml
