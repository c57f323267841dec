import SableFrontend.Command.Check
import SableFrontend.Proofs.Files.Tree
import SableFrontend.Proofs.Project.Settings
import SableFrontend.Proofs.Token.Naming

/-!
New projects and how they check. The source directory of a new project is always new and holds
nothing but its first file (`Scaffold.get?_makeDirectories`), whatever else stands around it; the
settings and the sources are found again from wherever the project is looked at. So a new project
checks without a word exactly if its settings give its name back, which they do if the name is plain
(`FileTree.loads_withProject_iff`).
-/

namespace SableFrontend

variable {root tree made found : FileTree} {here place : Location} {name : String}

namespace Scaffold

variable {taken steps front : List String} {grown : Bool} {last : String}

/-! ### Directories -/

theorem isLongName_of_makeDirectories (h : makeDirectories taken here grown steps tree = .ok made) :
    ∀ name ∈ steps, Path.isLongName name = false := by
  induction steps generalizing taken here grown tree with
  | nil => simp
  | cons name rest ih =>
    rw [makeDirectories] at h
    split at h
    · cases h
    next hlong =>
    refine List.forall_mem_cons.2 ⟨Bool.eq_false_iff.2 hlong, ?_⟩
    split at h
    · split at h
      · cases h
      · exact ih h
    · split at h
      · cases h
      · exact ih h
    · split at h <;> cases h

/-- Behind the first directory that is made, the last one has to be new. -/
theorem get?_makeDirectories_of_grown
    (h : makeDirectories taken here true (front ++ [last]) tree = .ok made) :
    made.get? ((front ++ [last]).foldl Path.step here) = some .empty := by
  induction front generalizing taken here tree with
  | nil =>
    rw [List.nil_append, makeDirectories] at h
    split at h
    · cases h
    split at h
    · next hnone =>
      cases h
      rw [FileTree.makeDirectory, hnone]
      exact FileTree.get?_put_self ..
    · cases h
    · cases h
  | cons name front ih =>
    rw [List.cons_append, makeDirectories] at h
    split at h
    · cases h
    split at h
    · exact ih h
    · split at h
      · cases h
      · exact ih h
    · cases h

/-- The directory at the end of a path that leads nowhere yet is made anew. -/
theorem get?_makeDirectories
    (h : makeDirectories taken here false (front ++ [last]) tree = .ok made)
    (hhere : ∃ entries, tree.get? here = some (.directory entries))
    (hmissing : ∀ place found, tree.follow here front ≠ .found place found) :
    made.get? ((front ++ [last]).foldl Path.step here) = some .empty := by
  obtain ⟨entries, hentries⟩ := hhere
  induction front generalizing taken here entries with
  | nil =>
    refine absurd ?_ (hmissing here (.directory entries))
    rw [FileTree.follow, hentries]
  | cons name front ih =>
    rw [List.cons_append, makeDirectories] at h
    split at h
    · cases h
    next hlong =>
    split at h
    · split at h
      · cases h
      · rw [List.cons_append, List.foldl_cons]
        exact get?_makeDirectories_of_grown h
    · next found hfound =>
      split at h
      · cases h
      refine ih h (fun place tree hfollow => hmissing place tree ?_) found hfound
      rw [FileTree.follow, hentries]
      dsimp only
      rw [if_neg hlong, hfollow]
    · cases h

/-- The same from the root on, which need not be a directory before. -/
theorem get?_makeDirectories_root
    (h : makeDirectories [] [] false (front ++ [last]) root = .ok made)
    (hmissing : ∀ place found, root.follow [] front ≠ .found place found) :
    made.get? ((front ++ [last]).foldl Path.step []) = some .empty := by
  cases root with
  | directory entries => exact get?_makeDirectories h ⟨entries, rfl⟩ hmissing
  | file text =>
    cases front with
    | nil => exact absurd rfl (hmissing [] (.file text))
    | cons name front =>
      rw [List.cons_append, makeDirectories] at h
      split at h
      · cases h
      split at h
      · split at h
        · cases h
        · rw [List.cons_append, List.foldl_cons]
          exact get?_makeDirectories_of_grown h
      · next found hfound =>
        -- nothing stands below a file
        rw [Path.step] at hfound
        split at hfound
        · cases hfound
        · split at hfound <;> cases hfound
      · cases h

/-! ### Files -/

theorem writable_eq_none {files : List (Path × String)} {written : List (Location × String)}
    (h : writable tree files = (written, none)) :
    written = files.map (fun file => (file.1.resolve [], file.2)) ∧
      ∀ file ∈ files, file.1.isTooLong = false := by
  induction files generalizing written with
  | nil => cases h; exact ⟨rfl, by simp⟩
  | cons file rest ih =>
    obtain ⟨path, text⟩ := file
    rw [writable] at h
    split at h
    · cases h
    next hlong =>
    split at h
    · cases h
    · next hrest =>
      dsimp only at h
      obtain ⟨rfl, hnone⟩ := Prod.mk.inj h
      obtain ⟨hmore, hshort⟩ := ih (Prod.ext rfl hnone)
      exact ⟨congrArg (_ :: ·) hmore,
        List.forall_mem_cons.2 ⟨Bool.eq_false_iff.2 hlong, hshort⟩⟩

/-- Where a new project stands. -/
def location (here : Location) (name : String) : Location := (directory here name).resolve []

theorem directory_absolute (here : Location) (name : String) :
    (directory here name).absolute = true := by
  have happend : ((Path.ofLocation here).append (.ofText name)).absolute = true := by
    rw [Path.append]
    split
    · assumption
    · rfl
  rw [directory, Path.normal]
  simp only [happend, Bool.not_true, Bool.and_false, if_neg Bool.false_ne_true]

theorem moves_of_mem_files :
    ∀ file ∈ files name, ∀ name ∈ file.1, Path.moves name = true ∧ name ≠ ".." := by
  have hplaces : ∀ place ∈ [[Settings.fileName], ["src", "main.sbl"], [".gitignore"]],
      ∀ name ∈ place, Path.moves name = true ∧ name ≠ ".." := by decide
  exact fun file hmem => hplaces file.1 (List.mem_map_of_mem (f := Prod.fst) hmem)

/-- What making a project as a whole takes: nothing may stand in its place, its directories can be
made, and no path in it is too long. -/
theorem scaffold_eq_none {files : List (Location × String)}
    (h : root.scaffold here name = (files, none)) :
    ∃ made, makeDirectories [] [] false ((directory here name).steps ++ ["src"]) root = .ok made ∧
      (directory here name).isUsable = true ∧
      (∀ place found, root.follow [] (directory here name).steps ≠ .found place found) ∧
      files = (Scaffold.files name).map (fun file => (location here name ++ file.1, file.2)) ∧
      ∀ file ∈ Scaffold.files name,
        (Path.ofLocation (location here name ++ file.1)).isTooLong = false := by
  rw [FileTree.scaffold] at h
  dsimp only at h
  split at h
  · cases h
  next husable =>
  split at h
  · cases h
  · cases h
  next hfound hlong =>
  split at h
  · cases h
  split at h
  · cases h
  next made hmade =>
  obtain ⟨hfiles, hshort⟩ := writable_eq_none h
  have habsolute := directory_absolute here name
  refine ⟨made, hmade, by simpa using husable, fun place found hfollow => ?_, ?_,
    fun file hmem => ?_⟩
  · have hfind : root.lookup [] (directory here name) = .found place found := by
      rw [FileTree.lookup] at hlong ⊢
      split at hlong
      · exact absurd rfl hlong
      · next hshort => rw [if_neg hshort, Path.origin, habsolute, if_pos rfl, hfollow]
    exact hfound _ _ hfind
  · rw [hfiles, List.map_map]
    refine List.map_congr_left fun file hmem => ?_
    exact Prod.ext (Path.resolve_append (moves_of_mem_files file hmem)) rfl
  · exact Path.isTooLong_resolve habsolute (hshort (_, file.2) (List.mem_map.2 ⟨file, hmem, rfl⟩))

end Scaffold

namespace FileTree

/-- A tree with files written into it. -/
def write (tree : FileTree) (files : List (Location × String)) : FileTree :=
  files.foldl (fun tree file => tree.put file.1 (.file file.2)) tree

/-- Files that are written below a location are written into what stands there. -/
theorem get?_write {files : List (Location × String)} (hne : files ≠ []) :
    (tree.write (files.map fun file => (place ++ file.1, file.2))).get? place =
      some (((tree.get? place).getD empty).write files) := by
  induction files generalizing tree with
  | nil => exact absurd rfl hne
  | cons file rest ih =>
    cases rest with
    | nil => exact get?_put_append
    | cons next rest =>
      refine (ih (List.cons_ne_nil next rest)).trans ?_
      rw [get?_put_append]
      rfl

/-- What stands in a new project whose source directory was new. -/
theorem get?_write_files (name : String) (hsources : tree.get? ["src"] = some .empty) :
    (tree.write (Scaffold.files name)).get? [Settings.fileName] =
        some (.file (Scaffold.settingsText name)) ∧
      (tree.write (Scaffold.files name)).get? ["src"] =
        some (.directory [("main.sbl", .file Scaffold.mainText)]) := by
  show (((tree.put [Settings.fileName] _).put ["src", "main.sbl"] _).put [".gitignore"] _).get? _ =
      _ ∧ (((tree.put [Settings.fileName] _).put ["src", "main.sbl"] _).put [".gitignore"] _).get? _ =
      _
  constructor
  · rw [get?_put_of_ne (by decide), get?_put_of_ne (by decide), get?_put_self]
  · rw [get?_put_of_ne (by decide)]
    have happend : ["src", "main.sbl"] = ["src"] ++ ["main.sbl"] := rfl
    rw [happend, get?_put_append, get?_put_of_ne (by decide), hsources]
    rfl

/-- The tree as it is once a project has been made in it: with its directories, and the files that
were written. -/
def withProject (root : FileTree) (here : Location) (name : String) : FileTree :=
  match Scaffold.makeDirectories [] [] false ((Scaffold.directory here name).steps ++ ["src"])
      root with
  | .ok made => made.write (root.scaffold here name).1
  | .error _ => root

/-- A project that has been made, with nothing in its source directory but the first file. -/
structure HoldsProject (tree : FileTree) (place : Location) (name : String) : Prop where
  names : ∀ step ∈ place, Path.IsName step
  usable : ∀ step ∈ place, step.toList.contains '\x00' = false
  short : ∀ file ∈ Scaffold.files name, (Path.ofLocation (place ++ file.1)).isTooLong = false
  settings : tree.get? (place ++ [Settings.fileName]) = some (.file (Scaffold.settingsText name))
  sources : tree.get? (place ++ ["src"]) = some (.directory [("main.sbl", .file Scaffold.mainText)])

theorem holdsProject_withProject {files : List (Location × String)}
    (h : root.scaffold here name = (files, none)) :
    (root.withProject here name).HoldsProject (Scaffold.location here name) name := by
  obtain ⟨made, hmade, husable, hmissing, hfiles, hshort⟩ := Scaffold.scaffold_eq_none h
  have hlong := Scaffold.isLongName_of_makeDirectories hmade
  have horigin : (Scaffold.directory here name).origin [] = [] := by
    rw [Path.origin]
    split <;> rfl
  have hname : ∀ step ∈ Scaffold.location here name,
      step ∈ (Scaffold.directory here name).steps ∧ Path.moves step = true ∧ step ≠ ".." := by
    intro step hstep
    rw [Scaffold.location, Path.resolve, horigin] at hstep
    exact (Path.mem_foldl_step hstep).resolve_left List.not_mem_nil
  have hnew : made.get? (Scaffold.location here name ++ ["src"]) = some .empty := by
    have hsrc : ∀ step ∈ ["src"], Path.moves step = true ∧ step ≠ ".." := by decide
    rw [← Scaffold.get?_makeDirectories_root hmade hmissing, List.foldl_append,
      Path.foldl_step_eq hsrc, Scaffold.location, Path.resolve, horigin]
  have hwritten : root.withProject here name =
      made.write ((Scaffold.files name).map fun file =>
        (Scaffold.location here name ++ file.1, file.2)) := by
    rw [withProject, hmade, h, hfiles]
  have hplace : (root.withProject here name).get? (Scaffold.location here name) =
      some (((made.get? (Scaffold.location here name)).getD empty).write (Scaffold.files name)) := by
    have hne : Scaffold.files name ≠ [] := List.cons_ne_nil _ _
    rw [hwritten, get?_write hne]
  have hsources : ((made.get? (Scaffold.location here name)).getD empty).get? ["src"] =
      some .empty := by
    rw [get?_append] at hnew
    obtain ⟨inner, hinner, hsrc⟩ := Option.bind_eq_some_iff.1 hnew
    rw [hinner]
    exact hsrc
  have hfound := get?_write_files name hsources
  refine ⟨fun step hstep => ⟨?_, (hname step hstep).2⟩, fun step hstep => ?_, hshort, ?_, ?_⟩
  · exact hlong step (List.mem_append_left _ (hname step hstep).1)
  · have hall := List.all_eq_true.1 husable step (hname step hstep).1
    simpa using hall
  · rw [get?_append, hplace]
    exact hfound.1
  · rw [get?_append, hplace]
    exact hfound.2

/-! ### Checking -/

theorem loadSettings_of_get? {text : String} (h : tree.get? place = some (.file text)) :
    tree.loadSettings place = (Settings.ofText text).mapError .settings := by
  rw [loadSettings, h]
  rfl

/-- The first source file of a project has no diagnostics, whatever it is called. -/
theorem checkFile_mainText (settings : Settings) {path : Path} (hshort : path.isTooLong = false) :
    checkFile settings path (.file Scaffold.mainText) = .ok ([], true) := by
  have hread : readText Scaffold.mainText = Scaffold.mainText := by decide +kernel
  have hunnamed : ∃ tokens, Token.ofText Scaffold.mainText "" = .ok tokens := by
    have hlexes : (Token.ofText Scaffold.mainText "").toOption.isSome = true := by decide +kernel
    cases h : Token.ofText Scaffold.mainText "" with
    | error => rw [h] at hlexes; cases hlexes
    | ok tokens => exact ⟨tokens, rfl⟩
  have hclean : (parseSource Scaffold.mainText "").toOption.any (·.diagnostics.isEmpty) = true := by
    decide +kernel
  obtain ⟨tokens, htokens⟩ := hunnamed
  have hmoved : ParseResult.Moved (.named path.text) (parseSource Scaffold.mainText "")
      (parseSource Scaffold.mainText path.text) := parseSource_named htokens
  rw [checkFile, hshort, if_neg Bool.false_ne_true]
  dsimp only
  rw [hread]
  cases hunnamed : parseSource Scaffold.mainText "" with
  | error => rw [hunnamed] at hclean; cases hclean
  | ok result =>
    rw [hunnamed] at hclean hmoved
    cases hnamed : parseSource Scaffold.mainText path.text with
    | error => rw [hnamed] at hmoved; cases hmoved
    | ok result' =>
      rw [hnamed] at hmoved
      have hnone : result'.diagnostics = [] := by
        rw [hmoved.2, List.isEmpty_iff.1 hclean]
        rfl
      dsimp only
      rw [hnone]
      rfl

namespace HoldsProject

variable (h : tree.HoldsProject place name)

include h

theorem isName_append {rest : Location} (hrest : ∀ step ∈ rest, Path.IsName step) :
    ∀ step ∈ place ++ rest, Path.IsName step :=
  List.forall_mem_append.2 ⟨h.names, hrest⟩

theorem short_prefix {front : Location} (hfront : front <+: place ++ ["src", "main.sbl"]) :
    (Path.ofLocation front).isTooLong = false := by
  obtain ⟨rest, hrest⟩ := hfront
  have hlong := h.short (["src", "main.sbl"], Scaffold.mainText) (by simp [Scaffold.files])
  rw [← hrest] at hlong
  exact Path.isTooLong_of_append hlong

theorem exists_directory : ∃ entries, tree.get? place = some (.directory entries) := by
  have hsources := h.sources
  rw [get?_append] at hsources
  obtain ⟨inner, hinner, hsrc⟩ := Option.bind_eq_some_iff.1 hsources
  have hdirectory := isDirectory_of_get?_cons hsrc
  cases inner with
  | file => cases hdirectory
  | directory entries => exact ⟨entries, hinner⟩

/-- The settings of a project are found from every path that leads to it. -/
theorem findSettings {there : Location} {path : Path} (husable : path.isUsable = true)
    (hresolve : path.resolve there = place) :
    tree.findSettings there path = .ok (place ++ [Settings.fileName]) := by
  obtain ⟨entries, hentries⟩ := h.exists_directory
  have hplace : tree.lookupLocation place = .found place (.directory entries) :=
    lookupLocation_of_get? h.names (h.short_prefix (List.prefix_append ..)) hentries
  have hsettings : tree.lookupLocation (place ++ [Settings.fileName]) = .found _ _ :=
    lookupLocation_of_get? (h.isName_append (by decide))
      (h.short (_, Scaffold.settingsText name) (List.mem_cons_self ..)) h.settings
  rw [FileTree.findSettings, husable, Bool.not_true, if_neg Bool.false_ne_true]
  dsimp only
  rw [hresolve, hplace]
  dsimp only
  rw [settingsAbove.eq_def]
  dsimp only
  rw [hsettings]

/-- The one source of a new project is its first file. -/
theorem projectSources :
    tree.projectSources place [.text "src"] =
      .ok [(.ofLocation (place ++ ["src", "main.sbl"]), .file Scaffold.mainText)] := by
  have hdirectory : sourceDirectory place "src" = .ofLocation (place ++ ["src"]) := by
    have hmoves : (place ++ ["src"]).filter Path.moves = place ++ ["src"] :=
      List.filter_eq_self.2 fun step hstep => (h.isName_append (by decide) step hstep).2.1
    show Path.normal { absolute := true, steps := place ++ ["src"] } = _
    rw [Path.normal]
    dsimp only
    rw [hmoves, Bool.not_true, Bool.and_false, if_neg Bool.false_ne_true]
    rfl
  have husable : (Path.ofLocation (place ++ ["src"])).isUsable = true := by
    refine List.all_eq_true.2 fun step hstep => ?_
    rcases List.mem_append.1 hstep with hplace | hsrc
    · rw [h.usable step hplace]
      rfl
    · rw [List.mem_singleton.1 hsrc]
      rfl
  have hshort : (Path.ofLocation (place ++ ["src"])).isTooLong = false :=
    h.short_prefix ⟨["main.sbl"], by rw [List.append_assoc]; rfl⟩
  have hlookup : tree.lookup [] (.ofLocation (place ++ ["src"])) = .found _ _ :=
    lookupLocation_of_get? (h.isName_append (by decide)) hshort h.sources
  have hbelow : pathsBelow (.ofLocation (place ++ ["src"]))
      (.directory [("main.sbl", .file Scaffold.mainText)]) =
      [(.ofLocation (place ++ ["src", "main.sbl"]), .file Scaffold.mainText)] := by
    simp [pathsBelow, descendants, descendantsOf, Path.ofLocation]
  have hitem : tree.itemSources place (.text "src") =
      .ok [(.ofLocation (place ++ ["src", "main.sbl"]), .file Scaffold.mainText)] := by
    rw [itemSources, hdirectory, husable, Bool.not_true, if_neg Bool.false_ne_true, hlookup]
    dsimp only
    rw [sourcesBelow, hbelow]
    have hnamed : isSourceName (place ++ ["src", "main.sbl"]) = true := by
      rw [isSourceName, List.getLast?_append]
      show (some "main.sbl").any _ = true
      decide
    simp [hnamed, isDirectory, Path.ofLocation]
  rw [FileTree.projectSources, hitem]
  rfl

/-- A project whose settings give its name back checks without a word. -/
theorem check {there : Location} {path : Path} (hplain : ∀ c ∈ name.toList, Toml.IsPlain c)
    (husable : path.isUsable = true) (hresolve : path.resolve there = place)
    (entries : List (String × FileTree)) :
    tree.check there path (.directory entries) =
      { messages := [⟨.output, "checking " ++ name ++ "..."⟩,
          ⟨.output, "checked " ++ name ++ " - no errors"⟩]
        verdict := .success } := by
  have hload : tree.loadSettings (place ++ [Settings.fileName]) =
      .ok (Scaffold.settings name) := by
    rw [loadSettings_of_get? h.settings, Settings.ofText_settingsText_of_plain hplain]
    rfl
  have hfile := checkFile_mainText (Scaffold.settings name)
    (h.short_prefix (List.prefix_refl (place ++ ["src", "main.sbl"])))
  have hfiles : checkFiles (Scaffold.settings name)
      [(.ofLocation (place ++ ["src", "main.sbl"]), .file Scaffold.mainText)] =
      { messages := [], verdict := .success } := by
    rw [checkFiles, hfile]
    rfl
  rw [FileTree.check, h.findSettings husable hresolve]
  dsimp only
  rw [checkProject, hload]
  dsimp only
  rw [show (Scaffold.settings name).name.display = .ok name from rfl]
  dsimp only
  rw [show (Scaffold.settings name).sourceDirItems? = some [.text "src"] from rfl,
    List.dropLast_concat]
  dsimp only
  rw [h.projectSources]
  dsimp only
  rw [hfiles]
  rfl

end HoldsProject

/-- The settings of a new project give its name back exactly if the name is plain: without quotes,
backslashes and control characters other than the tabulator. A project with such a name has its one
source directory in its settings, and checks without a word from wherever it is checked. -/
theorem loads_withProject_iff {files : List (Location × String)}
    (h : root.scaffold here name = (files, none)) :
    ((∃ settings, (root.withProject here name).loadSettings
          (Scaffold.location here name ++ [Settings.fileName]) = .ok settings ∧
        settings.name = .text name) ↔ ∀ c ∈ name.toList, Toml.IsPlain c) ∧
      ((∀ c ∈ name.toList, Toml.IsPlain c) →
        (∃ settings, (root.withProject here name).loadSettings
            (Scaffold.location here name ++ [Settings.fileName]) = .ok settings ∧
          settings.name = .text name ∧ settings.sourceDirs = .array [.text "src"]) ∧
        ∃ entries, (root.withProject here name).get? (Scaffold.location here name) =
            some (.directory entries) ∧
          ∀ (there : Location) (path : Path), path.isUsable = true →
            path.resolve there = Scaffold.location here name →
            (root.withProject here name).check there path (.directory entries) =
              { messages := [⟨.output, "checking " ++ name ++ "..."⟩,
                  ⟨.output, "checked " ++ name ++ " - no errors"⟩]
                verdict := .success }) := by
  have hproject := holdsProject_withProject h
  have hload : (root.withProject here name).loadSettings
      (Scaffold.location here name ++ [Settings.fileName]) =
        (Settings.ofText (Scaffold.settingsText name)).mapError .settings :=
    loadSettings_of_get? hproject.settings
  rw [hload]
  refine ⟨⟨fun hloads => ?_, fun hplain => ?_⟩, fun hplain => ⟨?_, ?_⟩⟩
  · obtain ⟨settings, hsettings, hname⟩ := hloads
    refine Decidable.byContradiction fun hplain => ?_
    cases htext : Settings.ofText (Scaffold.settingsText name) with
    | error => rw [htext] at hsettings; cases hsettings
    | ok read =>
      rw [htext] at hsettings
      cases hsettings
      obtain ⟨value, hvalue, hlength⟩ := Settings.name_of_ofText_settingsText hplain htext
      rw [hname] at hvalue
      cases hvalue
      exact Nat.lt_irrefl _ hlength
  · exact ⟨_, by rw [Settings.ofText_settingsText_of_plain hplain]; rfl, rfl⟩
  · exact ⟨_, by rw [Settings.ofText_settingsText_of_plain hplain]; rfl, rfl, rfl⟩
  · obtain ⟨entries, hentries⟩ := hproject.exists_directory
    exact ⟨entries, hentries, fun there path husable hresolve =>
      hproject.check hplain husable hresolve entries⟩

/-- A project with a plain name. -/
theorem exists_loads_withProject :
    ∃ files, empty.scaffold ["work"] "a b" = (files, none) ∧
      (∀ c ∈ "a b".toList, Toml.IsPlain c) ∧
      ∃ settings, (empty.withProject ["work"] "a b").loadSettings
          ["work", "a b", Settings.fileName] = .ok settings ∧ settings.name = .text "a b" := by
  have hfault : (empty.scaffold ["work"] "a b").2 = none := by decide +kernel
  have hall : "a b".toList.all (fun c => decide (Toml.IsPlain c)) = true := by decide +kernel
  have hplain : ∀ c ∈ "a b".toList, Toml.IsPlain c := fun c hc =>
    of_decide_eq_true (List.all_eq_true.1 hall c hc)
  have h : empty.scaffold ["work"] "a b" = ((empty.scaffold ["work"] "a b").1, none) :=
    Prod.ext rfl hfault
  have hplace : Scaffold.location ["work"] "a b" = ["work", "a b"] := by decide +kernel
  have hloads := (loads_withProject_iff h).1.2 hplain
  rw [hplace] at hloads
  exact ⟨_, h, hplain, hloads⟩

/-- A quote in the name of a project ends the name in its settings, which cannot be read then. -/
theorem exists_scaffold_unreadable :
    ∃ files, empty.scaffold ["work"] "q\"uote" = (files, none) ∧
      ¬∃ settings, (empty.withProject ["work"] "q\"uote").loadSettings
          ["work", "q\"uote", Settings.fileName] = .ok settings := by
  have hfault : (empty.scaffold ["work"] "q\"uote").2 = none := by decide +kernel
  have hplace : Scaffold.location ["work"] "q\"uote" = ["work", "q\"uote"] := by decide +kernel
  have h : empty.scaffold ["work"] "q\"uote" = ((empty.scaffold ["work"] "q\"uote").1, none) :=
    Prod.ext rfl hfault
  have hsettings := (holdsProject_withProject h).settings
  rw [hplace, List.cons_append, List.cons_append, List.nil_append] at hsettings
  have hunreadable : (Settings.ofText (Scaffold.settingsText "q\"uote")).toOption.isNone = true := by
    decide +kernel
  refine ⟨_, h, fun ⟨settings, hload⟩ => ?_⟩
  rw [loadSettings_of_get? hsettings] at hload
  cases htext : Settings.ofText (Scaffold.settingsText "q\"uote") with
  | error fault =>
    rw [htext] at hload
    cases hload
  | ok read =>
    rw [htext] at hunreadable
    cases hunreadable

end FileTree

end SableFrontend
