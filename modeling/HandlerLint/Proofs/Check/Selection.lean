import HandlerLint.Check.Selection
import HandlerLint.Proofs.Files.Thinning
import HandlerLint.Proofs.Text.ByteOrder

/-!
# Which files are selected

Directories are left out while a walk goes on, by their names; files are left out after
it, by their language, their path below the root and their names.  Together the two give
the files that are wanted: nothing that is wanted lies in a directory that the walk does
not enter, and nothing else is kept.  The files come in the order of their paths, component
by component and byte by byte, and a walk over the same entries in another table selects
the same files.
-/

namespace HandlerLint

open HandlerLint.Files
open HandlerLint.Text

/-! ## Components in bytes -/

namespace Path

/-- The text of a component. -/
def Component.text : Component → List Char
  | .root => ['/']
  | .current => ['.']
  | .parent => ['.', '.']
  | .normal name => name

/-- The components of a path, each as its bytes. -/
def componentBytes (path : String) : List (List UInt8) :=
  (components path.toList).map fun component => encode (String.ofList component.text)

theorem componentBytes_pathBelow
    {root : String} {trail : List String}
    (hroot : root ≠ "") (htrail : ∀ name ∈ trail, isName name = true) :
    componentBytes (pathBelow root trail) = componentBytes root ++ trail.map encode := by
  have hnamed := isNamed_of_mem_map_toList htrail
  rw [componentBytes, toList_pathBelow, components_below (toList_ne_nil hroot) hnamed,
    List.map_append, componentBytes, List.map_map, List.map_map]
  congr 2
  funext name
  simp [Component.text]

theorem map_encode_lt
    {first second : List String} (h : first < second) :
    first.map encode < second.map encode := by
  have hlex : List.Lex (· < ·) first second := h
  induction hlex with
  | nil => exact List.nil_lt_cons _ _
  | cons hlex ih => exact List.cons_lt_cons_iff.mpr (.inr ⟨rfl, ih hlex⟩)
  | rel hlt => exact List.cons_lt_cons_iff.mpr (.inl (encode_lt_encode hlt))

end Path

namespace Config

variable {config : Config} {workspace : Workspace} {root name : String}
  {names trail selected : List String}

/-! ## What is kept -/

theorem joinWith_eq_intercalate
    (pieces : List (List Char)) :
    joinWith '/' pieces = ['/'].intercalate pieces := by
  induction pieces with
  | nil => rfl
  | cons piece pieces ih =>
      cases pieces with
      | nil => simp [joinWith, List.intercalate]
      | cons next pieces => simp [joinWith, ih, List.intercalate]

/-- What is left of a path below the root is the names. -/
theorem stripBase?_pathBelow
    (hroot : root ≠ "") (htrail : ∀ name ∈ trail, isName name = true) (hne : trail ≠ []) :
    Path.stripBase? root.toList (pathBelow root trail).toList =
      some ("/".intercalate trail).toList := by
  rw [toList_pathBelow,
    Path.stripBase?_below (toList_ne_nil hroot) (isNamed_of_mem_map_toList htrail)
      (by simpa using hne),
    joinWith_eq_intercalate, String.toList_intercalate]
  rfl

theorem fileName?_pathBelow
    (hroot : root ≠ "") (htrail : ∀ segment ∈ names ++ [name], isName segment = true) :
    Path.fileName? (pathBelow root (names ++ [name])).toList = some name.toList := by
  have hnamed := isNamed_of_mem_map_toList htrail
  rw [List.map_append, List.forall_mem_append] at hnamed
  rw [toList_pathBelow, List.map_append]
  exact Path.fileName?_below (toList_ne_nil hroot) hnamed.1 (hnamed.2 _ List.mem_cons_self)

theorem excludes_eq_false_iff
    {path : String} :
    config.excludes path = false ↔
      ∀ pattern ∈ config.excludedPaths, ∀ tokens, Glob.parse pattern = .ok tokens →
        Glob.matchesPath tokens path = false := by
  rw [excludes, List.any_eq_false]
  constructor
  · intro h pattern hpattern tokens hparse
    have hmatch := h pattern hpattern
    rw [Glob.isMatch, hparse] at hmatch
    exact Bool.eq_false_iff.mpr hmatch
  · intro h pattern hpattern
    rw [Glob.isMatch]
    split
    · next tokens hparse => exact Bool.eq_false_iff.mp (h pattern hpattern tokens hparse)
    · exact Bool.false_ne_true

theorem enters_eq_true_iff :
    config.enters name = true ↔
      (name.toList.head? ≠ some '.' ∧ name ≠ "vendor" ∧ name ≠ "node_modules") ∧
        (config.includesTests = false → name ∉ testDirectories) := by
  cases htests : config.includesTests
  · simp [enters, isSkipped, htests, and_assoc]
  · simp [enters, isSkipped, htests, and_assoc]

/-- A file below a root is one that is looked at. -/
structure Selects
    (config : Config) (workspace : Workspace) (root : String) (names : List String)
    (name : String) : Prop where
  /-- The names lead from the root to a file. -/
  hasFile : workspace.HasFile root (names ++ [name])
  /-- The extension belongs to a language. -/
  language : (Language.ofPath? (pathBelow root (names ++ [name]))).isSome = true
  /-- No directory on the way is hidden or has the code of others. -/
  visible : ∀ directory ∈ names,
    directory.toList.head? ≠ some '.' ∧ directory ≠ "vendor" ∧ directory ≠ "node_modules"
  /-- No directory on the way holds tests, if tests are left out. -/
  apart : config.includesTests = false → ∀ directory ∈ names, directory ∉ testDirectories
  /-- No pattern that is one matches the path below the root. -/
  unmatched : ∀ pattern ∈ config.excludedPaths, ∀ tokens, Glob.parse pattern = .ok tokens →
    Glob.matchesPath tokens ("/".intercalate (names ++ [name])) = false
  /-- The name is not that of a test, if tests are left out. -/
  untested : config.includesTests = false → isTestName name.toList = false

theorem keeps_pathBelow_iff
    (hroot : root ≠ "") (htrail : ∀ segment ∈ names ++ [name], isName segment = true) :
    config.keeps root (pathBelow root (names ++ [name])) = true ↔
      (Language.ofPath? (pathBelow root (names ++ [name]))).isSome = true ∧
        config.excludes ("/".intercalate (names ++ [name])) = false ∧
        (config.includesTests = false → isTestName name.toList = false) := by
  rw [keeps, stripBase?_pathBelow hroot htrail (by simp), fileName?_pathBelow hroot htrail,
    Option.getD_some, Option.getD_some, String.ofList_toList]
  cases htests : config.includesTests
  · simp [and_assoc]
  · simp

/-- The trails that a walk takes to files that are kept are those that are wanted. -/
theorem isTrail_and_keeps_iff
    (hroot : root ≠ "") :
    workspace.IsTrail config.enters root trail ∧ config.keeps root (pathBelow root trail) = true ↔
      ∃ names name, trail = names ++ [name] ∧ config.Selects workspace root names name := by
  constructor
  · rintro ⟨⟨hne, hfile, hentered⟩, hkeeps⟩
    obtain ⟨names, name, rfl⟩ : ∃ names name, trail = names ++ [name] :=
      ⟨trail.dropLast, trail.getLast hne, (List.dropLast_append_getLast hne).symm⟩
    obtain ⟨location, bytes, hreaches, -⟩ := id hfile
    rw [keeps_pathBelow_iff hroot hreaches.isName_of_mem, excludes_eq_false_iff] at hkeeps
    rw [List.dropLast_concat] at hentered
    simp only [enters_eq_true_iff] at hentered
    refine ⟨names, name, rfl, hfile, hkeeps.1, ?_, ?_, hkeeps.2.1, hkeeps.2.2⟩
    · exact fun directory hdirectory => (hentered directory hdirectory).1
    · exact fun htests directory hdirectory => (hentered directory hdirectory).2 htests
  · rintro ⟨names, name, rfl, hselects⟩
    obtain ⟨location, bytes, hreaches, -⟩ := hselects.hasFile
    refine ⟨⟨by simp, hselects.hasFile, ?_⟩, ?_⟩
    · rw [List.dropLast_concat]
      intro directory hdirectory
      rw [enters_eq_true_iff]
      exact ⟨hselects.visible directory hdirectory,
        fun htests => hselects.apart htests directory hdirectory⟩
    · rw [keeps_pathBelow_iff hroot hreaches.isName_of_mem, excludes_eq_false_iff]
      exact ⟨hselects.language, hselects.unmatched, hselects.untested⟩

/-! ## What is selected -/

/-- The selected files are those of some trails, in the order of the trails. -/
theorem exists_trails_of_select
    (hdirectory : workspace.isDirectory root = true)
    (h : config.select workspace root = .ok selected) :
    ∃ trails : List (List String), selected = trails.map (pathBelow root) ∧
      trails.Pairwise (· < ·) ∧
      ∀ trail, trail ∈ trails ↔
        ∃ names name, trail = names ++ [name] ∧ config.Selects workspace root names name := by
  obtain ⟨location, hresolve, -⟩ := Workspace.isDirectory_iff.mp hdirectory
  have hroot := Workspace.ne_empty_of_resolve hresolve
  rw [select] at h
  cases hwalk : workspace.walk config.enters root with
  | error error =>
      rw [hwalk] at h
      cases h
  | ok found =>
      rw [hwalk] at h
      obtain ⟨trails, rfl, hsorted, hmem⟩ := Workspace.listsTrails_walk hdirectory hwalk
      refine ⟨trails.filter fun trail => config.keeps root (pathBelow root trail), ?_,
        hsorted.filter _, ?_⟩
      · have hselected : (trails.map (pathBelow root)).filter (config.keeps root) = selected := by
          simpa [Except.map] using h
        rw [← hselected, List.filter_map]
        rfl
      · intro trail
        rw [List.mem_filter, hmem, isTrail_and_keeps_iff hroot]

theorem get?_eq_of_perm
    {files others : FileSystem} (h : others.entries.Perm files.entries)
    (location : Files.Location) :
    others.get? location = files.get? location := by
  by_cases hroot : location = []
  · rw [hroot, others.get?_root, files.get?_root]
  · apply Option.ext
    intro entry
    rw [FileSystem.get?_eq_some_iff hroot, FileSystem.get?_eq_some_iff hroot, h.mem_iff]

/-- Selecting files in a directory gives exactly the files that are wanted, each once and
in the order of their components, whatever order the entries are listed in. -/
theorem select_lists_wanted_files
    (config : Config) (workspace : Workspace) (root : String) (selected : List String)
    (hdirectory : workspace.isDirectory root = true)
    (h : config.select workspace root = .ok selected) :
    (∀ path, path ∈ selected ↔
        ∃ names name, path = pathBelow root (names ++ [name]) ∧
          config.Selects workspace root names name) ∧
      selected.Pairwise (fun first second =>
        Path.componentBytes first < Path.componentBytes second) ∧
      selected.Nodup ∧
      ∀ others : FileSystem, others.entries.Perm workspace.files.entries →
        config.select { workspace with files := others } root = .ok selected := by
  obtain ⟨location, hresolve, -⟩ := Workspace.isDirectory_iff.mp hdirectory
  have hroot := Workspace.ne_empty_of_resolve hresolve
  obtain ⟨trails, hselected, hsorted, hmem⟩ := exists_trails_of_select hdirectory h
  have hordered : selected.Pairwise (fun first second =>
      Path.componentBytes first < Path.componentBytes second) := by
    have hnames : ∀ trail ∈ trails, ∀ name ∈ trail, isName name = true := by
      intro trail htrail
      obtain ⟨names, name, rfl, hselects⟩ := (hmem trail).mp htrail
      obtain ⟨_, _, hreaches, _⟩ := hselects.hasFile
      exact hreaches.isName_of_mem
    rw [hselected, List.pairwise_map]
    refine hsorted.imp_of_mem ?_
    intro first second hfirst hsecond hlt
    rw [Path.componentBytes_pathBelow hroot (hnames first hfirst),
      Path.componentBytes_pathBelow hroot (hnames second hsecond)]
    exact List.append_left_lt (Path.map_encode_lt hlt)
  refine ⟨?_, hordered, ?_, ?_⟩
  · intro path
    rw [hselected, List.mem_map]
    constructor
    · rintro ⟨trail, htrail, rfl⟩
      obtain ⟨names, name, rfl, hselects⟩ := (hmem trail).mp htrail
      exact ⟨names, name, rfl, hselects⟩
    · rintro ⟨names, name, rfl, hselects⟩
      exact ⟨_, (hmem _).mpr ⟨names, name, rfl, hselects⟩, rfl⟩
  · refine hordered.imp ?_
    rintro first _ hlt rfl
    exact List.lt_irrefl _ hlt
  · intro others hperm
    have hwalk : ({ workspace with files := others } : Workspace).walk config.enters root =
        workspace.walk config.enters root := by
      apply Workspace.walk_eq_of_get?_eq
      · rfl
      · exact get?_eq_of_perm hperm
    rw [← h, select, select, hwalk]

/-- A file, a link to a file in a directory with the code of others, and that directory. -/
def sampleWorkspace : Workspace :=
  { files :=
      { entries :=
          [(["a.py"], .file []), (["more.py"], .link "vendor/b.py"), (["vendor"], .directory),
            (["vendor", "b.py"], .file [])]
        distinct := by decide
        grounded := by decide
        named := by decide }
    base := [] }

theorem sampleWorkspace_resolve_root :
    sampleWorkspace.resolve "." = .ok [] := by
  apply Workspace.resolve_of_run (by decide)
  exact .single (.stay (by decide) (by decide))

theorem sampleWorkspace_resolve_link :
    sampleWorkspace.resolve "./more.py" = .ok ["vendor", "b.py"] := by
  apply Workspace.resolve_of_run (by decide)
  have hlink : sampleWorkspace.files.get? ([] ++ ["more.py"]) = some (.link "vendor/b.py") := by
    decide
  have hdirectory : sampleWorkspace.files.get? ([] ++ ["vendor"]) = some .directory := by decide
  have hfile : sampleWorkspace.files.get? (["vendor"] ++ ["b.py"]) = some (.file []) := by decide
  exact .head (.stay (by decide) (.inr rfl)) (.head (.through hlink)
    (.head (.onto hdirectory (by simp)) (.single (.onto hfile (by simp)))))

theorem sampleWorkspace_select :
    Config.empty.select sampleWorkspace "." = .ok ["./a.py", "./more.py"] := by
  have hnames : sampleWorkspace.files.names [] = ["a.py", "more.py", "vendor"] :=
    List.mergeSort_of_pairwise (by decide)
  have hlink : sampleWorkspace.sight [] ⟨[], "."⟩ "more.py" = .file := by
    have hentry : sampleWorkspace.files.get? ([] ++ ["more.py"]) = some (.link "vendor/b.py") := by
      decide
    have hpath : childPath "." "more.py" = "./more.py" := by decide
    rw [Workspace.sight, hentry, hpath, sampleWorkspace_resolve_link]
    rfl
  have hvisit : sampleWorkspace.visit Config.empty.enters sampleWorkspace.files.directories []
      ⟨[], "."⟩ "more.py" = .ok ["./more.py"] := by
    rw [Workspace.visit, hlink]
    rfl
  rw [select, Workspace.walk_eq_filesBelow sampleWorkspace_resolve_root rfl,
    Workspace.filesBelow_eq_gather (Workspace.covers_directories _ _)]
  dsimp only
  rw [hnames, gather_cons_of_ok rfl, gather_cons_of_ok hvisit, gather_cons_of_ok rfl]
  rfl

/-- A file is selected through a link, though it lies in a directory that is not entered. -/
theorem sampleWorkspace_lists_wanted_files :
    sampleWorkspace.isDirectory "." = true ∧
      Config.empty.select sampleWorkspace "." = .ok ["./a.py", "./more.py"] ∧
      ∀ path, path ∈ ["./a.py", "./more.py"] ↔
        ∃ names name, path = pathBelow "." (names ++ [name]) ∧
          Config.empty.Selects sampleWorkspace "." names name := by
  have hdirectory : sampleWorkspace.isDirectory "." = true :=
    Workspace.isDirectory_iff.mpr ⟨[], sampleWorkspace_resolve_root, rfl⟩
  have hselected := select_lists_wanted_files Config.empty sampleWorkspace "." _ hdirectory
    sampleWorkspace_select
  exact ⟨hdirectory, sampleWorkspace_select, hselected.1⟩

end Config

end HandlerLint
