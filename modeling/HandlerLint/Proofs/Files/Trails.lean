import HandlerLint.Proofs.Files.Traversal

/-!
# The trails of a walk

A trail is the names that lead from the root of a walk to a file, through the entries of
directories and with links followed.  A walk that gets through lists the paths of exactly
those trails on which every directory is entered, and it lists them in the order of the
trails, name by name.
-/

namespace HandlerLint.Files

namespace Workspace

/-- Some names lead from a path to a location through the entries of directories. -/
inductive Reaches (workspace : Workspace) : String → List String → Location → Prop
  | here {path : String} {location : Location}
      (hresolve : workspace.resolve path = .ok location) :
      Reaches workspace path [] location
  | inside {path name : String} {names : List String} {directory location : Location}
      (hresolve : workspace.resolve path = .ok directory)
      (hname : name ∈ workspace.files.names directory)
      (hrest : Reaches workspace (childPath path name) names location) :
      Reaches workspace path (name :: names) location

/-- Some names lead from a path to a file. -/
def HasFile (workspace : Workspace) (path : String) (trail : List String) : Prop :=
  ∃ location bytes, workspace.Reaches path trail location ∧
    workspace.files.get? location = some (.file bytes)

/-- Some names lead from a path to a file, and every directory on the way is entered. -/
def IsTrail
    (workspace : Workspace) (enters : String → Bool) (path : String) (trail : List String) :
    Prop :=
  trail ≠ [] ∧ workspace.HasFile path trail ∧ ∀ name ∈ trail.dropLast, enters name = true

/-- Some paths are those of the trails with a property, in the order of the trails. -/
def ListsTrails (path : String) (found : List String) (holds : List String → Prop) : Prop :=
  ∃ trails : List (List String), found = trails.map (pathBelow path) ∧
    trails.Pairwise (· < ·) ∧ ∀ trail, trail ∈ trails ↔ holds trail

variable {workspace : Workspace} {enters : String → Bool} {fresh : List Location}
  {outer : List OpenDirectory} {here : OpenDirectory} {path name : String}
  {location directory : Location} {found more names trail rest : List String}
  {holds holdsToo : List String → Prop}

/-! ## Trails -/

theorem Reaches.isName_of_mem
    (h : workspace.Reaches path trail location) :
    ∀ name ∈ trail, isName name = true := by
  induction h with
  | here => simp
  | inside _ hname _ ih =>
      obtain ⟨entry, hentry⟩ := FileSystem.mem_names.mp hname
      rw [List.forall_mem_cons]
      exact ⟨FileSystem.isName_of_get?_snoc hentry, ih⟩

theorem hasFile_nil_iff :
    workspace.HasFile path [] ↔
      ∃ location bytes, workspace.resolve path = .ok location ∧
        workspace.files.get? location = some (.file bytes) := by
  constructor
  · rintro ⟨location, bytes, ⟨hresolve⟩, hfile⟩
    exact ⟨location, bytes, hresolve, hfile⟩
  · rintro ⟨location, bytes, hresolve, hfile⟩
    exact ⟨location, bytes, .here hresolve, hfile⟩

theorem hasFile_cons_iff
    (hresolve : workspace.resolve path = .ok directory) :
    workspace.HasFile path (name :: rest) ↔
      name ∈ workspace.files.names directory ∧ workspace.HasFile (childPath path name) rest := by
  constructor
  · rintro ⟨location, bytes, - | ⟨hplace, hname, hrest⟩, hfile⟩
    obtain rfl : _ = directory := Except.ok.inj (hplace.symm.trans hresolve)
    exact ⟨hname, location, bytes, hrest, hfile⟩
  · rintro ⟨hname, location, bytes, hrest, hfile⟩
    exact ⟨location, bytes, .inside hresolve hname hrest, hfile⟩

/-- No name leads on from what is no directory. -/
theorem not_hasFile_cons
    {entry : Entry} (hresolve : workspace.resolve path = .ok location)
    (hentry : workspace.files.get? location = some entry) (hne : entry ≠ .directory) :
    ¬workspace.HasFile path (name :: rest) := by
  rw [hasFile_cons_iff hresolve]
  rintro ⟨hname, -⟩
  obtain ⟨child, hchild⟩ := FileSystem.mem_names.mp hname
  have hdirectory := FileSystem.get?_of_get?_snoc hchild
  exact hne (Option.some.inj (hentry.symm.trans hdirectory))

theorem isTrail_cons_of_file
    (hplace : workspace.resolve path = .ok directory)
    (hname : name ∈ workspace.files.names directory)
    {bytes : List UInt8} (hresolve : workspace.resolve (childPath path name) = .ok location)
    (hfile : workspace.files.get? location = some (.file bytes)) :
    workspace.IsTrail enters path (name :: rest) ↔ rest = [] := by
  rw [IsTrail, hasFile_cons_iff hplace]
  constructor
  · rintro ⟨-, ⟨-, hrest⟩, -⟩
    rcases rest with - | ⟨next, rest⟩
    · rfl
    · exact absurd hrest (not_hasFile_cons hresolve hfile (by simp))
  · rintro rfl
    exact ⟨List.cons_ne_nil _ _,
      ⟨hname, hasFile_nil_iff.mpr ⟨location, bytes, hresolve, hfile⟩⟩, by simp⟩

theorem isTrail_cons_of_directory
    (hplace : workspace.resolve path = .ok directory)
    (hname : name ∈ workspace.files.names directory)
    (hresolve : workspace.resolve (childPath path name) = .ok location)
    (hdirectory : workspace.files.get? location = some .directory) :
    workspace.IsTrail enters path (name :: rest) ↔
      enters name = true ∧ workspace.IsTrail enters (childPath path name) rest := by
  rw [IsTrail, hasFile_cons_iff hplace, IsTrail]
  constructor
  · rintro ⟨-, ⟨-, hrest⟩, hentered⟩
    rcases rest with - | ⟨next, rest⟩
    · obtain ⟨there, bytes, hthere, hfile⟩ := hasFile_nil_iff.mp hrest
      obtain rfl := Except.ok.inj (hthere.symm.trans hresolve)
      rw [hdirectory] at hfile
      cases hfile
    · rw [List.dropLast_cons_cons, List.forall_mem_cons] at hentered
      exact ⟨hentered.1, List.cons_ne_nil _ _, hrest, hentered.2⟩
  · rintro ⟨henters, hne, hrest, hentered⟩
    refine ⟨List.cons_ne_nil _ _, ⟨hname, hrest⟩, ?_⟩
    rw [List.dropLast_cons_of_ne_nil hne, List.forall_mem_cons]
    exact ⟨henters, hentered⟩

/-! ## Lists of trails -/

theorem ListsTrails.congr
    (h : ListsTrails path found holds) (hiff : ∀ trail, holds trail ↔ holdsToo trail) :
    ListsTrails path found holdsToo := by
  obtain ⟨trails, hfound, hsorted, hmem⟩ := h
  exact ⟨trails, hfound, hsorted, fun trail => (hmem trail).trans (hiff trail)⟩

theorem listsTrails_nil :
    ListsTrails path [] fun _ => False :=
  ⟨[], rfl, .nil, by simp⟩

theorem listsTrails_singleton
    (path name : String) :
    ListsTrails path [childPath path name] (· = [name]) :=
  ⟨[[name]], rfl, List.pairwise_singleton _ _, by simp⟩

/-- The trails below a name are trails with that name in front. -/
theorem ListsTrails.cons
    (h : ListsTrails (childPath path name) found holds) :
    ListsTrails path found fun trail => ∃ rest, trail = name :: rest ∧ holds rest := by
  obtain ⟨trails, rfl, hsorted, hmem⟩ := h
  refine ⟨trails.map (name :: ·), ?_, ?_, ?_⟩
  · rw [List.map_map]
    rfl
  · rw [List.pairwise_map]
    exact hsorted.imp fun hlt => List.cons_lt_cons_iff.mpr (.inr ⟨rfl, hlt⟩)
  · intro trail
    simp only [List.mem_map, hmem]
    constructor
    · rintro ⟨rest, hrest, rfl⟩
      exact ⟨rest, rfl, hrest⟩
    · rintro ⟨rest, rfl, hrest⟩
      exact ⟨rest, hrest, rfl⟩

theorem ListsTrails.append
    (h : ListsTrails path found holds) (hmore : ListsTrails path more holdsToo)
    (hlt : ∀ first second, holds first → holdsToo second → first < second) :
    ListsTrails path (found ++ more) fun trail => holds trail ∨ holdsToo trail := by
  obtain ⟨trails, rfl, hsorted, hmem⟩ := h
  obtain ⟨later, rfl, hlater, hmemLater⟩ := hmore
  refine ⟨trails ++ later, by simp, ?_, ?_⟩
  · rw [List.pairwise_append]
    refine ⟨hsorted, hlater, ?_⟩
    intro first hfirst second hsecond
    exact hlt first second ((hmem first).mp hfirst) ((hmemLater second).mp hsecond)
  · intro trail
    rw [List.mem_append, hmem, hmemLater]

/-- Visits to names in order list their trails in order. -/
theorem listsTrails_gather
    {visit : String → Except WalkError (List String)} {below : String → List String → Prop}
    (hvisit : ∀ name ∈ names, ∀ found, visit name = .ok found →
      ListsTrails path found fun trail => ∃ rest, trail = name :: rest ∧ below name rest)
    (hsorted : names.Pairwise (· < ·)) (h : gather visit names = .ok found) :
    ListsTrails path found fun trail =>
      ∃ name ∈ names, ∃ rest, trail = name :: rest ∧ below name rest := by
  induction names generalizing found with
  | nil =>
      obtain rfl : [] = found := by simpa using h
      exact listsTrails_nil.congr (by simp)
  | cons name names ih =>
      rw [List.pairwise_cons] at hsorted
      rw [List.forall_mem_cons] at hvisit
      cases hfirst : visit name with
      | error error =>
          rw [gather_cons_of_error hfirst] at h
          cases h
      | ok first =>
          rw [gather_cons_of_ok hfirst] at h
          cases hrest : gather visit names with
          | error error =>
              rw [hrest] at h
              cases h
          | ok later =>
              rw [hrest] at h
              obtain rfl : first ++ later = found := by simpa [Except.map] using h
              have hboth := (hvisit.1 first hfirst).append (ih hvisit.2 hsorted.2 hrest) ?_
              · exact hboth.congr fun trail => by simp
              · rintro _ _ ⟨rest, rfl, -⟩ ⟨other, hother, rest', rfl, -⟩
                exact List.cons_lt_cons_iff.mpr (.inl (hsorted.1 other hother))

/-! ## Walks -/

theorem listsTrails_visit
    (hstanding : workspace.Standing fresh outer here)
    (hname : name ∈ workspace.files.names here.location)
    (ih : ∀ location, workspace.sight outer here name = .directory location →
      enters name = true → ∀ found,
        workspace.filesBelow enters (workspace.freshAfter fresh here name location)
            (here :: outer) { location, path := childPath here.path name } = .ok found →
          ListsTrails (childPath here.path name) found
            (workspace.IsTrail enters (childPath here.path name)))
    (h : workspace.visit enters fresh outer here name = .ok found) :
    ListsTrails here.path found fun trail =>
      ∃ rest, trail = name :: rest ∧ workspace.IsTrail enters here.path (name :: rest) := by
  obtain ⟨links, hleads⟩ := hstanding.leads
  rw [visit] at h
  cases hsight : workspace.sight outer here name with
  | nothing => exact absurd hsight (sight_ne_nothing hname)
  | stop error =>
      rw [hsight] at h
      cases h
  | file =>
      obtain ⟨location, bytes, hresolve, hfile⟩ := isFile_of_sight_eq_file hleads hsight
      rw [hsight] at h
      obtain rfl : [childPath here.path name] = found := by simpa using h
      refine (listsTrails_singleton here.path name).congr fun trail => ?_
      simp [isTrail_cons_of_file hleads.resolve_eq hname hresolve hfile]
  | directory location =>
      obtain ⟨hresolve, hlocation⟩ := resolve_of_sight_eq_directory hleads hsight
      have htrail (rest : List String) :
          workspace.IsTrail enters here.path (name :: rest) ↔
            enters name = true ∧ workspace.IsTrail enters (childPath here.path name) rest :=
        isTrail_cons_of_directory hleads.resolve_eq hname hresolve hlocation
      simp only [hsight] at h
      split at h
      · next henters =>
          refine (ih location hsight henters found h).cons.congr fun trail => ?_
          simp [htrail, henters]
      · next henters =>
          obtain rfl : [] = found := by simpa using h
          refine listsTrails_nil.congr fun trail => ?_
          simp [htrail, henters]

/-- A walk below a directory that gets through lists the trails from it. -/
theorem listsTrails_filesBelow
    (hstanding : workspace.Standing fresh outer here)
    (h : workspace.filesBelow enters fresh outer here = .ok found) :
    ListsTrails here.path found (workspace.IsTrail enters here.path) := by
  revert found
  apply walk_induction enters (h := hstanding)
  intro fresh outer here hstanding ih found h
  obtain ⟨links, hleads⟩ := hstanding.leads
  rw [filesBelow_eq_gather hstanding.covers] at h
  have hlists := listsTrails_gather
    (fun name hname found hvisit =>
      listsTrails_visit hstanding hname (fun location hsight henters =>
        @ih name location hsight henters) hvisit)
    (FileSystem.pairwise_names workspace.files here.location) h
  refine hlists.congr fun trail => ?_
  constructor
  · rintro ⟨name, -, rest, rfl, htrail⟩
    exact htrail
  · intro htrail
    rcases trail with - | ⟨name, rest⟩
    · exact absurd rfl htrail.1
    · have hname := ((hasFile_cons_iff hleads.resolve_eq).mp htrail.2.1).1
      exact ⟨name, hname, rest, rfl, htrail⟩

theorem isDirectory_iff :
    workspace.isDirectory path = true ↔
      ∃ location, workspace.resolve path = .ok location ∧
        workspace.files.get? location = some .directory := by
  rw [isDirectory, beq_iff_eq, find?]
  cases workspace.resolve path with
  | error cause => simp
  | ok location => simp

theorem walk_eq_filesBelow
    (hresolve : workspace.resolve path = .ok location)
    (hlocation : workspace.files.get? location = some .directory) :
    workspace.walk enters path =
      workspace.filesBelow enters workspace.files.directories [] { location, path } := by
  simp only [walk, hresolve, hlocation]

/-- A walk through a directory that gets through lists the trails from it. -/
theorem listsTrails_walk
    (hdirectory : workspace.isDirectory path = true)
    (h : workspace.walk enters path = .ok found) :
    ListsTrails path found (workspace.IsTrail enters path) := by
  obtain ⟨location, hresolve, hlocation⟩ := isDirectory_iff.mp hdirectory
  rw [walk_eq_filesBelow hresolve hlocation] at h
  exact listsTrails_filesBelow (standing_root hresolve hlocation) h

/-- A walk through a directory that does not get through stops at a link. -/
theorem exists_link_of_walk_eq_error
    {error : WalkError} (hdirectory : workspace.isDirectory path = true)
    (h : workspace.walk enters path = .error error) :
    ∃ path links location name target, workspace.Leads path links location ∧
      workspace.files.get? (location ++ [name]) = some (.link target) ∧
      error.path = childPath path name := by
  obtain ⟨location, hresolve, hlocation⟩ := isDirectory_iff.mp hdirectory
  rw [walk_eq_filesBelow hresolve hlocation] at h
  exact exists_link_of_filesBelow_eq_error (standing_root hresolve hlocation) h

end Workspace

end HandlerLint.Files
