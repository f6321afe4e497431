import HandlerLint.Proofs.Files.Following

/-!
# What a walk meets

A walk makes one visit for each name of a directory and puts what the visits give one
after another.  The list of directories that no open link has led to is only there to make
the walk end: every directory is on it or is open, so a link whose directory is not on the
list is a loop, and the walk ends for that reason before it looks.

A walk that gets through meets exactly the files that can be reached by entering
directories, in the order of the names that lead to them.  A walk that does not get
through stops at a link.
-/

namespace HandlerLint.Files

/-- The path at which a walk stops. -/
def WalkError.path : WalkError → String
  | .inaccessible path _ => path
  | .loop path _ => path

/-! ## Visits -/

/-- What the visits to some names give, one after another. -/
def gather
    (visit : String → Except WalkError (List String)) (names : List String) :
    Except WalkError (List String) := do
  let found ← names.mapM visit
  return found.flatten

section Gather

variable {visit : String → Except WalkError (List String)} {name : String}
  {names found : List String} {error : WalkError}

@[simp] theorem gather_nil :
    gather visit [] = .ok [] :=
  rfl

theorem gather_cons_of_ok
    (h : visit name = .ok found) :
    gather visit (name :: names) = (gather visit names).map (found ++ ·) := by
  rw [gather, gather, List.mapM_cons, h]
  rcases names.mapM visit with error | lists
  · rfl
  · rfl

theorem gather_cons_of_error
    (h : visit name = .error error) :
    gather visit (name :: names) = .error error := by
  rw [gather, List.mapM_cons, h]
  rfl

/-- Visits that fail fail at one of the names. -/
theorem exists_of_gather_eq_error
    (h : gather visit names = .error error) :
    ∃ name ∈ names, visit name = .error error := by
  induction names with
  | nil => cases h
  | cons name names ih =>
      cases hvisit : visit name with
      | error cause =>
          rw [gather_cons_of_error hvisit] at h
          obtain rfl : cause = error := by simpa using h
          exact ⟨name, List.mem_cons_self, hvisit⟩
      | ok found =>
          rw [gather_cons_of_ok hvisit] at h
          cases hrest : gather visit names with
          | error cause =>
              rw [hrest] at h
              obtain rfl : cause = error := by simpa [Except.map] using h
              obtain ⟨other, hother, hfails⟩ := ih hrest
              exact ⟨other, List.mem_cons_of_mem _ hother, hfails⟩
          | ok rest =>
              rw [hrest] at h
              cases h

end Gather

/-! ## Sights -/

/-- What a walk sees at a name of an open directory, once links are followed. -/
inductive Sight where
  | nothing
  | file
  | directory (location : Location)
  /-- A link that leads nowhere or to a directory that the walk is in. -/
  | stop (error : WalkError)

namespace Workspace

variable {workspace : Workspace} {enters : String → Bool} {fresh : List Location}
  {opened outer : List OpenDirectory} {here : OpenDirectory} {name : String}
  {location : Location} {error : WalkError}

/-- What a walk sees at a name of an open directory. -/
def sight
    (workspace : Workspace) (outer : List OpenDirectory) (here : OpenDirectory)
    (name : String) : Sight :=
  match workspace.files.get? (here.location ++ [name]) with
  | none => .nothing
  | some (.file _) => .file
  | some .directory => .directory (here.location ++ [name])
  | some (.link _) =>
      match workspace.resolve (childPath here.path name) with
      | .error cause => .stop (.inaccessible (childPath here.path name) cause)
      | .ok location =>
          if workspace.files.get? location = some .directory then
            match (here :: outer).find? (·.location == location) with
            | some ancestor => .stop (.loop (childPath here.path name) ancestor.path)
            | none => .directory location
          else .file

/-- The directories that no open link has led to, once one more directory is open. -/
def freshAfter
    (workspace : Workspace) (fresh : List Location) (here : OpenDirectory) (name : String)
    (location : Location) : List Location :=
  if workspace.files.get? (here.location ++ [name]) = some .directory then fresh
  else fresh.erase location

/-- Every directory is open, or no open link has led to it. -/
def Covers
    (workspace : Workspace) (fresh : List Location) (opened : List OpenDirectory) : Prop :=
  ∀ location, workspace.files.get? location = some .directory →
    location ∈ fresh ∨ ∃ directory ∈ opened, directory.location = location

/-- What holds of a directory while a walk is in it. -/
structure Standing
    (workspace : Workspace) (fresh : List Location) (outer : List OpenDirectory)
    (here : OpenDirectory) : Prop where
  covers : workspace.Covers fresh (here :: outer)
  leads : ∃ links, workspace.Leads here.path links here.location

/-- What a walk does at a name of an open directory. -/
def visit
    (workspace : Workspace) (enters : String → Bool) (fresh : List Location)
    (outer : List OpenDirectory) (here : OpenDirectory) (name : String) :
    Except WalkError (List String) :=
  match workspace.sight outer here name with
  | .nothing => .ok []
  | .file => .ok [childPath here.path name]
  | .stop error => .error error
  | .directory location =>
      if enters name then
        workspace.filesBelow enters (workspace.freshAfter fresh here name location)
          (here :: outer) { location, path := childPath here.path name }
      else .ok []

theorem mem_fresh_of_find?_eq_none
    (hcovers : workspace.Covers fresh opened)
    (hlocation : workspace.files.get? location = some .directory)
    (hnone : opened.find? (·.location == location) = none) :
    location ∈ fresh := by
  rcases hcovers location hlocation with hfresh | ⟨directory, hopen, hsame⟩
  · exact hfresh
  · rw [List.find?_eq_none] at hnone
    exact absurd (beq_iff_eq.mpr hsame) (hnone directory hopen)

/-- A walk visits the names of a directory one after another. -/
theorem filesBelow_eq_gather
    (hcovers : workspace.Covers fresh (here :: outer)) :
    workspace.filesBelow enters fresh outer here =
      gather (workspace.visit enters fresh outer here)
        (workspace.files.names here.location) := by
  rw [filesBelow, gather]
  congr 2
  funext name
  rw [visit, sight]
  dsimp only
  split
  · next hentry => simp [hentry, freshAfter]
  · next hentry => simp [hentry]
  · next target hentry =>
      rw [hentry]
      rcases workspace.resolve (childPath here.path name) with cause | location
      · rfl
      · by_cases hlocation : workspace.files.get? location = some .directory
        · cases hfind : (here :: outer).find? (·.location == location) with
          | some ancestor => simp [hlocation, hfind]
          | none =>
              have hfresh := mem_fresh_of_find?_eq_none hcovers hlocation hfind
              simp [hlocation, hfind, hfresh, freshAfter, hentry]
        · simp only [hlocation, if_false]
  · next hentry => simp [hentry]

theorem covers_directories
    (workspace : Workspace) (opened : List OpenDirectory) :
    workspace.Covers workspace.files.directories opened := by
  intro location hlocation
  left
  by_cases hroot : location = []
  · rw [hroot]
    exact List.mem_cons_self
  · have hrow := FileSystem.mem_of_get? hroot hlocation
    exact List.mem_cons_of_mem _
      (List.mem_map.mpr ⟨(location, .directory), List.mem_filter.mpr ⟨hrow, rfl⟩, rfl⟩)

theorem Covers.open
    (h : workspace.Covers fresh opened) (here : OpenDirectory) :
    workspace.Covers fresh (here :: opened) := by
  intro location hlocation
  rcases h location hlocation with hfresh | ⟨directory, hopen, hsame⟩
  · exact .inl hfresh
  · exact .inr ⟨directory, List.mem_cons_of_mem _ hopen, hsame⟩

theorem Covers.open_linked
    (h : workspace.Covers fresh opened) (here : OpenDirectory) :
    workspace.Covers (fresh.erase here.location) (here :: opened) := by
  intro location hlocation
  by_cases hsame : location = here.location
  · exact .inr ⟨here, List.mem_cons_self, hsame.symm⟩
  · rcases h.open here location hlocation with hfresh | hopen
    · exact .inl ((List.mem_erase_of_ne hsame).mpr hfresh)
    · exact .inr hopen

/-! ## What is seen is there -/

/-- A directory is seen where it stands or through a link. -/
theorem sight_eq_directory_cases
    (h : workspace.sight outer here name = .directory location) :
    (workspace.files.get? (here.location ++ [name]) = some .directory ∧
        here.location ++ [name] = location) ∨
      workspace.files.get? (here.location ++ [name]) ≠ some .directory ∧
        workspace.resolve (childPath here.path name) = .ok location ∧
        workspace.files.get? location = some .directory ∧
        (here :: outer).find? (·.location == location) = none := by
  rw [sight] at h
  split at h
  · cases h
  · cases h
  · next hentry => exact .inl ⟨hentry, by simpa using h⟩
  · next hentry =>
      split at h
      · cases h
      · next there hresolve =>
          split at h
          · next hthere =>
              split at h
              · cases h
              · next hnone =>
                  obtain rfl : there = location := by simpa using h
                  exact .inr ⟨by simp [hentry], hresolve, hthere, hnone⟩
          · cases h

/-- A directory that is seen is what the path of the name leads to. -/
theorem resolve_of_sight_eq_directory
    {links : Nat} (hleads : workspace.Leads here.path links here.location)
    (h : workspace.sight outer here name = .directory location) :
    workspace.resolve (childPath here.path name) = .ok location ∧
      workspace.files.get? location = some .directory := by
  rcases sight_eq_directory_cases h with ⟨hentry, rfl⟩ | ⟨-, hresolve, hlocation, -⟩
  · exact ⟨hleads.resolve_childPath hentry (by simp), hentry⟩
  · exact ⟨hresolve, hlocation⟩

/-- A file that is seen is what the path of the name leads to. -/
theorem isFile_of_sight_eq_file
    {links : Nat} (hleads : workspace.Leads here.path links here.location)
    (h : workspace.sight outer here name = .file) :
    ∃ location bytes, workspace.resolve (childPath here.path name) = .ok location ∧
      workspace.files.get? location = some (.file bytes) := by
  rw [sight] at h
  split at h
  · cases h
  · next bytes hentry =>
      exact ⟨_, bytes, hleads.resolve_childPath hentry (by simp), hentry⟩
  · cases h
  · split at h
    · cases h
    · next there hresolve =>
        split at h
        · split at h <;> cases h
        · next hthere =>
            -- What a path leads to is no link, and here it is no directory.
            obtain ⟨entry, hentry, hsolid⟩ := solid_of_resolve hresolve
            rcases entry with bytes | - | target
            · exact ⟨there, bytes, hresolve, hentry⟩
            · exact absurd hentry hthere
            · exact absurd rfl (hsolid target)

/-- A walk stops at links only. -/
theorem exists_link_of_sight_eq_stop
    (h : workspace.sight outer here name = .stop error) :
    error.path = childPath here.path name ∧
      ∃ target, workspace.files.get? (here.location ++ [name]) = some (.link target) := by
  rw [sight] at h
  split at h
  · cases h
  · cases h
  · cases h
  · next target hentry =>
      refine ⟨?_, target, hentry⟩
      split at h
      · obtain rfl := Sight.stop.inj h
        rfl
      · split at h
        · split at h
          · obtain rfl := Sight.stop.inj h
            rfl
          · cases h
        · cases h

theorem sight_ne_nothing
    (h : name ∈ workspace.files.names here.location) :
    workspace.sight outer here name ≠ .nothing := by
  obtain ⟨entry, hentry⟩ := FileSystem.mem_names.mp h
  rw [sight, hentry]
  rcases entry with bytes | - | target
  · simp
  · simp
  · dsimp only
    repeat' split
    all_goals simp

/-! ## Walks -/

theorem standing_root
    {path : String} (hresolve : workspace.resolve path = .ok location)
    (hlocation : workspace.files.get? location = some .directory) :
    workspace.Standing workspace.files.directories [] { location, path } :=
  ⟨covers_directories workspace _, exists_leads hresolve hlocation⟩

/-- Entering a directory keeps what holds while a walk is in one. -/
theorem Standing.enter
    (h : workspace.Standing fresh outer here)
    (hsight : workspace.sight outer here name = .directory location) :
    workspace.Standing (workspace.freshAfter fresh here name location) (here :: outer)
      { location, path := childPath here.path name } := by
  obtain ⟨links, hleads⟩ := h.leads
  obtain ⟨hresolve, hlocation⟩ := resolve_of_sight_eq_directory hleads hsight
  refine ⟨?_, exists_leads hresolve hlocation⟩
  rw [freshAfter]
  split
  · exact h.covers.open _
  · exact h.covers.open_linked { location, path := childPath here.path name }

/-- To show something of every directory that a walk opens, it may be assumed of the
directories that are entered from it. -/
theorem walk_induction
    (enters : String → Bool) {motive : List Location → List OpenDirectory → OpenDirectory → Prop}
    (step : ∀ fresh outer here, workspace.Standing fresh outer here →
      (∀ name location, workspace.sight outer here name = .directory location →
        enters name = true →
          motive (workspace.freshAfter fresh here name location) (here :: outer)
            { location, path := childPath here.path name }) →
      motive fresh outer here)
    (h : workspace.Standing fresh outer here) :
    motive fresh outer here := by
  induction fresh, outer, here using filesBelow.induct workspace enters with
  | case1 fresh outer here ihDirectory ihLink =>
      apply step fresh outer here h
      intro name location hsight henters
      have hstanding := h.enter hsight
      rcases sight_eq_directory_cases hsight with ⟨hentry, rfl⟩ | ⟨hentry, -, hlocation, hnone⟩
      · rw [freshAfter, if_pos hentry] at hstanding ⊢
        exact ihDirectory name hentry hstanding
      · rw [freshAfter, if_neg hentry] at hstanding ⊢
        have hfresh := mem_fresh_of_find?_eq_none h.covers hlocation hnone
        exact ihLink name location ⟨henters, hfresh⟩ hstanding

/-- A walk that does not get through stops at a link in a directory that it is in. -/
theorem exists_link_of_filesBelow_eq_error
    (hstanding : workspace.Standing fresh outer here)
    (h : workspace.filesBelow enters fresh outer here = .error error) :
    ∃ path links location name target, workspace.Leads path links location ∧
      workspace.files.get? (location ++ [name]) = some (.link target) ∧
      error.path = childPath path name := by
  revert h
  apply walk_induction enters (h := hstanding)
  intro fresh outer here hstanding ih h
  rw [filesBelow_eq_gather hstanding.covers] at h
  obtain ⟨name, -, hvisit⟩ := exists_of_gather_eq_error h
  rw [visit] at hvisit
  cases hsight : workspace.sight outer here name with
  | nothing =>
      rw [hsight] at hvisit
      cases hvisit
  | file =>
      rw [hsight] at hvisit
      cases hvisit
  | stop cause =>
      rw [hsight] at hvisit
      obtain rfl : cause = error := by simpa using hvisit
      obtain ⟨links, hleads⟩ := hstanding.leads
      obtain ⟨hpath, target, hlink⟩ := exists_link_of_sight_eq_stop hsight
      exact ⟨here.path, links, here.location, name, target, hleads, hlink, hpath⟩
  | directory location =>
      simp only [hsight] at hvisit
      split at hvisit
      · next henters => exact ih name location hsight henters hvisit
      · cases hvisit

end Workspace

end HandlerLint.Files
