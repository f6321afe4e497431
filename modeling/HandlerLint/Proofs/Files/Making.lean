import HandlerLint.Proofs.Files.Growth
import HandlerLint.Proofs.Path.Parent

/-!
# Making directories

A directory is made together with the missing ones above it: a path that can not be entered
because something on its way is missing has its parent made first.  Whatever comes of it,
what stood before stays, and all that is new are directories at the paths that were asked
for.  Something is new exactly if one of the paths is missing and the system lets a directory
be made there, and making the directories again changes nothing.

If no `..` comes after the missing path, then all goes well unless the system refuses to have
a directory made, and the directory that was asked for is empty.  Otherwise the `..` leads back
out of the directories that are new, to whatever stands there.
-/

namespace HandlerLint.Files

open HandlerLint.Text

/-! ## Paths and their parents -/

/-- A path is the parent of another one: it has the steps of the other one but for the last,
or the other one has no steps. -/
inductive IsParent (parent path : String) : Prop
  | dot (hparent : parent = "") (hpath : steps path = []) (hrelative : isAbsolute path = false)
  | last (front trail : List String) (name : String)
      (hsegments : segments path = front ++ name :: trail)
      (hfront : front.filter isStep = steps parent) (hname : isStep name = true)
      (htrail : ∀ later ∈ trail, isStep later = false)
      (habsolute : isAbsolute parent = isAbsolute path)

/-- A path ends in a step: no slash and no `.` comes after it. -/
def EndsInStep (path : String) : Prop :=
  ∃ front name, segments path = front ++ [name] ∧ isStep name = true

/-- A path ends in a step, or it has none. -/
def IsTrimmed (path : String) : Prop :=
  steps path = [] ∨ EndsInStep path

/-- Every path is followed by its parent, and all of them end in a step if they have one. -/
inductive Lineage : List String → Prop
  | last {path : String} (htrimmed : IsTrimmed path) : Lineage [path]
  | child {path parent : String} {parents : List String} (htrimmed : IsTrimmed path)
      (hparent : IsParent parent path) (hparents : Lineage (parent :: parents)) :
      Lineage (path :: parent :: parents)

theorem isStep_ofList
    (segment : List Char) :
    isStep (String.ofList segment) = !Path.isVoid segment := by
  have hempty : String.ofList segment = "" ↔ segment = [] := by
    rw [← String.toList_inj, String.toList_ofList]
    rfl
  have hdot : String.ofList segment = "." ↔ segment = ['.'] := by
    rw [← String.toList_inj, String.toList_ofList]
    rfl
  rw [Bool.eq_iff_iff, FileSystem.isStep_iff, hempty, hdot, Path.isVoid,
    Path.segmentComponent?]
  split
  · next hvoid => simp [hvoid]
  · next hvoid => split <;> simp [hvoid]

theorem segments_ofList
    (path : List Char) :
    segments (String.ofList path) = (splitOn '/' path).map String.ofList := by
  rw [segments, String.toList_ofList]

theorem filter_isStep_map_ofList
    (pieces : List (List Char)) :
    (pieces.map String.ofList).filter isStep =
      (pieces.filter (! Path.isVoid ·)).map String.ofList := by
  rw [List.filter_map]
  congr 2
  funext segment
  exact isStep_ofList segment

theorem isAbsolute_ofList
    (path : List Char) :
    isAbsolute (String.ofList path) = (path.head? == some '/') := by
  rw [isAbsolute, String.toList_ofList]

theorem isParent_of_parent?
    {path parent : List Char} (h : Path.parent? path = some parent) :
    IsParent (String.ofList parent) (String.ofList path) := by
  rcases Path.exists_splitOn_of_parent? h with
    ⟨rfl, hrelative, hvoid⟩ | ⟨habsolute, front, last, trail, hsplit, hlast, htrail, hfront⟩
  · refine .dot rfl ?_ ?_
    · rw [steps, segments_ofList, filter_isStep_map_ofList, Path.filter_of_isVoid hvoid]
      rfl
    · rw [isAbsolute_ofList]
      simpa using hrelative
  · refine .last (front.map String.ofList) (trail.map String.ofList) (String.ofList last)
      ?_ ?_ ?_ ?_ ?_
    · rw [segments_ofList, hsplit, List.map_append, List.map_cons]
    · rw [filter_isStep_map_ofList, hfront, steps, segments_ofList, filter_isStep_map_ofList]
    · rw [isStep_ofList, hlast]
      rfl
    · intro later hlater
      obtain ⟨segment, hsegment, rfl⟩ := List.mem_map.mp hlater
      rw [isStep_ofList, htrail segment hsegment]
      rfl
    · rw [isAbsolute_ofList, isAbsolute_ofList, Bool.eq_iff_iff, beq_iff_eq, beq_iff_eq]
      exact habsolute

theorem isTrimmed_of_parent?
    {path parent : List Char} (h : Path.parent? path = some parent) :
    IsTrimmed (String.ofList parent) := by
  rcases Path.isTrimmed_of_parent? h with hvoid | ⟨front, last, hsplit, hlast⟩
  · left
    rw [steps, segments_ofList, filter_isStep_map_ofList, Path.filter_of_isVoid hvoid]
    rfl
  · refine .inr ⟨front.map String.ofList, String.ofList last, ?_, ?_⟩
    · rw [segments_ofList, hsplit, List.map_append]
      rfl
    · rw [isStep_ofList, hlast]
      rfl

theorem steps_empty : steps "" = [] := by
  decide

theorem ne_empty_of_steps
    {path : String} (h : steps path ≠ []) :
    path ≠ "" := by
  rintro rfl
  exact h steps_empty

/-- The paths above a path are a lineage. -/
theorem lineage_ancestorsWithin
    {path : List Char} (htrimmed : IsTrimmed (String.ofList path)) (count : Nat) :
    ∃ parents, (Path.ancestorsWithin (count + 1) path).map String.ofList =
        String.ofList path :: parents ∧
      Lineage (String.ofList path :: parents) := by
  induction count generalizing path with
  | zero =>
      refine ⟨[], ?_, .last htrimmed⟩
      rw [Path.ancestorsWithin]
      split <;> rfl
  | succ count ih =>
      rw [Path.ancestorsWithin]
      split
      · next parent hparent =>
          obtain ⟨parents, hparents, hlineage⟩ := ih (isTrimmed_of_parent? hparent)
          rw [List.map_cons, hparents]
          exact ⟨_, rfl, .child htrimmed (isParent_of_parent? hparent) hlineage⟩
      · exact ⟨[], rfl, .last htrimmed⟩

variable {parent path missing : String} {parents paths names : List String}

theorem steps_of_segments
    {front trail : List String} {name : String}
    (hsegments : segments path = front ++ name :: trail) (hname : isStep name = true)
    (htrail : ∀ later ∈ trail, isStep later = false) :
    steps path = front.filter isStep ++ [name] := by
  have hnone : trail.filter isStep = [] := by
    simpa using htrail
  rw [steps, hsegments, List.filter_append, List.filter_cons_of_pos hname, hnone]

theorem IsParent.steps_eq
    (h : IsParent parent path) :
    (parent = "" ∧ steps path = []) ∨ ∃ name, steps path = steps parent ++ [name] := by
  rcases h with ⟨hparent, hpath, -⟩ | ⟨front, trail, name, hsegments, hfront, hname, htrail, -⟩
  · exact .inl ⟨hparent, hpath⟩
  · rw [← hfront]
    exact .inr ⟨name, steps_of_segments hsegments hname htrail⟩

theorem Lineage.of_mem
    (h : Lineage (path :: parents)) {above : String} (habove : above ∈ parents) :
    Lineage parents := by
  rcases h with - | ⟨-, -, hparents⟩
  · cases habove
  · exact hparents

/-- The steps of every path above are the first ones of the path. -/
theorem Lineage.steps_above
    (h : Lineage (path :: parents)) {above : String} (habove : above ∈ path :: parents) :
    steps above <+: steps path := by
  induction parents generalizing path with
  | nil =>
      obtain rfl := List.mem_singleton.mp habove
      exact List.prefix_refl _
  | cons parent parents ih =>
      rcases List.mem_cons.mp habove with rfl | hparents
      · exact List.prefix_refl _
      · rcases h with - | ⟨-, hparent, hrest⟩
        have hbegins := ih hrest hparents
        rcases hparent.steps_eq with ⟨rfl, hnone⟩ | ⟨name, hsteps⟩
        · rw [steps_empty, List.prefix_nil] at hbegins
          rw [hbegins]
          exact List.nil_prefix
        · rw [hsteps]
          exact hbegins.trans (List.prefix_append _ _)

/-- Nothing comes after the last step of a path that ends in one. -/
theorem EndsInStep.trail_eq_nil
    (h : EndsInStep path) {front trail : List String} {name : String}
    (hsegments : segments path = front ++ name :: trail)
    (htrail : ∀ later ∈ trail, isStep later = false) :
    trail = [] := by
  obtain ⟨before, last, hlast, hstep⟩ := h
  rcases List.eq_nil_or_concat trail with hnil | ⟨more, final, rfl⟩
  · exact hnil
  · rw [List.concat_eq_append] at hsegments htrail
    rw [hlast, ← List.cons_append, ← List.append_assoc] at hsegments
    have hfinal : last = final :=
      List.singleton_injective (List.append_inj' hsegments rfl).2
    rw [hfinal, htrail final (by simp)] at hstep
    cases hstep

section Parents

variable {workspace : Workspace} {cause : FileError}

theorem IsParent.start_eq
    (h : IsParent parent path) (workspace : Workspace) :
    workspace.start parent = workspace.start path := by
  rcases h with ⟨rfl, -, hrelative⟩ | ⟨-, -, -, -, -, -, -, habsolute⟩
  · rw [Workspace.start, Workspace.start, hrelative]
    rfl
  · rw [Workspace.start, Workspace.start, habsolute]

/-- What can not be entered has nothing below it that can. -/
theorem IsParent.enter_eq_error
    (h : IsParent parent path) (herror : workspace.enter parent = .error cause) :
    workspace.enter path = .error cause := by
  rw [Workspace.enter, h.start_eq] at herror
  rw [Workspace.enter]
  rcases h.steps_eq with ⟨rfl, hnone⟩ | ⟨name, hsteps⟩
  · rw [hnone, ← steps_empty]
    exact herror
  · rw [hsteps, FileSystem.enter_append, herror]
    rfl

/-- A path with a step is followed from the directory that its parent leads to. -/
theorem IsParent.exists_target_eq
    (h : IsParent parent path) (hpath : steps path ≠ []) :
    ∃ front trail name, segments path = front ++ name :: trail ∧ isStep name = true ∧
      (∀ later ∈ trail, isStep later = false) ∧ steps path = steps parent ++ [name] ∧
      ∀ (workspace : Workspace) (purpose : Purpose), workspace.target purpose path =
        (workspace.enter parent).bind fun reached =>
          workspace.files.follow purpose reached.1 reached.2 (name :: trail) := by
  have hstart := h.start_eq
  rcases h with ⟨-, hnone, -⟩ | ⟨front, trail, name, hsegments, hfront, hname, htrail, -⟩
  · exact absurd hnone hpath
  · have hsteps := steps_of_segments hsegments hname htrail
    rw [hfront] at hsteps
    refine ⟨front, trail, name, hsegments, hname, htrail, hsteps, fun workspace purpose => ?_⟩
    have hlast : (name :: trail).all (· == "") = false := by
      have hne := (not_or.mp (FileSystem.isStep_iff.mp hname)).1
      simp [hne]
    rw [Workspace.target_eq_follow (ne_empty_of_steps hpath), hsegments,
      FileSystem.follow_append hlast,
      ← FileSystem.enter_filter, hfront, ← hstart, Workspace.enter]

theorem IsParent.target_eq_error
    (h : IsParent parent path) (hpath : steps path ≠ []) {purpose : Purpose}
    (herror : workspace.enter parent = .error cause) :
    workspace.target purpose path = .error cause := by
  obtain ⟨_, _, _, _, _, _, _, htarget⟩ := h.exists_target_eq hpath
  rw [htarget, herror]
  rfl

/-- Below something that is no directory there is none. -/
theorem IsParent.isDirectory
    (h : IsParent parent path) (hparent : parent ≠ "")
    (hdirectory : workspace.isDirectory path = true) :
    workspace.isDirectory parent = true := by
  have hpath : path ≠ "" := by
    obtain ⟨location, hresolve, -⟩ := Workspace.isDirectory_iff.mp hdirectory
    exact Workspace.ne_empty_of_resolve hresolve
  obtain ⟨reached, henter⟩ := (Workspace.isDirectory_iff_enter hpath).mp hdirectory
  rw [Workspace.isDirectory_iff_enter hparent]
  cases hcase : workspace.enter parent with
  | ok other => exact ⟨other, rfl⟩
  | error cause =>
      rw [h.enter_eq_error hcase] at henter
      cases henter

theorem Lineage.enter_eq_error
    (h : Lineage (path :: parents)) {above : String} (habove : above ∈ path :: parents)
    (herror : workspace.enter above = .error cause) :
    workspace.enter path = .error cause := by
  induction parents generalizing path with
  | nil =>
      rw [List.mem_singleton.mp habove] at herror
      exact herror
  | cons parent parents ih =>
      rcases List.mem_cons.mp habove with rfl | hparents
      · exact herror
      · rcases h with - | ⟨-, hparent, hrest⟩
        exact hparent.enter_eq_error (ih hrest hparents)

theorem Workspace.IsMissing.steps_ne_nil
    (h : workspace.IsMissing path) :
    steps path ≠ [] := by
  intro hnone
  have henter := h.enter_eq
  rw [Workspace.enter, hnone, FileSystem.enter] at henter
  split at henter <;> cases henter

theorem Lineage.steps_ne_nil
    (h : Lineage (path :: parents)) {above : String} (habove : above ∈ path :: parents)
    (hmissing : workspace.IsMissing above) :
    steps path ≠ [] := by
  intro hnone
  have hbegins := h.steps_above habove
  rw [hnone, List.prefix_nil] at hbegins
  exact hmissing.steps_ne_nil hbegins

/-- A path below a missing one can not be followed. -/
theorem Lineage.target_eq_notFound
    (h : Lineage (path :: parents)) {above : String} (habove : above ∈ parents)
    (hmissing : workspace.IsMissing above) (purpose : Purpose) :
    workspace.target purpose path = .error .notFound := by
  have hpath := h.steps_ne_nil (List.mem_cons_of_mem path habove) hmissing
  rcases h with - | ⟨-, hparent, hparents⟩
  · cases habove
  · exact hparent.target_eq_error hpath (hparents.enter_eq_error habove hmissing.enter_eq)

end Parents

namespace Workspace

variable {workspace others made : Workspace} {purpose : Purpose} {name : String}
  {place location : Location} {left : Nat} {cause : FileError}

/-- Directories were added at some paths, and nothing else was changed. -/
structure Adds (paths : List String) (workspace made : Workspace) : Prop where
  base : made.base = workspace.base
  refusals : made.refusal? = workspace.refusal?
  kept : ∀ location entry, workspace.files.get? location = some entry →
    made.files.get? location = some entry
  added : ∀ location entry, made.files.get? location = some entry →
    workspace.files.get? location = none →
      entry = .directory ∧ ∃ path ∈ paths, made.resolve path = .ok location

theorem Adds.refl
    (paths : List String) (workspace : Workspace) :
    Adds paths workspace workspace := by
  refine ⟨rfl, rfl, fun _ _ h => h, fun location entry hentry hnone => ?_⟩
  rw [hnone] at hentry
  cases hentry

theorem Adds.grows
    (h : Adds paths workspace made) :
    workspace.Grows made :=
  ⟨h.base, fun _ entry hentry => ⟨entry, h.kept _ _ hentry, entry.becomes_self⟩⟩

theorem Adds.trans
    (h : Adds paths workspace others) (hmade : Adds paths others made) :
    Adds paths workspace made := by
  refine ⟨hmade.base.trans h.base, hmade.refusals.trans h.refusals,
    fun location entry hentry => ?_, fun location entry hentry hnone => ?_⟩
  · exact hmade.kept _ _ (h.kept _ _ hentry)
  · cases hbetween : others.files.get? location with
    | none => exact hmade.added _ _ hentry hbetween
    | some old =>
        obtain ⟨rfl, path, hpath, hresolve⟩ := h.added _ _ hbetween hnone
        have hkept := hmade.kept _ _ hbetween
        rw [hentry] at hkept
        exact ⟨Option.some.inj hkept, path, hpath, hmade.grows.resolve_eq_ok hresolve⟩

theorem Adds.mono
    {more : List String} (h : Adds paths workspace made) (hmore : paths ⊆ more) :
    Adds more workspace made := by
  refine ⟨h.base, h.refusals, h.kept, fun location entry hentry hnone => ?_⟩
  obtain ⟨hdirectory, path, hpath, hresolve⟩ := h.added _ _ hentry hnone
  exact ⟨hdirectory, path, hmore hpath, hresolve⟩

theorem permit_of_none
    (h : workspace.refusal? location = none) (made : Workspace) :
    workspace.permit location made = .ok made := by
  rw [permit, h]

theorem permit_eq_ok_iff
    {changed : Workspace} :
    workspace.permit location changed = .ok made ↔
      workspace.refusal? location = none ∧ made = changed := by
  rw [permit]
  cases workspace.refusal? location with
  | none => simp [eq_comm]
  | some refusal => simp

theorem makeDirectory_eq_permit
    (h : workspace.target .making path = .ok (.vacant place name)) :
    workspace.makeDirectory path =
      workspace.permit (place ++ [name]) (workspace.insert place name .directory) := by
  rw [makeDirectory, h]
  rfl

theorem makeDirectory_of_error
    (h : workspace.target .making path = .error cause) :
    workspace.makeDirectory path = .error cause := by
  rw [makeDirectory, h]
  rfl

theorem exists_vacant_of_makeDirectory
    (h : workspace.makeDirectory path = .ok made) :
    ∃ place name, workspace.target .making path = .ok (.vacant place name) ∧
      workspace.refusal? (place ++ [name]) = none ∧
      made = workspace.insert place name .directory := by
  rw [makeDirectory] at h
  rcases htarget : workspace.target .making path with cause | (location | ⟨place, name⟩)
  · rw [htarget] at h
    cases h
  · rw [htarget] at h
    cases h
  · rw [htarget] at h
    exact ⟨place, name, rfl, permit_eq_ok_iff.mp h⟩

/-- A new directory is named by its path, and nothing stands in it. -/
theorem exists_enter_insert
    (h : workspace.target purpose path = .ok (.vacant place name)) :
    ∃ left, (workspace.insert place name .directory).enter path = .ok (left, place ++ [name]) ∧
      ∀ inside, (workspace.insert place name .directory).files.get?
        (place ++ [name] ++ [inside]) = none := by
  have hentry := get?_insert_of_vacant h .directory (place ++ [name])
  rw [if_pos rfl] at hentry
  obtain ⟨left, henter⟩ := (exists_enter_iff (ne_empty_of_target h)).mpr
    ⟨resolve_insert_of_vacant h (by simp) (.inl rfl), hentry⟩
  refine ⟨left, henter, fun inside => ?_⟩
  rw [get?_insert_of_vacant h, if_neg (by simp)]
  cases hinside : workspace.files.get? (place ++ [name] ++ [inside]) with
  | none => rfl
  | some entry =>
      have hplace := FileSystem.get?_of_get?_snoc hinside
      rw [get?_of_vacant h] at hplace
      cases hplace

theorem adds_insert
    (h : workspace.target purpose path = .ok (.vacant place name)) :
    Adds [path] workspace (workspace.insert place name .directory) := by
  refine ⟨rfl, rfl, fun location entry hentry => FileSystem.get?_insert_of_some hentry _ _,
    fun location entry hentry hnone => ?_⟩
  rw [get?_insert_of_vacant h] at hentry
  split at hentry
  · next heq =>
      subst heq
      exact ⟨(Option.some.inj hentry).symm, path, List.mem_singleton.mpr rfl,
        resolve_insert_of_vacant h (by simp) (.inl rfl)⟩
  · rw [hnone] at hentry
    cases hentry

/-! ## One attempt -/

/-- Make a directory in an existing one, or be content with one that stands there. -/
def attempt (workspace : Workspace) (path : String) : Workspace × Option FileError :=
  match workspace.makeDirectory path with
  | .ok made => (made, none)
  | .error cause =>
      if workspace.isDirectory path then (workspace, none) else (workspace, some cause)

theorem attempt_of_vacant
    (h : workspace.target .making path = .ok (.vacant place name))
    (hpermitted : workspace.refusal? (place ++ [name]) = none) :
    workspace.attempt path = (workspace.insert place name .directory, none) := by
  rw [attempt, makeDirectory_eq_permit h, permit_of_none hpermitted]

/-- Where a directory is missing, the attempt to make it is as the system has it. -/
theorem attempt_of_refused
    {refusal : Refusal} (h : workspace.target .making path = .ok (.vacant place name))
    (hrefused : workspace.refusal? (place ++ [name]) = some refusal) :
    workspace.attempt path = (workspace, some (.refused refusal)) := by
  have hdirectory : workspace.isDirectory path ≠ true := by
    intro hdirectory
    rw [isDirectory_iff_enter (ne_empty_of_target h)] at hdirectory
    obtain ⟨reached, henter⟩ := hdirectory
    have hmissing : workspace.IsMissing path := ⟨place, name, h⟩
    rw [hmissing.enter_eq] at henter
    cases henter
  rw [attempt, makeDirectory_eq_permit h, permit, hrefused]
  exact if_neg hdirectory

theorem adds_attempt
    (workspace : Workspace) (path : String) :
    Adds [path] workspace (workspace.attempt path).1 := by
  rw [attempt]
  split
  · next made hmade =>
      obtain ⟨place, name, htarget, -, rfl⟩ := exists_vacant_of_makeDirectory hmade
      exact adds_insert htarget
  · split <;> exact Adds.refl _ _

/-- An attempt goes well if there is a directory after it. -/
theorem attempt_eq_none_iff
    (workspace : Workspace) (path : String) :
    (workspace.attempt path).2 = none ↔
      (workspace.attempt path).1.isDirectory path = true := by
  rw [attempt]
  split
  · next made hmade =>
      obtain ⟨place, name, htarget, -, rfl⟩ := exists_vacant_of_makeDirectory hmade
      obtain ⟨left, henter, -⟩ := exists_enter_insert htarget
      simp only [true_iff]
      exact (isDirectory_iff_enter (ne_empty_of_target htarget)).mpr ⟨_, henter⟩
  · split
    · next hdirectory => simp [hdirectory]
    · next hdirectory => simp [hdirectory]

theorem attempt_of_not_isMakeable
    (h : ¬workspace.IsMakeable path) :
    (workspace.attempt path).1 = workspace := by
  rw [attempt]
  split
  · next made hmade =>
      obtain ⟨place, name, htarget, hpermitted, -⟩ := exists_vacant_of_makeDirectory hmade
      exact absurd ⟨place, name, htarget, hpermitted⟩ h
  · split <;> rfl

/-- A path that can be made is a directory after an attempt. -/
theorem not_isMakeable_of_attempt
    (h : (workspace.attempt path).1.isDirectory path ≠ true) :
    ¬workspace.IsMakeable path := by
  rintro ⟨place, name, htarget, hpermitted⟩
  obtain ⟨left, henter, -⟩ := exists_enter_insert htarget
  apply h
  rw [attempt_of_vacant htarget hpermitted]
  exact (isDirectory_iff_enter (ne_empty_of_target htarget)).mpr ⟨_, henter⟩

/-! ## All attempts -/

theorem makeAll_empty
    (parents : List String) (workspace : Workspace) :
    makeAll ("" :: parents) workspace = (workspace, none) :=
  rfl

/-- Where something is missing on the way, the parent is made first. -/
theorem makeAll_of_notFound
    (hpath : path ≠ "") (h : workspace.makeDirectory path = .error .notFound)
    (parents : List String) :
    makeAll (path :: parents) workspace =
      match makeAll parents workspace with
      | (made, some cause) => (made, some cause)
      | (made, none) => made.attempt path := by
  rw [makeAll]
  simp only [hpath, h, if_false]
  rcases makeAll parents workspace with ⟨made, - | cause⟩
  · cases hmake : made.makeDirectory path with
    | error cause => simp only [attempt, hmake]
    | ok more => simp only [attempt, hmake]
  · rfl

theorem makeAll_of_found
    (hpath : path ≠ "") (h : workspace.makeDirectory path ≠ .error .notFound)
    (parents : List String) :
    makeAll (path :: parents) workspace = workspace.attempt path := by
  rw [makeAll, attempt]
  simp only [hpath, if_false]
  rcases hmake : workspace.makeDirectory path with cause | made
  · cases cause with
    | notFound => exact absurd hmake h
    | _ => rfl
  · rfl

/-- Making directories adds some at the paths that were asked for. -/
theorem adds_makeAll
    (paths : List String) (workspace : Workspace) :
    Adds paths workspace (makeAll paths workspace).1 := by
  induction paths with
  | nil => exact Adds.refl _ _
  | cons path parents ih =>
      have hattempt (workspace : Workspace) :
          Adds (path :: parents) workspace (workspace.attempt path).1 :=
        (adds_attempt workspace path).mono (by simp)
      by_cases hpath : path = ""
      · rw [hpath, makeAll_empty]
        exact Adds.refl _ _
      · by_cases hmissing : workspace.makeDirectory path = .error .notFound
        · rw [makeAll_of_notFound hpath hmissing]
          have hparents := ih.mono (List.subset_cons_self path parents)
          cases hmade : makeAll parents workspace with
          | mk made outcome =>
              rw [hmade] at hparents
              cases outcome with
              | none => exact hparents.trans (hattempt made)
              | some cause => exact hparents
        · rw [makeAll_of_found hpath hmissing]
          exact hattempt workspace

theorem ne_empty_of_makeAll_eq_some
    (h : makeAll (path :: parents) workspace = (made, some cause)) :
    path ≠ "" := by
  rintro rfl
  rw [makeAll_empty] at h
  cases h

/-- Making directories goes well if there is the one that was asked for in the end. -/
theorem makeAll_eq_none_iff
    (h : Lineage (path :: parents)) (hpath : path ≠ "") (workspace : Workspace) :
    (makeAll (path :: parents) workspace).2 = none ↔
      (makeAll (path :: parents) workspace).1.isDirectory path = true := by
  induction parents generalizing path with
  | nil =>
      by_cases hmissing : workspace.makeDirectory path = .error .notFound
      · rw [makeAll_of_notFound hpath hmissing]
        exact attempt_eq_none_iff workspace path
      · rw [makeAll_of_found hpath hmissing]
        exact attempt_eq_none_iff workspace path
  | cons parent parents ih =>
      by_cases hmissing : workspace.makeDirectory path = .error .notFound
      · rw [makeAll_of_notFound hpath hmissing]
        rcases h with - | ⟨-, hparent, hparents⟩
        cases hmade : makeAll (parent :: parents) workspace with
        | mk made outcome =>
            cases outcome with
            | none => exact attempt_eq_none_iff made path
            | some cause =>
                -- A parent that could not be made is no directory, nor is what is below it.
                have hne := ne_empty_of_makeAll_eq_some hmade
                have houtcome := ih hparents hne
                rw [hmade] at houtcome
                simp only [reduceCtorEq, false_iff] at houtcome ⊢
                exact fun hdirectory => houtcome (hparent.isDirectory hne hdirectory)
      · rw [makeAll_of_found hpath hmissing]
        exact attempt_eq_none_iff workspace path

/-- A directory that could not be made can not be entered. -/
theorem enter_of_makeAll_eq_some
    (h : Lineage (path :: parents))
    (hmade : makeAll (path :: parents) workspace = (made, some cause)) :
    ∃ other, made.enter path = .error other := by
  have hpath := ne_empty_of_makeAll_eq_some hmade
  have houtcome := makeAll_eq_none_iff h hpath workspace
  rw [hmade, isDirectory_iff_enter hpath] at houtcome
  cases henter : made.enter path with
  | error other => exact ⟨other, rfl⟩
  | ok reached => simp [henter] at houtcome

/-- Where nothing that is asked for can be made, nothing is. -/
theorem makeAll_of_not_isMakeable
    (h : ∀ path ∈ paths, ¬workspace.IsMakeable path) :
    (makeAll paths workspace).1 = workspace := by
  induction paths with
  | nil => rfl
  | cons path parents ih =>
      rw [List.forall_mem_cons] at h
      by_cases hpath : path = ""
      · rw [hpath, makeAll_empty]
      · have hattempt := attempt_of_not_isMakeable h.1
        by_cases hmissing : workspace.makeDirectory path = .error .notFound
        · rw [makeAll_of_notFound hpath hmissing]
          have hparents := ih h.2
          cases hmade : makeAll parents workspace with
          | mk made outcome =>
              rw [hmade] at hparents
              obtain rfl : made = workspace := hparents
              cases outcome with
              | none => exact hattempt
              | some cause => rfl
        · rw [makeAll_of_found hpath hmissing]
          exact hattempt

/-- After directories were made, none of those that were asked for can be made. -/
theorem not_isMakeable_makeAll
    (h : Lineage paths) (workspace : Workspace) :
    ∀ above ∈ paths, ¬(makeAll paths workspace).1.IsMakeable above := by
  induction paths with
  | nil => cases h
  | cons path parents ih =>
      intro above habove hmakeable
      have hpath := ne_empty_of_steps (h.steps_ne_nil habove hmakeable.isMissing)
      by_cases hdirectory : (makeAll (path :: parents) workspace).1.isDirectory path = true
      · -- All that is above a directory can be entered.
        obtain ⟨reached, henter⟩ := (isDirectory_iff_enter hpath).mp hdirectory
        rw [h.enter_eq_error habove hmakeable.isMissing.enter_eq] at henter
        cases henter
      · by_cases hnotFound : workspace.makeDirectory path = .error .notFound
        · rw [makeAll_of_notFound hpath hnotFound] at hmakeable hdirectory
          cases hmade : makeAll parents workspace with
          | mk made outcome =>
              rw [hmade] at hmakeable hdirectory ih
              cases outcome with
              | none =>
                  have hfree := not_isMakeable_of_attempt hdirectory
                  dsimp only at hmakeable
                  rw [attempt_of_not_isMakeable hfree] at hmakeable
                  rcases List.mem_cons.mp habove with rfl | hparents
                  · exact hfree hmakeable
                  · exact ih (h.of_mem hparents) above hparents hmakeable
              | some cause =>
                  rcases List.mem_cons.mp habove with rfl | hparents
                  · -- A parent that could not be made can not be entered.
                    rcases h with - | ⟨-, hparent, hparents⟩
                    · cases hmade
                    · obtain ⟨other, herror⟩ := enter_of_makeAll_eq_some hparents hmade
                      have hsteps := hmakeable.isMissing.steps_ne_nil
                      obtain ⟨place, name, htarget, -⟩ := hmakeable
                      rw [hparent.target_eq_error hsteps herror] at htarget
                      cases htarget
                  · exact ih (h.of_mem hparents) above hparents hmakeable
        · rw [makeAll_of_found hpath hnotFound] at hmakeable hdirectory
          have hfree := not_isMakeable_of_attempt hdirectory
          rw [attempt_of_not_isMakeable hfree] at hmakeable
          rcases List.mem_cons.mp habove with rfl | hparents
          · exact hfree hmakeable
          · exact hnotFound
              (makeDirectory_of_error (h.target_eq_notFound hparents hmakeable.isMissing _))

/-- Making directories changes nothing exactly if none of them can be made. -/
theorem makeAll_eq_self_iff
    (h : Lineage paths) (workspace : Workspace) :
    (makeAll paths workspace).1 = workspace ↔ ∀ path ∈ paths, ¬workspace.IsMakeable path := by
  refine ⟨fun hsame => ?_, makeAll_of_not_isMakeable⟩
  have hmade := not_isMakeable_makeAll h workspace
  rwa [hsame] at hmade

/-- Making the directories again changes nothing, and it goes as well as before. -/
theorem makeAll_again
    (h : Lineage paths) (workspace : Workspace) :
    (makeAll paths (makeAll paths workspace).1).1 = (makeAll paths workspace).1 ∧
      ((makeAll paths (makeAll paths workspace).1).2 = none ↔
        (makeAll paths workspace).2 = none) := by
  have hsame := makeAll_of_not_isMakeable (not_isMakeable_makeAll h workspace)
  refine ⟨hsame, ?_⟩
  rcases paths with - | ⟨path, parents⟩
  · cases h
  · by_cases hpath : path = ""
    · rw [hpath, makeAll_empty, makeAll_empty]
    · rw [makeAll_eq_none_iff h hpath, makeAll_eq_none_iff h hpath, hsame]

/-- Where a directory is missing in an existing one, nothing above it has to be made. -/
theorem IsMissing.makeAll_eq
    (h : workspace.IsMissing path) (parents : List String) :
    makeAll (path :: parents) workspace = workspace.attempt path := by
  obtain ⟨place, name, htarget⟩ := h
  have hfound : workspace.makeDirectory path ≠ .error .notFound := by
    rw [makeDirectory_eq_permit htarget, permit]
    split <;> simp
  exact makeAll_of_found (ne_empty_of_target htarget) hfound parents

/-- How making a directory goes whose path is missing: the system refuses to have one of the
directories made, or the one that was asked for is there, and nothing stands in it. -/
inductive MakesEmpty (path : String) : Workspace × Option FileError → Prop
  | refused (made : Workspace) (refusal : Refusal) :
      MakesEmpty path (made, some (.refused refusal))
  | made {made : Workspace} {left : Nat} {place : Location}
      (henter : made.enter path = .ok (left, place))
      (hinside : ∀ inside, made.files.get? (place ++ [inside]) = none) :
      MakesEmpty path (made, none)

theorem IsMissing.makesEmpty_attempt
    (h : workspace.IsMissing path) :
    MakesEmpty path (workspace.attempt path) := by
  obtain ⟨place, name, htarget⟩ := h
  cases hrefusal : workspace.refusal? (place ++ [name]) with
  | some refusal =>
      rw [attempt_of_refused htarget hrefusal]
      exact .refused workspace refusal
  | none =>
      obtain ⟨left, henter, hinside⟩ := exists_enter_insert htarget
      rw [attempt_of_vacant htarget hrefusal]
      exact .made henter hinside

/-- If no `..` comes after the missing path, the directory that was asked for is made unless
the system refuses it. -/
theorem makesEmpty_makeAll
    (h : Lineage (path :: parents)) (hmissing : workspace.IsMissing missing)
    (hmem : missing ∈ path :: parents) (hsteps : steps path = steps missing ++ names)
    (hnames : ".." ∉ names) :
    MakesEmpty path (makeAll (path :: parents) workspace) := by
  induction parents generalizing path names with
  | nil =>
      obtain rfl := List.mem_singleton.mp hmem
      rw [hmissing.makeAll_eq]
      exact hmissing.makesEmpty_attempt
  | cons parent parents ih =>
      rcases List.mem_cons.mp hmem with rfl | hparents
      · rw [hmissing.makeAll_eq]
        exact hmissing.makesEmpty_attempt
      · have hnotFound := makeDirectory_of_error (h.target_eq_notFound hparents hmissing _)
        have hpath := h.steps_ne_nil hmem hmissing
        rcases h with - | ⟨htrimmed, hparent, hlineage⟩
        obtain ⟨more, hmore⟩ := hlineage.steps_above hparents
        obtain ⟨front, trail, name, hsegments, hname, htrail, hlast, htarget⟩ :=
          hparent.exists_target_eq hpath
        obtain rfl := (htrimmed.resolve_left hpath).trail_eq_nil hsegments htrail
        -- The last step of the path is the last of those after the missing path.
        obtain rfl : names = more ++ [name] := by
          rw [hsteps, ← hmore, List.append_assoc] at hlast
          exact List.append_cancel_left hlast
        rw [List.mem_append, not_or, List.mem_singleton] at hnames
        have hmade := ih hlineage hparents hmore.symm hnames.1
        rw [makeAll_of_notFound (ne_empty_of_steps hpath) hnotFound]
        generalize makeAll (parent :: parents) workspace = outcome at hmade ⊢
        cases hmade with
        | refused made refusal => exact .refused made refusal
        | @made made left place henter hinside =>
            have hlast : made.IsMissing path := by
              refine ⟨place, name, ?_⟩
              rw [htarget, henter]
              exact FileSystem.follow_of_free (get?_of_enter henter) hname (Ne.symm hnames.2)
                (hinside name)
            exact hlast.makesEmpty_attempt

end Workspace

end HandlerLint.Files
