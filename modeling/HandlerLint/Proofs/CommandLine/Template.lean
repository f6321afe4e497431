import HandlerLint.CommandLine.Init
import HandlerLint.Proofs.CommandLine.ExitCode
import HandlerLint.Proofs.Files.Making

/-!
# What writing a configuration file leaves behind

A new configuration file is written in three steps: it is seen whether something stands at
the path, the directories above the path are made, and the file is written.  Each step
follows the path anew.  The path may name something in the last step that it did not name in
the first, because a `..` leads back out of a directory that was made in between.  Then a
file that stood there is overwritten.  There is no other way to lose anything, and nothing
is added but the file and directories above its path.

Directories that were made stay where a later step fails.  It does so where the path leads
back by a `..`, where it ends in a slash or a `.`, and where the system refuses to have one
of the directories or the file made, as it does for a name that is too long.
-/

namespace HandlerLint.CommandLine

open HandlerLint.Files

/-- The bytes of a new configuration file. -/
def templateBytes : List UInt8 :=
  Text.encode Config.template

/-- The parent of a path and all paths above it. -/
def pathsAbove (output : String) : List String :=
  match Path.parent? output.toList with
  | some parent => (Path.ancestors parent).map String.ofList
  | none => []

/-- A path leads back by a `..` after the directory above it that is missing. -/
def GoesBack (workspace : Workspace) (output : String) : Prop :=
  ∃ missing ∈ pathsAbove output, workspace.IsMissing missing ∧
    ∃ names, steps output = steps missing ++ names ∧ ".." ∈ names

/-- The file at a location is overwritten: the path names nothing, but for writing it leads
to that file once the directories above it are made, and the system lets it be written to. -/
structure Overwrites
    (workspace : Workspace) (output : String) (location : Files.Location) : Prop where
  absent : workspace.isPresent output = false
  made : (makeParents workspace output).2 = none
  written : (makeParents workspace output).1.target .writing output = .ok (.taken location)
  file : ∃ bytes, workspace.files.get? location = some (.file bytes)
  allowed : workspace.refusal? location = none

/-- The system refuses to have a directory above a path made or the file written. -/
def IsRefused (workspace : Workspace) (output : String) : Prop :=
  ∃ refusal, (makeParents workspace output).2 = some (.refused refusal) ∨
    (makeParents workspace output).2 = none ∧
      (makeParents workspace output).1.write output templateBytes = .error (.refused refusal)

/-- How writing a new configuration file goes: the workspace after it and the exit code. -/
inductive Writes (workspace : Workspace) (output : String) : Workspace → ExitCode → Prop
  | present (hpresent : workspace.isPresent output = true) :
      Writes workspace output workspace .error
  | unmade {made : Workspace} {cause : FileError} (habsent : workspace.isPresent output = false)
      (hmade : makeParents workspace output = (made, some cause)) :
      Writes workspace output made .error
  | unwritten {made : Workspace} {cause : FileError}
      (habsent : workspace.isPresent output = false)
      (hmade : makeParents workspace output = (made, none))
      (hwrite : made.write output templateBytes = .error cause) :
      Writes workspace output made .error
  | written {made written : Workspace} (habsent : workspace.isPresent output = false)
      (hmade : makeParents workspace output = (made, none))
      (hwrite : made.write output templateBytes = .ok written) :
      Writes workspace output written .success

variable {workspace after made : Workspace} {output missing : String} {code : ExitCode}
  {location : Files.Location} {entry : Entry}

theorem writes_iff :
    Writes workspace output after code ↔
      (writeTemplate workspace output).1 = after ∧
        (writeTemplate workspace output).2.exitCode = code := by
  constructor
  · rintro (hpresent | ⟨habsent, hmade⟩ | ⟨habsent, hmade, hwrite⟩ | ⟨habsent, hmade, hwrite⟩)
    · rw [writeTemplate, if_pos hpresent]
      exact ⟨rfl, rfl⟩
    · rw [writeTemplate, habsent, if_neg Bool.false_ne_true, hmade]
      exact ⟨rfl, rfl⟩
    · rw [templateBytes] at hwrite
      rw [writeTemplate, habsent, if_neg Bool.false_ne_true, hmade]
      dsimp only
      rw [hwrite]
      exact ⟨rfl, rfl⟩
    · rw [templateBytes] at hwrite
      rw [writeTemplate, habsent, if_neg Bool.false_ne_true, hmade]
      dsimp only
      rw [hwrite]
      exact ⟨rfl, rfl⟩
  · rintro ⟨rfl, rfl⟩
    rw [writeTemplate]
    split
    · next hpresent => exact .present hpresent
    · next habsent =>
        rw [Bool.not_eq_true] at habsent
        split
        · next hmade => exact .unmade habsent hmade
        · next hmade =>
            split
            · next hwrite => exact .unwritten habsent hmade hwrite
            · next hwrite => exact .written habsent hmade hwrite

/-! ## The directories above -/

/-- The directories above a path are made, unless the path has no parent with a step. -/
theorem makeParents_cases
    (output : String) :
    ((∀ path ∈ pathsAbove output, steps path = []) ∧
        ∀ workspace, makeParents workspace output = (workspace, none)) ∨
      ∃ parent parents, pathsAbove output = parent :: parents ∧ Lineage (parent :: parents) ∧
        IsParent parent output ∧
        ∀ workspace, makeParents workspace output =
          Workspace.makeAll (parent :: parents) workspace := by
  unfold pathsAbove makeParents
  cases hparent : Path.parent? output.toList with
  | none => exact .inl ⟨by simp, fun workspace => rfl⟩
  | some parent =>
      obtain ⟨parents, hparents, hlineage⟩ :=
        lineage_ancestorsWithin (isTrimmed_of_parent? hparent) parent.length
      have houtput := isParent_of_parent? hparent
      rw [String.ofList_toList] at houtput
      dsimp only
      rw [Path.ancestors, hparents]
      by_cases hguard : parent = [] ∨ Path.components parent = [.current]
      · have hnone : steps (String.ofList parent) = [] := by
          rcases hguard with rfl | hcurrent
          · exact steps_empty
          · rw [steps, segments_ofList, filter_isStep_map_ofList,
              Path.filter_of_isVoid (Path.isVoid_of_components_eq_current hcurrent)]
            rfl
        refine .inl ⟨fun path hpath => ?_, fun workspace => if_pos hguard⟩
        have hbegins := hlineage.steps_above hpath
        rwa [hnone, List.prefix_nil] at hbegins
      · refine .inr ⟨_, parents, rfl, hlineage, houtput, fun workspace => ?_⟩
        rw [if_neg hguard, Workspace.makeDirectories, String.toList_ofList, Path.ancestors,
          hparents]

theorem adds_makeParents
    (workspace : Workspace) (output : String) :
    Workspace.Adds (pathsAbove output) workspace (makeParents workspace output).1 := by
  rcases makeParents_cases output with ⟨-, hmade⟩ | ⟨parent, parents, hpaths, -, -, hmade⟩
  · rw [hmade]
    exact Workspace.Adds.refl _ _
  · rw [hmade, hpaths]
    exact Workspace.adds_makeAll _ _

theorem makeParents_eq_self_iff
    (workspace : Workspace) (output : String) :
    (makeParents workspace output).1 = workspace ↔
      ∀ path ∈ pathsAbove output, ¬workspace.IsMakeable path := by
  rcases makeParents_cases output with
    ⟨hnone, hmade⟩ | ⟨parent, parents, hpaths, hlineage, -, hmade⟩
  · rw [hmade]
    simp only [true_iff]
    exact fun path hpath hmakeable => hmakeable.isMissing.steps_ne_nil (hnone path hpath)
  · rw [hmade, hpaths]
    exact Workspace.makeAll_eq_self_iff hlineage workspace

theorem makeParents_again
    (workspace : Workspace) (output : String) :
    (makeParents (makeParents workspace output).1 output).1 =
        (makeParents workspace output).1 ∧
      ((makeParents (makeParents workspace output).1 output).2 = none ↔
        (makeParents workspace output).2 = none) := by
  rcases makeParents_cases output with ⟨-, hmade⟩ | ⟨parent, parents, -, hlineage, -, hmade⟩
  · rw [hmade, hmade]
    exact ⟨rfl, Iff.rfl⟩
  · rw [hmade, hmade]
    exact Workspace.makeAll_again hlineage workspace

/-- How making the directories above a path goes that does not go back: the system refuses
to have one of them made, or the path leads to nothing then, and to a free place if it ends
in a step. -/
inductive MakesRoom (output : String) : Workspace × Option FileError → Prop
  | refused (made : Workspace) (refusal : Refusal) :
      MakesRoom output (made, some (.refused refusal))
  | made {made : Workspace}
      (hfree : ∀ location, made.target .writing output ≠ .ok (.taken location))
      (hplace : EndsInStep output →
        ∃ place name, made.target .writing output = .ok (.vacant place name)) :
      MakesRoom output (made, none)

theorem makesRoom_makeParents
    (hmissing : workspace.IsMissing missing) (hmem : missing ∈ pathsAbove output)
    (h : ¬GoesBack workspace output) :
    MakesRoom output (makeParents workspace output) := by
  rcases makeParents_cases output with
    ⟨hnone, -⟩ | ⟨parent, parents, hpaths, hlineage, hparent, hmade⟩
  · exact absurd (hnone missing hmem) hmissing.steps_ne_nil
  · have hparents := hmem
    rw [hpaths] at hparents
    obtain ⟨more, hmore⟩ := hlineage.steps_above hparents
    have houtput : steps output ≠ [] := by
      rcases hparent.steps_eq with ⟨rfl, -⟩ | ⟨name, hsteps⟩
      · rw [steps_empty, List.append_eq_nil_iff] at hmore
        exact absurd hmore.1 hmissing.steps_ne_nil
      · simp [hsteps]
    obtain ⟨front, trail, name, hsegments, hname, htrail, hlast, htarget⟩ :=
      hparent.exists_target_eq houtput
    rw [← hmore, List.append_assoc] at hlast
    have hnames : ".." ∉ more ++ [name] := fun hdots =>
      h ⟨missing, hmem, hmissing, _, hlast, hdots⟩
    rw [List.mem_append, not_or, List.mem_singleton] at hnames
    have hempty := Workspace.makesEmpty_makeAll hlineage hmissing hparents hmore.symm hnames.1
    rw [hmade]
    generalize Workspace.makeAll (parent :: parents) workspace = outcome at hempty ⊢
    cases hempty with
    | refused made refusal => exact .refused made refusal
    | @made made left place henter hinside =>
        have hplace := Workspace.get?_of_enter henter
        refine .made (fun location => ?_) fun hends => ?_
        · rw [htarget, henter]
          exact FileSystem.follow_ne_taken_of_free hplace hname (Ne.symm hnames.2)
            (hinside name) trail location
        · obtain rfl := hends.trail_eq_nil hsegments htrail
          refine ⟨place, name, ?_⟩
          rw [htarget, henter]
          exact FileSystem.follow_of_free hplace hname (Ne.symm hnames.2) (hinside name)

/-! ## The file -/

theorem write_of_vacant
    {place : Files.Location} {name : String}
    (htarget : made.target .writing output = .ok (.vacant place name)) (bytes : List UInt8) :
    made.write output bytes =
      made.permit (place ++ [name]) (made.insert place name (.file bytes)) := by
  rw [Workspace.write, htarget]
  rfl

theorem write_of_taken
    {old : List UInt8} (htarget : made.target .writing output = .ok (.taken location))
    (hold : made.files.get? location = some (.file old)) (bytes : List UInt8) :
    made.write output bytes =
      made.permit location { made with files := made.files.overwrite location bytes } := by
  rw [Workspace.write, htarget]
  dsimp only [bind, Except.bind]
  rw [hold]

/-- A file is written to a free place or over a file, where the system lets it be. -/
theorem write_cases
    {bytes : List UInt8} {written : Workspace} (h : made.write output bytes = .ok written) :
    (∃ place name, made.target .writing output = .ok (.vacant place name) ∧
        written = made.insert place name (.file bytes)) ∨
      ∃ location old, made.target .writing output = .ok (.taken location) ∧
        made.files.get? location = some (.file old) ∧ made.refusal? location = none ∧
        written = { made with files := made.files.overwrite location bytes } := by
  rcases htarget : made.target .writing output with cause | (location | ⟨place, name⟩)
  · rw [Workspace.write, htarget] at h
    cases h
  · rw [Workspace.write, htarget] at h
    dsimp only [bind, Except.bind] at h
    split at h
    · next old hold =>
        exact .inr ⟨location, old, rfl, hold, Workspace.permit_eq_ok_iff.mp h⟩
    · cases h
  · rw [write_of_vacant htarget] at h
    exact .inl ⟨place, name, rfl, (Workspace.permit_eq_ok_iff.mp h).2⟩

theorem resolve_of_target
    (h : made.target .writing output = .ok (.taken location)) :
    made.resolve output = .ok location := by
  have hpath := Workspace.ne_empty_of_target h
  rw [Workspace.target_eq_follow hpath] at h
  rw [Workspace.resolve_eq_ok_iff, Workspace.target_of_ne_empty hpath]
  exact FileSystem.follow_finding_of_writing h

/-- What a file that was written does to the files: it stands where its path leads, and
everything else is as before. -/
theorem exists_resolve_of_write
    {bytes : List UInt8} {written : Workspace} (h : made.write output bytes = .ok written) :
    ∃ location, written.resolve output = .ok location ∧ made.Grows written ∧
      ∀ here, written.files.get? here =
        if here = location then some (.file bytes) else made.files.get? here := by
  rcases write_cases h with ⟨place, name, htarget, rfl⟩ | ⟨location, old, htarget, hold, -, rfl⟩
  · exact ⟨place ++ [name],
      Workspace.resolve_insert_of_vacant htarget (by simp) (.inr rfl),
      Workspace.grows_insert _ _ _ _, Workspace.get?_insert_of_vacant htarget _⟩
  · have hgrows : made.Grows { made with files := made.files.overwrite location bytes } :=
      ⟨rfl, FileSystem.grows_overwrite hold bytes⟩
    exact ⟨location, hgrows.resolve_eq_ok (resolve_of_target htarget), hgrows,
      FileSystem.get?_overwrite hold bytes⟩

theorem read_of_resolve
    {bytes : List UInt8} (hresolve : workspace.resolve output = .ok location)
    (hfile : workspace.files.get? location = some (.file bytes)) :
    workspace.read output = .ok bytes := by
  rw [Workspace.read, hresolve]
  dsimp only [bind, Except.bind]
  rw [hfile]
  rfl

theorem isPresent_of_resolve
    (hresolve : workspace.resolve output = .ok location)
    (hentry : workspace.files.get? location = some entry) :
    workspace.isPresent output = true := by
  rw [Workspace.isPresent, Workspace.find?, hresolve]
  dsimp only
  rw [hentry]
  rfl

/-- A file is overwritten only if its path goes back from a missing directory. -/
theorem Overwrites.goesBack
    (h : Overwrites workspace output location) :
    GoesBack workspace output := by
  by_contra hback
  have hwritten := h.written
  by_cases hmakeable : ∀ path ∈ pathsAbove output, ¬workspace.IsMakeable path
  · -- Where nothing is made, the path names the file from the start.
    rw [(makeParents_eq_self_iff workspace output).mpr hmakeable] at hwritten
    obtain ⟨bytes, hfile⟩ := h.file
    have hpresent := isPresent_of_resolve (resolve_of_target hwritten) hfile
    rw [h.absent] at hpresent
    cases hpresent
  · push Not at hmakeable
    obtain ⟨missing, hmem, hmakeable⟩ := hmakeable
    have hroom := makesRoom_makeParents hmakeable.isMissing hmem hback
    have hmade := h.made
    generalize makeParents workspace output = outcome at hroom hmade hwritten
    cases hroom with
    | refused => cases hmade
    | made hfree => exact hfree location hwritten

/-! ## The whole run -/

theorem Writes.adds_of_error
    (h : Writes workspace output after .error) :
    Workspace.Adds (pathsAbove output) workspace after := by
  have hadds := adds_makeParents workspace output
  rcases h with hpresent | ⟨habsent, hmade⟩ | ⟨habsent, hmade, hwrite⟩
  · exact Workspace.Adds.refl _ _
  · rwa [hmade] at hadds
  · rwa [hmade] at hadds

/-- What is not overwritten stays. -/
theorem Writes.kept
    (h : Writes workspace output after code)
    (hentry : workspace.files.get? location = some entry)
    (hover : ¬Overwrites workspace output location) :
    after.files.get? location = some entry := by
  cases code with
  | error => exact h.adds_of_error.kept _ _ hentry
  | failed => cases h
  | success =>
      rcases h with - | - | - | ⟨habsent, hmade, hwrite⟩
      have hkept := (adds_makeParents workspace output).kept _ _ hentry
      rw [hmade] at hkept
      have hrefusals := (adds_makeParents workspace output).refusals
      rw [hmade] at hrefusals
      rcases write_cases hwrite with
        ⟨place, name, htarget, rfl⟩ | ⟨place, old, htarget, hold, hallowed, rfl⟩
      · exact FileSystem.get?_insert_of_some hkept _ _
      · rw [FileSystem.get?_overwrite hold, if_neg]
        · exact hkept
        · rintro rfl
          rw [hold] at hkept
          cases hkept
          exact hover ⟨habsent, by rw [hmade], by rw [hmade]; exact htarget, ⟨old, hentry⟩,
            by rw [← hrefusals]; exact hallowed⟩

theorem Writes.overwritten
    (h : Writes workspace output after code) (hover : Overwrites workspace output location) :
    after.files.get? location = some (.file templateBytes) ∧ code = .success := by
  obtain ⟨old, hold⟩ := hover.file
  have hadds := adds_makeParents workspace output
  have hkept := hadds.kept _ _ hold
  have hallowed : (makeParents workspace output).1.refusal? location = none := by
    rw [hadds.refusals]
    exact hover.allowed
  have hwrites := (write_of_taken hover.written hkept templateBytes).trans
    (Workspace.permit_of_none hallowed _)
  have hmade := hover.made
  rcases h with hpresent | ⟨-, hunmade⟩ | ⟨-, hparents, hwrite⟩ | ⟨-, hparents, hwrite⟩
  · rw [hover.absent] at hpresent
    cases hpresent
  · rw [hunmade] at hmade
    cases hmade
  · rw [hparents, hwrite] at hwrites
    cases hwrites
  · rw [hparents] at hwrites hkept
    rw [hwrite] at hwrites
    cases hwrites
    refine ⟨?_, rfl⟩
    exact (FileSystem.get?_overwrite hkept templateBytes location).trans (if_pos rfl)

/-- A run that goes well leaves the file, and nothing else is new but directories above it. -/
theorem Writes.added
    (h : Writes workspace output after .success) :
    after.read output = .ok templateBytes ∧ after.isPresent output = true ∧
      ∀ location entry, after.files.get? location = some entry →
        workspace.files.get? location = none →
          after.resolve output = .ok location ∨
          entry = .directory ∧ ∃ path ∈ pathsAbove output, after.resolve path = .ok location := by
  rcases h with - | - | - | ⟨habsent, hmade, hwrite⟩
  obtain ⟨place, hresolve, hgrows, hfiles⟩ := exists_resolve_of_write hwrite
  have hfile : after.files.get? place = some (.file templateBytes) := by
    rw [hfiles, if_pos rfl]
  refine ⟨read_of_resolve hresolve hfile, isPresent_of_resolve hresolve hfile,
    fun location entry hentry hnone => ?_⟩
  rw [hfiles] at hentry
  split at hentry
  · next heq => exact .inl (heq ▸ hresolve)
  · have hadds := adds_makeParents workspace output
    rw [hmade] at hadds
    obtain ⟨hdirectory, path, hpath, habove⟩ := hadds.added _ _ hentry hnone
    exact .inr ⟨hdirectory, path, hpath, hgrows.resolve_eq_ok habove⟩

theorem Writes.of_isPresent
    (h : Writes workspace output after code) (hpresent : workspace.isPresent output = true) :
    after = workspace ∧ code = .error := by
  rcases h with - | ⟨habsent, -⟩ | ⟨habsent, -⟩ | ⟨habsent, -⟩
  · exact ⟨rfl, rfl⟩
  all_goals
    rw [hpresent] at habsent
    cases habsent

/-- A second run fails and changes nothing. -/
theorem Writes.again
    {later : Workspace} {laterCode : ExitCode} (h : Writes workspace output after code)
    (hagain : Writes after output later laterCode) :
    later = after ∧ laterCode = .error := by
  obtain ⟨hsame, houtcome⟩ := makeParents_again workspace output
  cases h with
  | present hpresent => exact hagain.of_isPresent hpresent
  | written habsent hmade hwrite =>
      exact hagain.of_isPresent (Writes.written habsent hmade hwrite).added.2.1
  | unmade habsent hmade =>
      rw [hmade] at hsame houtcome
      cases hagain with
      | present => exact ⟨rfl, rfl⟩
      | unmade _ hlater =>
          rw [hlater] at hsame
          exact ⟨hsame, rfl⟩
      | unwritten _ hlater =>
          rw [hlater] at houtcome
          cases houtcome.mp rfl
      | written _ hlater =>
          rw [hlater] at houtcome
          cases houtcome.mp rfl
  | unwritten habsent hmade hwrite =>
      rw [hmade] at hsame houtcome
      cases hagain with
      | present => exact ⟨rfl, rfl⟩
      | unmade _ hlater =>
          rw [hlater] at houtcome
          cases houtcome.mpr rfl
      | unwritten _ hlater =>
          rw [hlater] at hsame
          exact ⟨hsame, rfl⟩
      | written _ hlater hwritten =>
          rw [hlater] at hsame
          obtain rfl : _ = after := hsame
          rw [hwrite] at hwritten
          cases hwritten

/-- What comes of writing a new configuration file.  Everything stays but for a file that is
overwritten.  Where it goes well, the file is there, and nothing else is new but directories
above it.  It never goes well a second time, and then nothing changes. -/
theorem template_effect
    (workspace : Workspace) (output : String) :
    (∀ location entry, workspace.files.get? location = some entry →
      ¬Overwrites workspace output location →
        (writeTemplate workspace output).1.files.get? location = some entry) ∧
    (∀ location, Overwrites workspace output location →
      (writeTemplate workspace output).1.files.get? location = some (.file templateBytes) ∧
      (writeTemplate workspace output).2.exitCode.toNat = 0 ∧ GoesBack workspace output) ∧
    ((writeTemplate workspace output).2.exitCode.toNat = 0 →
      (writeTemplate workspace output).1.read output = .ok templateBytes ∧
      ∀ location entry, (writeTemplate workspace output).1.files.get? location = some entry →
        workspace.files.get? location = none →
          (writeTemplate workspace output).1.resolve output = .ok location ∨
          entry = .directory ∧ ∃ path ∈ pathsAbove output,
            (writeTemplate workspace output).1.resolve path = .ok location) ∧
    (writeTemplate (writeTemplate workspace output).1 output).1 =
        (writeTemplate workspace output).1 ∧
      (writeTemplate (writeTemplate workspace output).1 output).2.exitCode.toNat = 2 := by
  have hwrites : Writes workspace output (writeTemplate workspace output).1
      (writeTemplate workspace output).2.exitCode :=
    writes_iff.mpr ⟨rfl, rfl⟩
  refine ⟨fun location entry hentry hover => hwrites.kept hentry hover,
    fun location hover => ?_, fun hzero => ?_, ?_⟩
  · obtain ⟨hfile, hsuccess⟩ := hwrites.overwritten hover
    exact ⟨hfile, by rw [hsuccess]; rfl, hover.goesBack⟩
  · have hsuccess : (writeTemplate workspace output).2.exitCode = .success :=
      toNat_injective hzero
    rw [hsuccess] at hwrites
    obtain ⟨hread, -, hadded⟩ := hwrites.added
    exact ⟨hread, hadded⟩
  · obtain ⟨hsame, herror⟩ := hwrites.again (writes_iff.mpr ⟨rfl, rfl⟩)
    exact ⟨hsame, by rw [herror]; rfl⟩

/-! ## A file beside a new directory -/

/-- A workspace with one file, in the root. -/
def takenWorkspace : Workspace :=
  { files :=
      { entries := [(["taken"], .file [111, 108, 100, 10])]
        distinct := by decide
        grounded := by decide
        named := by decide }
    base := [] }

/-- The workspace with a new directory beside the file. -/
def besideTaken : Workspace :=
  takenWorkspace.insert [] "new" .directory

theorem target_from_root
    {names : List String} (hbase : workspace.base = []) (hpath : output ≠ "")
    (hsegments : segments output = names) (purpose : Purpose) :
    workspace.target purpose output =
      workspace.files.follow purpose linkLimit [] names := by
  have hstart : workspace.start output = [] := by
    rw [Workspace.start, hbase]
    split <;> rfl
  rw [Workspace.target_eq_follow hpath, hstart, hsegments]

theorem takenWorkspace_get?_new : takenWorkspace.files.get? ["new"] = none := by
  decide

theorem takenWorkspace_target_new :
    takenWorkspace.target .making "new" = .ok (.vacant [] "new") := by
  rw [target_from_root rfl (by decide) (show segments "new" = ["new"] by decide)]
  simp [FileSystem.follow, takenWorkspace_get?_new]

theorem takenWorkspace_makes_new
    (parents : List String) :
    Workspace.makeAll ("new" :: parents) takenWorkspace = (besideTaken, none) :=
  (Workspace.IsMissing.makeAll_eq ⟨_, _, takenWorkspace_target_new⟩ parents).trans
    (Workspace.attempt_of_vacant takenWorkspace_target_new (by decide))

/-- Every path on from the missing directory names nothing. -/
theorem takenWorkspace_isPresent
    {rest : List String} (hpath : output ≠ "") (hsegments : segments output = "new" :: rest)
    (hrest : rest.all (· == "") = false) :
    takenWorkspace.isPresent output = false := by
  have htarget : takenWorkspace.target .finding output = .error .notFound := by
    rw [target_from_root rfl hpath hsegments]
    simp [FileSystem.follow, takenWorkspace_get?_new, hrest]
  simp [Workspace.isPresent, Workspace.find?, Workspace.resolve, htarget, bind, Except.bind]

theorem besideTaken_get?
    (here : Files.Location) :
    besideTaken.files.get? here =
      if here = ["new"] then some .directory else takenWorkspace.files.get? here :=
  Workspace.get?_insert_of_vacant takenWorkspace_target_new .directory here

theorem besideTaken_get?_new : besideTaken.files.get? ["new"] = some .directory := by
  rw [besideTaken_get?]
  rfl

/-- Out of the new directory leads a path to the root. -/
theorem besideTaken_target_up
    (purpose : Purpose) :
    besideTaken.target purpose "new/.." = .ok (.taken []) := by
  rw [target_from_root rfl (by decide) (show segments "new/.." = ["new", ".."] by decide)]
  simp [FileSystem.follow, besideTaken_get?_new]

/-- A file is overwritten by a path that goes by a new directory. -/
theorem takenWorkspace_is_overwritten :
    Overwrites takenWorkspace "new/../taken" ["taken"] ∧
      takenWorkspace.files.get? ["taken"] = some (.file [111, 108, 100, 10]) ∧
      (writeTemplate takenWorkspace "new/../taken").1.files.get? ["taken"] =
        some (.file templateBytes) ∧
      templateBytes ≠ [111, 108, 100, 10] ∧
      (writeTemplate takenWorkspace "new/../taken").2.exitCode.toNat = 0 ∧
      (writeTemplate takenWorkspace "new/../taken").1.read "new/../taken" =
        .ok templateBytes := by
  have hsegments : segments "new/../taken" = ["new", "..", "taken"] := by decide
  have hfile : takenWorkspace.files.get? ["taken"] = some (.file [111, 108, 100, 10]) := by
    decide
  have hmissing : takenWorkspace.makeDirectory "new/.." = .error .notFound := by
    apply Workspace.makeDirectory_of_error
    rw [target_from_root rfl (by decide) (show segments "new/.." = ["new", ".."] by decide)]
    simp [FileSystem.follow, takenWorkspace_get?_new]
  have hstands : besideTaken.attempt "new/.." = (besideTaken, none) := by
    have hdirectory : besideTaken.isDirectory "new/.." = true :=
      Workspace.isDirectory_iff.mpr
        ⟨[], Workspace.resolve_eq_ok_iff.mpr (besideTaken_target_up .finding), rfl⟩
    rw [Workspace.attempt, Workspace.makeDirectory, besideTaken_target_up]
    exact if_pos hdirectory
  have hmade : makeParents takenWorkspace "new/../taken" = (besideTaken, none) := by
    have hparents : makeParents takenWorkspace "new/../taken" =
        Workspace.makeAll ["new/..", "new", ""] takenWorkspace := rfl
    rw [hparents, Workspace.makeAll_of_notFound (by decide) hmissing, takenWorkspace_makes_new]
    exact hstands
  have hover : Overwrites takenWorkspace "new/../taken" ["taken"] := by
    refine ⟨takenWorkspace_isPresent (by decide) hsegments (by decide), ?_, ?_, ⟨_, hfile⟩,
      by decide⟩
    · rw [hmade]
    · rw [hmade, target_from_root rfl (by decide) hsegments]
      simp [FileSystem.follow, besideTaken_get?, hfile]
  obtain ⟨-, hoverwritten, hwritten, -⟩ := template_effect takenWorkspace "new/../taken"
  obtain ⟨hnew, hzero, -⟩ := hoverwritten _ hover
  exact ⟨hover, hfile, hnew, by decide +kernel, hzero, (hwritten hzero).1⟩

/-! ## Failing runs -/

theorem Writes.eq_self_iff_of_error
    (h : Writes workspace output after .error) :
    after = workspace ↔
      workspace.isPresent output = true ∨
        ∀ path ∈ pathsAbove output, ¬workspace.IsMakeable path := by
  have hmakes := makeParents_eq_self_iff workspace output
  rcases h with hpresent | ⟨habsent, hmade⟩ | ⟨habsent, hmade, -⟩
  · simp [hpresent]
  · rw [hmade] at hmakes
    simpa [habsent] using hmakes
  · rw [hmade] at hmakes
    simpa [habsent] using hmakes

/-- A file can be written to a free place unless the system refuses it. -/
theorem exists_refusal_of_write
    {place : Files.Location} {name : String} {bytes : List UInt8} {cause : FileError}
    (htarget : made.target .writing output = .ok (.vacant place name))
    (h : made.write output bytes = .error cause) :
    ∃ refusal, cause = .refused refusal := by
  rw [write_of_vacant htarget, Workspace.permit] at h
  split at h
  · next refusal hrefusal => exact ⟨refusal, (Except.error.inj h).symm⟩
  · cases h

/-- Something is left behind only where the path goes back, the system refuses to have
something made, or the path does not end in a step. -/
theorem Writes.goesBack_or_isRefused_of_error
    (h : Writes workspace output after .error) (hchanged : after ≠ workspace)
    (hends : EndsInStep output) :
    GoesBack workspace output ∨ IsRefused workspace output := by
  by_cases hback : GoesBack workspace output
  · exact .inl hback
  · right
    rw [Ne, h.eq_self_iff_of_error, not_or] at hchanged
    obtain ⟨hpresent, hmakeable⟩ := hchanged
    push Not at hmakeable
    obtain ⟨missing, hmem, hmakeable⟩ := hmakeable
    have hroom := makesRoom_makeParents hmakeable.isMissing hmem hback
    rcases h with hthere | ⟨-, hmade⟩ | ⟨-, hmade, hwrite⟩
    · exact absurd hthere hpresent
    · rw [hmade] at hroom
      cases hroom with
      | refused made refusal => exact ⟨refusal, .inl (by rw [hmade])⟩
    · rw [hmade] at hroom
      cases hroom with
      | made hfree hplace =>
          obtain ⟨place, name, htarget⟩ := hplace hends
          obtain ⟨refusal, rfl⟩ := exists_refusal_of_write htarget hwrite
          exact ⟨refusal, .inr ⟨by rw [hmade], by rw [hmade]; exact hwrite⟩⟩

/-- A failing run leaves directories above the path at most.  It leaves some exactly if the
path names nothing and one of them is missing and can be made, and only where the path goes
back from the missing one, does not end in a step, or the system refuses to have a directory
made or the file written. -/
theorem failed_template_leaves_directories
    (workspace : Workspace) (output : String)
    (hfailed : (writeTemplate workspace output).2.exitCode.toNat = 2) :
    Workspace.Adds (pathsAbove output) workspace (writeTemplate workspace output).1 ∧
      ((writeTemplate workspace output).1 = workspace ↔
        workspace.isPresent output = true ∨
          ∀ path ∈ pathsAbove output, ¬workspace.IsMakeable path) ∧
      ((writeTemplate workspace output).1 = workspace ∨ GoesBack workspace output ∨
        ¬EndsInStep output ∨ IsRefused workspace output) := by
  have herror : (writeTemplate workspace output).2.exitCode = .error :=
    toNat_injective hfailed
  have hwrites : Writes workspace output (writeTemplate workspace output).1 .error :=
    writes_iff.mpr ⟨rfl, herror⟩
  refine ⟨hwrites.adds_of_error, hwrites.eq_self_iff_of_error, ?_⟩
  by_cases hsame : (writeTemplate workspace output).1 = workspace
  · exact .inl hsame
  · by_cases hends : EndsInStep output
    · rcases hwrites.goesBack_or_isRefused_of_error hsame hends with hback | hrefused
      · exact .inr (.inl hback)
      · exact .inr (.inr (.inr hrefused))
    · exact .inr (.inr (.inl hends))

theorem takenWorkspace_writes_up : Writes takenWorkspace "new/.." besideTaken .error := by
  have hmade : makeParents takenWorkspace "new/.." = (besideTaken, none) :=
    takenWorkspace_makes_new [""]
  have hwrite : besideTaken.write "new/.." templateBytes = .error .isADirectory := by
    rw [Workspace.write, besideTaken_target_up]
    rfl
  exact .unwritten (takenWorkspace_isPresent (by decide)
    (show segments "new/.." = ["new", ".."] by decide) (by decide)) hmade hwrite

theorem takenWorkspace_writes_slash : Writes takenWorkspace "new/x/" besideTaken .error := by
  have hsegments : segments "new/x/" = ["new", "x", ""] := by decide
  have hmade : makeParents takenWorkspace "new/x/" = (besideTaken, none) :=
    takenWorkspace_makes_new [""]
  have hwrite : besideTaken.write "new/x/" templateBytes = .error .isADirectory := by
    rw [Workspace.write, target_from_root rfl (by decide) hsegments]
    simp [FileSystem.follow, besideTaken_get?_new, bind, Except.bind]
  exact .unwritten (takenWorkspace_isPresent (by decide) hsegments (by decide)) hmade hwrite

/-- A name with one byte more than a name can have. -/
def longName : List Char :=
  List.replicate (nameLimit + 1) 'n'

/-- The path of the long name in the new directory. -/
def longPath : String :=
  String.ofList ("new/".toList ++ longName)

theorem segments_longPath : segments longPath = ["new", String.ofList longName] := by
  have hsplit : Text.splitOn '/' ("new/".toList ++ longName) = ["new".toList, longName] := by
    decide +kernel
  have hnew : String.ofList "new".toList = "new" := String.ofList_toList
  calc segments longPath
    _ = (Text.splitOn '/' ("new/".toList ++ longName)).map String.ofList :=
        segments_ofList ("new/".toList ++ longName)
    _ = ["new", String.ofList longName] := by
        rw [hsplit, List.map_cons, List.map_singleton, hnew]

theorem makeParents_longPath :
    makeParents takenWorkspace longPath = (besideTaken, none) := by
  have hparent : Path.parent? ("new/".toList ++ longName) = some "new".toList := by
    decide +kernel
  have hpath : longPath.toList = "new/".toList ++ longName := String.toList_ofList
  rw [makeParents, hpath, hparent]
  exact takenWorkspace_makes_new [""]

theorem takenWorkspace_writes_long : Writes takenWorkspace longPath besideTaken .error := by
  have hpath : longPath ≠ "" := by decide +kernel
  have hname : String.ofList longName ≠ "" ∧ String.ofList longName ≠ "." ∧
      String.ofList longName ≠ ".." := by decide +kernel
  have hfree : besideTaken.files.get? ["new", String.ofList longName] = none := by
    rw [besideTaken_get?, if_neg (by simp)]
    rfl
  have htarget : besideTaken.target .writing longPath =
      .ok (.vacant ["new"] (String.ofList longName)) := by
    rw [target_from_root rfl hpath segments_longPath]
    simp [FileSystem.follow, besideTaken_get?_new, hname, hfree]
  have hrefused : besideTaken.refusal? ["new", String.ofList longName] = some .nameTooLong := by
    decide +kernel
  have hwrite : besideTaken.write longPath templateBytes = .error (.refused .nameTooLong) := by
    rw [write_of_vacant htarget, Workspace.permit]
    simp [hrefused]
  exact .unwritten (takenWorkspace_isPresent hpath segments_longPath (by simp [hname]))
    makeParents_longPath hwrite

theorem fails_and_leaves_new
    (h : Writes takenWorkspace output besideTaken .error) :
    (writeTemplate takenWorkspace output).2.exitCode.toNat = 2 ∧
      (writeTemplate takenWorkspace output).1.files.get? ["new"] = some .directory := by
  obtain ⟨hafter, hcode⟩ := writes_iff.mp h
  rw [hafter, hcode]
  exact ⟨rfl, besideTaken_get?_new⟩

/-- After a failing run with a path that goes back, a new directory is there. -/
theorem takenWorkspace_keeps_directory :
    (writeTemplate takenWorkspace "new/..").2.exitCode.toNat = 2 ∧
      Workspace.Adds (pathsAbove "new/..") takenWorkspace
        (writeTemplate takenWorkspace "new/..").1 ∧
      (writeTemplate takenWorkspace "new/..").1 ≠ takenWorkspace := by
  obtain ⟨hfailed, hnew⟩ := fails_and_leaves_new takenWorkspace_writes_up
  obtain ⟨hadds, -, -⟩ := failed_template_leaves_directories takenWorkspace "new/.." hfailed
  refine ⟨hfailed, hadds, fun hsame => ?_⟩
  rw [hsame, takenWorkspace_get?_new] at hnew
  cases hnew

/-- A `..`, a slash at the end of a path and a name that is too long make a run fail after a
directory was made. -/
theorem failing_runs_leave_directory :
    takenWorkspace.files.get? ["new"] = none ∧
      ((writeTemplate takenWorkspace "new/..").2.exitCode.toNat = 2 ∧
        (writeTemplate takenWorkspace "new/..").1.files.get? ["new"] = some .directory) ∧
      ((writeTemplate takenWorkspace "new/x/").2.exitCode.toNat = 2 ∧
        (writeTemplate takenWorkspace "new/x/").1.files.get? ["new"] = some .directory) ∧
      (writeTemplate takenWorkspace longPath).2.exitCode.toNat = 2 ∧
        (writeTemplate takenWorkspace longPath).1.files.get? ["new"] = some .directory :=
  ⟨takenWorkspace_get?_new, fails_and_leaves_new takenWorkspace_writes_up,
    fails_and_leaves_new takenWorkspace_writes_slash,
    fails_and_leaves_new takenWorkspace_writes_long⟩

end HandlerLint.CommandLine
