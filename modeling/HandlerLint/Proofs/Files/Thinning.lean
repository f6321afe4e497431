import HandlerLint.Proofs.Files.Trails

/-!
# Walks through less

A workspace is compared with one in which some locations are empty.  Following a path
gives the same in both as long as it does not come by what is gone.  A walk sees the same
at every name that is left, and nothing else in the smaller workspace.  So the two walks
end alike if the names that are gone would have added nothing, or else the walk through
the larger workspace stops at one of them.

Two uses are made of this.  With nothing gone, it says that a walk depends only on what
stands where, and not on the table that the file system is given by.  With one entry gone
and everything beneath it, it says what that entry does to a walk that does not enter it.
-/

namespace HandlerLint.Files

open Relation (ReflTransGen)

/-- Following some names does not come by some locations. -/
def FileSystem.Avoids
    (files : FileSystem) (gone : Location → Prop) (start : Progress) : Prop :=
  ∀ left there name rest,
    files.Run start ⟨left, there, name :: rest⟩ → ¬gone (there ++ [name])

theorem FileSystem.Avoids.of_step
    {files : FileSystem} {gone : Location → Prop} {before after : Progress}
    (h : files.Avoids gone before) (hstep : files.Step before after) :
    files.Avoids gone after := by
  intro left there name rest hrun
  exact h left there name rest (hrun.head hstep)

namespace Workspace

/-- A workspace has what another one has, but nothing at some locations. -/
structure Thins (fewer workspace : Workspace) (gone : Location → Prop) : Prop where
  base : fewer.base = workspace.base
  kept : ∀ {location}, ¬gone location →
    fewer.files.get? location = workspace.files.get? location
  lost : ∀ {location}, gone location → fewer.files.get? location = none

variable {fewer workspace : Workspace} {gone : Location → Prop} {enters : String → Bool}
  {fresh : List Location} {outer : List OpenDirectory} {here : OpenDirectory}
  {path name : String} {links left : Nat} {location place there : Location}
  {names rest : List String} {entry : Entry} {error : WalkError}

theorem Thins.get?_of_fewer
    (h : fewer.Thins workspace gone) (hentry : fewer.files.get? location = some entry) :
    workspace.files.get? location = some entry := by
  by_cases hgone : gone location
  · rw [h.lost hgone] at hentry
    cases hentry
  · rw [← h.kept hgone, hentry]

theorem Thins.step_of_fewer
    (h : fewer.Thins workspace gone) {before after : Progress}
    (hstep : fewer.files.Step before after) :
    workspace.files.Step before after := by
  rcases hstep with ⟨hhere, hname⟩ | ⟨hhere⟩ | ⟨hentry, hsolid⟩ | ⟨hlink⟩
  · exact .stay (h.get?_of_fewer hhere) hname
  · exact .up (h.get?_of_fewer hhere)
  · exact .onto (h.get?_of_fewer hentry) hsolid
  · exact .through (h.get?_of_fewer hlink)

/-- What a path leads to in the smaller workspace it leads to in the larger one, with as
many links to spare. -/
theorem Thins.leads_of_fewer
    (h : fewer.Thins workspace gone) (hleads : fewer.Leads path links location) :
    workspace.Leads path links location := by
  refine ⟨hleads.nonempty, h.get?_of_fewer hleads.isDirectory, ?_⟩
  have hstart : fewer.start path = workspace.start path := by
    rw [start, start, h.base]
  have hrun := hleads.run
  rw [hstart] at hrun
  exact ReflTransGen.mono (fun _ _ hstep => h.step_of_fewer hstep) _ _ hrun

theorem Thins.isDirectory_of_fewer
    (h : fewer.Thins workspace gone) (hdirectory : fewer.isDirectory path = true) :
    workspace.isDirectory path = true := by
  obtain ⟨location, hresolve, hlocation⟩ := isDirectory_iff.mp hdirectory
  obtain ⟨links, hleads⟩ := exists_leads hresolve hlocation
  exact isDirectory_iff.mpr
    ⟨location, (h.leads_of_fewer hleads).resolve_eq, h.get?_of_fewer hlocation⟩

/-! ## Following the same names -/

/-- Names that do not come by what is gone lead to the same. -/
theorem Thins.follow_eq
    (h : fewer.Thins workspace gone)
    (hhere : fewer.files.get? place = workspace.files.get? place)
    (havoids : workspace.files.Avoids gone ⟨links, place, names⟩) :
    fewer.files.follow .finding links place names =
      workspace.files.follow .finding links place names := by
  fun_induction FileSystem.follow workspace.files .finding links place names with
  | case1 links place => rw [FileSystem.follow]
  | case2 links place name rest hplace => rw [FileSystem.follow, hhere, if_pos hplace]
  | case3 links place name rest hplace hname ih =>
      rw [FileSystem.follow, hhere, if_neg hplace, if_pos hname]
      exact ih hhere (havoids.of_step (.stay (not_not.mp hplace) hname))
  | case4 links place rest hplace hname ih =>
      have hdirectory := not_not.mp hplace
      have habove : fewer.files.get? place.dropLast = workspace.files.get? place.dropLast := by
        rw [FileSystem.get?_dropLast hdirectory,
          FileSystem.get?_dropLast (hhere.trans hdirectory)]
      rw [FileSystem.follow, hhere, if_neg hplace, if_neg hname, if_pos rfl]
      exact ih habove (havoids.of_step (.up hdirectory))
  | case5 _ _ _ _ _ _ _ _ hwriting => cases hwriting.1
  | case6 links place name rest hplace hvoid hdots isLast _ hnone hlast =>
      have hchild := (h.kept (havoids links place name rest .refl)).trans hnone
      rw [FileSystem.follow_name (hhere.trans (not_not.mp hplace)) hvoid hdots, hchild]
      exact if_pos hlast
  | case7 links place name rest hplace hvoid hdots isLast _ hnone hlast =>
      have hchild := (h.kept (havoids links place name rest .refl)).trans hnone
      rw [FileSystem.follow_name (hhere.trans (not_not.mp hplace)) hvoid hdots, hchild]
      exact if_neg hlast
  | case8 _ _ _ _ _ _ _ _ _ _ _ hmaking => cases hmaking.1
  | case9 place name rest hplace hvoid hdots _ _ target hlink =>
      have hchild := (h.kept (havoids 0 place name rest .refl)).trans hlink
      rw [FileSystem.follow_name (hhere.trans (not_not.mp hplace)) hvoid hdots, hchild]
  | case10 place name rest hplace hvoid hdots _ _ target hlink _ links ih =>
      have hchild := (h.kept (havoids (links + 1) place name rest .refl)).trans hlink
      rw [FileSystem.follow_of_link hchild]
      refine ih ?_ (havoids.of_step (.through hlink))
      split
      · rw [fewer.files.get?_root, workspace.files.get?_root]
      · exact hhere
  | case11 links place name rest hplace hvoid hdots _ _ entry hsolid hentry ih =>
      have hkept := h.kept (havoids links place name rest .refl)
      rw [FileSystem.follow_of_get? (hkept.trans hentry) hsolid]
      exact ih hkept (havoids.of_step (.onto hentry hsolid))

/-! ## Seeing the same -/

/-- The links that are left lead where they did, however many links may be followed. -/
def LinksAgree (fewer workspace : Workspace) : Prop :=
  ∀ place name target links, fewer.files.get? (place ++ [name]) = some (.link target) →
    fewer.files.follow .finding links place [name] =
      workspace.files.follow .finding links place [name]

/-- A walk sees the same at every name that is left. -/
theorem Thins.sight_eq
    (h : fewer.Thins workspace gone) (hlinks : fewer.LinksAgree workspace)
    (hleads : fewer.Leads here.path links here.location)
    (hentry : fewer.files.get? (here.location ++ [name]) = some entry) :
    fewer.sight outer here name = workspace.sight outer here name := by
  rw [sight, sight, hentry, h.get?_of_fewer hentry]
  rcases entry with bytes | - | target
  · rfl
  · rfl
  · have hname := FileSystem.isName_of_get?_snoc hentry
    have hresolve : fewer.resolve (childPath here.path name) =
        workspace.resolve (childPath here.path name) := by
      apply resolve_congr
      rw [hleads.target_childPath hname, (h.leads_of_fewer hleads).target_childPath hname]
      exact hlinks _ _ _ _ hentry
    rw [← hresolve]
    cases hthere : fewer.resolve (childPath here.path name) with
    | error cause => rfl
    | ok there =>
        -- What is found in the smaller workspace is the same in the larger one.
        obtain ⟨found, hfound, -⟩ := solid_of_resolve hthere
        simp only [hfound, h.get?_of_fewer hfound]

/-! ## Walking alike -/

/-- An outcome is the same as another one, unless that one is an error of some kind. -/
def AgreesUnless
    (excused : WalkError → Prop) (few all : Except WalkError (List String)) : Prop :=
  few = all ∨ ∃ error, all = .error error ∧ excused error

variable {excused : WalkError → Prop}

/-- Visits agree if they agree at the names that are left and those that are not would
have added nothing. -/
theorem agreesUnless_gather
    {visit visitAll : String → Except WalkError (List String)} {keeps : String → Bool}
    (hkept : ∀ name ∈ names, keeps name = true →
      AgreesUnless excused (visit name) (visitAll name))
    (hlost : ∀ name ∈ names, keeps name = false →
      AgreesUnless excused (.ok []) (visitAll name)) :
    AgreesUnless excused (gather visit (names.filter keeps)) (gather visitAll names) := by
  induction names with
  | nil => exact .inl rfl
  | cons name names ih =>
      rw [List.forall_mem_cons] at hkept hlost
      have ih := ih hkept.2 hlost.2
      -- An excused error at this name is one of the whole; otherwise the rest decides.
      have hstop : (∃ error, visitAll name = .error error ∧ excused error) →
          AgreesUnless excused (gather visit ((name :: names).filter keeps))
            (gather visitAll (name :: names)) := by
        rintro ⟨error, herror, hexcused⟩
        exact .inr ⟨error, gather_cons_of_error herror, hexcused⟩
      have hrest : ∀ found, visitAll name = .ok found → ∀ few,
          few = (gather visit (names.filter keeps)).map (found ++ ·) →
            AgreesUnless excused few (gather visitAll (name :: names)) := by
        rintro found hfound few rfl
        rw [gather_cons_of_ok hfound]
        rcases ih with heq | ⟨error, herror, hexcused⟩
        · rw [heq]
          exact .inl rfl
        · rw [herror]
          exact .inr ⟨error, rfl, hexcused⟩
      cases hkeeps : keeps name with
      | true =>
          rw [List.filter_cons, if_pos hkeeps] at hstop ⊢
          rcases hkept.1 hkeeps with heq | hexcused
          · cases hall : visitAll name with
            | error error =>
                rw [gather_cons_of_error hall, gather_cons_of_error (heq.trans hall)]
                exact .inl rfl
            | ok found =>
                exact hrest found hall _ (gather_cons_of_ok (heq.trans hall))
          · exact hstop hexcused
      | false =>
          rw [List.filter_cons, if_neg (by simp [hkeeps])] at hstop ⊢
          rcases hlost.1 hkeeps with heq | hexcused
          · apply hrest [] heq.symm
            rcases gather visit (names.filter keeps) with error | found
            · rfl
            · rfl
          · exact hstop hexcused

/-- What a walk sees at a name that is gone adds nothing, or else stops the walk. -/
def AddsNothing
    (fewer workspace : Workspace) (enters : String → Bool) (gone : Location → Prop)
    (excused : WalkError → Prop) : Prop :=
  ∀ outer here links name, fewer.Leads here.path links here.location →
    gone (here.location ++ [name]) → name ∈ workspace.files.names here.location →
      (∃ location, workspace.sight outer here name = .directory location ∧
        enters name = false) ∨
      ∃ error, workspace.sight outer here name = .stop error ∧ excused error

theorem Thins.agreesUnless_filesBelow
    {fewerFresh : List Location}
    (h : fewer.Thins workspace gone) (hlinks : fewer.LinksAgree workspace)
    (hgone : AddsNothing fewer workspace enters gone excused)
    (hstanding : fewer.Standing fewerFresh outer here)
    (hcovers : workspace.Covers fresh (here :: outer)) :
    AgreesUnless excused (fewer.filesBelow enters fewerFresh outer here)
      (workspace.filesBelow enters fresh outer here) := by
  revert fresh
  apply walk_induction enters (h := hstanding)
  intro fewerFresh outer here hstanding ih fresh hcovers
  obtain ⟨links, hleads⟩ := hstanding.leads
  have hnames : fewer.files.names here.location =
      (workspace.files.names here.location).filter
        fun name => (fewer.files.get? (here.location ++ [name])).isSome := by
    apply FileSystem.names_eq_filter
    intro name
    rw [Option.isSome_iff_exists]
    constructor
    · rintro ⟨entry, hentry⟩
      exact ⟨⟨entry, h.get?_of_fewer hentry⟩, entry, hentry⟩
    · exact fun hboth => hboth.2
  rw [filesBelow_eq_gather hstanding.covers, filesBelow_eq_gather hcovers, hnames]
  apply agreesUnless_gather
  · intro name hname hkept
    obtain ⟨entry, hentry⟩ := Option.isSome_iff_exists.mp hkept
    have hsight : fewer.sight outer here name = workspace.sight outer here name :=
      h.sight_eq hlinks hleads hentry
    rw [visit, visit, hsight]
    cases hall : workspace.sight outer here name with
    | nothing => exact .inl rfl
    | file => exact .inl rfl
    | stop error => exact .inl rfl
    | directory location =>
        dsimp only
        by_cases henters : enters name = true
        · rw [if_pos henters, if_pos henters]
          have hall' : workspace.Standing fresh outer here :=
            ⟨hcovers, links, h.leads_of_fewer hleads⟩
          exact ih name location (hsight.trans hall) henters (hall'.enter hall).covers
        · rw [if_neg henters, if_neg henters]
          exact .inl rfl
  · intro name hname hlost
    have hnone : fewer.files.get? (here.location ++ [name]) = none := by simpa using hlost
    have hlocation : gone (here.location ++ [name]) := by
      by_contra hkept
      obtain ⟨entry, hentry⟩ := FileSystem.mem_names.mp hname
      rw [h.kept hkept, hentry] at hnone
      cases hnone
    rcases hgone outer here links name hleads hlocation hname with
      ⟨location, hsight, henters⟩ | ⟨error, hsight, hexcused⟩
    · left
      rw [visit, hsight]
      simp [henters]
    · right
      refine ⟨error, ?_, hexcused⟩
      rw [visit, hsight]

/-- Two walks from a directory that is left end alike, unless the one through more stops
at what is gone. -/
theorem Thins.agreesUnless_walk
    (h : fewer.Thins workspace gone) (hlinks : fewer.LinksAgree workspace)
    (hgone : AddsNothing fewer workspace enters gone excused)
    (hdirectory : fewer.isDirectory path = true) :
    AgreesUnless excused (fewer.walk enters path) (workspace.walk enters path) := by
  obtain ⟨location, hresolve, hlocation⟩ := isDirectory_iff.mp hdirectory
  have hstanding := standing_root hresolve hlocation
  obtain ⟨links, hleads⟩ := hstanding.leads
  rw [walk_eq_filesBelow hresolve hlocation,
    walk_eq_filesBelow (h.leads_of_fewer hleads).resolve_eq (h.get?_of_fewer hlocation)]
  exact h.agreesUnless_filesBelow hlinks hgone hstanding (covers_directories workspace _)

/-! ## The table does not matter -/

/-- A walk depends only on what stands where. -/
theorem walk_eq_of_get?_eq
    (hbase : fewer.base = workspace.base)
    (h : ∀ location, fewer.files.get? location = workspace.files.get? location)
    (enters : String → Bool) (path : String) :
    fewer.walk enters path = workspace.walk enters path := by
  have hthins : fewer.Thins workspace fun _ => False :=
    ⟨hbase, fun _ => h _, fun hgone => hgone.elim⟩
  have hfollow (links : Nat) (place : Location) (names : List String) :
      fewer.files.follow .finding links place names =
        workspace.files.follow .finding links place names :=
    hthins.follow_eq (h place) fun _ _ _ _ _ hgone => hgone
  have hresolve : fewer.resolve path = workspace.resolve path := by
    apply resolve_congr
    rw [target, target, hbase, hfollow]
  by_cases hdirectory : fewer.isDirectory path = true
  · have hlinks : fewer.LinksAgree workspace := fun place name _ links _ =>
      hfollow links place [name]
    have hnothing : AddsNothing fewer workspace enters (fun _ => False) fun _ => False :=
      fun _ _ _ _ _ hgone => hgone.elim
    rcases hthins.agreesUnless_walk hlinks hnothing hdirectory with heq | ⟨_, _, hexcused⟩
    · exact heq
    · exact hexcused.elim
  · rw [walk, walk, ← hresolve]
    cases hlocation : fewer.resolve path with
    | error cause => rfl
    | ok location =>
        have hne : fewer.files.get? location ≠ some .directory := by
          simpa [isDirectory, find?, hlocation] using hdirectory
        simp only [← h location]

end Workspace

/-! ## One entry gone -/

namespace FileSystem

variable {files : FileSystem} {location directory place : Location} {name : String}

theorem entryAt?_filter_of_outside
    {entries : List (Location × Entry)} (h : ¬location <+: place) :
    entryAt? (entries.filter fun row => !location.isPrefixOf row.1) place =
      entryAt? entries place := by
  have hplace : location.isPrefixOf place = false := by
    rw [Bool.eq_false_iff, Ne, List.isPrefixOf_iff_prefix]
    exact h
  rw [entryAt?, entryAt?, List.find?_filter]
  congr 3
  funext row
  by_cases hrow : row.1 = place
  · simp [hrow, hplace]
  · simp [hrow]

/-- A file system without an entry and everything beneath it. -/
def without (files : FileSystem) (location : Location) : FileSystem :=
  { entries := files.entries.filter fun row => !location.isPrefixOf row.1
    distinct := files.distinct.sublist (List.filter_sublist.map _)
    grounded := by
      intro row hrow
      obtain ⟨hold, hkept⟩ := List.mem_filter.mp hrow
      rw [entryAt?_filter_of_outside]
      · exact files.grounded row hold
      · intro habove
        have hrow := habove.trans (List.dropLast_prefix row.1)
        simp [List.isPrefixOf_iff_prefix.mpr hrow] at hkept
    named := fun row hrow => files.named row (List.mem_of_mem_filter hrow) }

theorem get?_without_of_outside
    (h : ¬location <+: place) :
    (files.without location).get? place = files.get? place :=
  entryAt?_filter_of_outside h

theorem get?_without_of_inside
    (hne : location ≠ []) (h : location <+: place) :
    (files.without location).get? place = none := by
  have hplace : place ≠ [] := by
    rintro rfl
    exact hne (List.prefix_nil.mp h)
  by_contra hsome
  obtain ⟨entry, hentry⟩ := Option.ne_none_iff_exists'.mp hsome
  have hrow := mem_of_get? hplace hentry
  have hkept := (List.mem_filter.mp hrow).2
  simp [List.isPrefixOf_iff_prefix.mpr h] at hkept

/-- Following some names comes to an entry: its name is looked for in the directory that
it stands in. -/
def PassesThrough
    (files : FileSystem) (here : Location) (names : List String) (directory : Location)
    (name : String) : Prop :=
  ∃ links left rest, files.Run ⟨links, here, names⟩ ⟨left, directory, name :: rest⟩

/-- No link leads to an entry or into it, those beneath it and the entry itself apart. -/
def LinksAvoid (files : FileSystem) (directory : Location) (name : String) : Prop :=
  ∀ place link target, files.get? (place ++ [link]) = some (.link target) →
    ¬directory ++ [name] <+: place ++ [link] →
      ¬files.PassesThrough (targetStart place target) (segments target) directory name

/-- Names that do not come to an entry never lead beneath it. -/
theorem avoids_of_not_passesThrough
    {here : Location} {names : List String} {links : Nat}
    (hhere : ¬directory ++ [name] <+: here)
    (h : ¬files.PassesThrough here names directory name) :
    files.Avoids (directory ++ [name] <+: ·) ⟨links, here, names⟩ := by
  -- A run that is outside gets beneath the entry only by looking for its name.
  have hlooked : ∀ {left there next rest}, files.Run ⟨links, here, names⟩
      ⟨left, there, next :: rest⟩ → ¬directory ++ [name] <+: there →
        ¬directory ++ [name] <+: there ++ [next] := by
    intro left there next rest hrun hthere hinside
    rcases List.prefix_concat_iff.mp hinside with heq | hbeneath
    · obtain ⟨rfl, hnext⟩ := List.append_inj' heq rfl
      obtain rfl := List.singleton_injective hnext
      exact h ⟨links, left, rest, hrun⟩
    · exact hthere hbeneath
  have houtside : ∀ {after}, files.Run ⟨links, here, names⟩ after →
      ¬directory ++ [name] <+: after.here := by
    intro after hrun
    induction hrun with
    | refl => exact hhere
    | tail hrun hstep ih =>
        rcases hstep with ⟨hplace, hvoid⟩ | ⟨hplace⟩ | ⟨hentry, hsolid⟩ | ⟨hlink⟩
        · exact ih
        · exact fun hinside => ih (hinside.trans (List.dropLast_prefix _))
        · exact hlooked hrun ih
        · dsimp only [targetStart]
          split
          · simp
          · exact ih
  intro left there next rest hrun
  exact hlooked hrun (houtside hrun)

end FileSystem

namespace Workspace

variable {workspace : Workspace} {enters : String → Bool} {path name : String}
  {directory : Location}

/-- A workspace without an entry and everything beneath it. -/
def without (workspace : Workspace) (location : Location) : Workspace :=
  { workspace with files := workspace.files.without location }

theorem thins_without
    (workspace : Workspace) {location : Location} (hne : location ≠ []) :
    (workspace.without location).Thins workspace (location <+: ·) :=
  ⟨rfl, FileSystem.get?_without_of_outside, FileSystem.get?_without_of_inside hne⟩

theorem linksAgree_without
    (h : workspace.files.LinksAvoid directory name) :
    (workspace.without (directory ++ [name])).LinksAgree workspace := by
  have hthins := thins_without workspace (List.concat_ne_nil name directory)
  intro place link target links hlink
  have hkept := hthins.get?_of_fewer hlink
  have houtside : ¬directory ++ [name] <+: place ++ [link] := by
    intro hgone
    rw [hthins.lost hgone] at hlink
    cases hlink
  have hplace : ¬directory ++ [name] <+: place := fun hinside =>
    houtside (hinside.trans (List.prefix_append place [link]))
  cases links with
  | zero =>
      obtain ⟨hvoid, hdots⟩ := FileSystem.isName_not_void (FileSystem.isName_of_get?_snoc hlink)
      rw [FileSystem.follow_name (FileSystem.get?_of_get?_snoc hlink) hvoid hdots, hlink,
        FileSystem.follow_name (FileSystem.get?_of_get?_snoc hkept) hvoid hdots, hkept]
  | succ links =>
      have hstart : ¬directory ++ [name] <+: targetStart place target := by
        rw [targetStart]
        split
        · simp
        · exact hplace
      rw [FileSystem.follow_of_link hlink, FileSystem.follow_of_link hkept, List.append_nil]
      exact hthins.follow_eq (hthins.kept hstart)
        (FileSystem.avoids_of_not_passesThrough hstart (h place link target hkept houtside))

/-- An entry that is a directory which is not entered adds nothing to a walk, unless the
walk stops at it. -/
theorem addsNothing_without
    (hplace : workspace.resolve path = .ok directory)
    (hname : name ∈ workspace.files.names directory)
    (hdirectory : workspace.isDirectory (childPath path name) = true)
    (henters : enters name = false) :
    AddsNothing (workspace.without (directory ++ [name])) workspace enters
      (directory ++ [name] <+: ·)
      fun error => ∃ path, workspace.resolve path = .ok directory ∧
        error.path = childPath path name := by
  have hthins := thins_without workspace (List.concat_ne_nil name directory)
  intro outer here links other hleads hgone hother
  -- The walk is outside, so what is gone here is the entry itself.
  obtain ⟨rfl, rfl⟩ : directory = here.location ∧ name = other := by
    rcases List.prefix_concat_iff.mp hgone with heq | hbeneath
    · obtain ⟨hplace, hlast⟩ := List.append_inj' heq rfl
      exact ⟨hplace, List.singleton_injective hlast⟩
    · have hnone := hthins.lost hbeneath
      rw [hleads.isDirectory] at hnone
      cases hnone
  have hhere := hthins.leads_of_fewer hleads
  cases hsight : workspace.sight outer here name with
  | nothing => exact absurd hsight (sight_ne_nothing hname)
  | directory location => exact .inl ⟨location, rfl, henters⟩
  | stop error =>
      exact .inr ⟨error, rfl, here.path, hhere.resolve_eq,
        (exists_link_of_sight_eq_stop hsight).1⟩
  | file =>
      -- By one path the entry would be a file and by another one a directory.
      obtain ⟨entry, hentry⟩ := FileSystem.mem_names.mp hname
      obtain ⟨location, bytes, hresolve, hfile⟩ := isFile_of_sight_eq_file hhere hsight
      obtain ⟨there, hthere, hfound⟩ := isDirectory_iff.mp hdirectory
      obtain ⟨left, hpath⟩ := exists_leads hplace hhere.isDirectory
      have hsame := hhere.eq_of_resolve_childPath hpath
        (FileSystem.isName_of_get?_snoc hentry) hresolve hthere
      rw [hsame, hfound] at hfile
      cases hfile

/-- A walk that stops at an entry does not end as the walk without the entry. -/
theorem walk_without_ne_error
    {root : String} {error : WalkError}
    (hroot : (workspace.without (directory ++ [name])).isDirectory root = true)
    (hplace : workspace.resolve path = .ok directory)
    (hname : name ∈ workspace.files.names directory)
    (hpath : error.path = childPath path name) :
    (workspace.without (directory ++ [name])).walk enters root ≠ .error error := by
  have hthins := thins_without workspace (List.concat_ne_nil name directory)
  intro hwalk
  obtain ⟨other, links, there, link, target, hleads, hlink, hother⟩ :=
    exists_link_of_walk_eq_error hroot hwalk
  obtain ⟨entry, hentry⟩ := FileSystem.mem_names.mp hname
  obtain ⟨left, hpathLeads⟩ := exists_leads hplace (FileSystem.get?_of_get?_snoc hentry)
  obtain ⟨rfl, rfl⟩ := (hthins.leads_of_fewer hleads).eq_of_childPath_eq hpathLeads
    (FileSystem.isName_of_get?_snoc hlink) (FileSystem.isName_of_get?_snoc hentry)
    (hother.symm.trans hpath)
  rw [hthins.lost List.prefix_rfl] at hlink
  cases hlink

end Workspace

end HandlerLint.Files
