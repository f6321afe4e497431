import Mathlib.Logic.Relation
import HandlerLint.Files.Traversal
import HandlerLint.Proofs.Files.Entries
import HandlerLint.Proofs.Path.Below

/-!
# Following a path

Following some names is a run of steps.  A step takes the first name that is left: it
stays where it is, goes up, goes onto an entry, or replaces a link by the names of its
target.  What comes after some names does not change the steps that are made for them, so
a path that leads to a directory can be gone on from there.  This gives where the names in
a directory lead, by the path that the directory was reached by.
-/

namespace HandlerLint.Files

open HandlerLint.Text
open Relation (ReflTransGen)

theorem isName_iff
    {name : String} :
    isName name = true ↔ name ≠ "" ∧ name ≠ "." ∧ name ≠ ".." ∧ '/' ∉ name.toList := by
  simp [isName, and_assoc]

/-- Where the names of a link's target are followed from, given the directory that the
link stands in. -/
def targetStart (here : Location) (target : String) : Location :=
  if isAbsolute target then [] else here

/-- How far some names have been followed: how many links may still be followed, the place
that is reached, and the names that are left. -/
structure Progress where
  links : Nat
  here : Location
  names : List String

namespace FileSystem

/-- One step of following some names. -/
inductive Step (files : FileSystem) : Progress → Progress → Prop
  | stay {links : Nat} {here : Location} {name : String} {rest : List String}
      (hhere : files.get? here = some .directory) (hname : name = "" ∨ name = ".") :
      Step files ⟨links, here, name :: rest⟩ ⟨links, here, rest⟩
  | up {links : Nat} {here : Location} {rest : List String}
      (hhere : files.get? here = some .directory) :
      Step files ⟨links, here, ".." :: rest⟩ ⟨links, here.dropLast, rest⟩
  | onto {links : Nat} {here : Location} {name : String} {rest : List String} {entry : Entry}
      (hentry : files.get? (here ++ [name]) = some entry)
      (hsolid : ∀ target, entry ≠ .link target) :
      Step files ⟨links, here, name :: rest⟩ ⟨links, here ++ [name], rest⟩
  | through {links : Nat} {here : Location} {name target : String} {rest : List String}
      (hlink : files.get? (here ++ [name]) = some (.link target)) :
      Step files ⟨links + 1, here, name :: rest⟩
        ⟨links, targetStart here target, segments target ++ rest⟩

/-- Some steps of following names. -/
abbrev Run (files : FileSystem) : Progress → Progress → Prop :=
  ReflTransGen files.Step

variable {files : FileSystem} {links left : Nat} {here there : Location}
  {name target : String} {names rest : List String} {entry : Entry}

/-- What happens at a name that is looked for in a directory. -/
theorem follow_name
    (hhere : files.get? here = some .directory) (hvoid : ¬(name = "" ∨ name = "."))
    (hdots : name ≠ "..") :
    files.follow .finding links here (name :: rest) =
      match files.get? (here ++ [name]), links with
      | none, _ => if rest.all (· == "") then .ok (.vacant here name) else .error .notFound
      | some (.link _), 0 => .error .tooManyLinks
      | some (.link target), links + 1 =>
          files.follow .finding links (targetStart here target) (segments target ++ rest)
      | some _, links => files.follow .finding links (here ++ [name]) rest := by
  rw [follow]
  simp only [hhere, hvoid, hdots, ne_eq, not_true, if_false, reduceCtorEq, false_and]
  rcases files.get? (here ++ [name]) with - | (bytes | - | target)
  · rfl
  · rfl
  · rfl
  · rcases links with - | links
    · rfl
    · rfl

theorem isName_not_void
    (h : isName name = true) :
    ¬(name = "" ∨ name = ".") ∧ name ≠ ".." := by
  obtain ⟨hempty, hdot, hdots, -⟩ := isName_iff.mp h
  exact ⟨not_or.mpr ⟨hempty, hdot⟩, hdots⟩

theorem follow_of_get?
    (h : files.get? (here ++ [name]) = some entry) (hsolid : ∀ target, entry ≠ .link target) :
    files.follow .finding links here (name :: rest) =
      files.follow .finding links (here ++ [name]) rest := by
  obtain ⟨hvoid, hdots⟩ := isName_not_void (isName_of_get?_snoc h)
  rw [follow_name (get?_of_get?_snoc h) hvoid hdots, h]
  rcases entry with bytes | - | target
  · rfl
  · rfl
  · exact absurd rfl (hsolid target)

theorem follow_of_link
    (h : files.get? (here ++ [name]) = some (.link target)) :
    files.follow .finding (links + 1) here (name :: rest) =
      files.follow .finding links (targetStart here target) (segments target ++ rest) := by
  obtain ⟨hvoid, hdots⟩ := isName_not_void (isName_of_get?_snoc h)
  rw [follow_name (get?_of_get?_snoc h) hvoid hdots, h]

/-- A step does not change where the names lead. -/
theorem Step.follow_eq
    {before after : Progress} (h : files.Step before after) :
    files.follow .finding before.links before.here before.names =
      files.follow .finding after.links after.here after.names := by
  rcases h with ⟨hhere, hname⟩ | ⟨hhere⟩ | ⟨hentry, hsolid⟩ | ⟨hlink⟩
  · rw [follow, if_neg (not_not_intro hhere), if_pos hname]
  · rw [follow, if_neg (not_not_intro hhere)]
    simp
  · exact follow_of_get? hentry hsolid
  · exact follow_of_link hlink

theorem Run.follow_eq
    {before after : Progress} (h : files.Run before after) :
    files.follow .finding before.links before.here before.names =
      files.follow .finding after.links after.here after.names := by
  induction h with
  | refl => rfl
  | tail _ hstep ih => rw [ih, hstep.follow_eq]

/-- What is found by following names is found by a run of steps. -/
theorem exists_run
    (h : files.follow .finding links here names = .ok (.taken there)) :
    ∃ left, files.Run ⟨links, here, names⟩ ⟨left, there, []⟩ := by
  fun_induction follow files .finding links here names with
  | case1 links here =>
      obtain rfl : here = there := by simpa using h
      exact ⟨links, .refl⟩
  | case2 => cases h
  | case3 links here name rest hhere hname ih =>
      obtain ⟨left, hrun⟩ := ih h
      exact ⟨left, .head (.stay (not_not.mp hhere) hname) hrun⟩
  | case4 links here rest hhere _ ih =>
      obtain ⟨left, hrun⟩ := ih h
      exact ⟨left, .head (.up (not_not.mp hhere)) hrun⟩
  | case5 => cases h
  | case6 => cases h
  | case7 => cases h
  | case8 _ _ _ _ _ _ _ _ _ _ _ hmaking => cases hmaking.1
  | case9 => cases h
  | case10 here name rest _ _ _ _ _ target hlink _ links ih =>
      obtain ⟨left, hrun⟩ := ih h
      exact ⟨left, .head (.through hlink) hrun⟩
  | case11 links here name rest _ _ _ _ _ entry hsolid hentry ih =>
      obtain ⟨left, hrun⟩ := ih h
      exact ⟨left, .head (.onto hentry hsolid) hrun⟩

/-! ## Names that come later -/

/-- A step takes no notice of names that come later. -/
theorem Step.append
    {before after : Progress} (h : files.Step before after) (more : List String) :
    files.Step ⟨before.links, before.here, before.names ++ more⟩
      ⟨after.links, after.here, after.names ++ more⟩ := by
  rcases h with ⟨hhere, hname⟩ | ⟨hhere⟩ | ⟨hentry, hsolid⟩ | ⟨hlink⟩
  · exact .stay hhere hname
  · exact .up hhere
  · exact .onto hentry hsolid
  · rw [List.append_assoc]
    exact .through hlink

theorem Run.append
    {before after : Progress} (h : files.Run before after) (more : List String) :
    files.Run ⟨before.links, before.here, before.names ++ more⟩
      ⟨after.links, after.here, after.names ++ more⟩ := by
  induction h with
  | refl => exact .refl
  | tail _ hstep ih => exact ih.tail (hstep.append more)

/-- A step for names that come before others is a step for the names alone. -/
theorem Step.of_append
    {after : Progress} {more : List String}
    (h : files.Step ⟨links, here, name :: rest ++ more⟩ after) :
    ∃ names, after.names = names ++ more ∧
      files.Step ⟨links, here, name :: rest⟩ ⟨after.links, after.here, names⟩ := by
  rcases h with ⟨hhere, hname⟩ | ⟨hhere⟩ | ⟨hentry, hsolid⟩ | ⟨hlink⟩
  · exact ⟨rest, rfl, .stay hhere hname⟩
  · exact ⟨rest, rfl, .up hhere⟩
  · exact ⟨rest, rfl, .onto hentry hsolid⟩
  · exact ⟨_, (List.append_assoc _ _ _).symm, .through hlink⟩

/-- A run over some names and others after them comes by where the first ones lead. -/
theorem Run.of_append
    {more : List String}
    (h : files.Run ⟨links, here, names ++ more⟩ ⟨left, there, []⟩) :
    ∃ between middle, files.Run ⟨links, here, names⟩ ⟨between, middle, []⟩ ∧
      files.Run ⟨between, middle, more⟩ ⟨left, there, []⟩ := by
  generalize hstart : (⟨links, here, names ++ more⟩ : Progress) = start at h
  induction h using ReflTransGen.head_induction_on generalizing links here names with
  | refl =>
      obtain ⟨rfl, rfl, hnames⟩ := Progress.mk.inj hstart
      obtain ⟨rfl, rfl⟩ := List.append_eq_nil_iff.mp hnames
      exact ⟨links, here, .refl, .refl⟩
  | head hstep hrun ih =>
      subst hstart
      rcases names with - | ⟨name, rest⟩
      · exact ⟨links, here, .refl, .head hstep hrun⟩
      · obtain ⟨names, hnames, hfirst⟩ := hstep.of_append
        obtain ⟨between, middle, hrest, hmore⟩ := ih (by rw [← hnames])
        exact ⟨between, middle, .head hfirst hrest, hmore⟩

/-- With no name left there is no step. -/
theorem Run.of_nil
    {after : Progress} (h : files.Run ⟨links, here, []⟩ after) :
    after = ⟨links, here, []⟩ := by
  rcases h.cases_head with heq | ⟨_, hstep, _⟩
  · exact heq.symm
  · cases hstep

/-- A run over an empty name stays where it is. -/
theorem Run.of_empty
    {after : Progress} (h : files.Run ⟨links, here, [""]⟩ after) (hdone : after.names = []) :
    after = ⟨links, here, []⟩ := by
  rcases h.cases_head with rfl | ⟨next, hstep, hrest⟩
  · cases hdone
  · generalize hname : "" = name at hstep
    rcases hstep with ⟨hhere, -⟩ | ⟨hhere⟩ | ⟨hentry, hsolid⟩ | ⟨hlink⟩
    · exact Run.of_nil hrest
    · exact absurd hname (by decide)
    · exact absurd hname.symm (isName_iff.mp (isName_of_get?_snoc hentry)).1
    · exact absurd hname.symm (isName_iff.mp (isName_of_get?_snoc hlink)).1

/-! ## Links and landings -/

/-- A step ends at something that is no link. -/
theorem Step.solid
    {before after : Progress} (h : files.Step before after) :
    ∃ entry, files.get? after.here = some entry ∧ ∀ target, entry ≠ .link target := by
  rcases h with ⟨hhere, hname⟩ | ⟨hhere⟩ | ⟨hentry, hsolid⟩ | ⟨hlink⟩
  · exact ⟨.directory, hhere, by simp⟩
  · exact ⟨.directory, get?_dropLast hhere, by simp⟩
  · exact ⟨_, hentry, hsolid⟩
  · refine ⟨.directory, ?_, by simp⟩
    rw [targetStart]
    split
    · exact files.get?_root
    · exact get?_of_get?_snoc hlink

theorem Run.solid
    {before after : Progress} (h : files.Run before after) (hne : before.names ≠ after.names) :
    ∃ entry, files.get? after.here = some entry ∧ ∀ target, entry ≠ .link target := by
  rcases h.cases_tail with rfl | ⟨_, _, hstep⟩
  · exact absurd rfl hne
  · exact hstep.solid

/-- A step can also be made with more links to spare. -/
theorem Step.add_links
    {before after : Progress} (h : files.Step before after) (spare : Nat) :
    files.Step ⟨before.links + spare, before.here, before.names⟩
      ⟨after.links + spare, after.here, after.names⟩ := by
  rcases h with ⟨hhere, hname⟩ | ⟨hhere⟩ | ⟨hentry, hsolid⟩ | ⟨hlink⟩
  · exact .stay hhere hname
  · exact .up hhere
  · exact .onto hentry hsolid
  · rw [Nat.add_right_comm]
    exact .through hlink

theorem Run.add_links
    {before after : Progress} (h : files.Run before after) (spare : Nat) :
    files.Run ⟨before.links + spare, before.here, before.names⟩
      ⟨after.links + spare, after.here, after.names⟩ := by
  induction h with
  | refl => exact .refl
  | tail _ hstep ih => exact ih.tail (hstep.add_links spare)

/-- Names lead to one place at most, however many links may be followed. -/
theorem eq_of_follow_eq_taken
    {more : Nat} {other : Location}
    (h : files.follow .finding links here names = .ok (.taken there))
    (hother : files.follow .finding more here names = .ok (.taken other)) :
    there = other := by
  obtain ⟨left, hrun⟩ := exists_run h
  obtain ⟨leftOver, hrunOther⟩ := exists_run hother
  have hsame := (hrun.add_links more).follow_eq
  have hsameOther := (hrunOther.add_links links).follow_eq
  rw [Nat.add_comm links more] at hsame
  simp only [follow] at hsame hsameOther
  rw [hsame] at hsameOther
  simpa using hsameOther

end FileSystem

/-! ## Paths -/

theorem segments_ne_nil
    (path : String) :
    segments path ≠ [] := by
  simpa [segments] using splitOn_ne_nil '/' path.toList

theorem isNamed_of_isName
    {name : String} (h : isName name = true) :
    Path.IsNamed name.toList := by
  obtain ⟨hempty, hdot, hdots, hslash⟩ := isName_iff.mp h
  refine ⟨?_, hslash⟩
  have hne : ∀ {text : String} {chars : List Char}, text.toList = chars → name ≠ text →
      name.toList ≠ chars := by
    intro text chars hchars hne heq
    exact hne (String.toList_injective (heq.trans hchars.symm))
  rw [Path.segmentComponent?, if_neg, if_neg]
  · exact hne rfl hdots
  · rintro (heq | heq)
    · exact hne rfl hempty heq
    · exact hne rfl hdot heq

theorem isNamed_of_mem_map_toList
    {names : List String} (h : ∀ name ∈ names, isName name = true) :
    ∀ segment ∈ names.map String.toList, Path.IsNamed segment := by
  intro segment hsegment
  obtain ⟨name, hname, rfl⟩ := List.mem_map.mp hsegment
  exact isNamed_of_isName (h name hname)

/-- The names in a directory's path, without the empty one after a last slash. -/
def directoryNames (path : String) : List String :=
  (Path.directorySegments path.toList).map String.ofList

/-- The path of what lies below a directory, given the names that lead there. -/
def pathBelow (path : String) (names : List String) : String :=
  names.foldl childPath path

theorem toList_childPath
    (path name : String) :
    (childPath path name).toList = Path.join path.toList name.toList := by
  simp [childPath]

theorem toList_pathBelow
    (path : String) (names : List String) :
    (pathBelow path names).toList = Path.below path.toList (names.map String.toList) := by
  induction names generalizing path with
  | nil => rfl
  | cons name names ih =>
      have hrest := ih (childPath path name)
      rw [toList_childPath] at hrest
      exact hrest

theorem toList_ne_nil
    {path : String} (h : path ≠ "") :
    path.toList ≠ [] :=
  fun hnil => h (String.toList_injective hnil)

theorem segments_childPath
    {path name : String} (hpath : path ≠ "") (hname : isName name = true) :
    segments (childPath path name) = directoryNames path ++ [name] := by
  rw [segments, toList_childPath,
    Path.splitOn_join (toList_ne_nil hpath) (isName_iff.mp hname).2.2.2]
  simp [directoryNames]

theorem directoryNames_childPath
    {path name : String} (hpath : path ≠ "") (hname : isName name = true) :
    directoryNames (childPath path name) = directoryNames path ++ [name] := by
  rw [directoryNames, toList_childPath,
    Path.directorySegments_join (toList_ne_nil hpath) (isNamed_of_isName hname)]
  simp [directoryNames]

theorem segments_eq_directoryNames
    (path : String) :
    segments path =
      directoryNames path ++ if path.toList.getLast? = some '/' then [""] else [] := by
  rw [segments, Path.splitOn_eq_directorySegments, directoryNames]
  split <;> simp

theorem childPath_ne_empty
    {path name : String} (hname : isName name = true) :
    childPath path name ≠ "" := by
  intro h
  have hjoin := Path.join_ne_nil path.toList (isNamed_of_isName hname).ne_nil
  rw [← toList_childPath, h] at hjoin
  exact hjoin rfl

theorem isAbsolute_childPath
    {path name : String} (hpath : path ≠ "") (hname : isName name = true) :
    isAbsolute (childPath path name) = isAbsolute path := by
  have hhead : name.toList.head? ≠ some '/' := fun h =>
    (isName_iff.mp hname).2.2.2 (List.mem_of_head? h)
  rw [isAbsolute, isAbsolute, toList_childPath, Path.join, if_neg hhead]
  obtain ⟨c, chars, hchars⟩ := List.exists_cons_of_ne_nil (toList_ne_nil hpath)
  rw [hchars]
  split <;> rfl

namespace Workspace

/-- Where a path is followed from. -/
def start (workspace : Workspace) (path : String) : Location :=
  if isAbsolute path then [] else workspace.base

/-- A path leads to a directory, with some links to spare. -/
structure Leads
    (workspace : Workspace) (path : String) (links : Nat) (location : Location) : Prop where
  nonempty : path ≠ ""
  isDirectory : workspace.files.get? location = some .directory
  run : workspace.files.Run ⟨linkLimit, workspace.start path, directoryNames path⟩
    ⟨links, location, []⟩

variable {workspace : Workspace} {path name other : String} {links left : Nat}
  {location directory place : Location} {entry : Entry}

theorem resolve_eq_ok_iff :
    workspace.resolve path = .ok location ↔
      workspace.target .finding path = .ok (.taken location) := by
  rw [resolve]
  rcases workspace.target .finding path with cause | (there | ⟨there, name⟩)
  · simp [bind, Except.bind]
  · simp [bind, Except.bind, pure, Except.pure]
  · simp [bind, Except.bind, throw, throwThe, MonadExceptOf.throw]

theorem resolve_congr
    {others : Workspace} {elsewhere : String}
    (h : others.target .finding elsewhere = workspace.target .finding path) :
    others.resolve elsewhere = workspace.resolve path := by
  rw [resolve, resolve, h]

theorem target_of_ne_empty
    (h : path ≠ "") :
    workspace.target .finding path =
      workspace.files.follow .finding linkLimit (workspace.start path) (segments path) :=
  if_neg h

theorem ne_empty_of_resolve
    (h : workspace.resolve path = .ok location) :
    path ≠ "" := by
  rintro rfl
  cases resolve_eq_ok_iff.mp h

theorem exists_run_of_resolve
    (h : workspace.resolve path = .ok location) :
    ∃ links, workspace.files.Run ⟨linkLimit, workspace.start path, segments path⟩
      ⟨links, location, []⟩ := by
  have htarget := resolve_eq_ok_iff.mp h
  rw [target_of_ne_empty (ne_empty_of_resolve h)] at htarget
  exact FileSystem.exists_run htarget

theorem resolve_of_run
    (hpath : path ≠ "")
    (h : workspace.files.Run ⟨linkLimit, workspace.start path, segments path⟩
      ⟨links, location, []⟩) :
    workspace.resolve path = .ok location := by
  rw [resolve_eq_ok_iff, target_of_ne_empty hpath, h.follow_eq, FileSystem.follow]

/-- What a path names is there and is no link. -/
theorem solid_of_resolve
    (h : workspace.resolve path = .ok location) :
    ∃ entry, workspace.files.get? location = some entry ∧ ∀ target, entry ≠ .link target := by
  obtain ⟨links, hrun⟩ := exists_run_of_resolve h
  exact hrun.solid (segments_ne_nil path)

/-- A path that names a directory leads to it. -/
theorem exists_leads
    (h : workspace.resolve path = .ok location)
    (hlocation : workspace.files.get? location = some .directory) :
    ∃ links, workspace.Leads path links location := by
  obtain ⟨links, hrun⟩ := exists_run_of_resolve h
  rw [segments_eq_directoryNames] at hrun
  obtain ⟨between, middle, hfront, hlast⟩ := hrun.of_append
  -- Nothing after a last slash leads elsewhere.
  have hsame : (⟨links, location, []⟩ : Progress) = ⟨between, middle, []⟩ := by
    split at hlast
    · exact hlast.of_empty rfl
    · exact hlast.of_nil
  obtain ⟨rfl, rfl, -⟩ := Progress.mk.inj hsame
  exact ⟨links, ne_empty_of_resolve h, hlocation, hfront⟩

theorem Leads.resolve_eq
    (h : workspace.Leads path links location) :
    workspace.resolve path = .ok location := by
  rw [resolve_eq_ok_iff, target_of_ne_empty h.nonempty, segments_eq_directoryNames,
    (h.run.append _).follow_eq]
  split
  · rw [List.nil_append, FileSystem.follow]
    simp [h.isDirectory, FileSystem.follow]
  · rw [List.nil_append, FileSystem.follow]

/-- From a directory that a path leads to, the names in it are followed on. -/
theorem Leads.target_childPath
    (h : workspace.Leads path links directory) (hname : isName name = true) :
    workspace.target .finding (childPath path name) =
      workspace.files.follow .finding links directory [name] := by
  rw [target_of_ne_empty (childPath_ne_empty hname), segments_childPath h.nonempty hname,
    start, isAbsolute_childPath h.nonempty hname]
  exact (h.run.append [name]).follow_eq

theorem Leads.resolve_childPath
    (h : workspace.Leads path links directory)
    (hentry : workspace.files.get? (directory ++ [name]) = some entry)
    (hsolid : ∀ target, entry ≠ .link target) :
    workspace.resolve (childPath path name) = .ok (directory ++ [name]) := by
  rw [resolve_eq_ok_iff, h.target_childPath (FileSystem.isName_of_get?_snoc hentry),
    FileSystem.follow_of_get? hentry hsolid, FileSystem.follow]

/-- A name in a directory leads to one place at most, whatever path the directory is
reached by. -/
theorem Leads.eq_of_resolve_childPath
    {there : Location} (h : workspace.Leads path links directory)
    (hother : workspace.Leads other left directory) (hname : isName name = true)
    (hresolve : workspace.resolve (Files.childPath path name) = .ok location)
    (hresolveOther : workspace.resolve (Files.childPath other name) = .ok there) :
    location = there := by
  rw [resolve_eq_ok_iff, h.target_childPath hname] at hresolve
  rw [resolve_eq_ok_iff, hother.target_childPath hname] at hresolveOther
  exact FileSystem.eq_of_follow_eq_taken hresolve hresolveOther

/-- A path of a name in a directory tells the name and the directory. -/
theorem Leads.eq_of_childPath_eq
    (h : workspace.Leads path links directory) (hother : workspace.Leads other left place)
    {first second : String} (hfirst : isName first = true) (hsecond : isName second = true)
    (heq : Files.childPath path first = Files.childPath other second) :
    directory = place ∧ first = second := by
  have hnames := congrArg directoryNames heq
  rw [directoryNames_childPath h.nonempty hfirst,
    directoryNames_childPath hother.nonempty hsecond] at hnames
  obtain ⟨hfront, hlast⟩ := List.append_inj' hnames rfl
  have hstart : workspace.start path = workspace.start other := by
    rw [start, start, ← isAbsolute_childPath h.nonempty hfirst, heq,
      isAbsolute_childPath hother.nonempty hsecond]
  have hrun := h.run.follow_eq
  have hrunOther := hother.run.follow_eq
  simp only [FileSystem.follow, hfront, hstart] at hrun hrunOther
  rw [hrun] at hrunOther
  simp only [Except.ok.injEq, Target.taken.injEq] at hrunOther
  exact ⟨hrunOther, List.singleton_injective hlast⟩

end Workspace

end HandlerLint.Files
