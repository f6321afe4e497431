import HandlerLint.Proofs.Files.Trails
import HandlerLint.Proofs.Path.Relative

/-!
# Paths while files are added

A file system grows where entries are put into its directories and files get other content.
No directory and no link goes then, so a path that names something goes on to name it.

A path is followed to its last name for one of three purposes, and only that last name is
treated according to the purpose.  The names before it are entered: they lead to a directory
or to one error, whatever comes after them.  A path that nothing stands at, but could, can
not be entered, and it leads to whatever is put there.
-/

namespace HandlerLint.Files

open HandlerLint.Text
open Relation (ReflTransGen)

/-- What may become of an entry: itself or, for a file, a file. -/
def Entry.Becomes : Entry → Entry → Prop
  | .file _, .file _ => True
  | old, new => new = old

theorem Entry.becomes_self
    (entry : Entry) :
    entry.Becomes entry := by
  cases entry with
  | file bytes => exact trivial
  | _ => rfl

/-- Whether a name between slashes stands for a step: some name or `..`. -/
def isStep (name : String) : Bool :=
  name != "" && name != "."

/-- The steps of a path. -/
def steps (path : String) : List String :=
  (segments path).filter isStep

theorem not_mem_slash_of_mem_segments
    {path name : String} (h : name ∈ segments path) :
    '/' ∉ name.toList := by
  obtain ⟨segment, hsegment, rfl⟩ := List.mem_map.mp h
  rw [String.toList_ofList]
  exact Path.not_mem_of_mem_splitOn hsegment

namespace FileSystem

/-- Whatever stands in one file system stands in the other one, a file with any content. -/
def Grows (files others : FileSystem) : Prop :=
  ∀ location entry, files.get? location = some entry →
    ∃ other, others.get? location = some other ∧ entry.Becomes other

/-- Follow some names from a directory to a directory.  Given back are the links that may
still be followed and the directory. -/
def enter (files : FileSystem) :
    Nat → Location → List String → Except FileError (Nat × Location)
  | links, here, [] =>
      if files.get? here ≠ some .directory then .error .notADirectory
      else .ok (links, here)
  | links, here, name :: rest =>
      if files.get? here ≠ some .directory then .error .notADirectory
      else if name = "" ∨ name = "." then files.enter links here rest
      else if name = ".." then files.enter links here.dropLast rest
      else
        match files.get? (here ++ [name]) with
        | none => .error .notFound
        | some (.link target) =>
            match links with
            | 0 => .error .tooManyLinks
            | links + 1 => files.enter links (targetStart here target) (segments target ++ rest)
        | some _ => files.enter links (here ++ [name]) rest
termination_by links _ names => (links, names.length)

variable {files others : FileSystem} {purpose : Purpose} {links left : Nat}
  {here there place location : Location} {name target : String}
  {names rest more : List String} {entry old : Entry} {bytes : List UInt8}

/-! ## New entries and new content -/

/-- What stands where, after something has been put at a free place. -/
theorem get?_insert
    (hfree : files.get? location = none)
    (hplace : files.get? location.dropLast = some .directory)
    (hnamed : location.all isName = true) (here : Location) :
    (files.insert location entry).get? here =
      if here = location then some entry else files.get? here := by
  have hne : location ≠ [] := by
    rintro rfl
    simp at hfree
  rw [insert, dif_pos ⟨hfree, hplace, hnamed⟩]
  split
  · next heq =>
      subst heq
      exact get?_of_mem hne (List.mem_append_right _ (List.mem_singleton.mpr rfl))
  · next hother =>
      have hlast : (location == here) = false := by
        simpa using Ne.symm hother
      simp [get?, entryAt?, List.find?_append, hlast]

/-- What stands where, after a file has got other content. -/
theorem get?_overwrite
    (hfile : files.get? location = some (.file bytes)) (content : List UInt8)
    (here : Location) :
    (files.overwrite location content).get? here =
      if here = location then some (.file content) else files.get? here := by
  have hne : location ≠ [] := by
    rintro rfl
    simp at hfile
  split
  · next heq =>
      subst heq
      refine get?_of_mem hne (List.mem_map.mpr ⟨_, mem_of_get? hne hfile, ?_⟩)
      simp [withContent]
  · next hother =>
      have hsame (row : Location × Entry) (hrow : row.1 = here) :
          withContent location content row = row := by
        rcases row with ⟨at_, bytes | - | target⟩
        · obtain rfl : at_ = here := hrow
          rw [withContent, if_neg hother]
        · rfl
        · rfl
      have hkey :
          ((fun row : Location × Entry => row.1 == here) ∘ withContent location content) =
            fun row => row.1 == here := by
        funext row
        simp
      rw [get?, get?, entryAt?, entryAt?]
      split
      · rfl
      · rw [overwrite, List.find?_map, hkey, Option.map_map]
        cases hfind : files.entries.find? (·.1 == here) with
        | none => rfl
        | some row =>
            have hrow : row.1 = here := by simpa using List.find?_some hfind
            simp [hsame row hrow]

theorem grows_insert
    (files : FileSystem) (location : Location) (entry : Entry) :
    files.Grows (files.insert location entry) :=
  fun _ old hold => ⟨old, get?_insert_of_some hold location entry, old.becomes_self⟩

theorem grows_overwrite
    (hfile : files.get? location = some (.file bytes)) (content : List UInt8) :
    files.Grows (files.overwrite location content) := by
  intro here old hold
  rw [get?_overwrite hfile content here]
  split
  · next heq =>
      rw [heq, hfile] at hold
      cases hold
      exact ⟨_, rfl, trivial⟩
  · exact ⟨old, hold, old.becomes_self⟩

theorem Grows.directory
    (h : files.Grows others) (hdirectory : files.get? here = some .directory) :
    others.get? here = some .directory := by
  obtain ⟨other, hother, hbecomes⟩ := h _ _ hdirectory
  cases hbecomes
  exact hother

theorem Grows.link
    (h : files.Grows others) (hlink : files.get? here = some (.link target)) :
    others.get? here = some (.link target) := by
  obtain ⟨other, hother, hbecomes⟩ := h _ _ hlink
  cases hbecomes
  exact hother

theorem Grows.solid
    (h : files.Grows others) (hentry : files.get? here = some entry)
    (hsolid : ∀ target, entry ≠ .link target) :
    ∃ other, others.get? here = some other ∧ ∀ target, other ≠ .link target := by
  obtain ⟨other, hother, hbecomes⟩ := h _ _ hentry
  refine ⟨other, hother, ?_⟩
  rintro target rfl
  rcases entry with bytes | - | target
  · cases hbecomes
  · cases hbecomes
  · exact hsolid target rfl

theorem Grows.step
    (h : files.Grows others) {before after : Progress} (hstep : files.Step before after) :
    others.Step before after := by
  rcases hstep with ⟨hhere, hname⟩ | ⟨hhere⟩ | ⟨hentry, hsolid⟩ | ⟨hlink⟩
  · exact .stay (h.directory hhere) hname
  · exact .up (h.directory hhere)
  · obtain ⟨other, hother, hotherSolid⟩ := h.solid hentry hsolid
    exact .onto hother hotherSolid
  · exact .through (h.link hlink)

/-- What names lead to, they lead to also after files were added. -/
theorem Grows.follow_eq_taken
    (h : files.Grows others)
    (hfollow : files.follow .finding links here names = .ok (.taken there)) :
    others.follow .finding links here names = .ok (.taken there) := by
  obtain ⟨left, hrun⟩ := exists_run hfollow
  have hmore : others.Run ⟨links, here, names⟩ ⟨left, there, []⟩ :=
    ReflTransGen.mono (fun _ _ => h.step) _ _ hrun
  rw [hmore.follow_eq, follow]

/-- What a path leads to for writing is found there. -/
theorem follow_finding_of_writing
    {reached : Target} (h : files.follow .writing links here names = .ok reached) :
    files.follow .finding links here names = .ok reached := by
  fun_induction follow files .writing links here names with
  | case1 links here => rwa [follow]
  | case2 => cases h
  | case3 links here name rest hhere hname ih =>
      rw [follow, if_neg hhere, if_pos hname]
      exact ih h
  | case4 links here rest hhere hname ih =>
      rw [follow, if_neg hhere, if_neg hname, if_pos rfl]
      exact ih h
  | case5 => cases h
  | case6 links here name rest hhere hname hdots isLast hwriting hnone hlast =>
      rw [follow_name (not_not.mp hhere) hname hdots, hnone]
      dsimp only
      rw [if_pos hlast]
      exact h
  | case7 => cases h
  | case8 _ _ _ _ _ _ _ _ _ _ _ hmaking => cases hmaking.1
  | case9 => cases h
  | case10 here name rest _ _ _ _ _ target hlink _ links ih =>
      rw [follow_of_link hlink]
      exact ih h
  | case11 links here name rest _ _ _ _ _ entry hsolid hentry ih =>
      rw [follow_of_get? hentry hsolid]
      exact ih h

/-! ## Entering -/

theorem isStep_iff :
    isStep name = true ↔ ¬(name = "" ∨ name = ".") := by
  simp [isStep]

theorem enter_of_ne_directory
    (h : files.get? here ≠ some .directory) (names : List String) :
    files.enter links here names = .error .notADirectory := by
  cases names with
  | nil => rw [enter, if_pos h]
  | cons name rest => rw [enter, if_pos h]

theorem enter_nil
    (h : files.get? here = some .directory) :
    files.enter links here [] = .ok (links, here) := by
  rw [enter, if_neg (not_not_intro h)]

/-- What happens at a name that is entered. -/
theorem enter_name
    (hhere : files.get? here = some .directory) (hvoid : ¬(name = "" ∨ name = "."))
    (hdots : name ≠ "..") :
    files.enter links here (name :: rest) =
      match files.get? (here ++ [name]), links with
      | none, _ => .error .notFound
      | some (.link _), 0 => .error .tooManyLinks
      | some (.link target), links + 1 =>
          files.enter links (targetStart here target) (segments target ++ rest)
      | some _, links => files.enter links (here ++ [name]) rest := by
  rw [enter, if_neg (not_not_intro hhere), if_neg hvoid, if_neg hdots]
  rcases files.get? (here ++ [name]) with - | (bytes | - | target)
  · rfl
  · rfl
  · rfl
  · rcases links with - | links
    · rfl
    · rfl

theorem enter_of_not_isStep
    (h : isStep name = false) (rest : List String) :
    files.enter links here (name :: rest) = files.enter links here rest := by
  by_cases hhere : files.get? here = some .directory
  · have hvoid : name = "" ∨ name = "." := by
      by_contra hvoid
      rw [isStep_iff.mpr hvoid] at h
      cases h
    rw [enter, if_neg (not_not_intro hhere), if_pos hvoid]
  · rw [enter_of_ne_directory hhere, enter_of_ne_directory hhere]

/-- Names are entered one after another. -/
theorem enter_append
    (names more : List String) :
    files.enter links here (names ++ more) =
      (files.enter links here names).bind fun reached =>
        files.enter reached.1 reached.2 more := by
  fun_induction enter files links here names with
  | case1 links here hhere => exact enter_of_ne_directory hhere more
  | case2 links here hhere => rfl
  | case3 links here name rest hhere => exact enter_of_ne_directory hhere _
  | case4 links here name rest hhere hname ih =>
      rw [List.cons_append, enter, if_neg hhere, if_pos hname]
      exact ih
  | case5 links here rest hhere hname ih =>
      rw [List.cons_append, enter, if_neg hhere, if_neg hname, if_pos rfl]
      exact ih
  | case6 links here name rest hhere hname hdots hnone =>
      rw [List.cons_append, enter_name (not_not.mp hhere) hname hdots, hnone]
      rfl
  | case7 here name rest hhere hname hdots target hlink =>
      rw [List.cons_append, enter_name (not_not.mp hhere) hname hdots, hlink]
      rfl
  | case8 here name rest hhere hname hdots target hlink links ih =>
      rw [List.append_assoc] at ih
      rw [List.cons_append, enter_name (not_not.mp hhere) hname hdots, hlink]
      exact ih
  | case9 links here name rest hhere hname hdots entry hsolid hentry ih =>
      rw [List.cons_append, enter_name (not_not.mp hhere) hname hdots, hentry]
      rcases entry with bytes | - | target
      · exact ih
      · exact ih
      · exact absurd rfl (hsolid target)

/-- Only the steps matter for where names are entered. -/
theorem enter_filter
    (names : List String) :
    files.enter links here (names.filter isStep) = files.enter links here names := by
  induction names generalizing links here with
  | nil => rfl
  | cons name names ih =>
      cases hstep : isStep name with
      | false => rw [List.filter_cons_of_neg (by simp [hstep]), ih, enter_of_not_isStep hstep]
      | true =>
          have hfirst (rest : List String) :
              files.enter links here (name :: rest) =
                (files.enter links here [name]).bind fun reached =>
                  files.enter reached.1 reached.2 rest :=
            enter_append [name] rest
          rw [List.filter_cons_of_pos hstep, hfirst (names.filter isStep), hfirst names]
          simp only [ih]

/-- For whatever purpose names are followed, those before the last one are entered. -/
theorem follow_append
    (hmore : more.all (· == "") = false) (names : List String) :
    files.follow purpose links here (names ++ more) =
      (files.enter links here names).bind fun reached =>
        files.follow purpose reached.1 reached.2 more := by
  have hlater (names : List String) : (names ++ more).all (· == "") = false := by
    rw [List.all_append, hmore, Bool.and_false]
  have hfirst (links : Nat) (here : Location) (names : List String)
      (hhere : files.get? here ≠ some .directory) :
      files.follow purpose links here (names ++ more) = .error .notADirectory := by
    cases hcase : names ++ more with
    | nil =>
        have hall := hlater names
        rw [hcase] at hall
        cases hall
    | cons name rest => rw [follow, if_pos hhere]
  fun_induction enter files links here names with
  | case1 links here hhere => exact hfirst links here [] hhere
  | case2 links here hhere => rfl
  | case3 links here name rest hhere => exact hfirst links here (name :: rest) hhere
  | case4 links here name rest hhere hname ih =>
      rw [List.cons_append, follow, if_neg hhere, if_pos hname]
      exact ih
  | case5 links here rest hhere hname ih =>
      rw [List.cons_append, follow, if_neg hhere, if_neg hname, if_pos rfl]
      exact ih
  | case6 links here name rest hhere hname hdots hnone =>
      rw [List.cons_append, follow, if_neg hhere, if_neg hname, if_neg hdots]
      simp [hlater, hnone, Except.bind]
  | case7 here name rest hhere hname hdots target hlink =>
      rw [List.cons_append, follow, if_neg hhere, if_neg hname, if_neg hdots]
      simp [hlater, hlink, Except.bind]
  | case8 here name rest hhere hname hdots target hlink links ih =>
      rw [List.append_assoc] at ih
      rw [List.cons_append, follow, if_neg hhere, if_neg hname, if_neg hdots]
      simp only [hlater, hlink, Bool.false_eq_true, false_and, and_false, if_false]
      exact ih
  | case9 links here name rest hhere hname hdots entry hsolid hentry ih =>
      rw [List.cons_append, follow, if_neg hhere, if_neg hname, if_neg hdots]
      simp only [hlater, hentry, Bool.false_eq_true, false_and, and_false, if_false]
      rcases entry with bytes | - | target
      · exact ih
      · exact ih
      · exact absurd rfl (hsolid target)

/-- A step does not change where the names are entered. -/
theorem Step.enter_eq
    {before after : Progress} (h : files.Step before after) :
    files.enter before.links before.here before.names =
      files.enter after.links after.here after.names := by
  rcases h with ⟨hhere, hname⟩ | ⟨hhere⟩ | @⟨links, here, name, rest, entry, hentry, hsolid⟩ |
    ⟨hlink⟩
  · rw [enter, if_neg (not_not_intro hhere), if_pos hname]
  · rw [enter, if_neg (not_not_intro hhere)]
    simp
  · obtain ⟨hvoid, hdots⟩ := isName_not_void (isName_of_get?_snoc hentry)
    rw [enter_name (get?_of_get?_snoc hentry) hvoid hdots, hentry]
    rcases entry with bytes | - | target
    · rfl
    · rfl
    · exact absurd rfl (hsolid target)
  · obtain ⟨hvoid, hdots⟩ := isName_not_void (isName_of_get?_snoc hlink)
    rw [enter_name (get?_of_get?_snoc hlink) hvoid hdots, hlink]

theorem Run.enter_eq
    {before after : Progress} (h : files.Run before after) :
    files.enter before.links before.here before.names =
      files.enter after.links after.here after.names := by
  induction h with
  | refl => rfl
  | tail _ hstep ih => rw [ih, hstep.enter_eq]

/-- Names are entered by a run of steps that ends at a directory. -/
theorem enter_eq_ok_iff :
    files.enter links here names = .ok (left, there) ↔
      files.Run ⟨links, here, names⟩ ⟨left, there, []⟩ ∧
        files.get? there = some .directory := by
  constructor
  · intro h
    fun_induction enter files links here names with
    | case1 => cases h
    | case2 links here hhere =>
        cases h
        exact ⟨.refl, not_not.mp hhere⟩
    | case3 => cases h
    | case4 links here name rest hhere hname ih =>
        exact (ih h).imp_left (.head (.stay (not_not.mp hhere) hname))
    | case5 links here rest hhere hname ih =>
        exact (ih h).imp_left (.head (.up (not_not.mp hhere)))
    | case6 => cases h
    | case7 => cases h
    | case8 here name rest hhere hname hdots target hlink links ih =>
        exact (ih h).imp_left (.head (.through hlink))
    | case9 links here name rest hhere hname hdots entry hsolid hentry ih =>
        exact (ih h).imp_left (.head (.onto hentry hsolid))
  · rintro ⟨hrun, hthere⟩
    rw [hrun.enter_eq, enter_nil hthere]

/-! ## Free places -/

/-- Names lead to a free place: a run ends ahead of a name that nothing stands at, and
nothing comes after that name but slashes, or not even these if a file is to be written. -/
theorem exists_run_of_vacant
    (h : files.follow purpose links here names = .ok (.vacant place name)) :
    ∃ left rest, files.Run ⟨links, here, names⟩ ⟨left, place, name :: rest⟩ ∧
      files.get? place = some .directory ∧ isStep name = true ∧ name ≠ ".." ∧
      files.get? (place ++ [name]) = none ∧ (∀ later ∈ rest, later = "") ∧
      (purpose = .writing → rest = []) := by
  fun_induction follow files purpose links here names with
  | case1 => cases h
  | case2 => cases h
  | case3 links here name rest hhere hname ih =>
      obtain ⟨left, last, hrun, hplace⟩ := ih h
      exact ⟨left, last, .head (.stay (not_not.mp hhere) hname) hrun, hplace⟩
  | case4 links here rest hhere hname ih =>
      obtain ⟨left, last, hrun, hplace⟩ := ih h
      exact ⟨left, last, .head (.up (not_not.mp hhere)) hrun, hplace⟩
  | case5 => cases h
  | case6 links here name rest hhere hname hdots isLast hwriting hnone hlast =>
      cases h
      refine ⟨links, rest, .refl, not_not.mp hhere, isStep_iff.mpr hname, hdots, hnone, ?_, ?_⟩
      · intro later hlater
        exact beq_iff_eq.mp (List.all_eq_true.mp hlast later hlater)
      · intro hpurpose
        by_contra hrest
        exact hwriting ⟨hpurpose, hlast, hrest⟩
  | case7 => cases h
  | case8 => cases h
  | case9 => cases h
  | case10 here name rest _ _ _ _ _ target hlink _ links ih =>
      obtain ⟨left, last, hrun, hplace⟩ := ih h
      exact ⟨left, last, .head (.through hlink) hrun, hplace⟩
  | case11 links here name rest _ _ _ _ _ entry hsolid hentry ih =>
      obtain ⟨left, last, hrun, hplace⟩ := ih h
      exact ⟨left, last, .head (.onto hentry hsolid) hrun, hplace⟩

/-- A name that nothing stands at leads to a free place. -/
theorem follow_of_free
    (hhere : files.get? here = some .directory) (hstep : isStep name = true)
    (hdots : name ≠ "..") (hnone : files.get? (here ++ [name]) = none) :
    files.follow purpose links here [name] = .ok (.vacant here name) := by
  rw [follow, if_neg (not_not_intro hhere), if_neg (isStep_iff.mp hstep), if_neg hdots]
  simp [hnone]

/-- A name that nothing stands at leads to nothing, whatever comes after it. -/
theorem follow_ne_taken_of_free
    (hhere : files.get? here = some .directory) (hstep : isStep name = true)
    (hdots : name ≠ "..") (hnone : files.get? (here ++ [name]) = none) (rest : List String)
    (location : Location) :
    files.follow purpose links here (name :: rest) ≠ .ok (.taken location) := by
  rw [follow, if_neg (not_not_intro hhere), if_neg (isStep_iff.mp hstep), if_neg hdots]
  simp only [hnone]
  split
  · simp
  · split <;> simp

/-- Names that lead to a free place can not be entered. -/
theorem enter_of_vacant
    (h : files.follow purpose links here names = .ok (.vacant place name)) :
    files.enter links here names = .error .notFound := by
  obtain ⟨left, rest, hrun, hplace, hstep, hdots, hnone, -⟩ := exists_run_of_vacant h
  rw [hrun.enter_eq, enter_name hplace (isStep_iff.mp hstep) hdots, hnone]

/-- Names that lead to a free place lead to what is put there. -/
theorem follow_of_vacant
    (h : files.follow purpose links here names = .ok (.vacant place name))
    (hgrows : files.Grows others) (hentry : others.get? (place ++ [name]) = some entry)
    (hsolid : ∀ target, entry ≠ .link target)
    (hfits : entry = .directory ∨ purpose = .writing) :
    others.follow .finding links here names = .ok (.taken (place ++ [name])) := by
  obtain ⟨left, rest, hrun, -, -, -, -, hlater, hwriting⟩ := exists_run_of_vacant h
  have hmore : others.Run ⟨links, here, names⟩ ⟨left, place ++ [name], rest⟩ :=
    .tail (ReflTransGen.mono (fun _ _ => hgrows.step) _ _ hrun) (.onto hentry hsolid)
  rw [hmore.follow_eq]
  rcases hfits with rfl | rfl
  · -- Slashes after a directory lead nowhere else.
    clear hrun hmore hwriting
    induction rest with
    | nil => rw [follow]
    | cons later rest ih =>
        rw [List.forall_mem_cons] at hlater
        rw [follow, if_neg (not_not_intro hentry), if_pos (.inl hlater.1)]
        exact ih hlater.2
  · rw [hwriting rfl, follow]

theorem Step.not_mem_slash
    {before after : Progress} (h : files.Step before after)
    (hnames : ∀ name ∈ before.names, '/' ∉ name.toList) :
    ∀ name ∈ after.names, '/' ∉ name.toList := by
  rcases h with ⟨hhere, hname⟩ | ⟨hhere⟩ | ⟨hentry, hsolid⟩ | @⟨links, here, name, target, rest,
    hlink⟩
  · exact (List.forall_mem_cons.mp hnames).2
  · exact (List.forall_mem_cons.mp hnames).2
  · exact (List.forall_mem_cons.mp hnames).2
  · intro later hlater
    rcases List.mem_append.mp hlater with htarget | hrest
    · exact not_mem_slash_of_mem_segments htarget
    · exact (List.forall_mem_cons.mp hnames).2 later hrest

theorem Run.not_mem_slash
    {before after : Progress} (h : files.Run before after)
    (hnames : ∀ name ∈ before.names, '/' ∉ name.toList) :
    ∀ name ∈ after.names, '/' ∉ name.toList := by
  induction h with
  | refl => exact hnames
  | tail _ hstep ih => exact hstep.not_mem_slash ih

theorem isName_of_vacant
    (h : files.follow purpose links here names = .ok (.vacant place name))
    (hnames : ∀ name ∈ names, '/' ∉ name.toList) :
    isName name = true := by
  obtain ⟨left, rest, hrun, -, hstep, hdots, -⟩ := exists_run_of_vacant h
  have hslash := hrun.not_mem_slash hnames
  obtain ⟨hempty, hdot⟩ := not_or.mp (isStep_iff.mp hstep)
  exact isName_iff.mpr ⟨hempty, hdot, hdots, hslash name List.mem_cons_self⟩

theorem all_isName_of_get?
    (h : files.get? location = some entry) :
    location.all isName = true := by
  by_cases hne : location = []
  · rw [hne]
    rfl
  · exact List.all_eq_true.mpr (files.named _ (mem_of_get? hne h))

end FileSystem

namespace Workspace

/-- The files of one workspace are found in the other one, too. -/
structure Grows (workspace others : Workspace) : Prop where
  base : others.base = workspace.base
  files : workspace.files.Grows others.files

/-- Follow a path to a directory.  The empty path leads to the working directory. -/
def enter (workspace : Workspace) (path : String) : Except FileError (Nat × Location) :=
  workspace.files.enter linkLimit (workspace.start path) (steps path)

/-- Nothing stands at a path, but a directory could be made there. -/
def IsMissing (workspace : Workspace) (path : String) : Prop :=
  ∃ place name, workspace.target .making path = .ok (.vacant place name)

/-- Nothing stands at a path, and the system lets a directory be made there. -/
def IsMakeable (workspace : Workspace) (path : String) : Prop :=
  ∃ place name, workspace.target .making path = .ok (.vacant place name) ∧
    workspace.refusal? (place ++ [name]) = none

variable {workspace others : Workspace} {purpose : Purpose} {path name : String}
  {place location : Location} {entry : Entry} {left : Nat}

theorem target_eq_follow
    (h : path ≠ "") (purpose : Purpose) :
    workspace.target purpose path =
      workspace.files.follow purpose linkLimit (workspace.start path) (segments path) :=
  if_neg h

theorem ne_empty_of_target
    {reached : Target} (h : workspace.target purpose path = .ok reached) :
    path ≠ "" := by
  rintro rfl
  cases h

theorem Grows.start_eq
    (h : workspace.Grows others) (path : String) :
    others.start path = workspace.start path := by
  rw [start, start, h.base]

theorem Grows.resolve_eq_ok
    (h : workspace.Grows others) (hresolve : workspace.resolve path = .ok location) :
    others.resolve path = .ok location := by
  have hpath := ne_empty_of_resolve hresolve
  rw [resolve_eq_ok_iff, target_of_ne_empty hpath] at hresolve ⊢
  rw [h.start_eq]
  exact h.files.follow_eq_taken hresolve

theorem get?_of_enter
    (h : workspace.enter path = .ok (left, location)) :
    workspace.files.get? location = some .directory :=
  (FileSystem.enter_eq_ok_iff.mp h).2

/-- A path names a directory if it can be entered. -/
theorem exists_enter_iff
    (hpath : path ≠ "") :
    (∃ left, workspace.enter path = .ok (left, location)) ↔
      workspace.resolve path = .ok location ∧
        workspace.files.get? location = some .directory := by
  simp only [enter, steps, FileSystem.enter_filter, FileSystem.enter_eq_ok_iff]
  constructor
  · rintro ⟨left, hrun, hdirectory⟩
    exact ⟨resolve_of_run hpath hrun, hdirectory⟩
  · rintro ⟨hresolve, hdirectory⟩
    obtain ⟨left, hrun⟩ := exists_run_of_resolve hresolve
    exact ⟨left, hrun, hdirectory⟩

theorem isDirectory_iff_enter
    (hpath : path ≠ "") :
    workspace.isDirectory path = true ↔ ∃ reached, workspace.enter path = .ok reached := by
  rw [isDirectory_iff]
  constructor
  · rintro ⟨location, hlocation⟩
    obtain ⟨left, henter⟩ := (exists_enter_iff hpath).mpr hlocation
    exact ⟨_, henter⟩
  · rintro ⟨⟨left, location⟩, henter⟩
    exact ⟨location, (exists_enter_iff hpath).mp ⟨left, henter⟩⟩

theorem IsMissing.ne_empty
    (h : workspace.IsMissing path) :
    path ≠ "" := by
  obtain ⟨place, name, htarget⟩ := h
  exact ne_empty_of_target htarget

theorem IsMakeable.isMissing
    (h : workspace.IsMakeable path) :
    workspace.IsMissing path := by
  obtain ⟨place, name, htarget, -⟩ := h
  exact ⟨place, name, htarget⟩

theorem IsMissing.enter_eq
    (h : workspace.IsMissing path) :
    workspace.enter path = .error .notFound := by
  have hpath := h.ne_empty
  obtain ⟨place, name, htarget⟩ := h
  rw [target_eq_follow hpath] at htarget
  rw [enter, steps, FileSystem.enter_filter]
  exact FileSystem.enter_of_vacant htarget

/-! ## Putting something at a free place -/

/-- What stands where, after something has been put where a path leads to a free place. -/
theorem get?_insert_of_vacant
    (h : workspace.target purpose path = .ok (.vacant place name)) (entry : Entry)
    (here : Location) :
    (workspace.insert place name entry).files.get? here =
      if here = place ++ [name] then some entry else workspace.files.get? here := by
  rw [target_eq_follow (ne_empty_of_target h)] at h
  obtain ⟨left, rest, -, hplace, -, -, hnone, -⟩ := FileSystem.exists_run_of_vacant h
  have hname := FileSystem.isName_of_vacant h fun name => not_mem_slash_of_mem_segments
  refine FileSystem.get?_insert hnone ?_ ?_ here
  · rw [List.dropLast_concat]
    exact hplace
  · rw [List.all_append, FileSystem.all_isName_of_get? hplace]
    simp [hname]

theorem get?_of_vacant
    (h : workspace.target purpose path = .ok (.vacant place name)) :
    workspace.files.get? (place ++ [name]) = none := by
  rw [target_eq_follow (ne_empty_of_target h)] at h
  obtain ⟨left, rest, -, -, -, -, hnone, -⟩ := FileSystem.exists_run_of_vacant h
  exact hnone

theorem grows_insert
    (workspace : Workspace) (place : Location) (name : String) (entry : Entry) :
    workspace.Grows (workspace.insert place name entry) :=
  ⟨rfl, FileSystem.grows_insert _ _ _⟩

/-- A path that leads to a free place names what is put there. -/
theorem resolve_insert_of_vacant
    (h : workspace.target purpose path = .ok (.vacant place name))
    (hsolid : ∀ target, entry ≠ .link target)
    (hfits : entry = .directory ∨ purpose = .writing) :
    (workspace.insert place name entry).resolve path = .ok (place ++ [name]) := by
  have hpath := ne_empty_of_target h
  have hentry := get?_insert_of_vacant h entry (place ++ [name])
  rw [if_pos rfl] at hentry
  rw [target_eq_follow hpath] at h
  rw [resolve_eq_ok_iff, target_of_ne_empty hpath]
  exact FileSystem.follow_of_vacant h (FileSystem.grows_insert _ _ _) hentry hsolid hfits

end Workspace

end HandlerLint.Files
