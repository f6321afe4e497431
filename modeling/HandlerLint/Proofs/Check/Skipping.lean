import HandlerLint.Proofs.Check.Selection

/-!
# What a skipped directory does to a scan

A directory that is hidden or has the code of others is not entered, and one might expect
that a scan is the same without it.  It is, where the entry is a directory of its own.
Where it is a link, the link is followed before its name is looked at, so a link that leads
back to a directory the scan is in stops the scan, whatever its name.  Apart from that the
entry does nothing: taking it away changes the outcome exactly where the scan stops at it.

What leads to the root of the scan has to be left, and no other link may lead to the entry
or through it.
-/

namespace HandlerLint.Config

open HandlerLint.Files

variable {config : Config} {workspace : Workspace} {root path name : String}
  {directory : Files.Location}

theorem enters_of_isSkipped
    (h : isSkipped name = true) :
    config.enters name = false := by
  rw [enters, h]
  rfl

/-- A scan stops at an entry of a directory. -/
def StopsAt
    (config : Config) (workspace : Workspace) (root : String) (directory : Files.Location)
    (name : String) : Prop :=
  ∃ error path, config.select workspace root = .error error ∧
    workspace.resolve path = .ok directory ∧ error.path = childPath path name

theorem select_eq_error_iff
    {error : WalkError} :
    config.select workspace root = .error error ↔
      workspace.walk config.enters root = .error error := by
  rw [select]
  rcases workspace.walk config.enters root with cause | found
  · simp [Except.map]
  · simp [Except.map]

/-- A scan stops at links only. -/
theorem StopsAt.not_directory
    (h : config.StopsAt workspace root directory name)
    (hname : name ∈ workspace.files.names directory)
    (hroot : workspace.isDirectory root = true) :
    workspace.files.get? (directory ++ [name]) ≠ some .directory := by
  obtain ⟨error, path, hselect, hplace, hpath⟩ := h
  obtain ⟨other, links, there, link, target, hleads, hlink, hother⟩ :=
    Workspace.exists_link_of_walk_eq_error hroot (select_eq_error_iff.mp hselect)
  obtain ⟨entry, hentry⟩ := FileSystem.mem_names.mp hname
  obtain ⟨left, hpathLeads⟩ :=
    Workspace.exists_leads hplace (FileSystem.get?_of_get?_snoc hentry)
  obtain ⟨rfl, rfl⟩ := hleads.eq_of_childPath_eq hpathLeads
    (FileSystem.isName_of_get?_snoc hlink) (FileSystem.isName_of_get?_snoc hentry)
    (hother.symm.trans hpath)
  rw [hlink]
  simp

/-- Without a skipped entry a scan ends as it does with it, exactly where it does not stop
at the entry; and it never stops at one that is no link. -/
theorem select_without_skipped_eq_iff
    (config : Config) (hplace : workspace.resolve path = .ok directory)
    (hname : name ∈ workspace.files.names directory)
    (hdirectory : workspace.isDirectory (childPath path name) = true)
    (hskipped : isSkipped name = true)
    (hlinks : workspace.files.LinksAvoid directory name)
    (hroot : (workspace.without (directory ++ [name])).isDirectory root = true) :
    (config.select (workspace.without (directory ++ [name])) root =
        config.select workspace root ↔
      ¬config.StopsAt workspace root directory name) ∧
    (workspace.files.get? (directory ++ [name]) = some .directory →
      config.select (workspace.without (directory ++ [name])) root =
        config.select workspace root) := by
  have hthins := Workspace.thins_without workspace (List.concat_ne_nil name directory)
  have hequal : config.select (workspace.without (directory ++ [name])) root =
      config.select workspace root ↔ ¬config.StopsAt workspace root directory name := by
    constructor
    · rintro heq ⟨error, other, hselect, hother, hpath⟩
      rw [hselect, select_eq_error_iff] at heq
      exact Workspace.walk_without_ne_error hroot hother hname hpath heq
    · intro hstops
      have henters : config.enters name = false := enters_of_isSkipped hskipped
      have hnothing := Workspace.addsNothing_without hplace hname hdirectory henters
      rcases hthins.agreesUnless_walk (Workspace.linksAgree_without hlinks) hnothing hroot with
        heq | ⟨error, hwalk, other, hother, hpath⟩
      · rw [select, select, heq]
      · exact absurd ⟨error, other, select_eq_error_iff.mpr hwalk, hother, hpath⟩ hstops
  refine ⟨hequal, ?_⟩
  intro hentry
  rw [hequal]
  exact fun hstops => hstops.not_directory hname (hthins.isDirectory_of_fewer hroot) hentry

/-- A file, and a link with the name of a skipped directory that leads back to the root. -/
def loopingWorkspace : Workspace :=
  { files :=
      { entries := [(["a.py"], .file []), (["vendor"], .link ".")]
        distinct := by decide
        grounded := by decide
        named := by decide }
    base := [] }

theorem loopingWorkspace_resolve_root :
    loopingWorkspace.resolve "." = .ok [] := by
  apply Workspace.resolve_of_run (by decide)
  exact .single (.stay (by decide) (.inr rfl))

theorem loopingWorkspace_resolve_link :
    loopingWorkspace.resolve "./vendor" = .ok [] := by
  apply Workspace.resolve_of_run (by decide)
  have hlink : loopingWorkspace.files.get? ([] ++ ["vendor"]) = some (.link ".") := by decide
  exact .head (.stay (by decide) (.inr rfl)) (.head (.through hlink)
    (.single (.stay (by decide) (.inr rfl))))

theorem loopingWorkspace_linksAvoid :
    loopingWorkspace.files.LinksAvoid [] "vendor" := by
  intro place link target hlink houtside
  have hrow := FileSystem.mem_of_get? (List.concat_ne_nil link place) hlink
  obtain ⟨hlocation, -⟩ : place ++ [link] = ["vendor"] ∧ target = "." := by
    simpa [loopingWorkspace] using hrow
  rw [hlocation] at houtside
  exact absurd List.prefix_rfl houtside

theorem loopingWorkspace_select :
    Config.empty.select loopingWorkspace "." = .error (.loop "./vendor" ".") := by
  have hnames : loopingWorkspace.files.names [] = ["a.py", "vendor"] :=
    List.mergeSort_of_pairwise (by decide)
  have hlink : loopingWorkspace.sight [] ⟨[], "."⟩ "vendor" = .stop (.loop "./vendor" ".") := by
    have hentry : loopingWorkspace.files.get? ([] ++ ["vendor"]) = some (.link ".") := by
      decide
    have hpath : childPath "." "vendor" = "./vendor" := by decide
    rw [Workspace.sight, hentry, hpath, loopingWorkspace_resolve_link]
    rfl
  have hvisit : loopingWorkspace.visit Config.empty.enters loopingWorkspace.files.directories []
      ⟨[], "."⟩ "vendor" = .error (.loop "./vendor" ".") := by
    rw [Workspace.visit, hlink]
  rw [select, Workspace.walk_eq_filesBelow loopingWorkspace_resolve_root rfl,
    Workspace.filesBelow_eq_gather (Workspace.covers_directories _ _)]
  dsimp only
  rw [hnames, gather_cons_of_ok rfl, gather_cons_of_error hvisit]
  rfl

/-- A skipped link that leads back to the root stops a scan that gets through without it. -/
theorem loopingWorkspace_stops_at_skipped_link :
    isSkipped "vendor" = true ∧ loopingWorkspace.isDirectory "./vendor" = true ∧
      loopingWorkspace.files.LinksAvoid [] "vendor" ∧
      Config.empty.select loopingWorkspace "." = .error (.loop "./vendor" ".") ∧
      Config.empty.select (loopingWorkspace.without ["vendor"]) "." ≠
        Config.empty.select loopingWorkspace "." := by
  have hname : "vendor" ∈ loopingWorkspace.files.names [] :=
    FileSystem.mem_names.mpr ⟨.link ".", by decide⟩
  have hdirectory : loopingWorkspace.isDirectory (childPath "." "vendor") = true :=
    Workspace.isDirectory_iff.mpr ⟨[], loopingWorkspace_resolve_link, rfl⟩
  have hroot : (loopingWorkspace.without ([] ++ ["vendor"])).isDirectory "." = true := by
    refine Workspace.isDirectory_iff.mpr ⟨[], ?_, rfl⟩
    apply Workspace.resolve_of_run (by decide)
    exact .single (.stay (by decide) (.inr rfl))
  have hstops : Config.empty.StopsAt loopingWorkspace "." [] "vendor" :=
    ⟨_, ".", loopingWorkspace_select, loopingWorkspace_resolve_root, by decide⟩
  have hiff := (select_without_skipped_eq_iff Config.empty loopingWorkspace_resolve_root hname
    hdirectory (by decide) loopingWorkspace_linksAvoid hroot).1
  exact ⟨by decide, hdirectory, loopingWorkspace_linksAvoid, loopingWorkspace_select,
    fun heq => hiff.mp heq hstops⟩

end HandlerLint.Config
