import HandlerLint.Proofs.Path.Relative

/-!
# Whether report names tell files apart

A file below a scanned directory has the path of the directory, and behind it the names that
lead to the file with single slashes between them.  The report of the directory writes these
names, and every backslash in them as a slash.

A backslash is a character of a name like any other.  So report names tell files apart, and
lead back to them, as long as no name has a backslash in it.  A file with a backslash in its
name is reported under another path, which may be that of another file.
-/

namespace HandlerLint.Path

open HandlerLint.Text

variable {directory : List Char} {names : List (List Char)}

/-- How the report of a directory names what some names lead to from there. -/
def reportName (directory : List Char) (names : List (List Char)) : List Char :=
  relativeTo directory (below directory names)

/-! ## Joined names -/

theorem joinWith_cons
    (name : List Char) (h : names ≠ []) :
    joinWith '/' (name :: names) = name ++ '/' :: joinWith '/' names := by
  obtain ⟨next, rest, rfl⟩ := List.exists_cons_of_ne_nil h
  rw [joinWith]
  simp

/-- A slash inside a piece is as good as one between two pieces. -/
theorem joinWith_split
    (before after : List (List Char)) (left right : List Char) :
    joinWith '/' (before ++ left :: right :: after) =
      joinWith '/' (before ++ (left ++ '/' :: right) :: after) := by
  induction before with
  | nil =>
      rw [List.nil_append, List.nil_append, joinWith_cons left (List.cons_ne_nil _ _)]
      by_cases hafter : after = []
      · simp [hafter, joinWith]
      · simp [joinWith_cons _ hafter]
  | cons name before ih =>
      have hcons : ∀ pieces piece, before ++ piece :: pieces ≠ [] := by simp
      rw [List.cons_append, List.cons_append, joinWith_cons name (hcons _ _),
        joinWith_cons name (hcons _ _), ih]

theorem mem_joinWith_iff
    {c : Char} (hc : c ≠ '/') :
    c ∈ joinWith '/' names ↔ ∃ name ∈ names, c ∈ name := by
  induction names with
  | nil => simp [joinWith]
  | cons name names ih =>
      by_cases hrest : names = []
      · simp [hrest, joinWith]
      · rw [joinWith_cons name hrest, List.mem_append, List.mem_cons, ih]
        simp [hc]

theorem IsNamed.head?_ne
    {name : List Char} (h : IsNamed name) :
    name.head? ≠ some '/' :=
  fun hhead => h.2 (List.mem_of_head? hhead)

theorem head?_joinWith_ne
    (hnames : ∀ name ∈ names, IsNamed name) :
    (joinWith '/' names).head? ≠ some '/' := by
  match names with
  | [] => simp [joinWith]
  | [name] => exact (hnames name List.mem_cons_self).head?_ne
  | name :: next :: rest =>
      have hname := hnames name List.mem_cons_self
      rw [joinWith_cons name (List.cons_ne_nil _ _), List.head?_append_of_ne_nil _ hname.ne_nil]
      exact hname.head?_ne

/-! ## Paths below a directory, as texts -/

/-- What stands behind the path of a directory has one slash before it. -/
theorem join_eq_append
    (directory : List Char) {text : List Char} (h : text.head? ≠ some '/') :
    join directory text = join directory [] ++ text := by
  simp only [join, if_neg h, List.head?_nil]
  split <;> simp

theorem join_nil
    (hdirectory : directory ≠ []) :
    join directory [] =
      if directory.getLast? = some '/' then directory else directory ++ ['/'] := by
  simp [join, hdirectory]

theorem below_eq_append
    (directory : List Char) (hnames : ∀ name ∈ names, IsNamed name) (hne : names ≠ []) :
    below directory names = join directory [] ++ joinWith '/' names := by
  induction names generalizing directory with
  | nil => exact absurd rfl hne
  | cons name names ih =>
      obtain ⟨hname, hrest⟩ := List.forall_mem_cons.mp hnames
      have hjoin := join_eq_append directory hname.head?_ne
      by_cases hnil : names = []
      · simpa [hnil, below, joinWith] using hjoin
      · have hlast : (join directory name).getLast? ≠ some '/' := by
          rw [getLast?_join hname.ne_nil hname.2]
          exact fun h => hname.2 (List.mem_of_getLast? h)
        have hslash : join (join directory name) [] = join directory name ++ ['/'] := by
          rw [join_nil (join_ne_nil directory hname.ne_nil), if_neg hlast]
        have hbelow := ih (join directory name) hrest hnil
        rw [hslash, hjoin] at hbelow
        rw [joinWith_cons name hnil]
        simpa [below, hjoin] using hbelow

/-- Other names lead to another path. -/
theorem below_injective
    {others : List (List Char)} (hdirectory : directory ≠ [])
    (hnames : ∀ name ∈ names, IsNamed name) (hothers : ∀ name ∈ others, IsNamed name)
    (h : below directory names = below directory others) :
    names = others := by
  have hsegments := congrArg directorySegments h
  rw [directorySegments_below hdirectory hnames,
    directorySegments_below hdirectory hothers] at hsegments
  exact List.append_cancel_left hsegments

/-! ## Backslashes -/

theorem forwardSlashes_append
    (front back : List Char) :
    forwardSlashes (front ++ back) = forwardSlashes front ++ forwardSlashes back := by
  simp [forwardSlashes]

theorem forwardSlashes_eq_self_iff
    {text : List Char} :
    forwardSlashes text = text ↔ '\\' ∉ text := by
  induction text with
  | nil => simp [forwardSlashes]
  | cons c text ih =>
      simp only [forwardSlashes, List.map_cons, List.cons.injEq, List.mem_cons, not_or] at ih ⊢
      rw [ih]
      by_cases hc : c = '\\' <;> simp [hc, eq_comm]

theorem forwardSlashes_joinWith
    (names : List (List Char)) :
    forwardSlashes (joinWith '/' names) = joinWith '/' (names.map forwardSlashes) := by
  induction names with
  | nil => rfl
  | cons name names ih =>
      by_cases hrest : names = []
      · simp [hrest, joinWith]
      · have hmap : names.map forwardSlashes ≠ [] := mt List.map_eq_nil_iff.mp hrest
        rw [joinWith_cons name hrest, List.map_cons, joinWith_cons _ hmap, ← ih,
          forwardSlashes_append]
        rfl

/-- No joined text has a backslash if no name has one. -/
theorem forwardSlashes_joinWith_eq_self_iff :
    forwardSlashes (joinWith '/' names) = joinWith '/' names ↔
      ∀ name ∈ names, '\\' ∉ name := by
  rw [forwardSlashes_eq_self_iff, mem_joinWith_iff (by decide)]
  simp

/-! ## Report names -/

theorem reportName_eq
    (hdirectory : directory ≠ []) (hnames : ∀ name ∈ names, IsNamed name)
    (hne : names ≠ []) :
    reportName directory names = forwardSlashes (joinWith '/' names) := by
  have hcomponents := components_below hdirectory hnames
  have hrest : names.map Component.normal ≠ [] := mt List.map_eq_nil_iff.mp hne
  have hsingly : EndsSingly names (below directory names) := by
    refine ⟨directorySegments directory, [], ?_, by simp⟩
    rw [splitOn_below hdirectory hnames hne, List.append_nil]
  rw [reportName, relativeTo_of_components_append hdirectory hrest hcomponents,
    textAfter_of_endsSingly hdirectory hne hcomponents hsingly]

/-- A report name leads back to its file exactly if no name has a backslash. -/
theorem join_reportName_iff
    (hdirectory : directory ≠ []) (hnames : ∀ name ∈ names, IsNamed name)
    (hne : names ≠ []) :
    join directory (reportName directory names) = below directory names ↔
      ∀ name ∈ names, '\\' ∉ name := by
  rw [reportName_eq hdirectory hnames hne, below_eq_append directory hnames hne,
    ← forwardSlashes_joinWith_eq_self_iff]
  by_cases hhead : (forwardSlashes (joinWith '/' names)).head? = some '/'
  · -- A leading backslash turns the report name into an absolute path, too short to lead back.
    have hself : forwardSlashes (joinWith '/' names) ≠ joinWith '/' names := by
      intro h
      rw [h] at hhead
      exact head?_joinWith_ne hnames hhead
    have hlead : 0 < (join directory []).length := by
      rw [List.length_pos_iff, join_nil hdirectory]
      split <;> simp [hdirectory]
    rw [join, if_pos hhead]
    refine iff_of_false ?_ hself
    intro h
    have hlength := congrArg List.length h
    rw [length_forwardSlashes, List.length_append] at hlength
    omega
  · rw [join_eq_append directory hhead, List.append_cancel_left_eq]

/-- Report names agree exactly if the paths do once every backslash is a slash. -/
theorem reportName_eq_iff
    {others : List (List Char)} (hdirectory : directory ≠ [])
    (hnames : ∀ name ∈ names, IsNamed name) (hne : names ≠ [])
    (hothers : ∀ name ∈ others, IsNamed name) (hothersNe : others ≠ []) :
    reportName directory names = reportName directory others ↔
      forwardSlashes (below directory names) = forwardSlashes (below directory others) := by
  rw [reportName_eq hdirectory hnames hne, reportName_eq hdirectory hothers hothersNe,
    below_eq_append directory hnames hne, below_eq_append directory hothers hothersNe,
    forwardSlashes_append, forwardSlashes_append, List.append_cancel_left_eq]

theorem isNamed_split
    {before after : List (List Char)} {left right joined : List Char}
    (hnames : ∀ name ∈ before ++ joined :: after, IsNamed name)
    (hleft : IsNamed left) (hright : IsNamed right) :
    ∀ name ∈ before ++ left :: right :: after, IsNamed name := by
  simp only [List.forall_mem_append, List.forall_mem_cons] at hnames ⊢
  exact ⟨hnames.1, hleft, hright, hnames.2.2⟩

/-- A name with a backslash between two names is reported like the one below the other. -/
theorem reportName_split
    {before after : List (List Char)} {left right : List Char} (hdirectory : directory ≠ [])
    (hnames : ∀ name ∈ before ++ (left ++ '\\' :: right) :: after, IsNamed name)
    (hleft : IsNamed left) (hright : IsNamed right) :
    reportName directory (before ++ left :: right :: after) =
      reportName directory (before ++ (left ++ '\\' :: right) :: after) := by
  have hsplit := isNamed_split hnames hleft hright
  have hslash :
      forwardSlashes (left ++ '/' :: right) = forwardSlashes (left ++ '\\' :: right) := by
    simp [forwardSlashes]
  rw [reportName_eq hdirectory hsplit (by simp), reportName_eq hdirectory hnames (by simp),
    joinWith_split, forwardSlashes_joinWith, forwardSlashes_joinWith, List.map_append,
    List.map_append, List.map_cons, List.map_cons, hslash]

/-- Report names identify files exactly up to backslashes.  The report name of a file leads
back to the file if and only if none of its names has a backslash, and two files have the
same report name if and only if their paths are the same once every backslash is a slash.
So two different files without backslashes have different report names, while a name with a
backslash between two names is reported like the second name below the first. -/
theorem report_names_identify_files_iff
    (hdirectory : directory ≠ []) (hnames : ∀ name ∈ names, IsNamed name)
    (hne : names ≠ []) :
    (join directory (reportName directory names) = below directory names ↔
        ∀ name ∈ names, '\\' ∉ name) ∧
      (∀ others, others ≠ [] → (∀ name ∈ others, IsNamed name) →
        (reportName directory names = reportName directory others ↔
          forwardSlashes (below directory names) =
            forwardSlashes (below directory others)) ∧
        (below directory names ≠ below directory others →
          (∀ name ∈ names ++ others, '\\' ∉ name) →
            reportName directory names ≠ reportName directory others)) ∧
      ∀ before left right after, names = before ++ (left ++ '\\' :: right) :: after →
        IsNamed left → IsNamed right →
          below directory (before ++ left :: right :: after) ≠ below directory names ∧
            reportName directory (before ++ left :: right :: after) =
              reportName directory names := by
  refine ⟨join_reportName_iff hdirectory hnames hne, ?_, ?_⟩
  · intro others hothersNe hothers
    refine ⟨reportName_eq_iff hdirectory hnames hne hothers hothersNe, ?_⟩
    intro hdifferent hplain hsame
    rw [List.forall_mem_append] at hplain
    have hback := (join_reportName_iff hdirectory hnames hne).mpr hplain.1
    have hotherBack := (join_reportName_iff hdirectory hothers hothersNe).mpr hplain.2
    rw [hsame] at hback
    exact hdifferent (hback.symm.trans hotherBack)
  · rintro before left right after rfl hleft hright
    refine ⟨?_, reportName_split hdirectory hnames hleft hright⟩
    intro hsame
    have hsplit := isNamed_split hnames hleft hright
    have hlength := congrArg List.length (below_injective hdirectory hsplit hnames hsame)
    simp at hlength

/-- The file `a\b.py` and the file `b.py` in the directory `a` share their report name, which
leads to the second one. -/
theorem backslash_is_reported_as_slash :
    below "/work".toList ["a\\b.py".toList] = "/work/a\\b.py".toList ∧
      below "/work".toList ["a".toList, "b.py".toList] = "/work/a/b.py".toList ∧
      reportName "/work".toList ["a\\b.py".toList] = "a/b.py".toList ∧
      reportName "/work".toList ["a".toList, "b.py".toList] =
        reportName "/work".toList ["a\\b.py".toList] ∧
      join "/work".toList (reportName "/work".toList ["a\\b.py".toList]) ≠
        below "/work".toList ["a\\b.py".toList] := by
  have hnames : ∀ name ∈ ["a\\b.py".toList], IsNamed name := by
    rw [List.forall_mem_singleton]
    exact ⟨by decide, by decide⟩
  have hdirectory : "/work".toList ≠ [] := by decide
  obtain ⟨hback, -, hshared⟩ :=
    report_names_identify_files_iff hdirectory hnames (List.cons_ne_nil _ _)
  refine ⟨by decide, by decide, by decide, ?_, ?_⟩
  · exact (hshared [] "a".toList "b.py".toList [] rfl ⟨by decide, by decide⟩
      ⟨by decide, by decide⟩).2
  · intro hjoin
    exact absurd (hback.mp hjoin "a\\b.py".toList List.mem_cons_self) (by decide)

end HandlerLint.Path
