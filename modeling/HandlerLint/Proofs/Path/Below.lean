import HandlerLint.Path.Relative
import HandlerLint.Proofs.Text.Lines

/-!
# Paths below a directory

A name is put behind the path of a directory with one slash between the two, also where
that path ends in a slash already.  The segments of the new path are those of the
directory without the empty one after a last slash, and the name.  From this follow the
components of the new path, its file name, and the text of it below the directory: each
is read off the names alone, whatever the path of the directory looks like.
-/

namespace HandlerLint.Path

open HandlerLint.Text

/-- Whether a segment stands for a name. -/
def IsNamed (segment : List Char) : Prop :=
  segmentComponent? segment = some (.normal segment) ∧ '/' ∉ segment

/-- The segments of a directory's path, without the empty one after a last slash. -/
def directorySegments (path : List Char) : List (List Char) :=
  if path.getLast? = some '/' then (splitOn '/' path).dropLast else splitOn '/' path

/-- The path of what lies below a directory, given the names that lead there. -/
def below (directory : List Char) (names : List (List Char)) : List Char :=
  names.foldl join directory

theorem splitOn_append_slash
    (front rest : List Char) :
    splitOn '/' (front ++ '/' :: rest) = splitOn '/' front ++ splitOn '/' rest := by
  simp only [splitOn_eq]
  exact List.splitOn_append_cons_self front rest

theorem splitOn_of_not_mem
    {text : List Char} (h : '/' ∉ text) :
    splitOn '/' text = [text] := by
  rw [splitOn_eq]
  exact List.splitOn_eq_singleton h

/-- A path is known by its segments and whether it ends in a slash. -/
theorem splitOn_eq_directorySegments
    (path : List Char) :
    splitOn '/' path =
      directorySegments path ++ if path.getLast? = some '/' then [[]] else [] := by
  by_cases hslash : path.getLast? = some '/'
  · obtain ⟨front, rfl⟩ := List.getLast?_eq_some_iff.mp hslash
    have hsplit := splitOn_append_slash front []
    simp [directorySegments, hsplit]
  · simp [directorySegments, hslash]

theorem directorySegments_ne_nil
    {path : List Char} (h : path ≠ []) :
    directorySegments path ≠ [] := by
  by_cases hslash : path.getLast? = some '/'
  · obtain ⟨front, rfl⟩ := List.getLast?_eq_some_iff.mp hslash
    have hsplit := splitOn_append_slash front []
    have hfront := splitOn_ne_nil '/' front
    simp [directorySegments, hsplit, hfront]
  · simpa [directorySegments, hslash] using splitOn_ne_nil '/' path

/-- With a name behind a directory's path comes one segment more. -/
theorem splitOn_join
    {directory name : List Char} (hdirectory : directory ≠ []) (hname : '/' ∉ name) :
    splitOn '/' (join directory name) = directorySegments directory ++ [name] := by
  have hhead : name.head? ≠ some '/' := fun h => hname (List.mem_of_head? h)
  by_cases hslash : directory.getLast? = some '/'
  · obtain ⟨front, rfl⟩ := List.getLast?_eq_some_iff.mp hslash
    have hjoin : join (front ++ ['/']) name = front ++ '/' :: name := by
      simp [join, hhead]
    have hsplit := splitOn_append_slash front []
    rw [hjoin, splitOn_append_slash, splitOn_of_not_mem hname]
    simp [directorySegments, hsplit]
  · have hjoin : join directory name = directory ++ '/' :: name := by
      simp [join, hhead, hdirectory, hslash]
    rw [hjoin, splitOn_append_slash, splitOn_of_not_mem hname, directorySegments,
      if_neg hslash]

theorem getLast?_join
    {directory name : List Char} (hne : name ≠ []) (hname : '/' ∉ name) :
    (join directory name).getLast? = name.getLast? := by
  have hhead : name.head? ≠ some '/' := fun h => hname (List.mem_of_head? h)
  rw [join, if_neg hhead]
  split
  · exact List.getLast?_append_of_ne_nil directory hne
  · rw [List.getLast?_append_of_ne_nil directory (List.cons_ne_nil _ _),
      List.getLast?_cons_of_ne_nil hne]

theorem join_ne_nil
    (directory : List Char) {name : List Char} (hne : name ≠ []) :
    join directory name ≠ [] := by
  rw [join]
  repeat' split
  all_goals simp [hne]

theorem IsNamed.ne_nil
    {name : List Char} (h : IsNamed name) :
    name ≠ [] := by
  rintro rfl
  exact absurd h.1 (by simp [segmentComponent?])

theorem directorySegments_join
    {directory name : List Char} (hdirectory : directory ≠ []) (hname : IsNamed name) :
    directorySegments (join directory name) = directorySegments directory ++ [name] := by
  have hlast : (join directory name).getLast? ≠ some '/' := by
    rw [getLast?_join hname.ne_nil hname.2]
    exact fun h => hname.2 (List.mem_of_getLast? h)
  rw [directorySegments, if_neg hlast, splitOn_join hdirectory hname.2]

theorem below_ne_nil
    {directory : List Char} {names : List (List Char)}
    (hdirectory : directory ≠ []) (hnames : ∀ name ∈ names, IsNamed name) :
    below directory names ≠ [] := by
  induction names generalizing directory with
  | nil => exact hdirectory
  | cons name names ih =>
      rw [List.forall_mem_cons] at hnames
      exact ih (join_ne_nil directory hnames.1.ne_nil) hnames.2

theorem directorySegments_below
    {directory : List Char} {names : List (List Char)}
    (hdirectory : directory ≠ []) (hnames : ∀ name ∈ names, IsNamed name) :
    directorySegments (below directory names) = directorySegments directory ++ names := by
  induction names generalizing directory with
  | nil => simp [below]
  | cons name names ih =>
      rw [List.forall_mem_cons] at hnames
      have hrest := ih (join_ne_nil directory hnames.1.ne_nil) hnames.2
      rw [directorySegments_join hdirectory hnames.1] at hrest
      simpa [below] using hrest

/-! ## Components -/

/-- An opening and the segments after it, from the segments of a directory's path. -/
def opened : List (List Char) → Opening × List (List Char)
  | [] => (.plain, [])
  | first :: rest =>
      if first = [] then (.root, rest)
      else if first = ['.'] then (.current, rest)
      else (.plain, first :: rest)

theorem opened_append
    {segments : List (List Char)} (h : segments ≠ []) (more : List (List Char)) :
    opened (segments ++ more) = ((opened segments).1, (opened segments).2 ++ more) := by
  obtain ⟨first, rest, rfl⟩ := List.exists_cons_of_ne_nil h
  simp only [List.cons_append, opened]
  repeat' split
  all_goals rfl

theorem parse_eq_opened
    {path : List Char} (h : path ≠ []) :
    parse path = opened (splitOn '/' path) := by
  rw [parse]
  have hpath := joinWith_splitOn '/' path
  generalize splitOn '/' path = pieces at hpath ⊢
  split
  · rfl
  · next segment =>
      -- A single segment is the path itself, which is not empty.
      have hsegment : segment ≠ [] := by
        rintro rfl
        exact h hpath.symm
      rw [opened, if_neg hsegment]
  · rfl

theorem components_eq_opened
    {path : List Char} (h : path ≠ []) :
    components path =
      (opened (directorySegments path)).1.components ++
        (opened (directorySegments path)).2.filterMap segmentComponent? := by
  have hvoid : segmentComponent? [] = none := by
    simp [segmentComponent?]
  rw [components, parse_eq_opened h, splitOn_eq_directorySegments,
    opened_append (directorySegments_ne_nil h)]
  split
  all_goals simp [hvoid]

theorem filterMap_segmentComponent?
    {names : List (List Char)} (hnames : ∀ name ∈ names, IsNamed name) :
    names.filterMap segmentComponent? = names.map .normal := by
  induction names with
  | nil => rfl
  | cons name names ih =>
      rw [List.forall_mem_cons] at hnames
      rw [List.filterMap_cons, hnames.1.1, ih hnames.2, List.map_cons]

/-- The components of a path below a directory are those of the directory and the
names. -/
theorem components_below
    {directory : List Char} {names : List (List Char)}
    (hdirectory : directory ≠ []) (hnames : ∀ name ∈ names, IsNamed name) :
    components (below directory names) = components directory ++ names.map .normal := by
  rw [components_eq_opened (below_ne_nil hdirectory hnames),
    directorySegments_below hdirectory hnames,
    opened_append (directorySegments_ne_nil hdirectory), components_eq_opened hdirectory,
    List.filterMap_append, filterMap_segmentComponent? hnames, List.append_assoc]

theorem fileName?_below
    {directory name : List Char} {names : List (List Char)}
    (hdirectory : directory ≠ []) (hnames : ∀ name ∈ names, IsNamed name)
    (hname : IsNamed name) :
    fileName? (below directory (names ++ [name])) = some name := by
  have hall : ∀ segment ∈ names ++ [name], IsNamed segment := by
    intro segment hsegment
    rcases List.mem_append.mp hsegment with hfront | hlast
    · exact hnames segment hfront
    · rwa [List.mem_singleton.mp hlast]
  rw [fileName?, components_below hdirectory hall]
  simp

/-! ## Text below the directory -/

theorem IsNamed.isVoid_eq_false
    {name : List Char} (h : IsNamed name) :
    isVoid name = false := by
  rw [isVoid, h.1]
  rfl

theorem dropComponents_zero
    (segments : List (List Char)) :
    dropComponents 0 segments = segments := by
  rw [dropComponents]

/-- Past the segments that stand for the components of a front, nothing of the front is
left but segments that stand for nothing. -/
theorem dropWhile_dropComponents
    (front rest : List (List Char)) :
    (dropComponents (front.filterMap segmentComponent?).length (front ++ rest)).dropWhile
        isVoid =
      rest.dropWhile isVoid := by
  induction front with
  | nil => simp [dropComponents_zero]
  | cons segment front ih =>
      cases hcomponent : segmentComponent? segment with
      | none =>
          have hvoid : isVoid segment = true := by
            rw [isVoid, hcomponent]
            rfl
          rw [List.filterMap_cons, hcomponent, List.cons_append]
          cases hcount : (front.filterMap segmentComponent?).length with
          | zero =>
              rw [hcount, dropComponents_zero] at ih
              rw [dropComponents_zero, List.dropWhile_cons, if_pos hvoid]
              exact ih
          | succ count =>
              rw [hcount] at ih
              rw [dropComponents, if_pos hvoid]
              exact ih
      | some component =>
          have hvoid : ¬isVoid segment = true := by
            rw [isVoid, hcomponent]
            exact Bool.false_ne_true
          rw [List.filterMap_cons, hcomponent, List.cons_append, List.length_cons,
            dropComponents, if_neg hvoid]
          exact ih

theorem dropWhile_isVoid
    {names : List (List Char)} (hnames : ∀ name ∈ names, IsNamed name) :
    names.dropWhile isVoid = names := by
  cases names with
  | nil => rfl
  | cons name names =>
      rw [List.forall_mem_cons] at hnames
      rw [List.dropWhile_cons, hnames.1.isVoid_eq_false]
      rfl

theorem dropTrailingVoid_of_isNamed
    {names : List (List Char)} (hnames : ∀ name ∈ names, IsNamed name) :
    dropTrailingVoid names = names := by
  have hreverse : ∀ name ∈ names.reverse, IsNamed name := by
    simpa using hnames
  rw [dropTrailingVoid, dropWhile_isVoid hreverse, List.reverse_reverse]

/-- No path of a name ends in a slash. -/
theorem splitOn_below
    {directory : List Char} {names : List (List Char)}
    (hdirectory : directory ≠ []) (hnames : ∀ name ∈ names, IsNamed name)
    (hne : names ≠ []) :
    splitOn '/' (below directory names) = directorySegments directory ++ names := by
  rcases List.eq_nil_or_concat names with rfl | ⟨front, name, rfl⟩
  · exact absurd rfl hne
  · rw [List.concat_eq_append] at hnames ⊢
    have hfront : ∀ name ∈ front, IsNamed name := fun name h =>
      hnames name (List.mem_append_left _ h)
    have hbelow : below directory (front ++ [name]) = join (below directory front) name := by
      simp [below]
    rw [hbelow, splitOn_join (below_ne_nil hdirectory hfront) (hnames name (by simp)).2,
      directorySegments_below hdirectory hfront, List.append_assoc]

/-- The text of a path below a directory is that of the names. -/
theorem stripBase?_below
    {directory : List Char} {names : List (List Char)}
    (hdirectory : directory ≠ []) (hnames : ∀ name ∈ names, IsNamed name)
    (hne : names ≠ []) :
    stripBase? directory (below directory names) = some (joinWith '/' names) := by
  have hopened := opened_append (directorySegments_ne_nil hdirectory) names
  have hparse : parse (below directory names) =
      ((opened (directorySegments directory)).1,
        (opened (directorySegments directory)).2 ++ names) := by
    rw [parse_eq_opened (below_ne_nil hdirectory hnames), splitOn_below hdirectory hnames hne,
      hopened]
  have hcount : (components directory).length -
      (opened (directorySegments directory)).1.components.length =
        ((opened (directorySegments directory)).2.filterMap segmentComponent?).length := by
    rw [components_eq_opened hdirectory, List.length_append, Nat.add_sub_cancel_left]
  have hopen : (components directory).isPrefixOf (components (below directory names)) = true := by
    rw [components_below hdirectory hnames, List.isPrefixOf_iff_prefix]
    exact List.prefix_append _ _
  have htext : textAfter (components directory).length (below directory names) =
      joinWith '/' names := by
    rw [textAfter, hparse]
    dsimp only
    rw [hcount, dropWhile_dropComponents, dropWhile_isVoid hnames,
      dropTrailingVoid_of_isNamed hnames]
  rw [stripBase?, if_pos hopen, htext]

end HandlerLint.Path
