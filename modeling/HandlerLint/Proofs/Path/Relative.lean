import Mathlib.Data.List.DropRight
import HandlerLint.Proofs.Path.Below

/-!
# Report names by components

Whether a file lies below the base of a report is decided on components, so it does not
depend on how the two paths are written.  The name that the report gives the file does: the
text below the base is taken over as it stands, without the slashes and dots around it.  It
is the names below the base with single slashes between them exactly if they are written
that way.
-/

namespace HandlerLint.Path

open HandlerLint.Text

/-- Some names stand at the end of a path with single slashes between them: they are
segments one after another, and whatever segments follow stand for nothing. -/
def EndsSingly (names : List (List Char)) (path : List Char) : Prop :=
  ∃ front trail, splitOn '/' path = front ++ (names ++ trail) ∧
    ∀ segment ∈ trail, isVoid segment = true

/-! ## Segments and components -/

theorem not_mem_of_mem_splitOn
    {text segment : List Char} (h : segment ∈ splitOn '/' text) :
    '/' ∉ segment := by
  induction text generalizing segment with
  | nil => simp_all
  | cons c text ih =>
      rw [splitOn_cons] at h
      split at h
      · rcases List.mem_cons.mp h with rfl | hrest
        · exact List.not_mem_nil
        · exact ih hrest
      · next hc =>
          obtain ⟨first, rest, hsplit⟩ := List.exists_cons_of_ne_nil (splitOn_ne_nil '/' text)
          rw [hsplit] at h ih
          rcases List.mem_cons.mp h with rfl | hrest
          · have hfirst := ih List.mem_cons_self
            simp [hfirst, Ne.symm hc]
          · exact ih (List.mem_cons_of_mem _ hrest)

theorem eq_of_segmentComponent?
    {segment name : List Char} (h : segmentComponent? segment = some (.normal name)) :
    segment = name := by
  simp only [segmentComponent?] at h
  split at h
  · simp at h
  · split at h
    · simp at h
    · simpa using h

theorem segmentComponent?_eq_none
    {segment : List Char} (h : isVoid segment = true) :
    segmentComponent? segment = none :=
  Option.isNone_iff_eq_none.mp h

theorem filterMap_segmentComponent?_of_isVoid
    {segments : List (List Char)} (h : ∀ segment ∈ segments, isVoid segment = true) :
    segments.filterMap segmentComponent? = [] := by
  rw [List.filterMap_eq_nil_iff]
  exact fun segment hsegment => segmentComponent?_eq_none (h segment hsegment)

theorem components_eq_opened_splitOn
    {path : List Char} (h : path ≠ []) :
    components path =
      (opened (splitOn '/' path)).1.components ++
        (opened (splitOn '/' path)).2.filterMap segmentComponent? := by
  rw [components, parse_eq_opened h]

/-- The segments after an opening are the last ones of all segments. -/
theorem exists_append_opened
    (segments : List (List Char)) :
    ∃ lead, segments = lead ++ (opened segments).2 := by
  match segments with
  | [] => exact ⟨[], rfl⟩
  | first :: rest =>
      simp only [opened]
      split
      · exact ⟨[first], rfl⟩
      · split
        · exact ⟨[first], rfl⟩
        · exact ⟨[], rfl⟩

theorem length_components_opening_le
    (opening : Opening) :
    opening.components.length ≤ 1 := by
  cases opening <;> simp [Opening.components]

/-- Every path but the empty one has a component. -/
theorem components_ne_nil
    {path : List Char} (h : path ≠ []) :
    components path ≠ [] := by
  obtain ⟨first, rest, hfirst⟩ := List.exists_cons_of_ne_nil (splitOn_ne_nil '/' path)
  rw [components_eq_opened_splitOn h, hfirst, opened]
  split
  · simp [Opening.components]
  · split
    · simp [Opening.components]
    · -- A first segment that opens nothing stands for a name or for `..`.
      next hslash hdot =>
        have hsome : segmentComponent? first ≠ none := by
          simp only [segmentComponent?, hslash, hdot, or_self, if_false]
          split <;> simp
        obtain ⟨component, hcomponent⟩ := Option.ne_none_iff_exists'.mp hsome
        simp [hcomponent]

theorem isNamed_of_mem_components
    {path name : List Char} (h : .normal name ∈ components path) :
    IsNamed name := by
  have hpath : path ≠ [] := by
    rintro rfl
    simp [components, parse, Opening.components, segmentComponent?] at h
  obtain ⟨lead, hlead⟩ := exists_append_opened (splitOn '/' path)
  rw [components_eq_opened_splitOn hpath, List.mem_append, List.mem_filterMap] at h
  rcases h with hopening | ⟨segment, hsegment, hcomponent⟩
  · cases hcase : (opened (splitOn '/' path)).1 <;>
      simp [hcase, Opening.components] at hopening
  · obtain rfl := eq_of_segmentComponent? hcomponent
    have hmem : segment ∈ splitOn '/' path := by
      rw [hlead]
      exact List.mem_append_right _ hsegment
    exact ⟨hcomponent, not_mem_of_mem_splitOn hmem⟩

/-! ## The text below a base -/

/-- Segments fall into some that stand for nothing, what is left of them without those at
both ends, and some that stand for nothing. -/
theorem exists_append_trimmed
    (segments : List (List Char)) :
    ∃ lead trail,
      segments = lead ++ (dropTrailingVoid (segments.dropWhile isVoid) ++ trail) ∧
        (∀ segment ∈ lead, isVoid segment = true) ∧
        ∀ segment ∈ trail, isVoid segment = true := by
  refine ⟨segments.takeWhile isVoid, (segments.dropWhile isVoid).rtakeWhile isVoid,
    ?_, fun _ => List.mem_takeWhile_imp, fun _ => List.mem_rtakeWhile_imp⟩
  have hback : dropTrailingVoid (segments.dropWhile isVoid) ++
      (segments.dropWhile isVoid).rtakeWhile isVoid = segments.dropWhile isVoid :=
    List.rdropWhile_append_rtakeWhile
  rw [hback, List.takeWhile_append_dropWhile]

/-- The text of a path below a base is a part of its segments as they are written, and
stands for the components below the base. -/
theorem exists_textAfter_eq
    {base file : List Char} {rest : List Component} (hbase : base ≠ [])
    (h : components file = components base ++ rest) :
    ∃ front segments trail,
      splitOn '/' file = front ++ (segments ++ trail) ∧
        (∀ segment ∈ trail, isVoid segment = true) ∧
        segments.filterMap segmentComponent? = rest ∧
        textAfter (components base).length file = joinWith '/' segments := by
  have hfile : file ≠ [] := by
    rintro rfl
    have hnil : components [] = [] := rfl
    rw [hnil] at h
    exact components_ne_nil hbase (List.append_eq_nil_iff.mp h.symm).1
  obtain ⟨lead, hlead⟩ := exists_append_opened (splitOn '/' file)
  have hparse := parse_eq_opened hfile
  have hopening := length_components_opening_le (opened (splitOn '/' file)).1
  rw [components_eq_opened_splitOn hfile] at h
  -- The opening stands for the first component of the base or for none.
  obtain ⟨inner, hinner, hcomponents⟩ :
      ∃ inner,
        components base = (opened (splitOn '/' file)).1.components ++ inner ∧
          (opened (splitOn '/' file)).2.filterMap segmentComponent? = inner ++ rest := by
    rcases List.append_eq_append_iff.mp h with hshorter | ⟨more, hmore, hrest⟩
    · exact hshorter
    · have hlength := congrArg List.length hmore
      have hpos := List.length_pos_iff.mpr (components_ne_nil hbase)
      rw [List.length_append] at hlength
      have hnil : more = [] := List.length_eq_zero_iff.mp (by omega)
      subst hnil
      exact ⟨[], by simpa using hmore.symm, by simpa using hrest.symm⟩
  obtain ⟨front, back, hback, hfront, hrest⟩ := List.filterMap_eq_append_iff.mp hcomponents
  obtain ⟨void, trail, htrimmed, hvoid, htrail⟩ := exists_append_trimmed back
  refine ⟨lead ++ (front ++ void), dropTrailingVoid (back.dropWhile isVoid), trail,
    ?_, htrail, ?_, ?_⟩
  · rw [List.append_assoc, List.append_assoc, ← htrimmed, ← hback, ← hlead]
  · rw [htrimmed, List.filterMap_append, List.filterMap_append,
      filterMap_segmentComponent?_of_isVoid hvoid,
      filterMap_segmentComponent?_of_isVoid htrail] at hrest
    simpa using hrest
  · have hcount :
        (components base).length - (opened (splitOn '/' file)).1.components.length =
          (front.filterMap segmentComponent?).length := by
      rw [hinner, hfront, List.length_append, Nat.add_sub_cancel_left]
    rw [textAfter, hparse]
    dsimp only
    rw [hcount, hback, dropWhile_dropComponents]

/-! ## Names with single slashes -/

/-- The length of some pieces with a slash behind each of them. -/
def room (pieces : List (List Char)) : Nat :=
  (pieces.map (·.length + 1)).sum

theorem room_cons
    (piece : List Char) (pieces : List (List Char)) :
    room (piece :: pieces) = piece.length + 1 + room pieces := by
  simp [room]

theorem length_joinWith
    {pieces : List (List Char)} (h : pieces ≠ []) :
    (joinWith '/' pieces).length + 1 = room pieces := by
  induction pieces with
  | nil => exact absurd rfl h
  | cons piece pieces ih =>
      cases pieces with
      | nil => simp [joinWith, room]
      | cons next pieces =>
          have hrest := ih (List.cons_ne_nil _ _)
          rw [room_cons, ← hrest]
          simp only [joinWith, List.length_append, List.length_cons]
          omega

/-- Segments that stand for some names take up as much room as the names only if they are
the names: a segment that stands for nothing takes up room too. -/
theorem room_le_of_components
    {segments names : List (List Char)}
    (h : segments.filterMap segmentComponent? = names.map .normal) :
    room names ≤ room segments ∧ (room segments = room names → segments = names) := by
  induction segments generalizing names with
  | nil =>
      obtain rfl : names = [] := by simpa using h.symm
      simp
  | cons segment segments ih =>
      cases hcomponent : segmentComponent? segment with
      | none =>
          rw [List.filterMap_cons, hcomponent] at h
          obtain ⟨hle, -⟩ := ih h
          rw [room_cons]
          constructor
          · omega
          · intro hroom
            omega
      | some component =>
          rw [List.filterMap_cons, hcomponent] at h
          obtain ⟨name, rest, rfl, rfl, hrest⟩ := List.map_eq_cons_iff.mp h.symm
          obtain rfl := eq_of_segmentComponent? hcomponent
          obtain ⟨hle, heq⟩ := ih hrest.symm
          rw [room_cons, room_cons]
          constructor
          · omega
          · intro hroom
            rw [heq (by omega)]

theorem length_forwardSlashes
    (path : List Char) :
    (forwardSlashes path).length = path.length := by
  simp [forwardSlashes]

/-- The text below a base is the names joined by slashes only if they are written that
way. -/
theorem endsSingly_of_textAfter
    {base file : List Char} {names : List (List Char)} (hbase : base ≠ [])
    (hnames : names ≠ []) (h : components file = components base ++ names.map .normal)
    (htext : forwardSlashes (textAfter (components base).length file) =
      forwardSlashes (joinWith '/' names)) :
    EndsSingly names file := by
  obtain ⟨front, segments, trail, hsplit, htrail, hsegments, hafter⟩ :=
    exists_textAfter_eq hbase h
  have hne : segments ≠ [] := by
    rintro rfl
    exact hnames (by simpa using hsegments.symm)
  have hlength := congrArg List.length htext
  rw [length_forwardSlashes, length_forwardSlashes, hafter] at hlength
  have hroom : room segments = room names := by
    rw [← length_joinWith hne, ← length_joinWith hnames, hlength]
  obtain rfl := (room_le_of_components hsegments).2 hroom
  exact ⟨front, trail, hsplit, htrail⟩

theorem dropTrailingVoid_append
    {names trail : List (List Char)} (hnames : ∀ name ∈ names, IsNamed name)
    (htrail : ∀ segment ∈ trail, isVoid segment = true) :
    dropTrailingVoid (names ++ trail) = names := by
  have hreverse : ∀ segment ∈ trail.reverse, isVoid segment = true := by
    simpa using htrail
  rw [dropTrailingVoid, List.reverse_append, List.dropWhile_append_of_pos hreverse]
  exact dropTrailingVoid_of_isNamed hnames

/-- Segments that begin with a name open neither at the root nor with a dot. -/
theorem opened_of_isNamed
    {name : List Char} (segments : List (List Char)) (h : IsNamed name) :
    opened (name :: segments) = (.plain, name :: segments) := by
  have hdot : name ≠ ['.'] := by
    rintro rfl
    simp [IsNamed, segmentComponent?] at h
  rw [opened, if_neg h.ne_nil, if_neg hdot]

/-- Names that are written with single slashes are the text below the base. -/
theorem textAfter_of_endsSingly
    {base file : List Char} {names : List (List Char)} (hbase : base ≠ [])
    (hnames : names ≠ []) (h : components file = components base ++ names.map .normal)
    (hsingly : EndsSingly names file) :
    textAfter (components base).length file = joinWith '/' names := by
  obtain ⟨front, trail, hsplit, htrail⟩ := hsingly
  have hnamed : ∀ name ∈ names, IsNamed name := by
    intro name hname
    have hmem : .normal name ∈ components file := by
      rw [h]
      exact List.mem_append_right _ (List.mem_map_of_mem hname)
    exact isNamed_of_mem_components hmem
  have hfile : file ≠ [] := by
    rintro rfl
    exact hnames (List.map_eq_nil_iff.mp (List.append_eq_nil_iff.mp h.symm).2)
  have hbelow :
      (names ++ trail).filterMap segmentComponent? = names.map .normal := by
    rw [List.filterMap_append, filterMap_segmentComponent? hnamed,
      filterMap_segmentComponent?_of_isVoid htrail, List.append_nil]
  obtain ⟨name, rest, hfirst⟩ := List.exists_cons_of_ne_nil hnames
  rw [components_eq_opened_splitOn hfile, hsplit] at h
  -- The base has a component, and the names account for theirs only.
  have hfront : front ≠ [] := by
    rintro rfl
    have hname : IsNamed name := hnamed name (hfirst ▸ List.mem_cons_self)
    have hopened := opened_of_isNamed (rest ++ trail) hname
    rw [← List.cons_append, ← hfirst] at hopened
    rw [List.nil_append, hopened, hbelow] at h
    exact components_ne_nil hbase (List.append_left_eq_self.mp h.symm)
  have hopened := opened_append hfront (names ++ trail)
  rw [hopened, List.filterMap_append, hbelow, ← List.append_assoc] at h
  have hcount :
      (components base).length - (opened front).1.components.length =
        ((opened front).2.filterMap segmentComponent?).length := by
    rw [← List.append_cancel_right h, List.length_append, Nat.add_sub_cancel_left]
  have hkept : (names ++ trail).dropWhile isVoid = names ++ trail := by
    have hname := (hnamed name (hfirst ▸ List.mem_cons_self)).isVoid_eq_false
    rw [hfirst, List.cons_append, List.dropWhile_cons, hname]
    rfl
  rw [textAfter, parse_eq_opened hfile, hsplit, hopened]
  dsimp only
  rw [hcount, dropWhile_dropComponents, hkept, dropTrailingVoid_append hnamed htrail]

/-! ## Names in reports -/

theorem relativeTo_of_not_prefix
    {base file : List Char} (h : ¬components base <+: components file) :
    relativeTo base file = file := by
  have hne : components file ≠ components base := by
    intro heq
    exact h (heq ▸ List.prefix_rfl)
  have hstrip : stripBase? base file = none := by
    rw [stripBase?, if_neg (mt List.isPrefixOf_iff_prefix.mp h)]
  rw [relativeTo, if_neg hne, hstrip]
  split <;> rfl

theorem relativeTo_of_components_eq
    {base file : List Char} (hbase : base ≠ []) (h : components file = components base) :
    relativeTo base file = (fileName? file).getD file := by
  rw [relativeTo, if_neg hbase, if_pos h]

theorem relativeTo_of_components_append
    {base file : List Char} {rest : List Component} (hbase : base ≠ []) (hrest : rest ≠ [])
    (h : components file = components base ++ rest) :
    relativeTo base file = forwardSlashes (textAfter (components base).length file) := by
  have hne : components file ≠ components base := by
    rw [h]
    exact fun heq => hrest (List.append_right_eq_self.mp heq)
  have hprefix : (components base).isPrefixOf (components file) = true := by
    rw [List.isPrefixOf_iff_prefix, h]
    exact List.prefix_append _ _
  rw [relativeTo, if_neg hbase, if_neg hne, stripBase?, if_pos hprefix]

/-- How a report names a file is decided on components.  Without a base, or where the
components of the base do not open those of the file, the file keeps its path.  The base
itself is named by its last component if that is a name, and keeps its path else.  A file
some names below the base is named by these names with single slashes between them and
every backslash a slash, exactly if the names are written with single slashes. -/
theorem relativeTo_follows_components
    (base file : List Char) :
    (base = [] → relativeTo base file = file) ∧
      (¬components base <+: components file → relativeTo base file = file) ∧
      (base ≠ [] → components file = components base →
        (∀ front name, components base = front ++ [.normal name] →
          relativeTo base file = name) ∧
        ((∀ front name, components base ≠ front ++ [.normal name]) →
          relativeTo base file = file)) ∧
      (base ≠ [] → ∀ names, names ≠ [] →
        components file = components base ++ names.map .normal →
          (relativeTo base file = forwardSlashes (joinWith '/' names) ↔
            EndsSingly names file)) := by
  refine ⟨?_, relativeTo_of_not_prefix, ?_, ?_⟩
  · intro hbase
    rw [relativeTo, if_pos hbase]
  · intro hbase h
    rw [relativeTo_of_components_eq hbase h, fileName?, h]
    constructor
    · intro front name hlast
      simp [hlast]
    · intro hnone
      split
      · next name hname =>
          obtain ⟨front, hfront⟩ := List.getLast?_eq_some_iff.mp hname
          exact absurd hfront (hnone front name)
      · rfl
  · intro hbase names hnames h
    have hrest : names.map Component.normal ≠ [] := mt List.map_eq_nil_iff.mp hnames
    rw [relativeTo_of_components_append hbase hrest h]
    constructor
    · exact endsSingly_of_textAfter hbase hnames h
    · intro hsingly
      rw [textAfter_of_endsSingly hbase hnames h hsingly]

/-- Slashes and dots around the names do not show, a base that is only a textual beginning
of the path is no base of the file, and a base is named by its last component. -/
theorem relativeTo_of_redundant_paths :
    (EndsSingly ["src".toList, "a\\b.py".toList] "//repo/./src/a\\b.py/.".toList ∧
      relativeTo "/repo/.//".toList "//repo/./src/a\\b.py/.".toList = "src/a/b.py".toList) ∧
      (¬components "/repo".toList <+: components "/repo2/a.py".toList ∧
        relativeTo "/repo".toList "/repo2/a.py".toList = "/repo2/a.py".toList) ∧
      (components "repo//a.py/".toList = components "repo/a.py".toList ∧
        relativeTo "repo/a.py".toList "repo//a.py/".toList = "a.py".toList) ∧
      components "./../.".toList = components "./..".toList ∧
        relativeTo "./..".toList "./../.".toList = "./../.".toList := by
  have hsingly :
      EndsSingly ["src".toList, "a\\b.py".toList] "//repo/./src/a\\b.py/.".toList :=
    ⟨[[], [], "repo".toList, ['.']], [['.']], by decide +kernel, by decide +kernel⟩
  have houtside : ¬components "/repo".toList <+: components "/repo2/a.py".toList := by
    decide +kernel
  have hself : components "repo//a.py/".toList = components "repo/a.py".toList := by
    decide +kernel
  have hparent : components "./../.".toList = components "./..".toList := by
    decide +kernel
  refine ⟨⟨hsingly, ?_⟩, ⟨houtside, ?_⟩, ⟨hself, ?_⟩, hparent, ?_⟩
  · have hbelow := (relativeTo_follows_components "/repo/.//".toList
      "//repo/./src/a\\b.py/.".toList).2.2.2 (by decide +kernel)
        ["src".toList, "a\\b.py".toList] (by decide +kernel) (by decide +kernel)
    exact (hbelow.mpr hsingly).trans (by decide +kernel)
  · exact (relativeTo_follows_components _ _).2.1 houtside
  · have hlast := ((relativeTo_follows_components "repo/a.py".toList
      "repo//a.py/".toList).2.2.1 (by decide +kernel) hself).1
    exact hlast [.normal "repo".toList] "a.py".toList (by decide +kernel)
  · refine ((relativeTo_follows_components _ _).2.2.1 (by decide +kernel) hparent).2 ?_
    intro front name hname
    have hlast : (components "./..".toList).getLast? = some .parent := by
      decide +kernel
    rw [hname, List.getLast?_append_of_ne_nil _ (List.cons_ne_nil _ _)] at hlast
    simp at hlast

end HandlerLint.Path
