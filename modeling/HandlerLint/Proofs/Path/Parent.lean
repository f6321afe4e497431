import HandlerLint.Proofs.Path.Relative

/-!
# The parent of a path

The parent of a path is its text without the last component.  The segments of the path are
some that the parent stands for, the last one that stands for a component, and some that
stand for nothing.  The parent opens as the path does and ends in a component, if it has one
after its opening.  Where nothing but a leading `.` is left to take away, the parent is
empty.
-/

namespace HandlerLint.Path

open HandlerLint.Text

variable {path parent : List Char} {segments : List (List Char)}

/-- A path ends in a component, or it has none after its opening. -/
def IsTrimmed (path : List Char) : Prop :=
  (∀ segment ∈ splitOn '/' path, isVoid segment = true) ∨
    ∃ front last, splitOn '/' path = front ++ [last] ∧ isVoid last = false

/-! ## Openings and segments -/

theorem splitOn_joinWith
    (hne : segments ≠ []) (hslash : ∀ segment ∈ segments, '/' ∉ segment) :
    splitOn '/' (joinWith '/' segments) = segments := by
  induction segments with
  | nil => exact absurd rfl hne
  | cons segment segments ih =>
      rw [List.forall_mem_cons] at hslash
      cases segments with
      | nil => exact splitOn_of_not_mem hslash.1
      | cons next rest =>
          have hrest := ih (List.cons_ne_nil _ _) hslash.2
          rw [joinWith, splitOn_append_slash, splitOn_of_not_mem hslash.1, hrest]
          · rfl
          · simp

/-- Before the segments that a path is put together from there are only some that stand for
nothing. -/
theorem exists_splitOn_render
    (opening : Opening) (hslash : ∀ segment ∈ segments, '/' ∉ segment) :
    ∃ lead, splitOn '/' (render opening segments) = lead ++ segments ∧
      ∀ segment ∈ lead, isVoid segment = true := by
  have hempty : isVoid [] = true := by decide
  have hdot : isVoid ['.'] = true := by decide
  cases segments with
  | nil =>
      cases opening with
      | root => exact ⟨[[], []], rfl, by simp [hempty]⟩
      | current => exact ⟨[['.']], rfl, by simp [hdot]⟩
      | plain => exact ⟨[[]], rfl, by simp [hempty]⟩
  | cons segment segments =>
      have hjoin := splitOn_joinWith (List.cons_ne_nil segment segments) hslash
      cases opening with
      | root =>
          refine ⟨[[]], ?_, by simp [hempty]⟩
          rw [render, splitOn_cons, if_pos rfl, hjoin]
          rfl
      | current =>
          refine ⟨[['.']], ?_, by simp [hdot]⟩
          have hsplit := splitOn_append_slash ['.'] (joinWith '/' (segment :: segments))
          rw [hjoin] at hsplit
          rw [render]
          · exact hsplit
          · simp
      | plain => exact ⟨[], hjoin, by simp⟩

/-- A path is absolute if nothing stands before its first slash. -/
theorem head?_eq_slash_iff
    (hne : path ≠ []) :
    path.head? = some '/' ↔ (splitOn '/' path).head? = some [] := by
  obtain ⟨c, text, rfl⟩ := List.exists_cons_of_ne_nil hne
  rw [splitOn_cons, List.head?_cons, Option.some_inj]
  split
  · next hslash => simp [hslash]
  · next hother => cases splitOn '/' text <;> simp [prependTo, hother]

theorem exists_append_dropTrailingVoid
    (segments : List (List Char)) :
    ∃ trail, segments = dropTrailingVoid segments ++ trail ∧
      ∀ segment ∈ trail, isVoid segment = true :=
  ⟨segments.rtakeWhile isVoid, List.rdropWhile_append_rtakeWhile.symm,
    fun _ => List.mem_rtakeWhile_imp⟩

theorem dropTrailingVoid_eq_nil_or
    (segments : List (List Char)) :
    dropTrailingVoid segments = [] ∨
      ∃ front last, dropTrailingVoid segments = front ++ [last] ∧ isVoid last = false := by
  rcases List.eq_nil_or_concat (dropTrailingVoid segments) with hnil | ⟨front, last, hlast⟩
  · exact .inl hnil
  · rw [List.concat_eq_append] at hlast
    have hkept := List.rdropWhile_last_not isVoid segments
      (show dropTrailingVoid segments ≠ [] by simp [hlast])
    have hend : (dropTrailingVoid segments).getLast (by simp [hlast]) = last := by
      simp [hlast]
    exact .inr ⟨front, last, hlast, Bool.eq_false_iff.mpr (hend ▸ hkept)⟩

/-- The first segments of a path are those of its opening, and the opening tells whether the
path is absolute. -/
theorem exists_splitOn_eq_parse
    (hne : path ≠ []) :
    ∃ lead, splitOn '/' path = lead ++ (parse path).2 ∧
      (∀ segment ∈ lead, isVoid segment = true) ∧
      (path.head? = some '/' ↔ (parse path).1 = .root) ∧
      ((parse path).1 = .plain → (parse path).2.head? ≠ some []) := by
  rw [head?_eq_slash_iff hne, parse_eq_opened hne]
  obtain ⟨first, rest, hsplit⟩ := List.exists_cons_of_ne_nil (splitOn_ne_nil '/' path)
  rw [hsplit, opened]
  split
  · next hempty =>
      have hvoid : ∀ segment ∈ [first], isVoid segment = true := by
        simp [hempty, isVoid, segmentComponent?]
      exact ⟨[first], rfl, hvoid, by simp [hempty], by simp⟩
  · next hfirst =>
      split
      · next hdot =>
          have hvoid : ∀ segment ∈ [first], isVoid segment = true := by
            simp [hdot, isVoid, segmentComponent?]
          exact ⟨[first], rfl, hvoid, by simp [hfirst], by simp⟩
      · exact ⟨[], rfl, by simp, by simp [hfirst], by simp [hfirst]⟩

theorem head?_render_eq_slash_iff
    {opening : Opening} (hslash : ∀ segment ∈ segments, '/' ∉ segment)
    (hplain : opening = .plain → segments.head? ≠ some []) :
    (render opening segments).head? = some '/' ↔ opening = .root := by
  cases opening with
  | root => simp [render]
  | current => cases segments <;> simp [render]
  | plain =>
      simp only [reduceCtorEq, iff_false]
      cases segments with
      | nil => simp [render, joinWith]
      | cons segment segments =>
          have hjoin := splitOn_joinWith (List.cons_ne_nil segment segments) hslash
          intro hhead
          have hne : render .plain (segment :: segments) ≠ [] := by
            rintro hnil
            rw [hnil] at hhead
            cases hhead
          rw [head?_eq_slash_iff hne, render, hjoin] at hhead
          exact hplain rfl hhead

/-! ## Parents -/

/-- A parent comes about in one of two ways: the last component goes, or a `.` that stands
alone. -/
theorem parent?_eq_some
    (h : parent? path = some parent) :
    (parent = [] ∧ (parse path).1 = .current ∧ dropTrailingVoid (parse path).2 = []) ∨
      ∃ front last, dropTrailingVoid (parse path).2 = front ++ [last] ∧
        isVoid last = false ∧ parent = render (parse path).1 (dropTrailingVoid front) := by
  unfold parent? at h
  simp only at h
  split at h
  · next last rest hreverse =>
      have hlast : dropTrailingVoid (parse path).2 = rest.reverse ++ [last] := by
        rw [← List.reverse_reverse (dropTrailingVoid (parse path).2), hreverse,
          List.reverse_cons]
      refine .inr ⟨rest.reverse, last, hlast, ?_, (Option.some.inj h).symm⟩
      rcases dropTrailingVoid_eq_nil_or (parse path).2 with hnil | ⟨front, final, hfinal, hkept⟩
      · simp [hlast] at hnil
      · rw [hlast] at hfinal
        rw [List.singleton_injective (List.append_inj' hfinal rfl).2]
        exact hkept
  · next hreverse =>
      split at h
      · next hopening =>
          exact .inl ⟨(Option.some.inj h).symm, hopening, List.reverse_eq_nil_iff.mp hreverse⟩
      · cases h
      · cases h

theorem ne_nil_of_parent?
    (h : parent? path = some parent) :
    path ≠ [] := by
  rintro rfl
  have hnone : parent? [] = none := by decide
  rw [hnone] at h
  cases h

theorem not_mem_slash_of_mem_parse
    (hne : path ≠ []) {segment : List Char} (h : segment ∈ (parse path).2) :
    '/' ∉ segment := by
  obtain ⟨lead, hsplit, -⟩ := exists_splitOn_eq_parse hne
  have hmem : segment ∈ splitOn '/' path := by
    rw [hsplit]
    exact List.mem_append_right _ h
  exact not_mem_of_mem_splitOn hmem

theorem mem_of_mem_dropTrailingVoid
    {segment : List Char} (h : segment ∈ dropTrailingVoid segments) :
    segment ∈ segments := by
  obtain ⟨trail, htrail, -⟩ := exists_append_dropTrailingVoid segments
  rw [htrail]
  exact List.mem_append_left _ h

theorem filter_of_isVoid
    (h : ∀ segment ∈ segments, isVoid segment = true) :
    segments.filter (! isVoid ·) = [] := by
  simpa using h

/-- A parent ends in a component, or it has none after its opening. -/
theorem isTrimmed_of_parent?
    (h : parent? path = some parent) :
    IsTrimmed parent := by
  have hne := ne_nil_of_parent? h
  rcases parent?_eq_some h with ⟨rfl, -⟩ | ⟨front, last, hlast, -, rfl⟩
  · exact .inl (by decide)
  · have hslash : ∀ segment ∈ dropTrailingVoid front, '/' ∉ segment := by
      intro segment hsegment
      apply not_mem_slash_of_mem_parse hne
      apply mem_of_mem_dropTrailingVoid
      rw [hlast]
      exact List.mem_append_left _ (mem_of_mem_dropTrailingVoid hsegment)
    obtain ⟨lead, hsplit, hlead⟩ := exists_splitOn_render (parse path).1 hslash
    rw [IsTrimmed, hsplit]
    rcases dropTrailingVoid_eq_nil_or front with hnil | ⟨before, final, hfinal, hkept⟩
    · rw [hnil, List.append_nil]
      exact .inl hlead
    · exact .inr ⟨lead ++ before, final, by rw [hfinal, List.append_assoc], hkept⟩

/-- The segments of a path around the last one that stands for a component. -/
theorem exists_splitOn_of_parent?
    (h : parent? path = some parent) :
    (parent = [] ∧ path.head? ≠ some '/' ∧
        ∀ segment ∈ splitOn '/' path, isVoid segment = true) ∨
      ((parent.head? = some '/' ↔ path.head? = some '/') ∧
        ∃ front last trail, splitOn '/' path = front ++ last :: trail ∧ isVoid last = false ∧
          (∀ segment ∈ trail, isVoid segment = true) ∧
          front.filter (! isVoid ·) = (splitOn '/' parent).filter (! isVoid ·)) := by
  have hne := ne_nil_of_parent? h
  obtain ⟨lead, hsplit, hlead, hroot, hplain⟩ := exists_splitOn_eq_parse hne
  obtain ⟨trail, htrail, hvoid⟩ := exists_append_dropTrailingVoid (parse path).2
  rcases parent?_eq_some h with ⟨rfl, hopening, hnil⟩ | ⟨front, last, hlast, hkept, rfl⟩
  · refine .inl ⟨rfl, ?_, ?_⟩
    · rw [Ne, hroot, hopening]
      exact Opening.noConfusion
    · rw [hnil, List.nil_append] at htrail
      rw [hsplit, htrail]
      exact List.forall_mem_append.mpr ⟨hlead, hvoid⟩
  · rw [hlast, List.append_assoc, List.singleton_append] at htrail
    obtain ⟨more, hmore, hmoreVoid⟩ := exists_append_dropTrailingVoid front
    have hslash : ∀ segment ∈ dropTrailingVoid front, '/' ∉ segment := by
      intro segment hsegment
      apply not_mem_slash_of_mem_parse hne
      rw [htrail]
      exact List.mem_append_left _ (mem_of_mem_dropTrailingVoid hsegment)
    -- The parent opens with the same segment as the path, if with any.
    have hfirst : (parse path).1 = .plain → (dropTrailingVoid front).head? ≠ some [] := by
      intro hopening hhead
      apply hplain hopening
      rw [htrail, hmore, List.append_assoc, List.head?_append, hhead]
      rfl
    refine .inr ⟨?_, lead ++ front, last, trail, ?_, hkept, hvoid, ?_⟩
    · rw [head?_render_eq_slash_iff hslash hfirst, hroot]
    · rw [hsplit, htrail, List.append_assoc]
    · obtain ⟨begin_, hrender, hbegin⟩ := exists_splitOn_render (parse path).1 hslash
      calc
        (lead ++ front).filter (! isVoid ·) = front.filter (! isVoid ·) := by
          rw [List.filter_append, filter_of_isVoid hlead, List.nil_append]
        _ = (dropTrailingVoid front).filter (! isVoid ·) := by
          conv_lhs => rw [hmore]
          rw [List.filter_append, filter_of_isVoid hmoreVoid, List.append_nil]
        _ = (splitOn '/' (render (parse path).1 (dropTrailingVoid front))).filter
              (! isVoid ·) := by
          rw [hrender, List.filter_append, filter_of_isVoid hbegin, List.nil_append]

/-- A path that is a `.` by its components has nothing but segments that stand for
nothing. -/
theorem isVoid_of_components_eq_current
    (h : components path = [.current]) :
    ∀ segment ∈ splitOn '/' path, isVoid segment = true := by
  have hne : path ≠ [] := by
    rintro rfl
    exact absurd h (by decide)
  obtain ⟨lead, hsplit, hlead, -⟩ := exists_splitOn_eq_parse hne
  have hnone : (parse path).2.filterMap segmentComponent? = [] := by
    rw [components] at h
    cases hopening : (parse path).1 with
    | root => simp [hopening, Opening.components] at h
    | current => simpa [hopening, Opening.components] using h
    | plain =>
        -- No segment stands for a `.` component.
        rw [hopening, Opening.components, List.nil_append] at h
        have hmem : Component.current ∈ (parse path).2.filterMap segmentComponent? := by
          rw [h]
          exact List.mem_singleton.mpr rfl
        obtain ⟨segment, -, hsegment⟩ := List.mem_filterMap.mp hmem
        rw [segmentComponent?] at hsegment
        split at hsegment
        · cases hsegment
        · split at hsegment <;> cases hsegment
  rw [hsplit]
  refine List.forall_mem_append.mpr ⟨hlead, fun segment hsegment => ?_⟩
  rw [isVoid, List.filterMap_eq_nil_iff.mp hnone segment hsegment]
  rfl

end HandlerLint.Path
