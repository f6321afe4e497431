import Mathlib.Data.List.Nodup
import HandlerLint.Files.System

/-!
# What a file system is determined by

A file system is a table, but nothing of the table matters except which entry stands at
which location.  An entry stands in a directory and has a name.  The names of a directory
come in order, each of them once, so the list of them is known once it is known which
names are there.
-/

namespace HandlerLint.Files.FileSystem

variable {files others : FileSystem}

theorem get?_of_mem
    {location : Location} {entry : Entry}
    (hne : location ≠ []) (h : (location, entry) ∈ files.entries) :
    files.get? location = some entry := by
  obtain ⟨row, hfind⟩ : ∃ row, files.entries.find? (·.1 == location) = some row := by
    rw [← Option.isSome_iff_exists, List.find?_isSome]
    exact ⟨_, h, beq_self_eq_true location⟩
  have hmem := List.mem_of_find?_eq_some hfind
  have hkey : row.1 = location := by simpa using List.find?_some hfind
  -- A location is taken by one row only.
  have hrow : row = (location, entry) :=
    List.inj_on_of_nodup_map files.distinct hmem h hkey
  simp [get?, entryAt?, hne, hfind, hrow]

/-- Away from the root, the table has a row for what stands somewhere. -/
theorem get?_eq_some_iff
    {location : Location} {entry : Entry} (hne : location ≠ []) :
    files.get? location = some entry ↔ (location, entry) ∈ files.entries :=
  ⟨mem_of_get? hne, get?_of_mem hne⟩

/-- An entry stands in a directory. -/
theorem get?_of_get?_snoc
    {location : Location} {name : String} {entry : Entry}
    (h : files.get? (location ++ [name]) = some entry) :
    files.get? location = some .directory := by
  have hrow := files.grounded _ (mem_of_get? (by simp) h)
  rwa [List.dropLast_concat] at hrow

theorem isName_of_get?_snoc
    {location : Location} {name : String} {entry : Entry}
    (h : files.get? (location ++ [name]) = some entry) :
    isName name = true :=
  files.named _ (mem_of_get? (by simp) h) name (by simp)

theorem get?_dropLast
    {location : Location} {entry : Entry}
    (h : files.get? location = some entry) :
    files.get? location.dropLast = some .directory := by
  rcases List.eq_nil_or_concat location with rfl | ⟨place, name, rfl⟩
  · exact files.get?_root
  · rw [List.concat_eq_append] at h ⊢
    rw [List.dropLast_concat]
    exact get?_of_get?_snoc h

/-! ## The names of a directory -/

theorem mem_names
    {location : Location} {name : String} :
    name ∈ files.names location ↔ ∃ entry, files.get? (location ++ [name]) = some entry := by
  have hlast (row : Location × Entry) :
      row.1 ≠ [] ∧ row.1.dropLast = location ∧ row.1.getLast? = some name ↔
        row.1 = location ++ [name] := by
    constructor
    · rintro ⟨-, hplace, hname⟩
      rw [← hplace]
      exact (List.dropLast_append_getLast? name (by simpa using hname)).symm
    · intro h
      simp [h]
  simp only [names, List.mem_mergeSort, List.mem_filterMap, List.mem_filter, bne_iff_ne,
    Bool.and_eq_true, beq_iff_eq, get?_eq_some_iff (List.concat_ne_nil name location)]
  constructor
  · rintro ⟨⟨place, entry⟩, ⟨hrow, hne, hplace⟩, hname⟩
    refine ⟨entry, ?_⟩
    have hlocation := (hlast (place, entry)).mp ⟨hne, hplace, hname⟩
    exact hlocation ▸ hrow
  · rintro ⟨entry, hrow⟩
    obtain ⟨hne, hplace, hname⟩ := (hlast (location ++ [name], entry)).mpr rfl
    exact ⟨_, ⟨hrow, hne, hplace⟩, hname⟩

theorem nodup_names
    (files : FileSystem) (location : Location) :
    (files.names location).Nodup := by
  rw [names, (List.mergeSort_perm _ _).nodup_iff, List.Nodup, List.pairwise_filterMap,
    List.pairwise_filter]
  refine (List.pairwise_map.mp files.distinct).imp ?_
  intro first second hne hfirst hsecond name hname other hother hsame
  -- Two rows of one directory with the same last name would have the same location.
  simp only [bne_iff_ne, Bool.and_eq_true, beq_iff_eq] at hfirst hsecond
  apply hne
  rw [← List.dropLast_append_getLast? name hname, hfirst.2,
    ← List.dropLast_append_getLast? other hother, hsecond.2, hsame]

/-- The names of a directory are in order, and none comes twice. -/
theorem pairwise_names
    (files : FileSystem) (location : Location) :
    (files.names location).Pairwise (· < ·) := by
  have hle : (files.names location).Pairwise
      fun first second => decide (first ≤ second) = true := by
    apply List.pairwise_mergeSort
    · intro first second third hfirst hsecond
      simp only [decide_eq_true_eq] at hfirst hsecond ⊢
      exact String.le_trans hfirst hsecond
    · intro first second
      simpa using String.le_total first second
  refine (hle.and (nodup_names files location)).imp ?_
  rintro first second ⟨hle, hne⟩
  rw [decide_eq_true_eq] at hle
  rw [← String.not_le]
  intro hge
  exact hne (String.le_antisymm hle hge)

/-- Where a directory of one file system has the names that a test keeps of another one,
so has the list of them. -/
theorem names_eq_filter
    {location : Location} (keeps : String → Bool)
    (h : ∀ name, (∃ entry, others.get? (location ++ [name]) = some entry) ↔
      (∃ entry, files.get? (location ++ [name]) = some entry) ∧ keeps name = true) :
    others.names location = (files.names location).filter keeps := by
  have hperm : (others.names location).Perm ((files.names location).filter keeps) := by
    rw [List.perm_ext_iff_of_nodup (nodup_names others location)
      ((nodup_names files location).filter _)]
    intro name
    rw [List.mem_filter, mem_names, mem_names]
    exact h name
  refine hperm.eq_of_pairwise ?_ (pairwise_names others location)
    ((pairwise_names files location).filter _)
  intro first second _ _ hlt hgt
  exact absurd hgt (String.lt_asymm hlt)

end HandlerLint.Files.FileSystem
