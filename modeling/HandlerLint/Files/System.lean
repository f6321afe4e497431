import HandlerLint.Files.Error

/-!
# File systems

A file system is a finite table of entries, each at a location: the names that lead to
it from the root.  Every entry stands in a directory, no location is taken twice, and a
name is a text that can stand between two slashes and means nothing else there.  The root
itself is a directory and has no row in the table.

A name is Unicode text.  Names of other bytes, which some systems have, are left out.
-/

namespace HandlerLint.Files

/-- The names that lead from the root to an entry. -/
abbrev Location : Type :=
  List String

/-- Whether a text is the name of an entry: not empty, without a slash, and neither of the
two texts that stand for a directory itself and for the one above it. -/
def isName (text : String) : Bool :=
  text != "" && text != "." && text != ".." && !text.toList.contains '/'

/-- What stands at a location. -/
inductive Entry where
  | file (bytes : List UInt8)
  | directory
  /-- A symbolic link, by the text of its target. -/
  | link (target : String)
deriving DecidableEq, Repr

/-- What a table of entries has at a location. -/
def entryAt? (entries : List (Location × Entry)) (location : Location) : Option Entry :=
  if location = [] then some .directory
  else (entries.find? (·.1 == location)).map (·.2)

/-- A file system. -/
structure FileSystem where
  entries : List (Location × Entry)
  /-- No location is taken twice. -/
  distinct : (entries.map (·.1)).Nodup
  /-- Every entry stands in a directory. -/
  grounded : ∀ row ∈ entries, entryAt? entries row.1.dropLast = some .directory
  /-- Every location is made of names. -/
  named : ∀ row ∈ entries, ∀ name ∈ row.1, isName name = true

namespace FileSystem

/-- The file system with nothing below the root. -/
def empty : FileSystem :=
  { entries := [], distinct := .nil, grounded := by simp, named := by simp }

/-- What stands at a location. -/
def get? (files : FileSystem) (location : Location) : Option Entry :=
  entryAt? files.entries location

/-- The names in a directory, in order. -/
def names (files : FileSystem) (location : Location) : List String :=
  let inside := files.entries.filter fun row => row.1 != [] && row.1.dropLast == location
  (inside.filterMap (·.1.getLast?)).mergeSort (· ≤ ·)

/-- The locations of all directories. -/
def directories (files : FileSystem) : List Location :=
  [] :: (files.entries.filter (·.2 == .directory)).map (·.1)

/-- The length of the longest location. -/
def depth (files : FileSystem) : Nat :=
  (files.entries.map (·.1.length)).foldr max 0

theorem entryAt?_append_of_some
    {entries : List (Location × Entry)} {location : Location} {entry : Entry}
    (h : entryAt? entries location = some entry)
    (more : List (Location × Entry)) :
    entryAt? (entries ++ more) location = some entry := by
  unfold entryAt? at h ⊢
  split
  · next hroot => simpa [hroot] using h
  · next hroot =>
      simp only [hroot, if_false] at h
      rw [List.find?_append]
      cases hf : entries.find? (·.1 == location) with
      | none => simp [hf] at h
      | some row => simpa [hf] using h

theorem not_mem_of_entryAt?_eq_none
    {entries : List (Location × Entry)} {location : Location}
    (h : entryAt? entries location = none) :
    location ∉ entries.map (·.1) := by
  unfold entryAt? at h
  split at h
  · cases h
  · simp only [Option.map_eq_none_iff, List.find?_eq_none, beq_iff_eq] at h
    intro hmem
    obtain ⟨row, hrow, heq⟩ := List.mem_map.1 hmem
    exact h row hrow heq

/-- Put a new entry into a directory.  Nothing changes where the location is taken, there
is no such directory, or the location is not made of names. -/
def insert (files : FileSystem) (location : Location) (entry : Entry) : FileSystem :=
  if h : files.get? location = none ∧ files.get? location.dropLast = some .directory ∧
      location.all isName then
    { entries := files.entries ++ [(location, entry)]
      distinct := by
        rw [List.map_append, List.nodup_append]
        refine ⟨files.distinct, by simp, ?_⟩
        intro a ha b hb hab
        obtain rfl : b = location := by simpa using hb
        exact not_mem_of_entryAt?_eq_none h.1 (hab ▸ ha)
      grounded := by
        intro row hrow
        rcases List.mem_append.1 hrow with hold | hnew
        · exact entryAt?_append_of_some (files.grounded row hold) _
        · obtain rfl : row = (location, entry) := by simpa using hnew
          exact entryAt?_append_of_some h.2.1 _
      named := by
        intro row hrow
        rcases List.mem_append.1 hrow with hold | hnew
        · exact files.named row hold
        · obtain rfl : row = (location, entry) := by simpa using hnew
          exact List.all_eq_true.1 h.2.2 }
  else files

/-- A row of the table with new content for one location. -/
def withContent (location : Location) (bytes : List UInt8) (row : Location × Entry) :
    Location × Entry :=
  match row with
  | (here, .file old) => if here = location then (here, .file bytes) else (here, .file old)
  | row => row

@[simp] theorem withContent_fst
    (location : Location) (bytes : List UInt8) (row : Location × Entry) :
    (withContent location bytes row).1 = row.1 := by
  unfold withContent
  split
  · split <;> rfl
  · rfl

theorem withContent_of_directory
    (location : Location) (bytes : List UInt8) {row : Location × Entry}
    (h : row.2 = .directory) :
    (withContent location bytes row).2 = .directory := by
  unfold withContent
  split
  · cases h
  · exact h

theorem entryAt?_map_withContent_of_directory
    {entries : List (Location × Entry)} {here : Location}
    (location : Location) (bytes : List UInt8)
    (h : entryAt? entries here = some .directory) :
    entryAt? (entries.map (withContent location bytes)) here = some .directory := by
  unfold entryAt? at h ⊢
  split
  · rfl
  · next hroot =>
      simp only [hroot, if_false, Option.map_eq_some_iff] at h
      obtain ⟨row, hfind, hrow⟩ := h
      rw [List.find?_map]
      have hcomp :
          ((fun row : Location × Entry => row.1 == here) ∘ withContent location bytes) =
            fun row => row.1 == here := by
        funext row
        simp
      rw [hcomp, hfind]
      simp [withContent_of_directory location bytes hrow]

/-- Give a file new content.  Nothing changes where no file stands. -/
def overwrite (files : FileSystem) (location : Location) (bytes : List UInt8) : FileSystem :=
  { entries := files.entries.map (withContent location bytes)
    distinct := by
      have : (files.entries.map (withContent location bytes)).map (·.1) =
          files.entries.map (·.1) := by
        simp
      rw [this]
      exact files.distinct
    grounded := by
      intro row hrow
      obtain ⟨old, hold, rfl⟩ := List.mem_map.1 hrow
      rw [withContent_fst]
      exact entryAt?_map_withContent_of_directory location bytes (files.grounded old hold)
    named := by
      intro row hrow
      obtain ⟨old, hold, rfl⟩ := List.mem_map.1 hrow
      rw [withContent_fst]
      exact files.named old hold }

@[simp] theorem get?_root
    (files : FileSystem) :
    files.get? [] = some .directory := by
  simp [get?, entryAt?]

/-- What is there already stays as it is when something is put elsewhere. -/
theorem get?_insert_of_some
    {files : FileSystem} {here : Location} {old : Entry}
    (h : files.get? here = some old)
    (location : Location) (entry : Entry) :
    (files.insert location entry).get? here = some old := by
  unfold insert
  split
  · exact entryAt?_append_of_some h _
  · exact h

theorem mem_of_get?
    {files : FileSystem} {location : Location} {entry : Entry}
    (hne : location ≠ []) (h : files.get? location = some entry) :
    (location, entry) ∈ files.entries := by
  simp only [get?, entryAt?, hne, if_false, Option.map_eq_some_iff] at h
  obtain ⟨row, hfind, rfl⟩ := h
  have hmem := List.mem_of_find?_eq_some hfind
  have hkey := List.find?_some hfind
  obtain rfl : row.1 = location := by simpa using hkey
  exact hmem

theorem length_le_foldr_max
    {lengths : List Nat} {n : Nat} (h : n ∈ lengths) :
    n ≤ lengths.foldr max 0 := by
  induction lengths with
  | nil => cases h
  | cons m rest ih =>
      rcases List.mem_cons.1 h with rfl | hrest
      · exact Nat.le_max_left ..
      · exact Nat.le_trans (ih hrest) (Nat.le_max_right ..)

/-- No location with an entry is longer than the depth. -/
theorem length_le_depth
    {files : FileSystem} {location : Location} {entry : Entry}
    (h : files.get? location = some entry) :
    location.length ≤ files.depth := by
  by_cases hne : location = []
  · simp [hne]
  · apply length_le_foldr_max
    exact List.mem_map.2 ⟨_, mem_of_get? hne h, rfl⟩

end FileSystem

end HandlerLint.Files
