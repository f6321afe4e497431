import Mathlib.Data.Prod.Lex
import Mathlib.Data.String.Basic
import HandlerLint.Check.Result

/-!
# The order of a result

A result is sorted at the end of a check: diagnostics by file, line and column, failures
by file.  The sort is stable, so it keeps the entries with one key in the order in which
they came.  A sorted list is therefore known once it is known, key by key, in which order
the entries came; where entries with different keys stood does not matter.

The first part states this for any list that is sorted by a key.  The second part names
the keys of a result.
-/

namespace HandlerLint

/-! ## Stable sorting by a key -/

section ByKey

variable {α κ : Type} [LinearOrder κ] {key : α → κ} {le : α → α → Bool}

/-- A comparison that looks at keys only. -/
def ComparesBy (key : α → κ) (le : α → α → Bool) : Prop :=
  ∀ left right, le left right = true ↔ key left ≤ key right

theorem ComparesBy.trans
    (h : ComparesBy key le) (first second third : α)
    (hfirst : le first second = true) (hsecond : le second third = true) :
    le first third = true := by
  rw [h] at hfirst hsecond ⊢
  exact le_trans hfirst hsecond

theorem ComparesBy.total
    (h : ComparesBy key le) (left right : α) :
    (le left right || le right left) = true := by
  rw [Bool.or_eq_true, h, h]
  exact le_total _ _

/-- What has been sorted is in order. -/
theorem pairwise_key_mergeSort
    (h : ComparesBy key le) (entries : List α) :
    (entries.mergeSort le).Pairwise (fun left right => key left ≤ key right) := by
  have hsorted := List.pairwise_mergeSort h.trans h.total entries
  exact hsorted.imp fun hle => (h _ _).mp hle

/-- Sorting keeps the entries with one key in their order. -/
theorem filter_key_mergeSort
    (h : ComparesBy key le) (entries : List α) (k : κ) :
    (entries.mergeSort le).filter (fun entry => key entry = k) =
      entries.filter (fun entry => key entry = k) := by
  have hlevel :
      (entries.filter (fun entry => key entry = k)).Pairwise
        (fun left right => le left right = true) := by
    apply List.pairwise_of_forall_mem_list
    intro left hleft right hright
    have hleft := of_decide_eq_true (List.mem_filter.mp hleft).2
    have hright := of_decide_eq_true (List.mem_filter.mp hright).2
    rw [h, hleft, hright]
  have hsublist :=
    (List.sublist_mergeSort h.trans h.total hlevel List.filter_sublist).filter
      (fun entry => decide (key entry = k))
  rw [List.filter_filter] at hsublist
  simp only [Bool.and_self] at hsublist
  have hlength := ((List.mergeSort_perm entries le).filter fun entry =>
    decide (key entry = k)).length_eq
  exact (hsublist.eq_of_length hlength.symm).symm

theorem mem_iff_of_filter_key_eq
    {left right : List α}
    (h : ∀ k, left.filter (fun entry => key entry = k) =
      right.filter (fun entry => key entry = k)) (entry : α) :
    entry ∈ left ↔ entry ∈ right := by
  have hentry := congrArg (fun entries => entry ∈ entries) (h (key entry))
  simpa using hentry

/-- Two lists in order are equal if they have the same entries with each key, in the same
order. -/
theorem eq_of_filter_key_eq
    {left right : List α}
    (hleft : left.Pairwise (fun first second => key first ≤ key second))
    (hright : right.Pairwise (fun first second => key first ≤ key second))
    (h : ∀ k, left.filter (fun entry => key entry = k) =
      right.filter (fun entry => key entry = k)) :
    left = right := by
  induction left generalizing right with
  | nil =>
      symm
      exact List.eq_nil_iff_forall_not_mem.mpr fun entry hentry =>
        List.not_mem_nil ((mem_iff_of_filter_key_eq h entry).mpr hentry)
  | cons first rest ih =>
      have hmem := mem_iff_of_filter_key_eq h
      cases right with
      | nil => exact absurd ((hmem first).mp List.mem_cons_self) List.not_mem_nil
      | cons other others =>
          rw [List.pairwise_cons] at hleft hright
          -- Each of the two heads has the least key of all entries.
          have hle : key first ≤ key other := by
            rcases List.mem_cons.mp ((hmem other).mpr List.mem_cons_self) with heq | hother
            · rw [heq]
            · exact hleft.1 other hother
          have hge : key other ≤ key first := by
            rcases List.mem_cons.mp ((hmem first).mp List.mem_cons_self) with heq | hfirst
            · rw [heq]
            · exact hright.1 first hfirst
          have hkey : key other = key first := le_antisymm hge hle
          have hheads := h (key first)
          simp only [List.filter_cons, hkey, decide_true, if_true] at hheads
          obtain ⟨hhead, _⟩ := List.cons.inj hheads
          subst hhead
          congr 1
          apply ih hleft.2 hright.2
          intro k
          have hk := h k
          rw [List.filter_cons, List.filter_cons] at hk
          split at hk
          · exact (List.cons.inj hk).2
          · exact hk

/-- Lists that have the same entries with each key, in the same order, are sorted alike. -/
theorem mergeSort_eq_of_filter_key_eq
    (hle : ComparesBy key le) {left right : List α}
    (h : ∀ k, left.filter (fun entry => key entry = k) =
      right.filter (fun entry => key entry = k)) :
    left.mergeSort le = right.mergeSort le := by
  apply eq_of_filter_key_eq (pairwise_key_mergeSort hle left)
    (pairwise_key_mergeSort hle right)
  intro k
  rw [filter_key_mergeSort hle, filter_key_mergeSort hle, h k]

/-- Entries may be picked before or after sorting. -/
theorem filter_mergeSort
    (h : ComparesBy key le) (entries : List α) (p : α → Bool) :
    (entries.mergeSort le).filter p = (entries.filter p).mergeSort le := by
  apply eq_of_filter_key_eq
    ((pairwise_key_mergeSort h entries).sublist List.filter_sublist)
    (pairwise_key_mergeSort h (entries.filter p))
  intro k
  rw [filter_key_mergeSort h, List.filter_comm, filter_key_mergeSort h, List.filter_comm]

end ByKey

/-! ## The keys of a result -/

/-- What diagnostics are sorted by: the file, then the line, then the column. -/
def Diagnostic.sortKey (diagnostic : Diagnostic) : String ×ₗ ℕ ×ₗ ℕ :=
  toLex (diagnostic.file, toLex (diagnostic.line, diagnostic.column))

/-- What suppressed diagnostics are sorted by. -/
def SuppressedDiagnostic.sortKey (entry : SuppressedDiagnostic) : String ×ₗ ℕ ×ₗ ℕ :=
  entry.diagnostic.sortKey

theorem comparesBy_diagnostic : ComparesBy Diagnostic.sortKey Diagnostic.le := by
  intro left right
  unfold Diagnostic.le Diagnostic.sortKey
  rw [Prod.Lex.toLex_le_toLex, Prod.Lex.toLex_le_toLex]
  by_cases hfile : left.file = right.file
  · by_cases hline : left.line = right.line
    · simp [hfile, hline]
    · simp [hfile, hline]
  · simp [hfile]

theorem comparesBy_suppressed :
    ComparesBy SuppressedDiagnostic.sortKey CheckResult.suppressedLe :=
  fun left right => comparesBy_diagnostic left.diagnostic right.diagnostic

theorem comparesBy_failure : ComparesBy FileFailure.file CheckResult.failureLe :=
  fun _ _ => decide_eq_true_iff

end HandlerLint
