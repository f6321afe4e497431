import Mathlib.Data.List.Pairwise
import HandlerLint.Proofs.Search.Tour

/-!
# Nothing is passed twice

Addresses are apart when neither leads through the other.  Below two addresses that are
apart there is no common address, so a search that goes on at addresses that are apart
never comes to the same place twice.

The stages of a try node are apart once the body of the try node is not one of its
clauses as well.  The parser promises that, and it promises that there is no second
`else` or `finally` clause.
-/

namespace HandlerLint.Search

open Source
open Lowering

/-! ## Addresses that are apart -/

/-- Neither address leads through the other one. -/
def Apart (left right : List Nat) : Prop :=
  ¬ left <+: right ∧ ¬ right <+: left

theorem Apart.symm
    {left right : List Nat} (h : Apart left right) :
    Apart right left :=
  ⟨h.2, h.1⟩

theorem Apart.ne
    {left right : List Nat} (h : Apart left right) :
    left ≠ right := by
  rintro rfl
  exact h.1 (List.prefix_refl _)

/-- Below addresses that are apart there are only addresses that are apart. -/
theorem Apart.of_below
    {left right first second : List Nat} (h : Apart left right)
    (hfirst : left <+: first) (hsecond : right <+: second) :
    Apart first second := by
  have hcommon : ∀ {address}, left <+: address → ¬ right <+: address := by
    intro address hleft hright
    rcases List.prefix_or_prefix_of_prefix hleft hright with hunder | hunder
    · exact h.1 hunder
    · exact h.2 hunder
  constructor
  · intro hunder
    exact hcommon (hfirst.trans hunder) hsecond
  · intro hunder
    exact hcommon hfirst (hsecond.trans hunder)

theorem apart_of_children
    {address left right : List Nat}
    (hleft : ∃ index, left = address ++ [index])
    (hright : ∃ index, right = address ++ [index])
    (hne : left ≠ right) :
    Apart left right := by
  obtain ⟨index, rfl⟩ := hleft
  obtain ⟨other, rfl⟩ := hright
  have hlength : (address ++ [index]).length = (address ++ [other]).length := by simp
  constructor
  · intro hunder
    exact hne (hunder.eq_of_length hlength)
  · intro hunder
    exact hne (hunder.eq_of_length hlength.symm).symm

/-- No address leads through one of its own children. -/
theorem child_not_above
    (address : List Nat) (index : Nat) :
    ¬ address ++ [index] <+: address := by
  intro hunder
  have hlength := hunder.length_le
  rw [List.length_append, List.length_singleton] at hlength
  omega

theorem ne_of_below_child
    {address further : List Nat} {index : Nat} (h : address ++ [index] <+: further) :
    address ≠ further := by
  rintro rfl
  exact child_not_above _ _ h

/-! ## Sites that are apart -/

theorem exists_address_eq_of_mem_sitesBelow
    {language : Language} {address : List Nat} {node : Node} {site : Site}
    (h : site ∈ sitesBelow language address node) :
    ∃ index, site.address = address ++ [index] := by
  obtain ⟨index, child, _, rfl, _⟩ := mem_sitesBelow_iff.mp h
  exact ⟨index, rfl⟩

/-- The address of a child tells which child it is. -/
theorem eq_of_mem_below_of_address_eq
    {language : Language} {site left right : Site}
    (hleft : left ∈ site.below language) (hright : right ∈ site.below language)
    (haddress : left.address = right.address) :
    left = right := by
  obtain ⟨index, child, hchild, rfl, _⟩ := mem_sitesBelow_iff.mp hleft
  obtain ⟨other, otherChild, hother, rfl, _⟩ := mem_sitesBelow_iff.mp hright
  have hindex : index = other := by simpa [childSite] using haddress
  subst hindex
  rw [hchild] at hother
  cases hother
  rfl

/-- Sites of which no two are one below the other. -/
def ApartSites (sites : List Site) : Prop :=
  sites.Pairwise fun left right => Apart left.address right.address

theorem apartSites_sitesBelow
    (language : Language) (address : List Nat) (node : Node) :
    ApartSites (sitesBelow language address node) := by
  have hindices : (node.children.zipIdx.map Prod.snd).Nodup := by
    rw [List.zipIdx_map_snd]
    exact List.nodup_range'
  have hentries : node.children.zipIdx.Pairwise fun left right => left.2 ≠ right.2 :=
    List.pairwise_map.mp hindices
  unfold ApartSites sitesBelow
  apply List.Pairwise.filter
  rw [List.pairwise_map]
  refine hentries.imp ?_
  intro left right hne
  refine apart_of_children ⟨left.2, rfl⟩ ⟨right.2, rfl⟩ ?_
  simpa [childSite] using hne

theorem apartSites_within
    (language : Language) (site : Site) (index : Option Nat) :
    ApartSites (site.within language index) := by
  unfold Site.within
  cases index with
  | none => exact .nil
  | some index =>
      rw [Option.elim_some]
      cases site.node.children[index]? with
      | none => exact .nil
      | some child => exact apartSites_sitesBelow language _ child

theorem apartSites_openedSites
    (language : Language) (site : Site) :
    ApartSites (openedSites language site) := by
  rcases openedSites_cases language site with hnone | hbelow | ⟨expression, _, hinside⟩
  · rw [hnone]
    exact .nil
  · rw [hbelow]
    exact apartSites_sitesBelow ..
  · rw [hinside]
    exact apartSites_sitesBelow ..

theorem apartSites_of_mem_stages
    {language : Language} {site : Site} {stage : Stage}
    (h : stage ∈ stages language site) :
    ApartSites stage.sites := by
  unfold stages at h
  split at h
  · rcases mem_tryStages_iff.mp h with rfl | rfl | ⟨clause, _, rfl⟩
    · exact (apartSites_sitesBelow ..).filter _
    · exact apartSites_within ..
    · exact apartSites_within ..
  · rw [List.mem_singleton] at h
    subst h
    exact apartSites_openedSites language site

/-! ## Where a stage leads -/

/-- A stage that leads through some addresses only. -/
structure Stage.Through (stage : Stage) (branches : List Nat → Prop) : Prop where
  clause : ∀ handler, stage.clause = some handler → branches handler.address
  sites : ∀ next ∈ stage.sites, ∃ branch, branches branch ∧ branch <+: next.address

theorem through_openedSites
    (language : Language) (site : Site) :
    Stage.Through { clause := none, sites := openedSites language site }
      fun branch => ∃ child ∈ site.below language, branch = child.address := by
  refine ⟨nofun, ?_⟩
  intro next hnext
  simp only at hnext
  rcases openedSites_cases language site with hnone | hbelow | ⟨expression, hmem, hinside⟩
  · rw [hnone] at hnext
    cases hnext
  · rw [hbelow] at hnext
    exact ⟨next.address, ⟨next, hnext, rfl⟩, List.prefix_refl _⟩
  · rw [hinside] at hnext
    obtain ⟨index, haddress⟩ := exists_address_eq_of_mem_sitesBelow hnext
    refine ⟨expression.address, ⟨expression, hmem, rfl⟩, ?_⟩
    rw [haddress]
    exact List.prefix_append _ _

theorem through_leading
    (language : Language) (site : Site) :
    Stage.Through { clause := none, sites := site.leading language }
      fun branch => ∃ child ∈ site.leading language, branch = child.address := by
  refine ⟨nofun, ?_⟩
  intro next hnext
  exact ⟨next.address, ⟨next, hnext, rfl⟩, List.prefix_refl _⟩

theorem exists_address_eq_of_mem_within
    {language : Language} {site next : Site} {index : Option Nat}
    (h : next ∈ site.within language index) :
    ∃ position further,
      index = some position ∧ next.address = site.address ++ [position] ++ [further] := by
  obtain ⟨position, child, hindex, _, hnext⟩ := mem_within_iff.mp h
  obtain ⟨further, haddress⟩ := exists_address_eq_of_mem_sitesBelow hnext
  exact ⟨position, further, hindex, haddress⟩

theorem through_body
    (language : Language) (site : Site) :
    Stage.Through
      { clause := none, sites := site.within language (bodyIndex? language site.node) }
      fun branch =>
        ∃ index, bodyIndex? language site.node = some index ∧
          branch = site.address ++ [index] := by
  refine ⟨nofun, ?_⟩
  intro next hnext
  obtain ⟨position, further, hindex, haddress⟩ := exists_address_eq_of_mem_within hnext
  refine ⟨site.address ++ [position], ⟨position, hindex, rfl⟩, ?_⟩
  rw [haddress]
  exact List.prefix_append _ _

theorem through_clauseStage
    (language : Language) (clause : Site) :
    (clauseStage language clause).Through (· = clause.address) := by
  constructor
  · intro handler hhandler
    simp only [clauseStage] at hhandler
    split at hhandler
    · cases hhandler
      rfl
    · cases hhandler
  · intro next hnext
    obtain ⟨position, further, _, haddress⟩ := exists_address_eq_of_mem_within hnext
    refine ⟨clause.address, rfl, ?_⟩
    rw [haddress, List.append_assoc]
    exact List.prefix_append _ _

/-- Every stage of a node leads through children of the node. -/
theorem through_children
    {language : Language} {site : Site} {stage : Stage}
    (h : stage ∈ stages language site) :
    stage.Through fun branch => ∃ index, branch = site.address ++ [index] := by
  have hweaken :
      ∀ {branches : List Nat → Prop}, stage.Through branches →
        (∀ branch, branches branch → ∃ index, branch = site.address ++ [index]) →
        stage.Through fun branch => ∃ index, branch = site.address ++ [index] := by
    intro branches hthrough himp
    refine ⟨fun handler hhandler => himp _ (hthrough.clause handler hhandler), ?_⟩
    intro next hnext
    obtain ⟨branch, hbranch, hunder⟩ := hthrough.sites next hnext
    exact ⟨branch, himp branch hbranch, hunder⟩
  have hbelow :
      ∀ {child : Site}, child ∈ site.below language →
        ∃ index, child.address = site.address ++ [index] :=
    exists_address_eq_of_mem_sitesBelow
  unfold stages at h
  split at h
  · rcases mem_tryStages_iff.mp h with rfl | rfl | ⟨clause, hclause, rfl⟩
    · apply hweaken (through_leading language site)
      rintro branch ⟨child, hchild, rfl⟩
      exact hbelow (List.mem_filter.mp hchild).1
    · apply hweaken (through_body language site)
      rintro branch ⟨index, _, rfl⟩
      exact ⟨index, rfl⟩
    · apply hweaken (through_clauseStage language clause)
      rintro branch rfl
      exact hbelow (mem_clauses_iff.mp hclause).1
  · rw [List.mem_singleton] at h
    subst h
    apply hweaken (through_openedSites language site)
    rintro branch ⟨child, hchild, rfl⟩
    exact hbelow hchild

/-- What a tour passes is at or below a site where it starts. -/
theorem exists_prefix_of_mem_tour
    {language : Language} {sites : List Site} {stop : Stop}
    (h : stop ∈ tour language sites) :
    ∃ site ∈ sites, site.address <+: stop.address := by
  induction sites using sites_induction language with
  | nil => simp at h
  | cons site rest ihStages ihRest =>
      rcases mem_tour_cons_iff.mp h with rfl | ⟨stage, hstage, hstop⟩ | hstop
      · exact ⟨site, List.mem_cons_self, List.prefix_refl _⟩
      · refine ⟨site, List.mem_cons_self, ?_⟩
        have hthrough := through_children hstage
        rcases mem_stageStops_iff.mp hstop with ⟨handler, hclause, rfl⟩ | hstop
        · obtain ⟨index, haddress⟩ := hthrough.clause handler hclause
          rw [Stop.address, haddress]
          exact List.prefix_append _ _
        · obtain ⟨next, hnext, hbelow⟩ := ihStages stage hstage hstop
          obtain ⟨branch, ⟨index, rfl⟩, hunder⟩ := hthrough.sites next hnext
          exact (List.prefix_append _ _).trans (hunder.trans hbelow)
      · obtain ⟨next, hnext, hunder⟩ := ihRest hstop
        exact ⟨next, List.mem_cons_of_mem _ hnext, hunder⟩

/-- What the search passes in a stage is where the stage leads. -/
theorem Stage.Through.exists_branch
    {language : Language} {site : Site} {stage : Stage} {branches : List Nat → Prop}
    {stop : Stop} (h : stage.Through branches)
    (hstop : stop ∈ stageStops language site stage) :
    ∃ branch, branches branch ∧ branch <+: stop.address := by
  rcases mem_stageStops_iff.mp hstop with ⟨handler, hclause, rfl⟩ | hstop
  · exact ⟨handler.address, h.clause handler hclause, List.prefix_refl _⟩
  · obtain ⟨next, hnext, hbelow⟩ := exists_prefix_of_mem_tour hstop
    obtain ⟨branch, hbranch, hunder⟩ := h.sites next hnext
    exact ⟨branch, hbranch, hunder.trans hbelow⟩

/-! ## Tidy try nodes -/

/-- A try node with at most one `else` and one `finally` clause, whose body is none of
its clauses. -/
structure TidyTry (language : Language) (node : Node) : Prop where
  orelse : (childrenAs language .orelse node).length ≤ 1
  finalizer : (childrenAs language .finalizer node).length ≤ 1
  body : ∀ body, node.childByField? "body" = some body →
    clausePart? (language.place node body) = none

/-- Every try node that the search visits is tidy. -/
def TidyTries (language : Language) (start : List Site) : Prop :=
  ∀ site, Visited language start site → site.role = .attempt →
    TidyTry language site.node

theorem tidyTry_iff
    {language : Language} {node : Node} :
    TidyTry language node ↔
      (childrenAs language .orelse node).length ≤ 1 ∧
        (childrenAs language .finalizer node).length ≤ 1 ∧
        (node.childByField? "body").all
          (fun body => (clausePart? (language.place node body)).isNone) := by
  rw [Option.all_eq_true]
  constructor
  · intro h
    refine ⟨h.orelse, h.finalizer, ?_⟩
    intro body hbody
    exact Option.isNone_iff_eq_none.mpr (h.body body hbody)
  · rintro ⟨horelse, hfinalizer, hbody⟩
    exact ⟨horelse, hfinalizer, fun body h => Option.isNone_iff_eq_none.mp (hbody body h)⟩

instance (language : Language) (node : Node) : Decidable (TidyTry language node) :=
  decidable_of_iff _ tidyTry_iff.symm

instance (language : Language) (start : List Site) :
    Decidable (TidyTries language start) :=
  decidable_of_iff _ (forall_visited_attempt_iff fun site => TidyTry language site.node)

theorem TidyTries.of_stage
    {language : Language} {site : Site} {sites : List Site} {stage : Stage}
    (h : TidyTries language (site :: sites)) (hstage : stage ∈ stages language site) :
    TidyTries language stage.sites := by
  intro next hnext hrole
  refine h next (hnext.trans ?_) hrole
  intro first hfirst
  exact .onward (.start List.mem_cons_self) hstage hfirst

theorem TidyTries.of_tail
    {language : Language} {site : Site} {sites : List Site}
    (h : TidyTries language (site :: sites)) :
    TidyTries language sites := by
  intro next hnext hrole
  refine h next (hnext.trans ?_) hrole
  intro first hfirst
  exact .start (List.mem_cons_of_mem _ hfirst)

theorem TidyTry.bodyIndex?_ne
    {language : Language} {node child : Node} {index : Nat}
    (htidy : TidyTry language node)
    (hchild : node.children[index]? = some child)
    (hclause : (clausePart? (language.place node child)).isSome) :
    bodyIndex? language node ≠ some index := by
  intro hbody
  have hnone : clausePart? (language.place node child) = none := by
    unfold bodyIndex? at hbody
    split at hbody
    · next found hfound =>
        cases hbody
        apply htidy.body
        rw [Node.childByField?, List.find?_eq_bind_findIdx?_getElem?, hfound]
        exact hchild
    · -- Without a body field the body is a block, and a block is no clause.
      obtain ⟨hlt, hfound, _⟩ := List.findIdx?_eq_some_iff_getElem.mp hbody
      rw [List.getElem?_eq_getElem hlt, Option.some.injEq] at hchild
      rw [hchild, Bool.and_eq_true, beq_iff_eq] at hfound
      simp only [clausePart?, Language.place, hfound.2]
  rw [hnone] at hclause
  cases hclause

/-- Stages of a node that pass places that are apart. -/
def ApartStages (language : Language) (site : Site) (left right : Stage) : Prop :=
  ∀ first ∈ stageStops language site left, ∀ second ∈ stageStops language site right,
    Apart first.address second.address

instance (language : Language) (site : Site) : Std.Symm (ApartStages language site) where
  symm := by
    intro left right h first hfirst second hsecond
    exact (h second hsecond first hfirst).symm

/-- What two stages pass is apart when they lead through addresses that are apart. -/
theorem Stage.Through.apart
    {language : Language} {site : Site} {left right : Stage}
    {leftBranches rightBranches : List Nat → Prop}
    (hleft : left.Through leftBranches) (hright : right.Through rightBranches)
    (hapart : ∀ first second, leftBranches first → rightBranches second →
      Apart first second) :
    ApartStages language site left right := by
  intro first hfirst second hsecond
  obtain ⟨branch, hbranch, hunder⟩ := hleft.exists_branch hfirst
  obtain ⟨other, hother, hbelow⟩ := hright.exists_branch hsecond
  exact (hapart branch other hbranch hother).of_below hunder hbelow

/-- The clauses of a try node are different children of it. -/
theorem apartSites_clauses
    (language : Language) (site : Site) :
    ApartSites (site.clauses language) := by
  have hsame :
      ∀ role, ApartSites (site.childrenAs language role) :=
    fun role => (apartSites_sitesBelow ..).filter _
  have hother :
      ∀ {first second : Role}, first ≠ second →
        ∀ left ∈ site.childrenAs language first,
          ∀ right ∈ site.childrenAs language second,
            Apart left.address right.address := by
    intro first second hne left hleft right hright
    obtain ⟨hleftBelow, hleftRole⟩ := mem_below_of_mem_childrenAs hleft
    obtain ⟨hrightBelow, hrightRole⟩ := mem_below_of_mem_childrenAs hright
    apply apart_of_children (exists_address_eq_of_mem_sitesBelow hleftBelow)
      (exists_address_eq_of_mem_sitesBelow hrightBelow)
    intro haddress
    have heq := eq_of_mem_below_of_address_eq hleftBelow hrightBelow haddress
    rw [← hleftRole, ← hrightRole, heq] at hne
    exact hne rfl
  unfold Site.clauses
  refine List.pairwise_append.mpr ⟨List.pairwise_append.mpr ⟨hsame _, hsame _, ?_⟩,
    hsame _, ?_⟩
  · exact hother (by decide)
  · intro left hleft right hright
    rcases List.mem_append.mp hleft with hleft | hleft
    · exact hother (by decide) left hleft right hright
    · exact hother (by decide) left hleft right hright

theorem pairwise_tryStages
    {language : Language} {site : Site} (htidy : TidyTry language site.node) :
    (tryStages language site).Pairwise (ApartStages language site) := by
  have hleading := through_leading language site
  have hbody := through_body language site
  have hchild :
      ∀ {child : Site}, child ∈ site.below language →
        ∃ index, child.address = site.address ++ [index] :=
    exists_address_eq_of_mem_sitesBelow
  refine List.pairwise_cons.mpr ⟨?_, List.pairwise_cons.mpr ⟨?_, ?_⟩⟩
  · intro stage hstage
    rcases List.mem_cons.mp hstage with rfl | hstage
    · -- A leading child is not the body.
      apply hleading.apart hbody
      rintro first second ⟨child, hmem, rfl⟩ ⟨index, hindex, rfl⟩
      obtain ⟨hbelow, hkept⟩ := List.mem_filter.mp hmem
      apply apart_of_children (hchild hbelow) ⟨index, rfl⟩
      rw [Bool.and_eq_true, hindex, Option.all_some, bne_iff_ne] at hkept
      exact hkept.2
    · -- A leading child is not a clause.
      obtain ⟨clause, hclause, rfl⟩ := List.mem_map.mp hstage
      obtain ⟨hclauseBelow, hpart⟩ := mem_clauses_iff.mp hclause
      apply hleading.apart (through_clauseStage language clause)
      rintro first second ⟨child, hmem, rfl⟩ rfl
      obtain ⟨hbelow, hkept⟩ := List.mem_filter.mp hmem
      apply apart_of_children (hchild hbelow) (hchild hclauseBelow)
      intro haddress
      have heq := eq_of_mem_below_of_address_eq hbelow hclauseBelow haddress
      subst heq
      simp only [isLeading, Bool.and_eq_true, Option.isNone_iff_eq_none] at hkept
      rw [hkept.1.2] at hpart
      cases hpart
  · -- The body is not a clause.
    intro stage hstage
    obtain ⟨clause, hclause, rfl⟩ := List.mem_map.mp hstage
    obtain ⟨hclauseBelow, hpart⟩ := mem_clauses_iff.mp hclause
    apply hbody.apart (through_clauseStage language clause)
    rintro first second ⟨index, hindex, rfl⟩ rfl
    apply apart_of_children ⟨index, rfl⟩ (hchild hclauseBelow)
    obtain ⟨position, child, hposition, rfl, _⟩ := mem_sitesBelow_iff.mp hclauseBelow
    intro haddress
    have hsame : index = position := by simpa [childSite] using haddress
    rw [hsame] at hindex
    exact htidy.bodyIndex?_ne hposition hpart hindex
  · rw [List.pairwise_map]
    refine (apartSites_clauses language site).imp ?_
    intro left right hapart
    apply (through_clauseStage language left).apart
      (through_clauseStage language right)
    rintro first second rfl rfl
    exact hapart

theorem pairwise_stages
    {language : Language} {site : Site}
    (htidy : site.role = .attempt → TidyTry language site.node) :
    (stages language site).Pairwise (ApartStages language site) := by
  unfold stages
  split
  · next hrole => exact pairwise_tryStages (htidy (beq_iff_eq.mp hrole))
  · exact List.pairwise_singleton _ _

/-! ## The tour -/

/-- What the search passes from a node is below the node. -/
theorem exists_child_of_mem_stageStops
    {language : Language} {site : Site} {stage : Stage} {stop : Stop}
    (hstage : stage ∈ stages language site)
    (hstop : stop ∈ stageStops language site stage) :
    ∃ index, site.address ++ [index] <+: stop.address := by
  obtain ⟨branch, ⟨index, rfl⟩, hunder⟩ := (through_children hstage).exists_branch hstop
  exact ⟨index, hunder⟩

/-- What the search passes inside a handler is below the handler. -/
theorem exists_child_of_clause
    {language : Language} {site handler : Site} {stage : Stage} {stop : Stop}
    (hstage : stage ∈ stages language site) (hclause : stage.clause = some handler)
    (hstop : stop ∈ tour language stage.sites) :
    ∃ index, handler.address ++ [index] <+: stop.address := by
  obtain ⟨next, hnext, hbelow⟩ := exists_prefix_of_mem_tour hstop
  obtain ⟨_, _, rfl⟩ := clause_eq_some hstage hclause
  obtain ⟨position, further, _, haddress⟩ := exists_address_eq_of_mem_within hnext
  rw [haddress] at hbelow
  exact ⟨position, (List.prefix_append _ _).trans hbelow⟩

theorem apart_of_mem_tour
    {language : Language} {address : List Nat} {sites : List Site} {stop : Stop}
    (hsites : ∀ site ∈ sites, Apart address site.address)
    (hstop : stop ∈ tour language sites) :
    Apart address stop.address := by
  obtain ⟨site, hsite, hunder⟩ := exists_prefix_of_mem_tour hstop
  exact (hsites site hsite).of_below (List.prefix_refl _) hunder

theorem pairwise_stageStops
    {language : Language} {site : Site} {stage : Stage}
    (hstage : stage ∈ stages language site)
    (htour : (tour language stage.sites).Pairwise fun first second =>
      first.address ≠ second.address) :
    (stageStops language site stage).Pairwise fun first second =>
      first.address ≠ second.address := by
  unfold stageStops Stage.entry
  cases hclause : stage.clause with
  | none => exact htour
  | some handler =>
      refine List.pairwise_cons.mpr ⟨?_, htour⟩
      intro stop hstop
      obtain ⟨index, hunder⟩ := exists_child_of_clause hstage hclause hstop
      exact ne_of_below_child hunder

/-- A tour that starts at sites that are apart, through tidy try nodes, passes no place
twice. -/
theorem pairwise_tour
    {language : Language} {sites : List Site}
    (htidy : TidyTries language sites) (hapart : ApartSites sites) :
    (tour language sites).Pairwise fun first second =>
      first.address ≠ second.address := by
  induction sites using sites_induction language with
  | nil => simp
  | cons site rest ihStages ihRest =>
      obtain ⟨hfirst, hrest⟩ := List.pairwise_cons.mp hapart
      rw [tour_cons, List.pairwise_cons, List.pairwise_append, List.pairwise_flatMap]
      refine ⟨?_, ⟨?_, ?_⟩, ihRest htidy.of_tail hrest, ?_⟩
      · intro stop hstop
        rcases List.mem_append.mp hstop with hstop | hstop
        · obtain ⟨stage, hstage, hstop⟩ := List.mem_flatMap.mp hstop
          obtain ⟨index, hunder⟩ := exists_child_of_mem_stageStops hstage hstop
          exact ne_of_below_child hunder
        · exact (apart_of_mem_tour hfirst hstop).ne
      · intro stage hstage
        apply pairwise_stageStops hstage
        exact ihStages stage hstage (htidy.of_stage hstage)
          (apartSites_of_mem_stages hstage)
      · refine (pairwise_stages (htidy site (.start List.mem_cons_self))).imp ?_
        intro left right hstages first hleft second hright
        exact (hstages first hleft second hright).ne
      · intro first hstop second hsecond
        obtain ⟨stage, hstage, hstop⟩ := List.mem_flatMap.mp hstop
        obtain ⟨index, hunder⟩ := exists_child_of_mem_stageStops hstage hstop
        have hbeside := apart_of_mem_tour hfirst hsecond
        exact (hbeside.of_below ((List.prefix_append _ _).trans hunder)
          (List.prefix_refl _)).ne

/-- Sites that are picked from a tour, each at its stop, are all different. -/
theorem nodup_address_filterMap_tour
    {language : Language} {sites : List Site} {select : Stop → Option Site}
    (htidy : TidyTries language sites) (hapart : ApartSites sites)
    (hselect : ∀ {stop site}, select stop = some site → stop.address = site.address) :
    (((tour language sites).filterMap select).map Site.address).Nodup := by
  have htour := pairwise_tour htidy hapart
  refine List.pairwise_map.mpr (List.pairwise_filterMap.mpr (htour.imp ?_))
  intro first second hne left hleft right hright
  rw [← hselect hleft, ← hselect hright]
  exact hne

/-- What a tour passes below a node is what the search passes from the node. -/
theorem mem_stageStops_of_below
    {language : Language} {sites : List Site} {site : Site} {stop : Stop}
    (htidy : TidyTries language sites) (hapart : ApartSites sites)
    (hsite : Stop.node site ∈ tour language sites) (hstop : stop ∈ tour language sites)
    (hunder : site.address <+: stop.address) :
    stop = .node site ∨
      ∃ stage ∈ stages language site, stop ∈ stageStops language site stage := by
  induction sites using sites_induction language with
  | nil => simp at hsite
  | cons first rest ihStages ihRest =>
      obtain ⟨hfirst, hrest⟩ := List.pairwise_cons.mp hapart
      have hstages := pairwise_stages (htidy first (.start List.mem_cons_self))
      rcases mem_tour_cons_iff.mp hsite with hnode | ⟨stage, hstage, hsite⟩ | hsite
      · cases hnode
        rcases mem_tour_cons_iff.mp hstop with hnode | hbelow | hstop
        · exact .inl hnode
        · exact .inr hbelow
        · exact absurd hunder (apart_of_mem_tour hfirst hstop).1
      · obtain ⟨index, hinside⟩ := exists_child_of_mem_stageStops hstage hsite
        rcases mem_stageStops_iff.mp hsite with ⟨handler, _, hclause⟩ | hinner
        · cases hclause
        rcases mem_tour_cons_iff.mp hstop with rfl | ⟨other, hother, hstop⟩ | hstop
        · exact absurd (hinside.trans hunder) (child_not_above _ _)
        · by_cases hsame : stage = other
          · subst hsame
            rcases mem_stageStops_iff.mp hstop with ⟨handler, hclause, rfl⟩ | hstop
            · obtain ⟨index, hinside⟩ := exists_child_of_clause hstage hclause hinner
              exact absurd (hinside.trans hunder) (child_not_above _ _)
            · exact ihStages stage hstage (htidy.of_stage hstage)
                (apartSites_of_mem_stages hstage) hinner hstop
          · have hbeside := hstages.forall hstage hother hsame _ hsite _ hstop
            exact absurd hunder hbeside.1
        · have hbeside := apart_of_mem_tour hfirst hstop
          exact absurd (((List.prefix_append _ _).trans hinside).trans hunder) hbeside.1
      · rcases mem_tour_cons_iff.mp hstop with rfl | ⟨stage, hstage, hstop⟩ | hstop
        · exact absurd hunder (apart_of_mem_tour hfirst hsite).2
        · obtain ⟨index, hinside⟩ := exists_child_of_mem_stageStops hstage hstop
          have hbeside :=
            (apart_of_mem_tour hfirst hsite).of_below
              ((List.prefix_append _ _).trans hinside) (List.prefix_refl _)
          exact absurd hunder hbeside.2
        · exact ihRest htidy.of_tail hrest hsite hstop

end HandlerLint.Search
