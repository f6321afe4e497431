import Mathlib.Data.List.Basic
import HandlerLint.Proofs.Lowering.Success

/-!
# Sites in a parse tree

Two nodes of a parse tree may be equal as values and still be two nodes.  A site is a
node together with its address, the child indices that lead to it from the root, and
tells them apart.

The lists of nodes that lowering works on are lists of sites here.  Forgetting the
addresses gives the lists that lowering sees.
-/

namespace HandlerLint.Search

open Source
open Lowering

/-- A node of a parse tree, with the role it plays and the child indices that lead to
it from the root. -/
structure Site where
  address : List Nat
  item : Placed

namespace Site

/-- The node at a site. -/
def node (site : Site) : Node :=
  site.item.node

/-- The role of the node at a site. -/
def role (site : Site) : Role :=
  site.item.role

end Site

/-- The site of a child of the node at an address. -/
def childSite
    (language : Language) (address : List Nat) (parent : Node) (entry : Node × Nat) :
    Site :=
  { address := address ++ [entry.2], item := language.place parent entry.1 }

/-- The sites of the named children of a node that are not comments. -/
def sitesBelow (language : Language) (address : List Nat) (node : Node) : List Site :=
  (node.children.zipIdx.map (childSite language address node)).filter fun site =>
    site.node.isNamed && site.role != .comment

/-- The significant children of the node at a site. -/
def Site.below (language : Language) (site : Site) : List Site :=
  sitesBelow language site.address site.node

/-- The significant children of the child with a given index. -/
def Site.within (language : Language) (site : Site) (index : Option Nat) : List Site :=
  index.elim [] fun index =>
    (site.node.children[index]?).elim [] (sitesBelow language (site.address ++ [index]))

/-! ## Forgetting addresses -/

theorem map_item_sitesBelow
    (language : Language) (address : List Nat) (node : Node) :
    (sitesBelow language address node).map Site.item = language.significant node := by
  have hchildren : node.children = node.children.zipIdx.map Prod.fst :=
    (List.zipIdx_map_fst 0 node.children).symm
  unfold sitesBelow Language.significant Node.namedChildren
  conv_rhs => rw [hchildren]
  simp only [List.filter_map, List.map_map, List.filter_filter]
  congr 1
  apply List.filter_congr
  intro entry _
  exact Bool.and_comm _ _

theorem map_item_within
    (language : Language) (site : Site) (index : Option Nat) :
    (site.within language index).map Site.item =
      blockItems language (index.bind (site.node.children[·]?)) := by
  unfold Site.within blockItems
  cases index with
  | none => rfl
  | some index =>
      rw [Option.elim_some, Option.bind_some]
      cases site.node.children[index]? with
      | none => rfl
      | some child => exact map_item_sitesBelow ..

theorem mem_sitesBelow_iff
    {language : Language} {address : List Nat} {node : Node} {site : Site} :
    site ∈ sitesBelow language address node ↔
      ∃ index child,
        node.children[index]? = some child ∧
          site = childSite language address node (child, index) ∧
          child.isNamed = true ∧ site.role ≠ .comment := by
  unfold sitesBelow
  rw [List.mem_filter, List.mem_map]
  constructor
  · rintro ⟨⟨⟨child, index⟩, hentry, rfl⟩, hkept⟩
    rw [Bool.and_eq_true, bne_iff_ne] at hkept
    exact ⟨index, child, List.mk_mem_zipIdx_iff_getElem?.mp hentry, rfl, hkept.1, hkept.2⟩
  · rintro ⟨index, child, hchild, rfl, hnamed, hrole⟩
    refine ⟨⟨(child, index), List.mk_mem_zipIdx_iff_getElem?.mpr hchild, rfl⟩, ?_⟩
    rw [Bool.and_eq_true, bne_iff_ne]
    exact ⟨hnamed, hrole⟩

theorem mem_within_iff
    {language : Language} {site next : Site} {index : Option Nat} :
    next ∈ site.within language index ↔
      ∃ position child,
        index = some position ∧ site.node.children[position]? = some child ∧
          next ∈ sitesBelow language (site.address ++ [position]) child := by
  unfold Site.within
  cases index with
  | none => simp
  | some position =>
      rw [Option.elim_some]
      cases hchild : site.node.children[position]? with
      | none => simp [hchild]
      | some child => simp [hchild]

/-! ## Where the bodies of clauses are -/

/-- An `else` or `finally` clause finds its block the way a try node finds its body. -/
theorem clauseBlock?_eq_bodyOf?
    (language : Language) (node : Node) :
    clauseBlock? language node = bodyOf? language node := by
  unfold clauseBlock? bodyOf? bodyIndex? Node.childByField?
  rw [List.find?_eq_bind_findIdx?_getElem?]
  cases hfield : node.children.findIdx? (·.label.field == some "body") with
  | some index =>
      obtain ⟨hlt, _⟩ := List.findIdx?_eq_some_iff_getElem.mp hfield
      simp [hlt]
  | none =>
      simp only [Option.bind_none]
      rw [← List.find?_eq_bind_findIdx?_getElem?]
      unfold Language.significant Node.namedChildren
      rw [List.find?_filter, List.find?_map, Option.map_map, List.find?_filter]
      have hplace :
          ∀ found : Option Node, found.map (Placed.node ∘ language.place node) = found := by
        intro found
        cases found with
        | none => rfl
        | some child => rfl
      rw [hplace]
      congr 1
      funext child
      -- A block is no comment.
      by_cases hblock : language.role node.kind child.kind = .block
      · simp [Language.place, hblock]
      · simp [Language.place, hblock]

/-- Which child of a handler is its body. -/
def handlerBodyIndex? (language : Language) (node : Node) : Option Nat :=
  match language with
  | .python =>
      (node.children.zipIdx.filter fun entry =>
        entry.1.isNamed && entry.1.kind == "block").getLast?.map Prod.snd
  | _ => node.children.findIdx? (·.label.field == some "body")

/-- Which child of a handler is its body, unless the parser made it up. -/
def presentBodyIndex? (language : Language) (node : Node) : Option Nat :=
  (handlerBodyIndex? language node).filter fun index =>
    (node.children[index]?).all (! ·.isMissing)

/-- The body of a Python handler is its last block. -/
theorem foldl_scanPythonHandler_body_eq
    (source : List UInt8) (nodes : List Node) (scan : Language.PythonHandlerScan) :
    (nodes.foldl (Language.scanPythonHandler source) scan).parts.body =
      ((nodes.filter fun child => child.isNamed && child.kind == "block").getLast?).or
        scan.parts.body := by
  induction nodes generalizing scan with
  | nil => rfl
  | cons node nodes ih =>
      rw [List.foldl_cons, ih, List.filter_cons]
      by_cases hblock : (node.isNamed && node.kind == "block") = true
      · rw [if_pos hblock, getLast?_cons_or]
        rw [Bool.and_eq_true] at hblock
        simp [Language.scanPythonHandler, hblock.1, hblock.2]
      · rw [if_neg hblock]
        congr 1
        rw [Bool.and_eq_true, not_and] at hblock
        simp only [Language.scanPythonHandler]
        repeat' split
        all_goals simp_all

theorem getElem?_getLast?_filter_zipIdx
    {α : Type} (p : α → Bool) (values : List α) :
    ((values.zipIdx.filter fun entry => p entry.1).getLast?.map Prod.snd).bind
        (values[·]?) =
      (values.filter p).getLast? := by
  have hvalues :
      values.filter p = (values.zipIdx.filter fun entry => p entry.1).map Prod.fst := by
    conv_lhs => rw [← List.zipIdx_map_fst 0 values]
    rw [List.filter_map]
    rfl
  rw [hvalues, List.getLast?_map]
  cases hlast : (values.zipIdx.filter fun entry => p entry.1).getLast? with
  | none => rfl
  | some entry =>
      have hentry := (List.mem_filter.mp (List.mem_of_getLast? hlast)).1
      exact List.mem_zipIdx_iff_getElem?.mp hentry

theorem handlerParts_body_eq
    (language : Language) (source : List UInt8) (node : Node) :
    (language.handlerParts source node).body =
      (handlerBodyIndex? language node).bind (node.children[·]?) := by
  cases language with
  | python =>
      have hlast :=
        getElem?_getLast?_filter_zipIdx
          (fun child : Node => child.isNamed && child.kind == "block") node.children
      rw [handlerBodyIndex?, hlast]
      exact (foldl_scanPythonHandler_body_eq source node.children _).trans Option.or_none
  | _ => exact List.find?_eq_bind_findIdx?_getElem?

/-- The present body of a handler is the child with the present body's index. -/
theorem presentBody?_eq
    (language : Language) (source : List UInt8) (node : Node) :
    presentBody? (language.handlerParts source node) =
      (presentBodyIndex? language node).bind (node.children[·]?) := by
  unfold presentBody? presentBodyIndex?
  rw [handlerParts_body_eq]
  cases handlerBodyIndex? language node with
  | none => rfl
  | some index =>
      rw [Option.bind_some, Option.filter_some]
      cases hchild : node.children[index]? with
      | none => simp [hchild]
      | some child =>
          rw [Option.filter_some, Option.all_some]
          split
          · exact hchild.symm
          · rfl

/-! ## The children of a try node -/

/-- The significant children of a site with a given role. -/
def Site.childrenAs (language : Language) (role : Role) (site : Site) : List Site :=
  (site.below language).filter (·.role == role)

/-- The significant children of a try node that are neither clauses nor the body. -/
def Site.leading (language : Language) (site : Site) : List Site :=
  (site.below language).filter fun child =>
    isLeading child.item &&
      (bodyIndex? language site.node).all fun index =>
        child.address != site.address ++ [index]

theorem map_node_childrenAs
    (language : Language) (role : Role) (site : Site) :
    (site.childrenAs language role).map Site.node =
      childrenAs language role site.node := by
  unfold Site.childrenAs childrenAs Site.below
  rw [← map_item_sitesBelow language site.address site.node, List.filter_map,
    List.map_map]
  rfl

theorem map_fst_filter_zipIdx
    {α : Type} (values : List α) (index start : Nat) :
    ((values.zipIdx start).filter fun entry => entry.2 != start + index).map Prod.fst =
      values.eraseIdx index := by
  induction values generalizing index start with
  | nil => rfl
  | cons value values ih =>
      cases index with
      | zero =>
          rw [List.zipIdx_cons, List.filter_cons, List.eraseIdx_cons_zero]
          have hrest :
              (values.zipIdx (start + 1)).filter (fun entry => entry.2 != start + 0) =
                values.zipIdx (start + 1) := by
            rw [List.filter_eq_self]
            intro entry hentry
            have hle := List.le_snd_of_mem_zipIdx hentry
            simp only [bne_iff_ne]
            omega
          rw [hrest]
          simp
      | succ index =>
          have hshift :
              (fun entry : α × Nat => entry.2 != start + (index + 1)) =
                fun entry => entry.2 != start + 1 + index := by
            funext entry
            congr 1
            omega
          rw [List.zipIdx_cons, List.filter_cons, List.eraseIdx_cons_succ, hshift]
          have hfirst : (start != start + (index + 1)) = true := by
            rw [bne_iff_ne]
            omega
          rw [if_pos hfirst, List.map_cons, ih]

theorem besideBody_eq
    (language : Language) (node : Node) :
    besideBody language node =
      (node.children.zipIdx.filter fun entry =>
        (bodyIndex? language node).all fun index => entry.2 != index).map Prod.fst := by
  unfold besideBody
  cases bodyIndex? language node with
  | none =>
      simp only [Option.all_none, List.filter_true]
      exact (List.zipIdx_map_fst 0 node.children).symm
  | some index =>
      have herase := map_fst_filter_zipIdx node.children index 0
      simp only [Nat.zero_add] at herase
      exact herase.symm

theorem map_item_leading
    (language : Language) (site : Site) :
    (site.leading language).map Site.item = leading language site.node := by
  unfold Site.leading Site.below sitesBelow Lowering.leading
  rw [besideBody_eq]
  simp only [List.filter_map, List.map_map, List.filter_filter]
  congr 1
  apply List.filter_congr
  rintro ⟨child, index⟩ _
  -- What leads is no comment, and an address tells the index of a child.
  have hlast :
      ∀ other, ((site.address ++ [index]) != (site.address ++ [other])) =
        (index != other) := by
    intro other
    rw [Bool.eq_iff_iff, bne_iff_ne, bne_iff_ne]
    simp
  simp only [Function.comp, childSite, hlast, Site.role, Site.node, isLeading,
    Language.place]
  grind

end HandlerLint.Search
