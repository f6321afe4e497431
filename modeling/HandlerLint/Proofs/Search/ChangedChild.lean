import HandlerLint.Proofs.Search.Interchange
import HandlerLint.Proofs.Source.Change

/-!
# Nodes with one child changed

A change to one child of a node that keeps the label of the child leaves every other child
alone, and with the labels of the children all that is told from them: which children are
significant, which one is the body, and which ones are clauses.

If the changed child is interchangeable with what it was, or is a body or a clause with
interchangeable nodes below it, then the node is interchangeable with what it was.
-/

namespace HandlerLint.Search

open Source
open Lowering

variable {context : Context}

/-- The site, with its node changed if it is at a given address. -/
def Site.changeAt (address : List Nat) (change : Node → Node) (site : Site) : Site :=
  if site.address = address then
    { site with item := { site.item with node := change site.item.node } }
  else site

theorem zipIdx_modify
    {α : Type} (values : List α) (index : Nat) (change : α → α) :
    (values.modify index change).zipIdx =
      values.zipIdx.map fun entry =>
        (if entry.2 = index then change entry.1 else entry.1, entry.2) := by
  apply List.ext_getElem?
  intro position
  rw [List.getElem?_zipIdx, List.getElem?_map, List.getElem?_zipIdx, List.getElem?_modify]
  cases values[position]? with
  | none => rfl
  | some value => by_cases h : position = index <;> simp [h, eq_comm]

/-- With a child changed, the sites below a node are what they were, but for the site of that
child. -/
theorem sitesBelow_changeChild
    {language : Language} {address : List Nat} {node : Node} {index : Nat}
    {change : Node → Node}
    (hlabel : ∀ child ∈ node.children[index]?, (change child).label = child.label) :
    sitesBelow language address (node.changeChild index change) =
      (sitesBelow language address node).map
        (Site.changeAt (address ++ [index]) change) := by
  have hsite :
      ∀ entry ∈ node.children.zipIdx,
        childSite language address (node.changeChild index change)
            (if entry.2 = index then change entry.1 else entry.1, entry.2) =
          (childSite language address node entry).changeAt (address ++ [index]) change := by
    rintro ⟨child, position⟩ hentry
    have hchild := List.mk_mem_zipIdx_iff_getElem?.mp hentry
    unfold Site.changeAt childSite Language.place
    by_cases hindex : position = index
    · subst hindex
      simp [Node.kind, hlabel child hchild]
    · simp [hindex]
  have hkept :
      ∀ entry ∈ node.children.zipIdx,
        (((childSite language address node entry).changeAt (address ++ [index])
              change).node.isNamed &&
            ((childSite language address node entry).changeAt (address ++ [index])
              change).role != .comment) =
          ((childSite language address node entry).node.isNamed &&
            (childSite language address node entry).role != .comment) := by
    rintro ⟨child, position⟩ hentry
    have hchild := List.mk_mem_zipIdx_iff_getElem?.mp hentry
    unfold Site.changeAt childSite Site.node Site.role
    by_cases hindex : position = index
    · subst hindex
      simp [Language.place, Node.isNamed, hlabel child hchild]
    · simp [hindex]
  unfold sitesBelow
  rw [Node.children_changeChild, zipIdx_modify, List.map_map, List.filter_map]
  conv_rhs => rw [List.filter_map, List.map_map]
  have hfilter :=
    List.filter_congr fun entry hentry =>
      (congrArg (fun site : Site => site.node.isNamed && site.role != .comment)
        (hsite entry hentry)).trans (hkept entry hentry)
  refine (congrArg _ hfilter).trans (List.map_congr_left ?_)
  intro entry hentry
  exact hsite entry (List.mem_filter.mp hentry).1

/-- A site below a node is that of the child with its index. -/
theorem eq_childSite_of_mem_sitesBelow
    {language : Language} {address : List Nat} {node child : Node} {site : Site} {index : Nat}
    (hsite : site ∈ sitesBelow language address node)
    (haddress : site.address = address ++ [index])
    (hchild : node.children[index]? = some child) :
    site.item = language.place node child := by
  obtain ⟨position, other, hother, rfl, _⟩ := mem_sitesBelow_iff.mp hsite
  have hindex : position = index := by simpa [childSite] using haddress
  subst hindex
  rw [hchild] at hother
  cases hother
  rfl

/-- Nodes with one label play the same role in their parent. -/
theorem place_of_label_eq
    (language : Language) (parent : Node) {left right : Node} (h : left.label = right.label) :
    language.place parent left = { role := (language.place parent right).role, node := left } := by
  unfold Language.place Node.kind
  rw [h]

theorem labels_of_child
    {node child : Node} {index : Nat} {change : Node → Node}
    (hchild : node.children[index]? = some child)
    (hlabel : (change child).label = child.label) :
    ∀ other ∈ node.children[index]?, (change other).label = other.label := by
  intro other hother
  rw [hchild] at hother
  cases hother
  exact hlabel

/-- With a child changed to an interchangeable one, the significant children of a node are
interchangeable with what they were. -/
theorem forall₂_significant_changeChild
    {node child : Node} {index : Nat} {change : Node → Node}
    (hchild : node.children[index]? = some child)
    (h : Interchangeable context (context.language.place node child)
      (context.language.place node (change child))) :
    List.Forall₂ (Interchangeable context) (context.language.significant node)
      (context.language.significant (node.changeChild index change)) := by
  have hlabel := labels_of_child hchild h.label.symm
  rw [← map_item_sitesBelow context.language [], ← map_item_sitesBelow context.language [],
    sitesBelow_changeChild hlabel, List.map_map, List.forall₂_map_left_iff,
    List.forall₂_map_right_iff, List.forall₂_same]
  intro site hsite
  unfold Function.comp Site.changeAt
  split
  · next haddress =>
      rw [eq_childSite_of_mem_sitesBelow hsite haddress hchild]
      rw [place_of_label_eq context.language node (hlabel child hchild)] at h
      exact h
  · exact .refl _

/-! ## Changed parts of try nodes -/

section

variable {language : Language} {node child : Node} {index : Nat} {change : Node → Node}

theorem findIdx?_changeChild
    (hlabel : ∀ child ∈ node.children[index]?, (change child).label = child.label)
    (test : Label → Bool) :
    (node.changeChild index change).children.findIdx? (fun child => test child.label) =
      node.children.findIdx? fun child => test child.label := by
  have hlabels := Node.map_label_changeChild hlabel
  have hmap :
      ∀ nodes : List Node,
        nodes.findIdx? (fun child => test child.label) =
          (nodes.map Node.label).findIdx? test := by
    intro nodes
    rw [List.findIdx?_map]
    rfl
  rw [hmap, hmap, hlabels]

/-- Which child is the body of a try node depends on labels only. -/
theorem bodyIndex?_changeChild
    (hlabel : ∀ child ∈ node.children[index]?, (change child).label = child.label) :
    bodyIndex? language (node.changeChild index change) = bodyIndex? language node := by
  have hfield := findIdx?_changeChild hlabel (·.field == some "body")
  have hblock :=
    findIdx?_changeChild hlabel fun label =>
      label.named && language.role node.kind label.kind == .block
  unfold bodyIndex?
  rw [hfield, Node.kind_changeChild]
  split
  · rfl
  · exact hblock

/-- Which child is the body of a handler depends on labels only. -/
theorem presentBodyIndex?_changeChild
    (hlabel : ∀ child ∈ node.children[index]?, (change child).label = child.label) :
    presentBodyIndex? language (node.changeChild index change) =
      presentBodyIndex? language node := by
  have hlabels := Node.map_label_changeChild hlabel
  have hfield := findIdx?_changeChild hlabel (·.field == some "body")
  have hlast :
      ∀ nodes : List Node,
        (nodes.zipIdx.filter fun entry =>
            entry.1.isNamed && entry.1.kind == "block").getLast?.map Prod.snd =
          ((nodes.map Node.label).zipIdx.filter fun entry =>
            entry.1.named && entry.1.kind == "block").getLast?.map Prod.snd := by
    intro nodes
    rw [List.zipIdx_map, List.filter_map, List.getLast?_map, Option.map_map]
    rfl
  have hindex :
      handlerBodyIndex? language (node.changeChild index change) =
        handlerBodyIndex? language node := by
    unfold handlerBodyIndex?
    cases language with
    | python =>
        dsimp only
        rw [hlast, hlast, hlabels]
    | _ => exact hfield
  have hpresent :
      ∀ position : Nat,
        (node.changeChild index change).children[position]?.all
            (fun child : Node => ! child.isMissing) =
          node.children[position]?.all fun child : Node => ! child.isMissing := by
    intro position
    have hposition := congrArg (fun labels : List Label => labels[position]?) hlabels
    simp only [List.getElem?_map] at hposition
    have hall :
        ∀ found : Option Node,
          found.all (fun child : Node => ! child.isMissing) =
            (found.map Node.label).all fun label : Label => ! label.missing := by
      intro found
      cases found <;> rfl
    rw [hall, hall, hposition]
  unfold presentBodyIndex?
  rw [hindex]
  simp only [hpresent]

theorem getElem?_changeChild_self
    (hchild : node.children[index]? = some child) :
    (node.changeChild index change).children[index]? = some (change child) := by
  rw [Node.children_changeChild, List.getElem?_modify, hchild]
  simp

theorem getElem?_changeChild_of_ne
    {position : Nat} (h : position ≠ index) :
    (node.changeChild index change).children[position]? = node.children[position]? := by
  rw [Node.children_changeChild, List.getElem?_modify]
  simp [h.symm]

theorem forall₂_filterMap
    {α β γ : Type} {R : β → γ → Prop} {values : List α} {f : α → Option β}
    {g : α → Option γ}
    (h : ∀ value ∈ values, Option.Rel R (f value) (g value)) :
    List.Forall₂ R (values.filterMap f) (values.filterMap g) :=
  List.rel_filterMap (fun _ _ hvalue => hvalue) (List.forall₂_same.mpr h)

theorem optionRel_refl
    {α : Type} {R : α → α → Prop} (h : ∀ value, R value value) (value : Option α) :
    Option.Rel R value value := by
  cases value with
  | none => exact .none
  | some value => exact .some (h value)

/-- A try node on its own, as a site. -/
def trySite (node : Node) : Site :=
  { address := [], item := { role := .attempt, node } }

theorem isLeading_changeAt
    (address : List Nat) (change : Node → Node) (site : Site) :
    isLeading (site.changeAt address change).item = isLeading site.item := by
  unfold Site.changeAt
  split
  · unfold isLeading clausePart?
    cases site.item.role <;> rfl
  · rfl

theorem address_changeAt
    (address : List Nat) (change : Node → Node) (site : Site) :
    (site.changeAt address change).address = site.address := by
  unfold Site.changeAt
  split <;> rfl

/-- With a child changed, the children ahead of the body of a try node are what they were,
but for that child. -/
theorem leading_changeChild
    (hlabel : ∀ child ∈ node.children[index]?, (change child).label = child.label) :
    (trySite (node.changeChild index change)).leading language =
      ((trySite node).leading language).map (Site.changeAt [index] change) := by
  have hbelow :
      (trySite (node.changeChild index change)).below language =
        ((trySite node).below language).map (Site.changeAt [index] change) :=
    sitesBelow_changeChild hlabel
  have hbody :
      bodyIndex? language (trySite (node.changeChild index change)).node =
        bodyIndex? language (trySite node).node :=
    bodyIndex?_changeChild hlabel
  unfold Site.leading
  rw [hbelow, hbody, List.filter_map]
  congr 1
  apply List.filter_congr
  intro site _
  dsimp only [Function.comp]
  rw [isLeading_changeAt, address_changeAt]
  rfl

theorem forall₂_leading_changeChild
    (hchild : node.children[index]? = some child)
    (hlabel : (change child).label = child.label)
    (hleading : isLeading (context.language.place node child) = true →
      bodyIndex? context.language node ≠ some index →
        Interchangeable context (context.language.place node child)
          (context.language.place node (change child))) :
    List.Forall₂ (Interchangeable context) (leading context.language node)
      (leading context.language (node.changeChild index change)) := by
  have hlabels := labels_of_child hchild hlabel
  have hbefore :
      ((trySite node).leading context.language).map Site.item =
        leading context.language node :=
    map_item_leading ..
  have hafter :
      ((trySite (node.changeChild index change)).leading context.language).map Site.item =
        leading context.language (node.changeChild index change) :=
    map_item_leading ..
  rw [← hbefore, ← hafter, leading_changeChild hlabels, List.map_map,
    List.forall₂_map_left_iff, List.forall₂_map_right_iff, List.forall₂_same]
  intro site hsite
  obtain ⟨hbelow, hkept⟩ := List.mem_filter.mp hsite
  rw [Bool.and_eq_true] at hkept
  unfold Function.comp Site.changeAt
  split
  · next haddress =>
      have hitem := eq_childSite_of_mem_sitesBelow hbelow haddress hchild
      rw [hitem] at hkept ⊢
      rw [place_of_label_eq context.language node hlabel] at hleading
      apply hleading hkept.1
      intro hbody
      have hother := hkept.2
      rw [trySite, Site.node, hbody, Option.all_some, bne_iff_ne, haddress] at hother
      exact hother rfl
  · exact .refl _

/-- With a child changed, the body of a try node asks for what it did, if the child is not
the body or has interchangeable nodes below it. -/
theorem forall₂_bodyPart_changeChild
    (hchild : node.children[index]? = some child)
    (hlabel : (change child).label = child.label)
    (hbody : bodyIndex? context.language node = some index →
      List.Forall₂ (Interchangeable context) (context.language.significant child)
        (context.language.significant (change child))) :
    List.Forall₂ (SamePart context node (node.changeChild index change))
      (bodyPart context.language (bodyOf? context.language node))
      (bodyPart context.language
        (bodyOf? context.language (node.changeChild index change))) := by
  unfold bodyOf?
  rw [bodyIndex?_changeChild (labels_of_child hchild hlabel)]
  cases hindex : bodyIndex? context.language node with
  | none => exact .nil
  | some position =>
      rw [Option.bind_some, Option.bind_some]
      by_cases hsame : position = index
      · subst hsame
        rw [hchild, getElem?_changeChild_self hchild]
        exact .cons (samePart_statements (Node.label_changeChild ..).symm (hbody hindex)) .nil
      · rw [getElem?_changeChild_of_ne hsame]
        exact List.forall₂_same.mpr fun part _ =>
          samePart_self (Node.label_changeChild ..).symm part

/-- With a child changed, the clauses of a try node ask for what they did, if the child is
not one of them or asks for the same. -/
theorem forall₂_clauses_changeChild
    (hchild : node.children[index]? = some child)
    (hlabel : (change child).label = child.label)
    (hclause : Option.Rel (SamePart context node (node.changeChild index change))
      (clausePart? (context.language.place node child))
      (clausePart? (context.language.place node (change child)))) :
    List.Forall₂ (SamePart context node (node.changeChild index change))
      ((context.language.significant node).filterMap clausePart?)
      ((context.language.significant (node.changeChild index change)).filterMap
        clausePart?) := by
  have hlabels := labels_of_child hchild hlabel
  rw [← map_item_sitesBelow context.language [], ← map_item_sitesBelow context.language [],
    sitesBelow_changeChild hlabels, List.map_map, List.filterMap_map, List.filterMap_map]
  apply forall₂_filterMap
  intro site hsite
  unfold Function.comp Site.changeAt
  split
  · next haddress =>
      rw [eq_childSite_of_mem_sitesBelow hsite haddress hchild]
      rw [place_of_label_eq context.language node hlabel] at hclause
      exact hclause
  · exact optionRel_refl (samePart_self (Node.label_changeChild ..).symm) _

/-- With a child changed, the parts of a try node ask for what they did, if this holds of
whatever part the child belongs to. -/
theorem forall₂_tryParts_changeChild
    (hchild : node.children[index]? = some child)
    (hlabel : (change child).label = child.label)
    (hleading : isLeading (context.language.place node child) = true →
      bodyIndex? context.language node ≠ some index →
        Interchangeable context (context.language.place node child)
          (context.language.place node (change child)))
    (hbody : bodyIndex? context.language node = some index →
      List.Forall₂ (Interchangeable context) (context.language.significant child)
        (context.language.significant (change child)))
    (hclause : Option.Rel (SamePart context node (node.changeChild index change))
      (clausePart? (context.language.place node child))
      (clausePart? (context.language.place node (change child)))) :
    List.Forall₂ (SamePart context node (node.changeChild index change))
      (tryParts context.language node)
      (tryParts context.language (node.changeChild index change)) :=
  List.rel_append
    (List.rel_append
      (forall₂_leadingPart (Node.label_changeChild ..).symm
        (forall₂_leading_changeChild hchild hlabel hleading))
      (forall₂_bodyPart_changeChild hchild hlabel hbody))
    (forall₂_clauses_changeChild hchild hlabel hclause)

end

/-! ## Changed bodies of handlers -/

/-- The child under the field `body` of a node is a block, if there is one. -/
def BlockBody (language : Language) (node : Node) : Prop :=
  ∀ body ∈ node.childByField? "body", language.role node.kind body.kind = .block

instance (language : Language) (node : Node) : Decidable (BlockBody language node) :=
  inferInstanceAs (Decidable (∀ body ∈ node.childByField? "body", _))

section

variable {language : Language} {source : List UInt8} {node child : Node} {index : Nat}
  {change : Node → Node}

/-- A child with some label is found in spite of a change to a child without it. -/
theorem find?_changeChild_of_not
    (hchild : node.children[index]? = some child)
    (hlabel : (change child).label = child.label) (test : Label → Bool)
    (hnot : test child.label = false) :
    (node.changeChild index change).children.find? (fun other => test other.label) =
      node.children.find? fun other => test other.label := by
  rw [List.find?_eq_bind_findIdx?_getElem?, List.find?_eq_bind_findIdx?_getElem?,
    findIdx?_changeChild (labels_of_child hchild hlabel)]
  cases hfound : node.children.findIdx? fun other => test other.label with
  | none => rfl
  | some position =>
      obtain ⟨hlt, htest, _⟩ := List.findIdx?_eq_some_iff_getElem.mp hfound
      have hother : position ≠ index := by
        rintro rfl
        rw [List.getElem?_eq_getElem hlt, Option.some.injEq] at hchild
        rw [hchild, hnot] at htest
        cases htest
      exact getElem?_changeChild_of_ne hother

theorem childByField?_changeChild
    (hchild : node.children[index]? = some child)
    (hlabel : (change child).label = child.label)
    (hbody : child.label.field = some "body") (field : String) (hfield : field ≠ "body") :
    (node.changeChild index change).childByField? field = node.childByField? field := by
  apply find?_changeChild_of_not hchild hlabel fun label => label.field == some field
  rw [hbody, beq_eq_false_iff_ne]
  exact fun h => hfield (Option.some.inj h).symm

/-- What is known of a Python handler, its body apart. -/
def pythonHead (scan : Language.PythonHandlerScan) : List String × Option String × Bool :=
  (scan.parts.types, scan.parts.binding, scan.afterAs)

theorem pythonHead_scan_congr
    {left right : Language.PythonHandlerScan} (h : pythonHead left = pythonHead right)
    (child : Node) :
    pythonHead (Language.scanPythonHandler source left child) =
      pythonHead (Language.scanPythonHandler source right child) := by
  unfold pythonHead at h
  simp only [Prod.mk.injEq] at h
  obtain ⟨htypes, hbinding, hafter⟩ := h
  unfold Language.scanPythonHandler pythonHead
  simp only [htypes, hbinding, hafter]
  repeat' split
  all_goals simp [htypes, hbinding, hafter]

theorem pythonHead_scan_block
    {scan : Language.PythonHandlerScan} {child : Node} (hnamed : child.isNamed = true)
    (hkind : child.kind = "block") :
    pythonHead (Language.scanPythonHandler source scan child) = pythonHead scan := by
  unfold Language.scanPythonHandler pythonHead
  simp [hnamed, hkind]

theorem pythonHead_foldl_congr
    {left right : Language.PythonHandlerScan} (h : pythonHead left = pythonHead right)
    (children : List Node) :
    pythonHead (children.foldl (Language.scanPythonHandler source) left) =
      pythonHead (children.foldl (Language.scanPythonHandler source) right) := by
  induction children generalizing left right with
  | nil => exact h
  | cons child children ih => exact ih (pythonHead_scan_congr h child)

/-- A change to a block among the children of a Python handler shows in the body only. -/
theorem pythonHead_foldl_modify
    {children : List Node} {scan : Language.PythonHandlerScan}
    (hchild : children[index]? = some child) (hlabel : (change child).label = child.label)
    (hnamed : child.isNamed = true) (hkind : child.kind = "block") :
    pythonHead ((children.modify index change).foldl (Language.scanPythonHandler source)
        scan) =
      pythonHead (children.foldl (Language.scanPythonHandler source) scan) := by
  induction children generalizing index scan with
  | nil => cases hchild
  | cons first rest ih =>
      cases index with
      | zero =>
          cases hchild
          have hchanged :
              pythonHead (Language.scanPythonHandler source scan (change child)) =
                pythonHead (Language.scanPythonHandler source scan child) := by
            rw [pythonHead_scan_block hnamed hkind]
            apply pythonHead_scan_block
            · rw [← hnamed, Node.isNamed, Node.isNamed, hlabel]
            · rw [← hkind, Node.kind, Node.kind, hlabel]
          exact pythonHead_foldl_congr hchanged rest
      | succ index =>
          rw [List.getElem?_cons_succ] at hchild
          exact ih hchild

theorem cppDeclaration?_changeChild
    (hchild : node.children[index]? = some child)
    (hlabel : (change child).label = child.label)
    (hbody : child.label.field = some "body") :
    Language.cppDeclaration? (node.changeChild index change) =
      Language.cppDeclaration? node := by
  unfold Language.cppDeclaration?
  rw [childByField?_changeChild hchild hlabel hbody _ (by decide)]

theorem kind_eq_of_javaRole
    {kind : String} (h : Language.javaRole kind = .block) :
    kind = "block" := by
  unfold Language.javaRole at h
  split at h
  all_goals first
    | rfl
    | cases h

/-- The parameter of a Java handler is not its body, which is a block. -/
theorem find?_namedChildren_changeChild
    (hchild : node.children[index]? = some child)
    (hlabel : (change child).label = child.label) {kind : String} (hkind : child.kind ≠ kind) :
    (node.changeChild index change).namedChildren.find? (·.kind == kind) =
      node.namedChildren.find? (·.kind == kind) := by
  unfold Node.namedChildren
  rw [List.find?_filter, List.find?_filter]
  apply find?_changeChild_of_not hchild hlabel fun label =>
    decide (label.named = true ∧ (label.kind == kind) = true)
  rw [decide_eq_false_iff_not]
  exact fun htest => hkind (beq_iff_eq.mp htest.2)

/-- Some handler parts tell the same of a handler, its body apart. -/
def SameHead (left right : HandlerParts) : Prop :=
  left.types = right.types ∧ left.binding = right.binding

/-- The body of a Python handler is its last block. -/
theorem sameHead_python
    (hindex : handlerBodyIndex? .python node = some index)
    (hchild : node.children[index]? = some child)
    (hlabel : (change child).label = child.label) :
    SameHead (Language.python.handlerParts source (node.changeChild index change))
      (Language.python.handlerParts source node) := by
  obtain ⟨⟨block, position⟩, hlast, rfl⟩ := Option.map_eq_some_iff.mp hindex
  obtain ⟨hentry, htest⟩ := List.mem_filter.mp (List.mem_of_getLast? hlast)
  rw [List.mk_mem_zipIdx_iff_getElem?.mp hentry] at hchild
  cases hchild
  rw [Bool.and_eq_true, beq_iff_eq] at htest
  have hhead :
      pythonHead ((node.children.modify position change).foldl
          (Language.scanPythonHandler source)
          { parts := { types := [], binding := none, body := none }, afterAs := false }) =
        pythonHead (node.children.foldl (Language.scanPythonHandler source)
          { parts := { types := [], binding := none, body := none }, afterAs := false }) :=
    pythonHead_foldl_modify (List.mk_mem_zipIdx_iff_getElem?.mp hentry) hlabel htest.1 htest.2
  unfold pythonHead at hhead
  simp only [Prod.mk.injEq] at hhead
  exact ⟨hhead.1, hhead.2.1⟩

/-- Elsewhere the body of a handler is under the field `body`. -/
theorem sameHead_of_field
    (hlanguage : language ≠ .python) (hblock : BlockBody language node)
    (hindex : node.children.findIdx? (·.label.field == some "body") = some index)
    (hchild : node.children[index]? = some child)
    (hlabel : (change child).label = child.label) :
    SameHead (language.handlerParts source (node.changeChild index change))
      (language.handlerParts source node) := by
  obtain ⟨hlt, htest, _⟩ := List.findIdx?_eq_some_iff_getElem.mp hindex
  have hbody : child.label.field = some "body" := by
    rw [List.getElem?_eq_getElem hlt, Option.some.injEq] at hchild
    rw [hchild, beq_iff_eq] at htest
    exact htest
  have hrole : language.role node.kind child.kind = .block := by
    apply hblock
    rw [Node.childByField?, List.find?_eq_bind_findIdx?_getElem?, hindex]
    exact hchild
  have hother := childByField?_changeChild hchild hlabel hbody
  unfold SameHead
  cases language with
  | python => exact absurd rfl hlanguage
  | cpp =>
      have hdeclaration := cppDeclaration?_changeChild hchild hlabel hbody
      simp only [Language.handlerParts, Language.cppHandler, hdeclaration, and_self]
  | java =>
      -- The parameter is found by its kind, which a body could have if it were no block.
      have hkind : child.kind ≠ "catch_formal_parameter" := by
        rw [kind_eq_of_javaRole hrole]
        decide
      have hparameter := find?_namedChildren_changeChild hchild hlabel hkind
      simp only [Language.handlerParts, Language.javaHandler, hparameter, and_self]
  | _ =>
      have htype := hother "type" (by decide)
      have hparameter := hother "parameter" (by decide)
      simp only [Language.handlerParts, Language.scriptHandler, htype, hparameter, and_self]

/-- A change to the body of a handler shows in nothing else that is told of the handler. -/
theorem handlerParts_changeChild
    (hblock : BlockBody language node)
    (hindex : presentBodyIndex? language node = some index)
    (hchild : node.children[index]? = some child)
    (hlabel : (change child).label = child.label) :
    SameHead (language.handlerParts source (node.changeChild index change))
      (language.handlerParts source node) := by
  obtain ⟨hindex, _⟩ := Option.filter_eq_some_iff.mp hindex
  by_cases hpython : language = .python
  · subst hpython
    exact sameHead_python hindex hchild hlabel
  · apply sameHead_of_field hpython hblock ?_ hchild hlabel
    unfold handlerBodyIndex? at hindex
    split at hindex
    · exact absurd rfl hpython
    · exact hindex

end

end HandlerLint.Search
