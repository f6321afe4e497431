import HandlerLint.Proofs.Language.Comments
import HandlerLint.Proofs.Lowering.Likeness
import HandlerLint.Proofs.Search.Report

/-!
# Comments do not matter

A node is like the node with its comments deleted: its significant children, the children
ahead of a body, the body and the clauses are found in spite of the comments around them.
Lowering therefore gives the same with and without comments, but for exception types.
-/

namespace HandlerLint.Lowering

open Source
open HandlerLint.Language

variable {language : Language} {node : Node}

/-! ## Bodies and what stands ahead of them -/

theorem bodyOf?_withoutComments
    (h : language.BareComments node) :
    bodyOf? language (language.withoutComments node) =
      (bodyOf? language node).map language.withoutComments := by
  rw [← Search.clauseBlock?_eq_bodyOf?, ← Search.clauseBlock?_eq_bodyOf?]
  unfold clauseBlock?
  rw [childByField?_withoutComments h, significant_withoutComments]
  cases node.childByField? "body" with
  | some body => rfl
  | none =>
      rw [Option.map_none]
      dsimp only
      rw [List.find?_map, Option.map_map, Option.map_map]
      rfl

/-- Besides its body a try node has its other children. -/
theorem besideBody_eq_eraseP
    (language : Language) (node : Node) :
    besideBody language node =
      if node.children.any (·.label.field == some "body") then
        node.children.eraseP (·.label.field == some "body")
      else
        node.children.eraseP fun child =>
          child.isNamed && language.role node.kind child.kind == .block := by
  unfold besideBody bodyIndex?
  rw [← List.findIdx?_isSome, List.eraseP_eq_eraseIdx, List.eraseP_eq_eraseIdx]
  cases node.children.findIdx? (·.label.field == some "body") with
  | some index => rfl
  | none =>
      simp only [Option.isSome_none, Bool.false_eq_true, if_false]
      cases node.children.findIdx? fun child =>
          child.isNamed && language.role node.kind child.kind == .block with
      | some index => rfl
      | none => rfl

/-- Taking out the first child that passes a test of labels goes together with deleting
comments, if no comment passes the test. -/
theorem eraseP_children_withoutComments
    {test : Node → Bool}
    (hlabel : ∀ child, test (language.withoutComments child) = test child)
    (hkeeps : ∀ child ∈ node.children, test child = true →
      language.keeps node child = true) :
    (language.withoutComments node).children.eraseP test =
      ((node.children.eraseP test).filter (language.keeps node)).map
        language.withoutComments := by
  rw [children_withoutComments]
  generalize node.children = children at hkeeps ⊢
  induction children with
  | nil => rfl
  | cons child children ih =>
      have hrest := ih fun other hother => hkeeps other (List.mem_cons_of_mem _ hother)
      by_cases htest : test child = true
      · have hkept := hkeeps child List.mem_cons_self htest
        rw [List.filter_cons_of_pos hkept, List.map_cons,
          List.eraseP_cons_of_pos ((hlabel child).trans htest),
          List.eraseP_cons_of_pos htest]
      · rw [List.eraseP_cons_of_neg htest, List.filter_cons, List.filter_cons]
        split
        · rw [List.map_cons, List.map_cons,
            List.eraseP_cons_of_neg (hlabel child ▸ htest), hrest]
        · exact hrest

theorem besideBody_withoutComments
    (h : language.BareComments node) :
    besideBody language (language.withoutComments node) =
      ((besideBody language node).filter (language.keeps node)).map
        language.withoutComments := by
  have hfield :
      ∀ child ∈ node.children, (child.label.field == some "body") = true →
        language.keeps node child = true :=
    fun child hchild => h.keeps_of_field hchild
  have hany :
      (language.withoutComments node).children.any (·.label.field == some "body") =
        node.children.any (·.label.field == some "body") := by
    rw [← List.isSome_find?, ← List.isSome_find?,
      find?_children_withoutComments (fun child => by rw [label_withoutComments]) hfield,
      Option.isSome_map]
  rw [besideBody_eq_eraseP, besideBody_eq_eraseP, hany, kind_withoutComments]
  split
  · apply eraseP_children_withoutComments _ hfield
    intro child
    rw [label_withoutComments]
  · apply eraseP_children_withoutComments
    · intro child
      rw [isNamed_withoutComments, kind_withoutComments]
    · intro child _ hblock
      rw [Bool.and_eq_true, beq_iff_eq] at hblock
      unfold keeps
      rw [hblock.2]
      rfl

theorem isLeading_mk
    (role : Role) (left right : Node) :
    isLeading { role, node := left } = isLeading { role, node := right } := by
  cases role <;> rfl

theorem leading_withoutComments
    (h : language.BareComments node) :
    leading language (language.withoutComments node) =
      (leading language node).map fun item =>
        { item with node := language.withoutComments item.node } := by
  unfold leading
  rw [besideBody_withoutComments h]
  simp only [List.filter_map, List.map_map, List.filter_filter, Function.comp_def,
    place_withoutComments, isNamed_withoutComments]
  congr 1
  apply List.filter_congr
  intro child _
  rw [place, isLeading_mk _ _ child]
  simp only [keeps, isLeading]
  grind

/-! ## A node is like the node without comments -/

/-- A node with bare comments, and the same node with its comments deleted. -/
def Uncommented (language : Language) (left right : Node) : Prop :=
  left.Everywhere language.BareComments ∧ right = language.withoutComments left

theorem forall₂_uncommented
    {items : List Placed}
    (h : ∀ item ∈ items, item.node.Everywhere language.BareComments) :
    List.Forall₂ (LikeItem (Uncommented language)) items
      (items.map fun item => { item with node := language.withoutComments item.node }) := by
  rw [List.forall₂_map_right_iff, List.forall₂_same]
  intro item hitem
  exact ⟨rfl, h item hitem, rfl⟩

theorem rel_uncommented
    {found : Option Node}
    (h : ∀ child, found = some child → child.Everywhere language.BareComments) :
    Option.Rel (Uncommented language) found (found.map language.withoutComments) := by
  cases found with
  | none => exact .none
  | some child => exact .some ⟨h child rfl, rfl⟩

theorem mem_children_of_mem_leading
    {item : Placed} (h : item ∈ leading language node) :
    item.node ∈ node.children := by
  obtain ⟨child, hchild, rfl⟩ := List.mem_map.mp ((leading_sublist language node).subset h)
  exact hchild

/-- Lowering cannot tell a node from the node without comments, but for exception types. -/
theorem likeness_uncommented
    (language : Language) (source : List UInt8) :
    Likeness .names { language, source } { language, source } (Uncommented language) := by
  have hlabel :
      ∀ {left right : Node}, Uncommented language left right → right.label = left.label := by
    rintro left _ ⟨_, rfl⟩
    exact label_withoutComments left
  refine
    { span := ?_
      kind := ?_
      significant := ?_
      leadingItems := ?_
      body := ?_
      handlerBody := ?_
      binding := ?_
      rethrow := ?_ }
  · intro left right hlike
    rw [Node.span, Node.span, hlabel hlike]
  · intro left right hlike
    rw [Node.kind, Node.kind, hlabel hlike]
  · rintro left _ ⟨hbare, rfl⟩
    rw [significant_withoutComments]
    apply forall₂_uncommented
    intro item hitem
    exact hbare.below (node_mem_of_mem_significant hitem)
  · rintro left _ ⟨hbare, rfl⟩
    rw [leading_withoutComments hbare.here]
    apply forall₂_uncommented
    intro item hitem
    exact hbare.below (mem_children_of_mem_leading hitem)
  · rintro left _ ⟨hbare, rfl⟩
    rw [bodyOf?_withoutComments hbare.here]
    apply rel_uncommented
    intro body hbody
    rw [← Search.clauseBlock?_eq_bodyOf?] at hbody
    exact hbare.below (clauseBlock?_mem hbody)
  · rintro left _ ⟨hbare, rfl⟩
    have hpresent :
        presentBody? (language.handlerParts source (language.withoutComments left)) =
          (presentBody? (language.handlerParts source left)).map
            language.withoutComments := by
      unfold presentBody?
      rw [(sameHandler_handlerParts hbare).body]
      cases (language.handlerParts source left).body with
      | none => rfl
      | some body =>
          rw [Option.map_some, Option.filter_some, Option.filter_some,
            isMissing_withoutComments]
          split <;> rfl
    rw [hpresent]
    apply rel_uncommented
    intro body hbody
    exact hbare.below (handlerParts_body_mem (Option.filter_eq_some_iff.mp hbody).1)
  · rintro left _ ⟨hbare, rfl⟩
    exact (sameHandler_handlerParts hbare).binding.symm
  · rintro left _ name name' ⟨_, rfl⟩ hname
    have hname : name = name' := hname
    rw [hname, isRethrow_withoutComments]

/-- Comments do not matter.  If comments have neither children nor a field, then with and
without them a parse tree fails to be lowered with the same error, or is lowered to models
that are equal but for exception types, with the same findings and the same reports. -/
theorem comments_are_invisible
    {language : Language} {tree : Tree}
    (hbare : tree.root.Everywhere language.BareComments)
    (path : String) (source : List UInt8) :
    (∃ error, lower language path source tree = .error error ∧
        lower language path source
          { tree with root := language.withoutComments tree.root } = .error error) ∨
      ∃ model model', lower language path source tree = .ok model ∧
        lower language path source
          { tree with root := language.withoutComments tree.root } = .ok model' ∧
        model.outline .names = model'.outline .names ∧
        model.classifyAll.map (Finding.outline .names) =
          model'.classifyAll.map (Finding.outline .names) ∧
        ∀ rule : Rule, rule.run model = rule.run model' ∧
          ∀ (σ : Type) (accept : σ → Diagnostic → σ) (start : σ),
            rule.runInto model accept start = rule.runInto model' accept start := by
  apply reports_of_agree
  exact agree_lower (likeness_uncommented language source) path ⟨hbare, rfl⟩ rfl

/-- A source with a comment ahead of a throw's operand and a handler with nothing but a
comment. -/
def commentedSource : List UInt8 :=
  "try {} catch (e) { throw /**/ e } try {} catch { /**/ }".toUTF8.toList

/-- The parse tree of a source with comments. -/
def commentedTree : Tree :=
  { root :=
      Search.lineNode "program" none 0 55
        [Search.lineNode "try_statement" none 0 33
          [Search.lineNode "statement_block" (some "body") 4 6 [],
            Search.lineNode "catch_clause" (some "handler") 7 33
              [Search.lineNode "identifier" (some "parameter") 14 15 [],
                Search.lineNode "statement_block" (some "body") 17 33
                  [Search.lineNode "throw_statement" none 19 31
                    [Search.lineNode "comment" none 25 29 [],
                      Search.lineNode "identifier" none 30 31 []]]]],
          Search.lineNode "try_statement" none 34 55
            [Search.lineNode "statement_block" (some "body") 38 40 [],
              Search.lineNode "catch_clause" (some "handler") 41 55
                [Search.lineNode "statement_block" (some "body") 47 55
                  [Search.lineNode "comment" none 49 53 []]]]]
    hasError := false }

/-- With and without its comments, the sample is lowered to one outline and gets the same
reports. -/
theorem commentedTree_without_comments :
    commentedTree.root.Everywhere (BareComments javascript) ∧
      ∃ model model', lower javascript "a.js" commentedSource commentedTree = .ok model ∧
        lower javascript "a.js" commentedSource
          { commentedTree with root := javascript.withoutComments commentedTree.root } =
            .ok model' ∧
        model.outline .names = model'.outline .names ∧
        ∀ rule : Rule, rule.run model = rule.run model' := by
  have hbare : commentedTree.root.Everywhere (BareComments javascript) := by
    decide +kernel
  have hok : (lower javascript "a.js" commentedSource commentedTree).isOk = true := by
    decide +kernel
  refine ⟨hbare, ?_⟩
  rcases comments_are_invisible hbare "a.js" commentedSource with
    ⟨error, herror, _⟩ | ⟨model, model', hmodel, hmodel', houtline, _, hreports⟩
  · rw [herror] at hok
    cases hok
  · exact ⟨model, model', hmodel, hmodel', houtline, fun rule => (hreports rule).1⟩

end HandlerLint.Lowering
