import HandlerLint.Language.Handler
import HandlerLint.Language.Rethrow
import HandlerLint.Proofs.Source.Everywhere

/-!
# Parse trees without comments

Deleting the comments of a parse tree leaves every other node with its label, so with its
span, its kind and its text.  Whatever looks children up by field or by kind finds the
same child, provided that comments hang under no field.  The search for the name in a
declarator goes through comments as well, and passes them when they have no children.

Comments can show in the exception types of a handler, and nowhere else.
-/

namespace HandlerLint.Language

open Source

variable (language : Language)

/-- Whether a child of a node is something else than a comment. -/
def keeps (parent child : Node) : Bool :=
  language.role parent.kind child.kind != .comment

mutual

/-- A node with all comments below it deleted. -/
def withoutComments : Node → Node
  | .mk label children => .mk label (withoutCommentsIn (.mk label []) children)

/-- The children of a node that are no comments, with all comments below them deleted. -/
def withoutCommentsIn (parent : Node) : List Node → List Node
  | [] => []
  | child :: children =>
      if language.keeps parent child then
        withoutComments child :: withoutCommentsIn parent children
      else withoutCommentsIn parent children

end

/-- A node whose comments have neither children nor a field. -/
def BareComments (node : Node) : Prop :=
  ∀ child ∈ node.children, language.role node.kind child.kind = .comment →
    child.children = [] ∧ child.label.field = none

instance : DecidablePred language.BareComments :=
  fun node => inferInstanceAs (Decidable (∀ child ∈ node.children, _ → _ ∧ _))

variable {language} {node : Node} {source : List UInt8}

/-! ## Labels and children -/

@[simp] theorem label_withoutComments
    (node : Node) :
    (language.withoutComments node).label = node.label := by
  cases node
  rw [withoutComments]
  rfl

@[simp] theorem kind_withoutComments
    (node : Node) :
    (language.withoutComments node).kind = node.kind :=
  congrArg Label.kind (label_withoutComments node)

@[simp] theorem isNamed_withoutComments
    (node : Node) :
    (language.withoutComments node).isNamed = node.isNamed :=
  congrArg Label.named (label_withoutComments node)

theorem withoutCommentsIn_eq
    (parent : Node) (children : List Node) :
    language.withoutCommentsIn parent children =
      (children.filter (language.keeps parent)).map language.withoutComments := by
  induction children with
  | nil => rw [withoutCommentsIn, List.filter_nil, List.map_nil]
  | cons child children ih =>
      rw [withoutCommentsIn, List.filter_cons, ih]
      split
      · rw [List.map_cons]
      · rfl

theorem children_withoutComments
    (node : Node) :
    (language.withoutComments node).children =
      (node.children.filter (language.keeps node)).map language.withoutComments := by
  cases node
  rw [withoutComments, Node.children_mk, withoutCommentsIn_eq]
  rfl

theorem isMissing_withoutComments
    (node : Node) :
    (language.withoutComments node).isMissing = node.isMissing :=
  congrArg Label.missing (label_withoutComments node)

@[simp] theorem text_withoutComments
    (node : Node) :
    (language.withoutComments node).text source = node.text source := by
  unfold Node.text
  rw [label_withoutComments]

theorem map_text_withoutComments
    (node : Option Node) :
    (node.map language.withoutComments).map (Node.text source) =
      node.map (Node.text source) := by
  cases node with
  | none => rfl
  | some node => rw [Option.map_some, Option.map_some, text_withoutComments, Option.map_some]

/-- A test that looks at labels and that no comment passes finds the same child. -/
theorem find?_children_withoutComments
    {test : Node → Bool}
    (hlabel : ∀ child, test (language.withoutComments child) = test child)
    (hkeeps : ∀ child ∈ node.children, test child = true →
      language.keeps node child = true) :
    (language.withoutComments node).children.find? test =
      (node.children.find? test).map language.withoutComments := by
  rw [children_withoutComments]
  generalize node.children = children at hkeeps ⊢
  induction children with
  | nil => rfl
  | cons child children ih =>
      have hrest := ih fun other hother => hkeeps other (List.mem_cons_of_mem _ hother)
      by_cases htest : test child = true
      · have hkept := hkeeps child List.mem_cons_self htest
        rw [List.filter_cons_of_pos hkept, List.map_cons,
          List.find?_cons_of_pos ((hlabel child).trans htest),
          List.find?_cons_of_pos htest, Option.map_some]
      · rw [List.find?_cons_of_neg htest, List.filter_cons]
        split
        · rw [List.map_cons, List.find?_cons_of_neg (hlabel child ▸ htest), hrest]
        · exact hrest

theorem BareComments.keeps_of_field
    (h : language.BareComments node) {child : Node} {field : String}
    (hchild : child ∈ node.children) (hfield : (child.label.field == some field) = true) :
    language.keeps node child = true := by
  unfold keeps
  rw [bne_iff_ne]
  intro hcomment
  rw [(h child hchild hcomment).2] at hfield
  cases hfield

theorem keeps_of_kind
    {child : Node} {kind : String} (hkind : language.role node.kind kind ≠ .comment)
    (h : (child.kind == kind) = true) :
    language.keeps node child = true := by
  unfold keeps
  rw [bne_iff_ne, beq_iff_eq.mp h]
  exact hkind

theorem childByField?_withoutComments
    (h : language.BareComments node) (field : String) :
    (language.withoutComments node).childByField? field =
      (node.childByField? field).map language.withoutComments := by
  apply find?_children_withoutComments
  · intro child
    rw [label_withoutComments]
  · intro child hchild hfield
    exact h.keeps_of_field hchild hfield

theorem find?_namedChildren_withoutComments
    {kind : String} (hkind : language.role node.kind kind ≠ .comment) :
    (language.withoutComments node).namedChildren.find? (·.kind == kind) =
      (node.namedChildren.find? (·.kind == kind)).map language.withoutComments := by
  unfold Node.namedChildren
  rw [List.find?_filter, List.find?_filter]
  apply find?_children_withoutComments
  · intro child
    rw [decide_eq_decide, isNamed_withoutComments, kind_withoutComments]
  · intro child _ htest
    rw [decide_eq_true_eq] at htest
    exact keeps_of_kind hkind htest.2

theorem place_withoutComments
    (parent child : Node) :
    language.place (language.withoutComments parent) (language.withoutComments child) =
      { language.place parent child with node := language.withoutComments child } := by
  rw [place, kind_withoutComments, kind_withoutComments]
  rfl

theorem map_node_significant
    (node : Node) :
    (language.significant node).map Placed.node =
      node.namedChildren.filter (language.keeps node) := by
  rw [significant, List.filter_map, map_node_place]
  rfl

theorem significant_withoutComments
    (node : Node) :
    language.significant (language.withoutComments node) =
      (language.significant node).map fun item =>
        { item with node := language.withoutComments item.node } := by
  unfold significant Node.namedChildren
  rw [children_withoutComments]
  simp only [List.filter_map, List.map_map, List.filter_filter, Function.comp_def,
    place_withoutComments, isNamed_withoutComments]
  congr 1
  apply List.filter_congr
  intro child _
  simp only [keeps, place]
  grind

/-! ## Rethrows -/

theorem operand?_withoutComments
    (node : Node) :
    language.operand? (language.withoutComments node) =
      (language.operand? node).map language.withoutComments := by
  unfold operand?
  rw [significant_withoutComments, List.head?_map, Option.map_map, Option.map_map]
  rfl

theorem isBoundName_withoutComments
    (binding : Option String) (node : Node) :
    isBoundName source binding (language.withoutComments node) =
      isBoundName source binding node := by
  unfold isBoundName
  rw [kind_withoutComments, text_withoutComments]

/-- A comment between a throw and its operand does not matter. -/
theorem isRethrow_withoutComments
    (binding : Option String) (node : Node) :
    language.isRethrow source binding (language.withoutComments node) =
      language.isRethrow source binding node := by
  have hcause :
      (language.withoutComments node).children.any (·.kind == "from") =
        node.children.any (·.kind == "from") := by
    have hkind : language.role node.kind "from" ≠ .comment := by
      have hother : language.role node.kind "from" = .other := by cases language <;> rfl
      rw [hother]
      decide
    rw [← List.isSome_find?, ← List.isSome_find?, find?_children_withoutComments,
      Option.isSome_map]
    · intro child
      rw [kind_withoutComments]
    · intro child _ hfrom
      exact keeps_of_kind hkind hfrom
  unfold isRethrow
  rw [hcause, operand?_withoutComments]
  cases language.operand? node with
  | none => rfl
  | some operand => simp only [Option.map_some, isBoundName_withoutComments, Option.isNone_some]

/-! ## Handlers -/

/-- Parts of a handler that are the same but for exception types, once the comments of the
body are deleted. -/
structure SameHandler (language : Language) (left right : HandlerParts) : Prop where
  binding : right.binding = left.binding
  body : right.body = left.body.map language.withoutComments

theorem declaratorName?_of_comment
    {child : Node} (hcomment : cpp.role node.kind child.kind = .comment)
    (hleaf : child.children = []) :
    declaratorName? source child = none := by
  obtain ⟨label, children⟩ := child
  rw [Node.children_mk] at hleaf
  have hkind : ¬(label.kind == "identifier") = true := by
    intro hidentifier
    simp [role, cppRole, Node.kind, beq_iff_eq.mp hidentifier] at hcomment
  rw [declaratorName?, if_neg hkind, hleaf, declaratorNameIn?]

mutual

theorem declaratorName?_withoutComments : ∀ node : Node,
    node.Everywhere (BareComments cpp) →
      declaratorName? source (cpp.withoutComments node) = declaratorName? source node
  | .mk label children, h => by
      rw [Node.Everywhere] at h
      have hinside := declaratorNameIn?_withoutCommentsIn (.mk label []) children
        (fun child hchild hcomment => (h.1 child hchild hcomment).1) h.2
      rw [withoutComments, declaratorName?, declaratorName?, hinside]
      rfl

theorem declaratorNameIn?_withoutCommentsIn (parent : Node) : ∀ children : List Node,
    (∀ child ∈ children, cpp.role parent.kind child.kind = .comment → child.children = []) →
      Node.EverywhereIn (BareComments cpp) children →
        declaratorNameIn? source (cpp.withoutCommentsIn parent children) =
          declaratorNameIn? source children
  | [], _, _ => by rw [withoutCommentsIn]
  | child :: children, hleaves, h => by
      rw [Node.EverywhereIn] at h
      have hchild := declaratorName?_withoutComments child h.1
      have hrest := declaratorNameIn?_withoutCommentsIn parent children
        (fun other hother => hleaves other (List.mem_cons_of_mem _ hother)) h.2
      rw [withoutCommentsIn]
      split
      · rw [declaratorNameIn?, declaratorNameIn?, isNamed_withoutComments, hchild, hrest]
      · next hkeeps =>
          have hcomment : cpp.role parent.kind child.kind = .comment := by
            simpa [keeps] using hkeeps
          have hnone : declaratorName? source child = none :=
            declaratorName?_of_comment hcomment (hleaves child List.mem_cons_self hcomment)
          rw [hrest, declaratorNameIn?, hnone]
          split <;> rfl

end

theorem cppDeclaration?_withoutComments
    (h : cpp.BareComments node) :
    cppDeclaration? (cpp.withoutComments node) =
      (cppDeclaration? node).map cpp.withoutComments := by
  unfold cppDeclaration?
  rw [childByField?_withoutComments h]
  cases node.childByField? "parameters" with
  | none => rfl
  | some parameters =>
      have hkind : cpp.role parameters.kind "parameter_declaration" ≠ .comment := by
        simp [role, cppRole]
      exact find?_namedChildren_withoutComments hkind

theorem mem_children_of_find?_namedChildren
    {test : Node → Bool} {child : Node} (h : node.namedChildren.find? test = some child) :
    child ∈ node.children :=
  (List.mem_filter.mp (List.mem_of_find?_eq_some h)).1

theorem sameHandler_cpp
    (h : node.Everywhere (BareComments cpp)) :
    SameHandler cpp (cppHandler source node)
      (cppHandler source (cpp.withoutComments node)) := by
  refine ⟨?_, childByField?_withoutComments h.here "body"⟩
  unfold cppHandler
  dsimp only
  rw [cppDeclaration?_withoutComments h.here]
  cases hdeclaration : cppDeclaration? node with
  | none => rfl
  | some declaration =>
      obtain ⟨parameters, hparameters, hfound⟩ := Option.bind_eq_some_iff.mp hdeclaration
      have hbelow : declaration.Everywhere (BareComments cpp) :=
        (h.below (Node.childByField?_mem hparameters)).below
          (mem_children_of_find?_namedChildren hfound)
      rw [Option.map_some, Option.bind_some, Option.bind_some,
        childByField?_withoutComments hbelow.here]
      cases hdeclarator : declaration.childByField? "declarator" with
      | none => rfl
      | some declarator =>
          exact declaratorName?_withoutComments declarator
            (hbelow.below (Node.childByField?_mem hdeclarator))

theorem sameHandler_java
    (h : node.Everywhere (BareComments java)) :
    SameHandler java (javaHandler source node)
      (javaHandler source (java.withoutComments node)) := by
  refine ⟨?_, childByField?_withoutComments h.here "body"⟩
  have hkind : java.role node.kind "catch_formal_parameter" ≠ .comment := by
    simp [role, javaRole]
  unfold javaHandler
  dsimp only
  rw [find?_namedChildren_withoutComments hkind]
  cases hparameter : node.namedChildren.find? (·.kind == "catch_formal_parameter") with
  | none => rfl
  | some parameter =>
      have hbelow := h.below (mem_children_of_find?_namedChildren hparameter)
      rw [Option.map_some, Option.bind_some, Option.bind_some,
        childByField?_withoutComments hbelow.here, map_text_withoutComments]

theorem sameHandler_script
    (h : language.BareComments node) :
    SameHandler language (scriptHandler source node)
      (scriptHandler source (language.withoutComments node)) := by
  refine ⟨?_, childByField?_withoutComments h "body"⟩
  unfold scriptHandler
  dsimp only
  rw [childByField?_withoutComments h]
  cases node.childByField? "parameter" with
  | none => rfl
  | some parameter => simp only [Option.map_some, kind_withoutComments, text_withoutComments]

/-! ### Python -/

/-- What is known after the same children of a Python handler, with and without
comments. -/
structure SameScan (left right : PythonHandlerScan) : Prop where
  parts : SameHandler python left.parts right.parts
  afterAs : right.afterAs = left.afterAs

theorem eq_comment_of_pythonRole
    {parentKind kind : String} (h : pythonRole parentKind kind = .comment) :
    kind = "comment" := by
  unfold pythonRole at h
  split at h
  case h_9 => rfl
  case h_4 => split at h <;> cases h
  all_goals cases h

theorem scanPythonHandler_of_comment
    {child : Node} (hcomment : python.role node.kind child.kind = .comment)
    (scan : PythonHandlerScan) :
    scanPythonHandler source scan child = scan := by
  unfold scanPythonHandler
  rw [eq_comment_of_pythonRole hcomment]
  split <;> rfl

/-- A child that is no comment is taken in the same way with and without the comments
below it. -/
theorem SameScan.step
    {left right : PythonHandlerScan} (h : SameScan left right) {child : Node}
    (hbare : python.BareComments child) :
    SameScan (scanPythonHandler source left child)
      (scanPythonHandler source right (python.withoutComments child)) := by
  obtain ⟨⟨hbinding, hbody⟩, hafter⟩ := h
  unfold scanPythonHandler
  rw [isNamed_withoutComments, kind_withoutComments, text_withoutComments,
    childByField?_withoutComments hbare, hafter]
  by_cases hnamed : (!child.isNamed) = true
  · simp only [if_pos hnamed]
    by_cases has : (child.kind == "as" || child.kind == ",") = true
    · simp only [if_pos has]
      exact ⟨⟨hbinding, hbody⟩, rfl⟩
    · simp only [if_neg has]
      exact ⟨⟨hbinding, hbody⟩, hafter⟩
  simp only [if_neg hnamed]
  by_cases hblock : (child.kind == "block") = true
  · simp only [if_pos hblock]
    exact ⟨⟨hbinding, rfl⟩, rfl⟩
  simp only [if_neg hblock]
  by_cases hcomment : (child.kind == "comment") = true
  · simp only [if_pos hcomment]
    exact ⟨⟨hbinding, hbody⟩, hafter⟩
  simp only [if_neg hcomment]
  by_cases hpattern : (child.kind == "as_pattern") = true
  · simp only [if_pos hpattern]
    exact ⟨⟨map_text_withoutComments _, hbody⟩, rfl⟩
  simp only [if_neg hpattern]
  by_cases hname : left.afterAs = true
  · simp only [if_pos hname]
    exact ⟨⟨rfl, hbody⟩, rfl⟩
  · simp only [if_neg hname]
    exact ⟨⟨hbinding, hbody⟩, rfl⟩

theorem SameScan.run
    {left right : PythonHandlerScan} (h : SameScan left right) (parent : Node)
    {children : List Node} (hbare : ∀ child ∈ children, python.BareComments child) :
    SameScan (children.foldl (scanPythonHandler source) left)
      ((python.withoutCommentsIn parent children).foldl (scanPythonHandler source) right) := by
  induction children generalizing left right with
  | nil =>
      rw [withoutCommentsIn]
      exact h
  | cons child children ih =>
      have hrest := fun other hother => hbare other (List.mem_cons_of_mem child hother)
      rw [withoutCommentsIn]
      split
      · exact ih (h.step (hbare child List.mem_cons_self)) hrest
      · next hkeeps =>
          have hcomment : python.role parent.kind child.kind = .comment := by
            simpa [keeps] using hkeeps
          rw [List.foldl_cons, scanPythonHandler_of_comment hcomment]
          exact ih h hrest

theorem sameHandler_python
    (h : node.Everywhere (BareComments python)) :
    SameHandler python (pythonHandler source node)
      (pythonHandler source (python.withoutComments node)) := by
  obtain ⟨label, children⟩ := node
  have hstart :
      ∀ scan : PythonHandlerScan, scan.parts.body = none → SameScan scan scan := by
    intro scan hnone
    refine ⟨⟨rfl, ?_⟩, rfl⟩
    rw [hnone]
    rfl
  have hchildren : ∀ child ∈ children, python.BareComments child :=
    fun child hchild => (h.below hchild).here
  unfold pythonHandler
  rw [withoutComments]
  exact ((hstart _ rfl).run (.mk label []) hchildren).parts

/-- The name that a handler binds and its body are the same with and without comments. -/
theorem sameHandler_handlerParts
    (h : node.Everywhere language.BareComments) :
    SameHandler language (language.handlerParts source node)
      (language.handlerParts source (language.withoutComments node)) := by
  cases language with
  | cpp => exact sameHandler_cpp h
  | java => exact sameHandler_java h
  | python => exact sameHandler_python h
  | javascript => exact sameHandler_script h.here
  | tsx => exact sameHandler_script h.here
  | typescript => exact sameHandler_script h.here

end HandlerLint.Language
