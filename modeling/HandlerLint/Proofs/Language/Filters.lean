import HandlerLint.Proofs.Language.Comments
import HandlerLint.Proofs.Search.ChangedChild

/-!
# The exception types of a handler

A handler lists the types of the exceptions that it catches.  In Java they stand side by
side in the catch type.  In Python the filter of a handler is an expression, and the types
are the leaves of its tuples and parentheses; comments may stand between any two parts, and
the name that the handler binds is no part of the filter.

The leaves of a filter are listed with their addresses, the child indices that lead to them.
They come in the order of their addresses, which is the order of the source.

A Python handler never lists a comment among its types.  A Java handler lists every comment
that stands between its types.
-/

namespace HandlerLint.Language

open Source

variable {source : List UInt8}

/-! ## Alternatives of a filter expression -/

/-- Whether a filter expression is put together from other ones. -/
def isGroup (node : Node) : Bool :=
  node.kind == "tuple" || node.kind == "parenthesized_expression"

/-- What stands at an address in a filter expression, if that is one of the alternatives:
an expression that is neither put together nor a comment, reached through groups only. -/
inductive AlternativeAt : Node → List Nat → Node → Prop
  | here {node : Node} :
      isGroup node = false → node.kind ≠ "comment" → AlternativeAt node [] node
  | inside {node child leaf : Node} {index : Nat} {address : List Nat} :
      isGroup node = true → node.children[index]? = some child → child.isNamed = true →
        AlternativeAt child address leaf → AlternativeAt node (index :: address) leaf

mutual

/-- The alternatives of a filter expression with their addresses, in source order. -/
def alternatives : Node → List (List Nat × Node)
  | .mk label children =>
      if isGroup (.mk label children) then alternativesFrom 0 children
      else if label.kind == "comment" then []
      else [([], .mk label children)]

/-- The alternatives of some filter expressions, of which the first has a given index among
the children of a group. -/
def alternativesFrom (index : Nat) : List Node → List (List Nat × Node)
  | [] => []
  | node :: nodes =>
      (if node.isNamed then (alternatives node).map fun entry => (index :: entry.1, entry.2)
        else []) ++
        alternativesFrom (index + 1) nodes

end

theorem alternatives_eq
    (node : Node) :
    alternatives node =
      if isGroup node then alternativesFrom 0 node.children
      else if node.kind == "comment" then []
      else [([], node)] := by
  cases node
  rw [alternatives]
  rfl

theorem mem_alternativesFrom_iff
    {start : Nat} {nodes : List Node} {address : List Nat} {leaf : Node} :
    (address, leaf) ∈ alternativesFrom start nodes ↔
      ∃ index child rest, nodes[index]? = some child ∧ child.isNamed = true ∧
        address = (start + index) :: rest ∧ (rest, leaf) ∈ alternatives child := by
  induction nodes generalizing start with
  | nil => simp [alternativesFrom]
  | cons node nodes ih =>
      rw [alternativesFrom, List.mem_append, ih]
      constructor
      · rintro (hfirst | ⟨index, child, rest, hchild, hnamed, rfl, hrest⟩)
        · split at hfirst
          · next hnamed =>
              simp only [List.mem_map, Prod.mk.injEq, Prod.exists] at hfirst
              obtain ⟨rest, other, hrest, rfl, rfl⟩ := hfirst
              exact ⟨0, node, rest, rfl, hnamed, rfl, hrest⟩
          · simp at hfirst
        · refine ⟨index + 1, child, rest, hchild, hnamed, ?_, hrest⟩
          rw [Nat.add_assoc, Nat.add_comm 1]
      · rintro ⟨index, child, rest, hchild, hnamed, rfl, hrest⟩
        match index with
        | 0 =>
            obtain rfl : node = child := by simpa using hchild
            left
            rw [if_pos hnamed]
            exact List.mem_map_of_mem hrest
        | index + 1 =>
            refine .inr ⟨index, child, rest, by simpa using hchild, hnamed, ?_, hrest⟩
            rw [Nat.add_assoc, Nat.add_comm 1]

/-- Listed are exactly the alternatives, each under its address. -/
theorem mem_alternatives_iff
    {node leaf : Node} {address : List Nat} :
    (address, leaf) ∈ alternatives node ↔ AlternativeAt node address leaf := by
  induction address generalizing node with
  | nil =>
      rw [alternatives_eq]
      constructor
      · intro h
        split at h
        · simp [mem_alternativesFrom_iff] at h
        · next hgroup =>
            split at h
            · simp at h
            · next hcomment =>
                obtain rfl : leaf = node := by simpa using h
                exact .here (by simpa using hgroup) (by simpa using hcomment)
      · intro h
        cases h with
        | here hgroup hcomment => simp [hgroup, hcomment]
  | cons index address ih =>
      rw [alternatives_eq]
      constructor
      · intro h
        split at h
        · next hgroup =>
            obtain ⟨position, child, rest, hchild, hnamed, haddress, hrest⟩ :=
              mem_alternativesFrom_iff.mp h
            obtain ⟨rfl, rfl⟩ : index = position ∧ address = rest := by simpa using haddress
            exact .inside hgroup hchild hnamed (ih.mp hrest)
        · split at h <;> simp at h
      · intro h
        cases h with
        | inside hgroup hchild hnamed hrest =>
            rw [if_pos hgroup, mem_alternativesFrom_iff]
            exact ⟨index, _, address, hchild, hnamed, by simp, ih.mpr hrest⟩

mutual

/-- The alternatives are listed in source order. -/
theorem pairwise_alternatives :
    (node : Node) → (alternatives node).Pairwise fun left right => left.1 < right.1
  | .mk label children => by
      rw [alternatives]
      split
      · exact pairwise_alternativesFrom 0 children
      · split <;> simp

theorem pairwise_alternativesFrom
    (start : Nat) :
    (nodes : List Node) →
      (alternativesFrom start nodes).Pairwise fun left right => left.1 < right.1
  | [] => by simp [alternativesFrom]
  | node :: nodes => by
      rw [alternativesFrom, List.pairwise_append]
      refine ⟨?_, pairwise_alternativesFrom (start + 1) nodes, ?_⟩
      · split
        · rw [List.pairwise_map]
          exact (pairwise_alternatives node).imp fun h => List.cons_lt_cons_iff.mpr (.inr ⟨rfl, h⟩)
        · simp
      · rintro left hleft ⟨address, leaf⟩ hright
        obtain ⟨index, child, rest, -, -, rfl, -⟩ := mem_alternativesFrom_iff.mp hright
        split at hleft
        · obtain ⟨entry, -, rfl⟩ := List.mem_map.mp hleft
          exact List.cons_lt_cons_iff.mpr (.inl (by omega))
        · simp at hleft

end

mutual

/-- The types of a filter are the texts of its alternatives. -/
theorem filterTypes_eq :
    (node : Node) →
      filterTypes source node = (alternatives node).map fun entry => entry.2.text source
  | .mk label children => by
      rw [filterTypes, alternatives]
      by_cases hgroup : isGroup (.mk label children) = true
      · rw [if_pos hgroup]
        exact (if_pos hgroup).trans (filterTypesIn_eq 0 children)
      · rw [if_neg hgroup]
        refine (if_neg hgroup).trans ?_
        split <;> simp

theorem filterTypesIn_eq
    (start : Nat) :
    (nodes : List Node) →
      filterTypesIn source nodes =
        (alternativesFrom start nodes).map fun entry => entry.2.text source
  | [] => by simp [filterTypesIn, alternativesFrom]
  | node :: nodes => by
      rw [filterTypesIn, alternativesFrom, List.map_append, ← filterTypesIn_eq (start + 1) nodes]
      split
      · rw [List.map_map, filterTypes_eq node]
        rfl
      · simp

end

/-! ## Parts of a Python handler -/

/-- Whether a child of a Python handler is no part of what it catches and binds: its body, a
comment, or a token that separates nothing. -/
def isAside (child : Node) : Bool :=
  if child.isNamed then child.kind == "block" || child.kind == "comment"
  else child.kind != "as" && child.kind != ","

/-- Whether a child of a Python handler is an expression of its own. -/
def isOperand (child : Node) : Bool :=
  child.isNamed && ! isAside child && child.kind != "as_pattern"

/-- What a Python handler catches and what it binds, by the children that are not aside.  An
`as` and its two sides stand in one pattern or side by side; the comma is an older `as`.  A
comment ahead of a pattern stands outside of it. -/
inductive FilteredBy : List Node → Option Node → Option Node → Prop
  | everything : FilteredBy [] none none
  | plain {filter : Node} :
      isOperand filter = true → FilteredBy [filter] (some filter) none
  | pattern {pattern filter name : Node} :
      pattern.isNamed = true → pattern.kind = "as_pattern" →
        pattern.namedChildren.head? = some filter → filter.kind ≠ "comment" →
          pattern.childByField? "alias" = some name →
            FilteredBy [pattern] (some filter) (some name)
  | separate {filter token name : Node} :
      isOperand filter = true → token.isNamed = false →
        (token.kind = "as" ∨ token.kind = ",") → isOperand name = true →
          FilteredBy [filter, token, name] (some filter) (some name)

/-- A Python handler with its filter and the name that it binds. -/
def ExceptClause (clause : Node) (filter name : Option Node) : Prop :=
  FilteredBy (clause.children.filter (! isAside ·)) filter name

theorem pythonHead_scan_of_isAside
    {scan : PythonHandlerScan} {child : Node} (h : isAside child = true) :
    Search.pythonHead (scanPythonHandler source scan child) = Search.pythonHead scan := by
  unfold isAside at h
  unfold scanPythonHandler
  split at h
  · next hnamed =>
      rw [Bool.or_eq_true, beq_iff_eq, beq_iff_eq] at h
      rcases h with hkind | hkind <;> simp [hnamed, hkind, Search.pythonHead]
  · next hnamed => simp_all

/-- What is aside does not show in what a Python handler catches and binds. -/
theorem pythonHead_foldl_filter
    (children : List Node) (scan : PythonHandlerScan) :
    Search.pythonHead (children.foldl (scanPythonHandler source) scan) =
      Search.pythonHead
        ((children.filter (! isAside ·)).foldl (scanPythonHandler source) scan) := by
  induction children generalizing scan with
  | nil => rfl
  | cons child children ih =>
      by_cases haside : isAside child = true
      · rw [List.filter_cons_of_neg (by simp [haside]), List.foldl_cons, ← ih]
        exact Search.pythonHead_foldl_congr (pythonHead_scan_of_isAside haside) children
      · rw [List.filter_cons_of_pos (by simp [haside]), List.foldl_cons, List.foldl_cons, ih]

/-- What is known of a Python handler ahead of its children. -/
def pythonStart : PythonHandlerScan :=
  { parts := { types := [], binding := none, body := none }, afterAs := false }

theorem pythonHead_scan_of_isOperand
    {scan : PythonHandlerScan} {child : Node} (h : isOperand child = true) :
    Search.pythonHead (scanPythonHandler source scan child) =
      if (Search.pythonHead scan).2.2 then
        ((Search.pythonHead scan).1, some (child.text source), true)
      else
        ((Search.pythonHead scan).1 ++ filterTypes source child,
          (Search.pythonHead scan).2.1, false) := by
  unfold isOperand isAside at h
  rw [Bool.and_eq_true, Bool.and_eq_true, bne_iff_ne] at h
  obtain ⟨⟨hnamed, haside⟩, hpattern⟩ := h
  rw [if_pos hnamed, Bool.not_eq_true', Bool.or_eq_false_iff, beq_eq_false_iff_ne,
    beq_eq_false_iff_ne] at haside
  unfold scanPythonHandler Search.pythonHead
  simp only [hnamed, haside, hpattern, Bool.not_true, Bool.false_eq_true, if_false, beq_iff_eq]
  split <;> simp_all

theorem pythonHead_scan_of_pattern
    {scan : PythonHandlerScan} {pattern filter : Node} (hnamed : pattern.isNamed = true)
    (hkind : pattern.kind = "as_pattern") (hfilter : pattern.namedChildren.head? = some filter) :
    Search.pythonHead (scanPythonHandler source scan pattern) =
      ((Search.pythonHead scan).1 ++ filterTypes source filter,
        (pattern.childByField? "alias").map (Node.text source),
        (Search.pythonHead scan).2.2) := by
  unfold scanPythonHandler Search.pythonHead
  simp [hnamed, hkind, hfilter]

theorem pythonHead_scan_of_separator
    {scan : PythonHandlerScan} {token : Node} (hnamed : token.isNamed = false)
    (hkind : token.kind = "as" ∨ token.kind = ",") :
    Search.pythonHead (scanPythonHandler source scan token) =
      ((Search.pythonHead scan).1, (Search.pythonHead scan).2.1, true) := by
  unfold scanPythonHandler Search.pythonHead
  simp [hnamed, hkind]

theorem pythonHead_foldl_of_filteredBy
    (source : List UInt8) {parts : List Node} {filter name : Option Node}
    (h : FilteredBy parts filter name) :
    ∃ afterAs,
      Search.pythonHead (parts.foldl (scanPythonHandler source) pythonStart) =
        (filter.toList.flatMap (filterTypes source), name.map (Node.text source), afterAs) := by
  have hstart : Search.pythonHead pythonStart = ([], none, false) := rfl
  cases h with
  | everything => exact ⟨false, rfl⟩
  | plain hfilter =>
      refine ⟨false, (pythonHead_scan_of_isOperand hfilter).trans ?_⟩
      simp [hstart]
  | pattern hnamed hkind hfilter _ hname =>
      refine ⟨false, (pythonHead_scan_of_pattern hnamed hkind hfilter).trans ?_⟩
      simp [hstart, hname]
  | separate hfilter hnamed hkind hname =>
      -- The separator sends the operand after it to the binding.
      refine ⟨true, (pythonHead_scan_of_isOperand hname).trans ?_⟩
      rw [pythonHead_scan_of_separator hnamed hkind, pythonHead_scan_of_isOperand hfilter]
      simp [hstart]

/-- A Python handler lists the texts of the alternatives of its filter, and binds the text of
its name. -/
theorem python_types_and_binding
    {clause : Node} {filter name : Option Node} (h : ExceptClause clause filter name) :
    (python.handlerParts source clause).types =
        (filter.toList.flatMap alternatives).map (·.2.text source) ∧
      (python.handlerParts source clause).binding = name.map (Node.text source) := by
  obtain ⟨afterAs, hfold⟩ := pythonHead_foldl_of_filteredBy source h
  have hhead := (pythonHead_foldl_filter clause.children pythonStart).trans hfold
  simp only [Search.pythonHead, Prod.mk.injEq] at hhead
  obtain ⟨htypes, hbinding, -⟩ := hhead
  refine ⟨htypes.trans ?_, hbinding⟩
  rw [List.map_flatMap]
  exact List.flatMap_congr fun filter _ => filterTypes_eq filter

/-! ## Parts of a Java handler -/

/-- A Java handler with the catch type of its one parameter. -/
def CatchClause (clause catchType : Node) : Prop :=
  ∃ parameter,
    clause.namedChildren.filter (·.kind == "catch_formal_parameter") = [parameter] ∧
      parameter.namedChildren.filter (·.kind == "catch_type") = [catchType]

theorem find?_eq_of_filter_eq_singleton
    {α : Type} {test : α → Bool} {values : List α} {value : α}
    (h : values.filter test = [value]) :
    values.find? test = some value := by
  rw [← List.head?_filter, h, List.head?_cons]

/-- A Java handler lists all that the grammar names in its catch type. -/
theorem java_types_eq
    {clause catchType : Node} (h : CatchClause clause catchType) :
    (java.handlerParts source clause).types =
      catchType.namedChildren.map (Node.text source) := by
  obtain ⟨parameter, hparameter, hcatchType⟩ := h
  simp only [handlerParts, javaHandler, find?_eq_of_filter_eq_singleton hparameter,
    Option.bind_some, find?_eq_of_filter_eq_singleton hcatchType]

/-- The alternatives of a catch type have the texts of all that is named there only if
nothing named there is a comment. -/
theorem java_types_eq_iff
    {clause catchType : Node} (h : CatchClause clause catchType) :
    (java.handlerParts source clause).types =
        (java.significant catchType).map (·.node.text source) ↔
      ∀ child ∈ catchType.namedChildren, java.role catchType.kind child.kind ≠ .comment := by
  have hnodes :
      (java.significant catchType).map (·.node.text source) =
        (catchType.namedChildren.filter (java.keeps catchType)).map (Node.text source) := by
    rw [← map_node_significant, List.map_map]
    rfl
  have hkeeps :
      (∀ child ∈ catchType.namedChildren, java.role catchType.kind child.kind ≠ .comment) ↔
        catchType.namedChildren.filter (java.keeps catchType) = catchType.namedChildren := by
    simp only [List.filter_eq_self, keeps, bne_iff_ne]
  rw [java_types_eq h, hnodes, hkeeps]
  constructor
  · intro htexts
    have hlength := congrArg List.length htexts
    rw [List.length_map, List.length_map] at hlength
    exact List.filter_sublist.eq_of_length hlength.symm
  · intro hall
    rw [hall]

/-- The exception types of a Java handler are the texts of the alternatives of its catch type
if and only if no comment stands among them.  Those of a Python handler are the texts of the
alternatives of its filter, which are listed in source order; the name that it binds is told
apart from them. -/
theorem exception_types_are_alternatives_iff
    (source : List UInt8) :
    (∀ clause catchType, CatchClause clause catchType →
        (java.handlerParts source clause).types =
            catchType.namedChildren.map (Node.text source) ∧
          ((java.handlerParts source clause).types =
              (java.significant catchType).map (·.node.text source) ↔
            ∀ child ∈ catchType.namedChildren,
              java.role catchType.kind child.kind ≠ .comment)) ∧
      (∀ clause filter name, ExceptClause clause filter name →
        (python.handlerParts source clause).types =
            (filter.toList.flatMap alternatives).map (·.2.text source) ∧
          (python.handlerParts source clause).binding = name.map (Node.text source)) ∧
      ∀ filter,
        ((alternatives filter).Pairwise fun left right => left.1 < right.1) ∧
          ∀ address leaf,
            (address, leaf) ∈ alternatives filter ↔ AlternativeAt filter address leaf := by
  refine ⟨?_, ?_, ?_⟩
  · intro clause catchType hclause
    exact ⟨java_types_eq hclause, java_types_eq_iff hclause⟩
  · intro clause filter name hclause
    exact python_types_and_binding hclause
  · intro filter
    exact ⟨pairwise_alternatives filter, fun _ _ => mem_alternatives_iff⟩

/-- A catch type with a comment on both sides of its bar. -/
def commentedType : Node :=
  Search.lineNode "catch_type" none 7 28
    [Search.lineNode "type_identifier" none 7 8 [],
      Search.lineNode "block_comment" none 9 16 [],
      Search.lineToken "|" 17,
      Search.lineNode "block_comment" none 19 26 [],
      Search.lineNode "type_identifier" none 27 28 []]

/-- A Java handler with a commented catch type. -/
def commentedCatch : Node :=
  Search.lineNode "catch_clause" none 0 34
    [Search.lineToken "catch" 0,
      Search.lineToken "(" 6,
      Search.lineNode "catch_formal_parameter" none 7 30
        [commentedType, Search.lineNode "identifier" (some "name") 29 30 []],
      Search.lineToken ")" 30,
      Search.lineNode "block" (some "body") 32 34 []]

/-- The filter of a Python handler, with a tuple inside a tuple. -/
def nestedFilter : Node :=
  Search.lineNode "tuple" none 7 20
    [Search.lineToken "(" 7,
      Search.lineNode "tuple" none 8 14
        [Search.lineToken "(" 8,
          Search.lineNode "identifier" none 9 10 [],
          Search.lineToken "," 10,
          Search.lineNode "identifier" none 12 13 [],
          Search.lineToken ")" 13],
      Search.lineToken "," 14,
      Search.lineNode "parenthesized_expression" none 16 19
        [Search.lineToken "(" 16,
          Search.lineNode "identifier" none 17 18 [],
          Search.lineToken ")" 18],
      Search.lineToken ")" 19]

/-- A Python handler with a nested filter and a name. -/
def nestedExcept : Node :=
  Search.lineNode "except_clause" none 0 31
    [Search.lineToken "except" 0,
      Search.lineNode "as_pattern" none 7 25
        [nestedFilter,
          Search.lineToken "as" 21,
          Search.lineNode "as_pattern_target" (some "alias") 24 25 []],
      Search.lineToken ":" 25,
      Search.lineNode "block" none 27 31 []]

/-- The handler `catch (A /* c */ | /* d */ B e) {}` lists its comments as types; the handler
`except ((A, B), (C)) as e: pass` lists three types and binds a name. -/
theorem exception_types_with_comments_and_nesting :
    (∃ source,
      CatchClause commentedCatch commentedType ∧
        (java.handlerParts source commentedCatch).types = ["A", "/* c */", "/* d */", "B"] ∧
        (java.handlerParts source commentedCatch).types ≠
          (java.significant commentedType).map (·.node.text source)) ∧
      ∃ source name,
        ExceptClause nestedExcept (some nestedFilter) (some name) ∧
          (python.handlerParts source nestedExcept).types = ["A", "B", "C"] ∧
          (python.handlerParts source nestedExcept).binding = some "e" := by
  constructor
  · refine ⟨Text.encode "catch (A /* c */ | /* d */ B e) {}", ?_⟩
    have hclause : CatchClause commentedCatch commentedType := ⟨_, rfl, rfl⟩
    obtain ⟨htypes, hiff⟩ := (exception_types_are_alternatives_iff _).1 _ _ hclause
    refine ⟨hclause, htypes.trans (by decide +kernel), fun heq => ?_⟩
    exact hiff.mp heq (Search.lineNode "block_comment" none 9 16 [])
      (List.mem_cons_of_mem _ List.mem_cons_self) rfl
  · refine ⟨Text.encode "except ((A, B), (C)) as e: pass",
      Search.lineNode "as_pattern_target" (some "alias") 24 25 [], ?_⟩
    have hclause : ExceptClause nestedExcept (some nestedFilter)
        (some (Search.lineNode "as_pattern_target" (some "alias") 24 25 [])) :=
      .pattern rfl rfl rfl (by decide) rfl
    obtain ⟨htypes, hbinding⟩ := (exception_types_are_alternatives_iff _).2.1 _ _ _ hclause
    exact ⟨hclause, htypes.trans (by decide +kernel), hbinding.trans (by decide +kernel)⟩

end HandlerLint.Language
