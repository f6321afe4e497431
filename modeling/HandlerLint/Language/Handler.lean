import HandlerLint.Language.Role
import HandlerLint.Text.Blank

/-!
# The parts of a handler

Each language writes the filter, the bound name and the body of a handler in its
own way.  Whatever the language, the body is a child of the handler.
-/

namespace HandlerLint

open Source

/-- The parts of a handler's parse tree. -/
structure HandlerParts where
  /-- The exception types as written; none for a handler of everything. -/
  types : List String
  /-- The name the caught exception is bound to. -/
  binding : Option String
  body : Option Node

namespace Language

variable (source : List UInt8)

/-! ## C++ -/

mutual

/-- The name that a declarator declares, through references and pointers. -/
def declaratorName? : Node → Option String
  | .mk label children =>
      if label.kind == "identifier" then some (Node.text source (.mk label children))
      else declaratorNameIn? children

/-- The name that the first declaring one of some declarators declares. -/
def declaratorNameIn? : List Node → Option String
  | [] => none
  | node :: nodes =>
      if node.isNamed then
        match declaratorName? node with
        | some name => some name
        | none => declaratorNameIn? nodes
      else
        declaratorNameIn? nodes

end

/-- The parameter declaration of a C++ handler; `catch (...)` has none. -/
def cppDeclaration? (node : Node) : Option Node :=
  (node.childByField? "parameters").bind fun parameters =>
    parameters.namedChildren.find? (·.kind == "parameter_declaration")

/-- The parts of a C++ handler. -/
def cppHandler (node : Node) : HandlerParts :=
  { types :=
      match (cppDeclaration? node).bind (·.childByField? "type") with
      | some type => [type.text source]
      | none => []
    binding :=
      ((cppDeclaration? node).bind (·.childByField? "declarator")).bind
        (declaratorName? source)
    body := node.childByField? "body" }

/-! ## Java -/

/-- The parts of a Java handler, which may list several types. -/
def javaHandler (node : Node) : HandlerParts :=
  let parameter := node.namedChildren.find? (·.kind == "catch_formal_parameter")
  let catchType := parameter.bind fun parameter =>
    parameter.namedChildren.find? (·.kind == "catch_type")
  { types :=
      match catchType with
      | some catchType => catchType.namedChildren.map (Node.text source)
      | none => []
    binding := (parameter.bind (·.childByField? "name")).map (Node.text source)
    body := node.childByField? "body" }

/-! ## JavaScript and TypeScript -/

/-- A type annotation without its colons and blanks. -/
def annotatedType (text : String) : String :=
  String.ofList (Text.trim (text.toList.dropWhile (· == ':')))

/-- The parts of a JavaScript or TypeScript handler.  A destructured parameter
binds no single name. -/
def scriptHandler (node : Node) : HandlerParts :=
  { types :=
      match node.childByField? "type" with
      | some typeNode =>
          let type := annotatedType (typeNode.text source)
          if type.isEmpty then [] else [type]
      | none => []
    binding :=
      match node.childByField? "parameter" with
      | some parameter =>
          if parameter.kind == "identifier" then some (parameter.text source) else none
      | none => none
    body := node.childByField? "body" }

/-! ## Python -/

mutual

/-- The types that a filter expression names: the leaves of its tuples and
parentheses. -/
def filterTypes : Node → List String
  | .mk label children =>
      if label.kind == "tuple" || label.kind == "parenthesized_expression" then
        filterTypesIn children
      else if label.kind == "comment" then []
      else [Node.text source (.mk label children)]

/-- The types that the named ones of some filter expressions name. -/
def filterTypesIn : List Node → List String
  | [] => []
  | node :: nodes =>
      if node.isNamed then filterTypes node ++ filterTypesIn nodes
      else filterTypesIn nodes

end

/-- What is known of a Python handler after some of its children. -/
structure PythonHandlerScan where
  parts : HandlerParts
  /-- Whether an `as`, or the comma that once stood for it, has been passed. -/
  afterAs : Bool

/-- Take in one more child of a Python handler. -/
def scanPythonHandler
    (scan : PythonHandlerScan) (child : Node) : PythonHandlerScan :=
  if !child.isNamed then
    if child.kind == "as" || child.kind == "," then { scan with afterAs := true }
    else scan
  else if child.kind == "block" then
    { scan with parts := { scan.parts with body := some child } }
  else if child.kind == "comment" then scan
  else if child.kind == "as_pattern" then
    let types :=
      match child.namedChildren.head? with
      | some filter => filterTypes source filter
      | none => []
    let binding := (child.childByField? "alias").map (Node.text source)
    { scan with
      parts := { scan.parts with types := scan.parts.types ++ types, binding } }
  else if scan.afterAs then
    { scan with parts := { scan.parts with binding := some (child.text source) } }
  else
    { scan with
      parts :=
        { scan.parts with types := scan.parts.types ++ filterTypes source child } }

/-- The parts of a Python handler. -/
def pythonHandler (node : Node) : HandlerParts :=
  (node.children.foldl (scanPythonHandler source)
    { parts := { types := [], binding := none, body := none }, afterAs := false }).parts

/-! ## Every language -/

/-- The parts of a handler. -/
def handlerParts (language : Language) (node : Node) : HandlerParts :=
  match language with
  | .cpp => cppHandler source node
  | .java => javaHandler source node
  | .javascript | .tsx | .typescript => scriptHandler source node
  | .python => pythonHandler source node

variable {source}

theorem scanPythonHandler_body
    {scan : PythonHandlerScan} {child body : Node}
    (h : (scanPythonHandler source scan child).parts.body = some body) :
    body = child ∨ scan.parts.body = some body := by
  simp only [scanPythonHandler] at h
  repeat' split at h
  all_goals first
    | exact Or.inr h
    | exact Or.inl (Option.some.inj h).symm

theorem foldl_scanPythonHandler_body
    {nodes : List Node} {scan : PythonHandlerScan} {body : Node}
    (h : (nodes.foldl (scanPythonHandler source) scan).parts.body = some body) :
    body ∈ nodes ∨ scan.parts.body = some body := by
  induction nodes generalizing scan with
  | nil => exact Or.inr h
  | cons node nodes ih =>
      rcases ih h with hmem | hscan
      · exact Or.inl (List.mem_cons_of_mem _ hmem)
      · rcases scanPythonHandler_body hscan with rfl | hscan
        · exact Or.inl List.mem_cons_self
        · exact Or.inr hscan

/-- The body of a handler is one of its children. -/
theorem handlerParts_body_mem
    {language : Language} {node body : Node}
    (h : (language.handlerParts source node).body = some body) :
    body ∈ node.children := by
  cases language with
  | python =>
      rcases foldl_scanPythonHandler_body h with hmem | hnone
      · exact hmem
      · cases hnone
  | _ => exact Node.childByField?_mem h

end Language

end HandlerLint
