import HandlerLint.Yaml.Node

/-!
# YAML documents

A text holds at most one document.  Directives may come before it, and any number of end
marks after it.

Anchors are numbered in the order in which they are met: a new anchor gets as its number
how many different names are known by then.  A name that is used again keeps counting
once, so that two anchors may share a number; an alias then means the later one.
-/

namespace HandlerLint.Yaml

namespace Node

/-! ## Numbered anchors -/

/-- The numbers of the anchor names known so far. -/
abbrev Anchors : Type :=
  List (String × Nat)

/-- The names with one more anchor, which gets the next number. -/
def declare (name : String) (anchors : Anchors) : Anchors :=
  (name, anchors.length) :: anchors.filter (·.1 != name)

mutual

/-- A node with numbers in place of anchor names, and the names known after it. -/
def number : Node String → Anchors → Except Fault (Node Nat × Anchors)
  | .scalar value, anchors => .ok (.scalar value, anchors)
  | .sequence items, anchors => do
      let (items, anchors) ← numberItems items anchors
      return (.sequence items, anchors)
  | .mapping entries, anchors => do
      let (entries, anchors) ← numberEntries entries anchors
      return (.mapping entries, anchors)
  | .anchored name node, anchors => do
      let (node, known) ← number node (declare name anchors)
      return (.anchored anchors.length node, known)
  | .alias name, anchors =>
      match anchors.lookup name with
      | some slot => .ok (.alias slot, anchors)
      | none => .error .unknownAlias

/-- `number` for the items of a sequence. -/
def numberItems : List (Node String) → Anchors → Except Fault (List (Node Nat) × Anchors)
  | [], anchors => .ok ([], anchors)
  | item :: items, anchors => do
      let (item, anchors) ← number item anchors
      let (items, anchors) ← numberItems items anchors
      return (item :: items, anchors)

/-- `number` for the entries of a mapping. -/
def numberEntries :
    List (Node String × Node String) → Anchors →
      Except Fault (List (Node Nat × Node Nat) × Anchors)
  | [], anchors => .ok ([], anchors)
  | (key, value) :: entries, anchors => do
      let (key, anchors) ← number key anchors
      let (value, anchors) ← number value anchors
      let (entries, anchors) ← numberEntries entries anchors
      return ((key, value) :: entries, anchors)

end

mutual

/-- The anchored nodes inside a node, in written order. -/
def anchoredNodes : Node Nat → List (Nat × Node Nat)
  | .scalar _ => []
  | .sequence items => anchoredItems items
  | .mapping entries => anchoredEntries entries
  | .anchored slot node => (slot, node) :: anchoredNodes node
  | .alias _ => []

/-- `anchoredNodes` for the items of a sequence. -/
def anchoredItems : List (Node Nat) → List (Nat × Node Nat)
  | [] => []
  | item :: items => anchoredNodes item ++ anchoredItems items

/-- `anchoredNodes` for the entries of a mapping. -/
def anchoredEntries : List (Node Nat × Node Nat) → List (Nat × Node Nat)
  | [] => []
  | (key, value) :: entries =>
      anchoredNodes key ++ anchoredNodes value ++ anchoredEntries entries

end

end Node

/-- A document: its root, with numbered anchors. -/
structure Document where
  root : Node Nat

namespace Document

/-- The node that a node of the document means: an alias means what is anchored under
its number, the last such node if there are several. -/
def follow (document : Document) (node : Node Nat) : Node Nat :=
  match node with
  | .alias slot => (document.root.anchoredNodes.reverse.lookup slot).getD node
  | .anchored _ inner => inner
  | _ => node

/-- The directives before a document: what they make the tag handles stand for. -/
def directives :
    Bool → List (String × Tag) → List Token →
      Except Fault (List (String × Tag) × List Token)
  | versioned, handles, .version major minor :: rest =>
      if versioned || major != 1 || (minor != 1 && minor != 2) then .error .badDirective
      else directives true handles rest
  | versioned, handles, .handle handle meaning :: rest =>
      if (handles.lookup handle).isSome then .error .badDirective
      else directives versioned (handles ++ [(handle, meaning)]) rest
  | _, handles, tokens => .ok (handles, tokens)

/-- Whether a token cannot belong to the content of a document. -/
def isBoundary : Token → Bool
  | .version _ _ | .handle _ _ | .documentStart | .documentEnd => true
  | _ => false

/-- The root of the document after its start, and the tokens after it. -/
def content
    (handles : List (String × Tag)) (tokens : List Token) :
    Except Fault (Node String × List Token) :=
  if tokens.head?.all isBoundary then .ok (.absent, tokens)
  else Node.read handles (4 * tokens.length + 8) .block tokens

/-- The document that some tokens make, if there is one. -/
def ofTokens? (tokens : List Token) : Except Fault (Option Document) := do
  if tokens.isEmpty then
    return none
  let (declared, rest) ← directives false [] tokens
  let handles := declared ++ Node.standardHandles
  let (root, rest) ←
    match rest with
    | .documentStart :: rest => content handles rest
    | _ =>
        if rest.length < tokens.length then .error .unexpectedToken
        else Node.read handles (4 * tokens.length + 8) .block tokens
  if rest.any (· != .documentEnd) then
    throw .unexpectedToken
  let (root, _) ← root.number []
  return some { root }

/-- The document of a text, if there is one. -/
def parse? (text : List Char) : Except Fault (Option Document) := do
  ofTokens? (← tokens text)

end Document

end HandlerLint.Yaml
