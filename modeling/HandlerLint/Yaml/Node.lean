import HandlerLint.Yaml.Token

/-!
# YAML nodes

The tokens of a document make a tree of scalars, sequences and mappings, some of them
anchored under a name and some only an alias of such a name.

The grammar is read by one function per kind of collection.  Every function takes at
least one token within four calls, which bounds the `steps` it is given.
-/

namespace HandlerLint.Yaml

/-- A scalar of a document. -/
structure Scalar where
  text : String
  style : ScalarStyle
  tag : Option Tag
deriving DecidableEq, Repr

namespace Scalar

/-- What stands where a node is left out. -/
def absent : Scalar :=
  { text := "", style := .plain, tag := none }

end Scalar

/-- A node of a document, whose anchors are named by an `α`. -/
inductive Node (α : Type) where
  | scalar (value : Scalar)
  | sequence (items : List (Node α))
  /-- Keys and their values in written order. -/
  | mapping (entries : List (Node α × Node α))
  | anchored (name : α) (node : Node α)
  | alias (name : α)
deriving Repr

namespace Node

/-- A node that is left out. -/
def absent {α : Type} : Node α :=
  .scalar .absent

/-! ## Tags -/

/-- What the tag handles stand for where no directive says otherwise. -/
def standardHandles : List (String × Tag) :=
  [("!", Tag.lone), ("!!", Tag.ofText "tag:yaml.org,2002:")]

/-- The whole tag for a handle and what follows it.  Without a handle the tag is written
in full. -/
def wholeTag
    (handles : List (String × Tag)) (handle : String) (suffix : Tag) : Except Fault Tag :=
  if handle.isEmpty then .ok suffix
  else
    match handles.lookup handle with
    | some meaning => .ok (meaning ++ suffix)
    | none => .error .undeclaredHandle

/-- What may stand before a node. -/
structure Properties where
  anchor : Option String
  tag : Option Tag

namespace Properties

/-- Whether nothing stands before the node. -/
def isNone (properties : Properties) : Bool :=
  properties.anchor.isNone && properties.tag.isNone

/-- An anchor and a tag, in either order, each at most once. -/
def ofTokens
    (handles : List (String × Tag)) (tokens : List Token) :
    Except Fault (Properties × List Token) :=
  match tokens with
  | .anchor name :: .tag handle suffix :: rest => do
      return ({ anchor := some name, tag := some (← wholeTag handles handle suffix) }, rest)
  | .tag handle suffix :: .anchor name :: rest => do
      return ({ anchor := some name, tag := some (← wholeTag handles handle suffix) }, rest)
  | .anchor name :: rest => .ok ({ anchor := some name, tag := none }, rest)
  | .tag handle suffix :: rest => do
      return ({ anchor := none, tag := some (← wholeTag handles handle suffix) }, rest)
  | _ => .ok ({ anchor := none, tag := none }, tokens)

/-- A node with its anchor. -/
def attach (properties : Properties) (node : Node String) : Node String :=
  match properties.anchor with
  | some name => .anchored name node
  | none => node

end Properties

/-! ## The grammar -/

/-- The place of a node in the grammar. -/
inductive Position where
  /-- Inside a flow collection. -/
  | flow
  /-- An entry of a block sequence, or the whole document. -/
  | block
  /-- A key or a value of a block mapping, where a sequence need not be indented. -/
  | blockMapping
deriving DecidableEq, Repr

mutual

/-- A node. -/
def read
    (handles : List (String × Tag)) :
    Nat → Position → List Token → Except Fault (Node String × List Token)
  | 0, _, _ => .error .unexpectedToken
  | steps + 1, position, tokens =>
      match tokens with
      | .alias name :: rest => .ok (.alias name, rest)
      | _ => do
          let (properties, rest) ← Properties.ofTokens handles tokens
          let (node, rest) ← readContent handles steps position properties rest
          return (properties.attach node, rest)

/-- A node after its properties. -/
def readContent
    (handles : List (String × Tag)) :
    Nat → Position → Properties → List Token → Except Fault (Node String × List Token)
  | 0, _, _, _ => .error .unexpectedToken
  | steps + 1, position, properties, tokens =>
      let absent : Except Fault (Node String × List Token) :=
        if properties.isNone then .error .unexpectedToken
        else .ok (.scalar { Scalar.absent with tag := properties.tag }, tokens)
      match tokens with
      | .blockEntry :: _ =>
          if position = .blockMapping then do
            let (items, rest) ← readIndentless handles steps tokens
            return (.sequence items, rest)
          else absent
      | .scalar text style :: rest =>
          .ok (.scalar { text, style, tag := properties.tag }, rest)
      | .flowSequenceStart :: rest => do
          let (items, rest) ← readFlowItems handles steps true rest
          return (.sequence items, rest)
      | .flowMappingStart :: rest => do
          let (entries, rest) ← readFlowPairs handles steps true rest
          return (.mapping entries, rest)
      | .blockSequenceStart :: rest =>
          if position = .flow then absent
          else do
            let (items, rest) ← readBlockItems handles steps rest
            return (.sequence items, rest)
      | .blockMappingStart :: rest =>
          if position = .flow then absent
          else do
            let (entries, rest) ← readBlockPairs handles steps rest
            return (.mapping entries, rest)
      | _ => absent

/-- A node, unless one of some tokens shows that it is left out. -/
def readUnless
    (handles : List (String × Tag)) :
    Nat → List Token → Position → List Token → Except Fault (Node String × List Token)
  | 0, _, _, _ => .error .unexpectedToken
  | steps + 1, stops, position, tokens =>
      if tokens.head?.any stops.contains then .ok (absent, tokens)
      else read handles steps position tokens

/-- The items of an indented block sequence, up to its end. -/
def readBlockItems
    (handles : List (String × Tag)) :
    Nat → List Token → Except Fault (List (Node String) × List Token)
  | 0, _ => .error .unexpectedToken
  | steps + 1, tokens =>
      match tokens with
      | .blockEntry :: rest => do
          let (item, rest) ← readUnless handles steps [.blockEntry, .blockEnd] .block rest
          let (items, rest) ← readBlockItems handles steps rest
          return (item :: items, rest)
      | .blockEnd :: rest => .ok ([], rest)
      | _ => .error .unexpectedToken

/-- The items of a block sequence that is not indented. -/
def readIndentless
    (handles : List (String × Tag)) :
    Nat → List Token → Except Fault (List (Node String) × List Token)
  | 0, _ => .error .unexpectedToken
  | steps + 1, tokens =>
      match tokens with
      | .blockEntry :: rest => do
          let (item, rest) ←
            readUnless handles steps [.blockEntry, .key, .value, .blockEnd] .block rest
          let (items, rest) ← readIndentless handles steps rest
          return (item :: items, rest)
      | _ => .ok ([], tokens)

/-- The entries of a block mapping, up to its end. -/
def readBlockPairs
    (handles : List (String × Tag)) :
    Nat → List Token → Except Fault (List (Node String × Node String) × List Token)
  | 0, _ => .error .unexpectedToken
  | steps + 1, tokens =>
      match tokens with
      | .key :: rest => do
          let (key, rest) ← readUnless handles steps [.key, .value, .blockEnd] .blockMapping rest
          let (value, rest) ← readBlockValue handles steps rest
          let (entries, rest) ← readBlockPairs handles steps rest
          return ((key, value) :: entries, rest)
      | .blockEnd :: rest => .ok ([], rest)
      | _ => .error .unexpectedToken

/-- The value of an entry of a block mapping. -/
def readBlockValue
    (handles : List (String × Tag)) :
    Nat → List Token → Except Fault (Node String × List Token)
  | 0, _ => .error .unexpectedToken
  | steps + 1, tokens =>
      match tokens with
      | .value :: rest => readUnless handles steps [.key, .value, .blockEnd] .blockMapping rest
      | _ => .ok (absent, tokens)

/-- The items of a flow sequence, up to its end.  Before all but the first of them there
is a comma. -/
def readFlowItems
    (handles : List (String × Tag)) :
    Nat → Bool → List Token → Except Fault (List (Node String) × List Token)
  | 0, _, _ => .error .unexpectedToken
  | steps + 1, first, tokens =>
      match tokens, first with
      | .flowSequenceEnd :: rest, _ => .ok ([], rest)
      | .flowEntry :: .flowSequenceEnd :: rest, false => .ok ([], rest)
      | .flowEntry :: rest, false => readFlowItem handles steps rest
      | _, true => readFlowItem handles steps tokens
      | _, false => .error .unexpectedToken

/-- An item of a flow sequence and those after it.  A key makes a mapping with a single
entry. -/
def readFlowItem
    (handles : List (String × Tag)) :
    Nat → List Token → Except Fault (List (Node String) × List Token)
  | 0, _ => .error .unexpectedToken
  | steps + 1, tokens =>
      match tokens with
      | .key :: rest => do
          let (key, rest) ← readPairKey handles steps rest
          let (value, rest) ←
            readFlowValue handles steps [.flowEntry, .flowSequenceEnd] rest
          let (items, rest) ← readFlowItems handles steps false rest
          return (.mapping [(key, value)] :: items, rest)
      | _ => do
          let (item, rest) ← read handles steps .flow tokens
          let (items, rest) ← readFlowItems handles steps false rest
          return (item :: items, rest)

/-- The key of a single entry in a flow sequence.  The token that shows it is left out
is passed. -/
def readPairKey
    (handles : List (String × Tag)) :
    Nat → List Token → Except Fault (Node String × List Token)
  | 0, _ => .error .unexpectedToken
  | steps + 1, tokens =>
      match tokens with
      | .value :: rest | .flowEntry :: rest | .flowSequenceEnd :: rest => .ok (absent, rest)
      | _ => read handles steps .flow tokens

/-- The value of an entry in a flow collection. -/
def readFlowValue
    (handles : List (String × Tag)) :
    Nat → List Token → List Token → Except Fault (Node String × List Token)
  | 0, _, _ => .error .unexpectedToken
  | steps + 1, stops, tokens =>
      match tokens with
      | .value :: rest => readUnless handles steps stops .flow rest
      | _ => .ok (absent, tokens)

/-- The entries of a flow mapping, up to its end.  Before all but the first of them there
is a comma. -/
def readFlowPairs
    (handles : List (String × Tag)) :
    Nat → Bool → List Token → Except Fault (List (Node String × Node String) × List Token)
  | 0, _, _ => .error .unexpectedToken
  | steps + 1, first, tokens =>
      match tokens, first with
      | .flowMappingEnd :: rest, _ => .ok ([], rest)
      | .flowEntry :: .flowMappingEnd :: rest, false => .ok ([], rest)
      | .flowEntry :: rest, false => readFlowPair handles steps rest
      | _, true => readFlowPair handles steps tokens
      | _, false => .error .unexpectedToken

/-- An entry of a flow mapping and those after it. -/
def readFlowPair
    (handles : List (String × Tag)) :
    Nat → List Token → Except Fault (List (Node String × Node String) × List Token)
  | 0, _ => .error .unexpectedToken
  | steps + 1, tokens =>
      match tokens with
      | .key :: rest => do
          let (key, rest) ←
            readUnless handles steps [.value, .flowEntry, .flowMappingEnd] .flow rest
          let (value, rest) ← readFlowValue handles steps [.flowEntry, .flowMappingEnd] rest
          let (entries, rest) ← readFlowPairs handles steps false rest
          return ((key, value) :: entries, rest)
      | _ => do
          let (key, rest) ← read handles steps .flow tokens
          let (entries, rest) ← readFlowPairs handles steps false rest
          return ((key, absent) :: entries, rest)

end

end Node

end HandlerLint.Yaml
