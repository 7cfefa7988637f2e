import ServiceManual.Yaml.Token
import ServiceManual.Yaml.Resolution

/-!
# The nodes of a YAML document

The tokens of a text make up one document, whose contents are a tree of scalars, sequences and
mappings.  Every node has a tag, given or resolved from its text.  An alias stands for the node
that carries its anchor.  A collection that carries one is kept apart under a number, so that it
can stand in several places, even within itself.

Collections may be written within each other to any depth; a limit on how deep calls are nested is
left out here too.
-/

namespace ServiceManual.Yaml

/-- A node of a document. -/
inductive Node
  | scalar (tag text : String)
  | sequence (tag : String) (items : List Node)
  | mapping (tag : String) (entries : List (Node × Node))
  /-- The collection with this number, which has this tag. -/
  | named (tag : String) (number : Nat)

namespace Node

/-- The node that stands for nothing written. -/
def empty : Node := .scalar Tag.null ""

/-- The tag of a node. -/
def tag : Node → String
  | .scalar tag _ => tag
  | .sequence tag _ => tag
  | .mapping tag _ => tag
  | .named tag _ => tag

end Node

/-- A document: its root, and the collections that carry anchors, in the order in which they
end. -/
structure Composition where
  root : Node
  named : List (Nat × Node)
  /-- Does a collection stand within itself? -/
  circular : Bool

/-- The state of composing nodes: the tokens that are left and why there are no more of them, the
nodes that carry anchors, what the handles of tags stand for, and the collections with numbers, the
last one that has ended first. -/
structure Composer where
  tokens : List Token
  failure : Option Failure
  anchors : List (String × Node) := []
  handles : List (String × String) := []
  count : Nat := 0
  named : List (Nat × Node) := []
  circular : Bool := false

/-- A composer takes tokens and gives a result, or fails. -/
abbrev Compose := StateT Composer (Except Failure)

namespace Compose

/-- The document is malformed. -/
def fail {α : Type} (what : String) : Compose α :=
  throw (.malformed what)

/-- The next token. -/
def peek : Compose (Option Token) := do
  let state ← get
  match state.tokens, state.failure with
  | [], some failure => throw failure
  | tokens, _ => return tokens.head?

/-- Pass over the next token. -/
def drop : Compose Unit :=
  modify fun state => { state with tokens := state.tokens.tail }

/-- Take the next token if it is this one. -/
def take (token : Token) : Compose Bool := do
  if (← peek) == some token then
    drop
    return true
  else return false

/-- Is the next token one of these, or is none left? -/
def atOneOf (tokens : List Token) : Compose Bool := do
  match ← peek with
  | some token => return tokens.contains token
  | none => return false

/-! ## Properties of a node -/

/-- The anchor here, if there is one. -/
def takeAnchor : Compose (Option String) := do
  match ← peek with
  | some (.anchor name) =>
    drop
    return some name
  | _ => return none

/-- What a handle stands for. -/
def expansion (handle : String) : Compose String := do
  match (← get).handles.find? fun entry => entry.1 == handle with
  | some entry => return entry.2
  | none => fail "found undefined tag handle"

/-- The tag here, if there is one: its handle and its suffix. -/
def takeTag : Compose (Option (Option String × String)) := do
  match ← peek with
  | some (.tag handle suffix) =>
    drop
    return some (handle, suffix)
  | _ => return none

/-- What a tag stands for. -/
def resolveTag : Option (Option String × String) → Compose (Option String)
  | none => return none
  | some (none, suffix) => return some suffix
  | some (some handle, suffix) => return some ((← expansion handle) ++ suffix)

/-- The anchor and the tag here, in either order. -/
def takeProperties : Compose (Option String × Option String) := do
  match ← takeAnchor with
  | some anchor => return (some anchor, ← resolveTag (← takeTag))
  | none =>
    match ← takeTag with
    | none => return (none, none)
    | some tag =>
      let anchor ← takeAnchor
      return (anchor, ← resolveTag (some tag))

/-- An anchor must not have been given before. -/
def expectNew (anchor : Option String) : Compose Unit := do
  match anchor with
  | none => return ()
  | some name =>
    if (← get).anchors.any fun entry => entry.1 == name then fail "found duplicate anchor"

/-- Let a scalar carry an anchor. -/
def scalar (anchor : Option String) (node : Node) : Compose Node :=
  match anchor with
  | none => return node
  | some name => do
    modify fun state => { state with anchors := (name, node) :: state.anchors }
    return node

/-- Let a collection carry an anchor, already while it is being composed. -/
def collection (anchor : Option String) (tag : String) (compose : Compose Node) : Compose Node :=
  match anchor with
  | none => compose
  | some name => do
    let number := (← get).count
    let stand := Node.named tag number
    modify fun state =>
      { state with count := number + 1, anchors := (name, stand) :: state.anchors }
    let made ← compose
    modify fun state => { state with named := (number, made) :: state.named }
    return stand

/-- Is a node a collection that has not ended yet? -/
def isOpen (state : Composer) : Node → Bool
  | .named _ number => !state.named.any fun entry => entry.1 == number
  | _ => false

/-- The node that carries an anchor. -/
def resolveAlias (name : String) : Compose Node := do
  let state ← get
  match state.anchors.find? fun entry => entry.1 == name with
  | some entry =>
    if isOpen state entry.2 then set { state with circular := true }
    return entry.2
  | none => fail "found undefined alias"

/-- The tag of a collection: the one given, or the usual one. -/
def collectionTag (tag : Option String) (usual : String) : String :=
  match tag with
  | none => usual
  | some given => if given == "!" then usual else given

/-- The tag of a scalar: the one given, or the one its text has if it is plain. -/
def scalarTag (tag : Option String) (plain : Bool) (text : String) : String :=
  match tag with
  | none => if plain then Tag.ofPlain text else Tag.str
  | some given => if given == "!" then Tag.ofPlain text else given

/-! ## Nodes -/

mutual

/-- A node.  Block collections are taken only in a block, and a sequence without indentation of
its own only as a key or value of a block mapping. -/
def node (inBlock unindented : Bool) : Nat → Compose Node
  | 0 => fail "the document is too deep"
  | fuel + 1 => do
    match ← peek with
    | some (.alias name) =>
      drop
      resolveAlias name
    | _ =>
      let (anchor, tag) ← takeProperties
      let next ← peek
      expectNew anchor
      let sequence (items : Compose (List Node)) : Compose Node :=
        let kind := collectionTag tag Tag.seq
        collection anchor kind (Node.sequence kind <$> items)
      let mapping (entries : Compose (List (Node × Node))) : Compose Node :=
        let kind := collectionTag tag Tag.map
        collection anchor kind (Node.mapping kind <$> entries)
      match next with
      | some (.scalar text plain) =>
        drop
        scalar anchor (.scalar (scalarTag tag plain text) text)
      | some .flowSequenceStart =>
        drop
        sequence (flowItems true fuel)
      | some .flowMappingStart =>
        drop
        mapping (flowEntries true fuel)
      | next =>
        if unindented && next == some .blockEntry then sequence (unindentedItems fuel)
        else if inBlock && next == some .blockSequenceStart then
          drop
          sequence (blockItems fuel)
        else if inBlock && next == some .blockMappingStart then
          drop
          mapping (blockEntries fuel)
        else if anchor.isSome || tag.isSome then
          scalar anchor (.scalar (scalarTag tag true "") "")
        else fail "expected the node content"

/-- The items of a block sequence, and its end. -/
def blockItems : Nat → Compose (List Node)
  | 0 => fail "the document is too deep"
  | fuel + 1 => do
    if ← take .blockEntry then
      let item ← nodeUnless [.blockEntry, .blockEnd] true false fuel
      return item :: (← blockItems fuel)
    else if ← take .blockEnd then return []
    else fail "expected <block end>"

/-- The items of a sequence without indentation of its own. -/
def unindentedItems : Nat → Compose (List Node)
  | 0 => fail "the document is too deep"
  | fuel + 1 => do
    if ← take .blockEntry then
      let item ← nodeUnless [.blockEntry, .key, .value, .blockEnd] true false fuel
      return item :: (← unindentedItems fuel)
    else return []

/-- The entries of a block mapping, and its end. -/
def blockEntries : Nat → Compose (List (Node × Node))
  | 0 => fail "the document is too deep"
  | fuel + 1 => do
    if ← atOneOf [.key, .value] then
      let key ←
        if ← take .key then nodeUnless [.key, .value, .blockEnd] true true fuel
        else fail "expected <block end>"
      let value ←
        if ← take .value then nodeUnless [.key, .value, .blockEnd] true true fuel
        else pure Node.empty
      return (key, value) :: (← blockEntries fuel)
    else if ← take .blockEnd then return []
    else fail "expected <block end>"

/-- The items of a sequence in brackets, and its end. -/
def flowItems (first : Bool) : Nat → Compose (List Node)
  | 0 => fail "the document is too deep"
  | fuel + 1 => do
    if ← take .flowSequenceEnd then return []
    else
      if !first then
        if !(← take .flowEntry) then fail "expected ',' or ']'"
      if ← take .flowSequenceEnd then return []
      else
        let item ←
          if ← take .key then
            let key ← nodeUnless [.value, .flowEntry, .flowSequenceEnd] false false fuel
            let value ←
              if ← take .value then
                nodeUnless [.flowEntry, .flowSequenceEnd] false false fuel
              else pure Node.empty
            pure (Node.mapping Tag.map [(key, value)])
          else node false false fuel
        return item :: (← flowItems false fuel)

/-- The entries of a mapping in braces, and its end. -/
def flowEntries (first : Bool) : Nat → Compose (List (Node × Node))
  | 0 => fail "the document is too deep"
  | fuel + 1 => do
    if ← take .flowMappingEnd then return []
    else
      if !first then
        if !(← take .flowEntry) then fail "expected ',' or '\x7d'"
      if ← take .flowMappingEnd then return []
      else
        let entry ←
          if ← take .key then
            let key ← nodeUnless [.value, .flowEntry, .flowMappingEnd] false false fuel
            let value ←
              if ← take .value then
                nodeUnless [.flowEntry, .flowMappingEnd] false false fuel
              else pure Node.empty
            pure (key, value)
          else pure (← node false false fuel, Node.empty)
        return entry :: (← flowEntries false fuel)

/-- A node, or the node for nothing if one of these tokens comes next. -/
def nodeUnless (ends : List Token) (inBlock unindented : Bool) : Nat → Compose Node
  | 0 => fail "the document is too deep"
  | fuel + 1 => do
    if ← atOneOf ends then return Node.empty
    else node inBlock unindented fuel

end

/-! ## Documents -/

/-- The handles that stand for something without a directive. -/
def usualHandles : List (String × String) :=
  [("!", "!"), ("!!", Tag.standard)]

/-- The directives before a document. -/
def directives : Nat → Bool → List (String × String) → Compose Unit
  | 0, _, handles => modify fun state => { state with handles := handles ++ usualHandles }
  | fuel + 1, versioned, handles => do
    match ← peek with
    | some (.directive directive) =>
      drop
      match directive with
      | .version major =>
        if versioned then fail "found duplicate YAML directive"
        if major != 1 then fail "found incompatible YAML document"
        directives fuel true handles
      | .tagHandle handle expansion =>
        if handles.any fun entry => entry.1 == handle then fail "duplicate tag handle"
        directives fuel versioned ((handle, expansion) :: handles)
      | .other => directives fuel versioned handles
    | _ => modify fun state => { state with handles := handles ++ usualHandles }

/-- Pass over the marks of the end of a document. -/
def dropEnds : Nat → Compose Unit
  | 0 => return ()
  | fuel + 1 => do
    if ← take .documentEnd then dropEnds fuel

/-- Nothing may come after the only document.  What is wrong with directives that come is found out
first. -/
def expectEnd (fuel : Nat) : Compose Unit := do
  dropEnds fuel
  match ← peek with
  | none => return ()
  | some _ =>
    directives fuel false []
    fail "expected a single document in the stream"

/-- The root of the only document of a stream, unless the stream is empty. -/
def document : Compose (Option Node) := do
  let fuel := 4 * (← get).tokens.length + 8
  match ← peek with
  | none => return none
  | some first =>
    let marked := match first with
      | .directive _ | .documentStart => true
      | _ => false
    directives fuel false []
    if marked then
      if !(← take .documentStart) then fail "expected '<document start>'"
    let atEnd := match ← peek with
      | none | some (.directive _) | some .documentStart | some .documentEnd => true
      | _ => false
    let root ← if marked && atEnd then pure Node.empty else node true false fuel
    expectEnd fuel
    return some root

end Compose

/-- The only document of a source, unless the source is empty. -/
def Composition.ofSource? (source : Source) : Except Failure (Option Composition) := do
  let (tokens, failure) := Token.ofSource source
  let (root, state) ← Compose.document.run { tokens, failure }
  return root.map fun root => ⟨root, state.named.reverse, state.circular⟩

end ServiceManual.Yaml
