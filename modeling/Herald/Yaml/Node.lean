import Herald.Yaml.Token

/-!
# Documents

A document is the node that the tokens of a YAML text describe. A node may be anchored and taken up
again under the name of its anchor. The anchor has a number, which is how many names were anchored
before it, and a reference is kept as that number: a node may refer to a node that it is part of.
Anchoring a name anew makes numbers come up again, and a number stands for the node that took it
last, wherever the references are. A text is read as one document at most; whatever follows the
document makes it unreadable.
-/
namespace Herald.Yaml

/-- A node of a document. -/
inductive Node where
  | scalar (text : String) (style : ScalarStyle) (tag : Option Tag)
  | sequence (items : List Node)
  | mapping (entries : List (Node × Node))
  | reference (number : Nat)
  deriving Inhabited

def Node.empty : Node := .scalar "" .plain none

/-- A document: its root, and its anchored nodes. -/
structure Document where
  root : Node
  /-- the places that took each number, the latest first -/
  owners : List (Nat × Nat)
  /-- the anchored nodes by their places among the anchored nodes -/
  anchored : List (Nat × Node)

/-- The node itself, or the one that it refers to. -/
def Document.resolve (d : Document) : Node → Option Node
  | .reference number => do
    let place ← d.owners.lookup number
    d.anchored.lookup place
  | node => some node

/-- The tokens that are left, and what has been learnt from those before them. -/
structure Reading where
  tokens : List Token
  /-- the meaning of each handle of a tag -/
  handles : List (String × Tag)
  /-- the numbers of the anchored names, each name once -/
  anchors : List (String × Nat)
  /-- the places that took each number, the latest first -/
  owners : List (Nat × Nat)
  /-- the anchored nodes that have been read, by their places -/
  anchored : List (Nat × Node)

/-- A step of reading, which may find that the text is not well-formed. -/
abbrev Read := StateT Reading Option

namespace Read

/-- The next token, which stays where it is. -/
def peek : Read (Option Token) := do pure (← get).tokens.head?

def skip : Read Unit := modify fun r => { r with tokens := r.tokens.drop 1 }

def expect (t : Token) : Read Unit := do
  if (← peek) = some t then skip else failure

def atAny (ts : List Token) : Read Bool := do
  match ← peek with
  | some t => pure (ts.contains t)
  | none => pure false

def wholeTag (handle : String) (suffix : Tag) : Read Tag := do
  if handle.isEmpty then pure suffix
  else
    match (← get).handles.lookup handle with
    | some stem => pure (stem ++ suffix)
    | none => failure

/-- What is said of a node before the node itself: its place among the anchored nodes, and its
tag. -/
structure Properties where
  place : Option Nat
  tag : Option Tag

/-- The place of a newly anchored node. The number of its anchor is taken from the node that had it
before, if one had. -/
def newAnchor (name : String) : Read Nat := do
  let r ← get
  let number := r.anchors.length
  let place := r.owners.length
  set { r with
    anchors := (name, number) :: r.anchors.filter fun a => a.1 != name
    owners := (number, place) :: r.owners }
  pure place

def readTag : Read (Option Tag) := do
  match ← peek with
  | some (.tag handle suffix) =>
    skip
    let tag ← wholeTag handle suffix
    pure (some tag)
  | _ => pure none

/-- The name of the anchor, if one comes next. -/
def readAnchor : Read (Option String) := do
  match ← peek with
  | some (.anchor name) =>
    skip
    pure (some name)
  | _ => pure none

/-- Anchor and tag, in either order. The anchor counts from here on, so that the node may refer to
itself. -/
def readProperties : Read Properties := do
  let early ← readAnchor
  let tag ← readTag
  let late ← if early.isNone && tag.isSome then readAnchor else pure none
  match early.or late with
  | some name => do
    let place ← newAnchor name
    pure ⟨some place, tag⟩
  | none => pure ⟨none, tag⟩

mutual

/-- A node. The bound is on the number of steps, each of which passes a token or goes into a node;
`inBlock` says whether block collections may begin here, and `dashes` whether a sequence may begin
without an indentation of its own. -/
def readNode : Nat → (inBlock dashes : Bool) → Read Node
  | 0, _, _ => failure
  | bound + 1, inBlock, dashes => do
    match ← peek with
    | some (.alias name) =>
      skip
      match (← get).anchors.lookup name with
      | some number => pure (.reference number)
      | none => failure
    | _ =>
      let properties ← readProperties
      let node ← readContent bound inBlock dashes properties
      match properties.place with
      | some place =>
        modify fun r => { r with anchored := (place, node) :: r.anchored }
        pure node
      | none => pure node

/-- A node after its properties; with properties nothing more need be written. -/
def readContent : Nat → (inBlock dashes : Bool) → Properties → Read Node
  | 0, _, _, _ => failure
  | bound + 1, inBlock, dashes, properties => do
    let next ← peek
    if dashes && next = some .blockEntry then readDashes bound []
    else
      match next with
      | some (.scalar text style) =>
        skip
        pure (.scalar text style properties.tag)
      | some .flowSequenceStart =>
        skip
        readFlowItems bound true []
      | some .flowMappingStart =>
        skip
        readFlowEntries bound true []
      | some .blockSequenceStart =>
        if inBlock then
          skip
          readItems bound []
        else readMissing properties
      | some .blockMappingStart =>
        if inBlock then
          skip
          readEntries bound []
        else readMissing properties
      | _ => readMissing properties

/-- A node of which only the properties are written. -/
def readMissing (properties : Properties) : Read Node :=
  if properties.place.isSome || properties.tag.isSome then
    pure (.scalar "" .plain properties.tag)
  else failure

/-- A node, or nothing where one of these tokens comes next. -/
def readUnless : Nat → List Token → (inBlock dashes : Bool) → Read Node
  | 0, _, _, _ => failure
  | bound + 1, ends, inBlock, dashes => do
    if ← atAny ends then pure .empty else readNode bound inBlock dashes

def readItems : Nat → List Node → Read Node
  | 0, _ => failure
  | bound + 1, done => do
    match ← peek with
    | some .blockEntry =>
      skip
      let item ← readUnless bound [.blockEntry, .blockEnd] true false
      readItems bound (item :: done)
    | some .blockEnd =>
      skip
      pure (.sequence done.reverse)
    | _ => failure

/-- The entries of a sequence that has no indentation of its own. -/
def readDashes : Nat → List Node → Read Node
  | 0, _ => failure
  | bound + 1, done => do
    if (← peek) = some .blockEntry then
      skip
      let item ← readUnless bound [.blockEntry, .key, .value, .blockEnd] true false
      readDashes bound (item :: done)
    else pure (.sequence done.reverse)

def readEntries : Nat → List (Node × Node) → Read Node
  | 0, _ => failure
  | bound + 1, done => do
    match ← peek with
    | some .key =>
      skip
      let key ← readUnless bound [.key, .value, .blockEnd] true true
      if (← peek) = some .value then
        skip
        let value ← readUnless bound [.key, .value, .blockEnd] true true
        readEntries bound ((key, value) :: done)
      else readEntries bound ((key, .empty) :: done)
    | some .blockEnd =>
      skip
      pure (.mapping done.reverse)
    | _ => failure

/-- The items of a flow sequence. An item with a colon in it is a mapping of its own. -/
def readFlowItems : Nat → Bool → List Node → Read Node
  | 0, _, _ => failure
  | bound + 1, isFirst, done => do
    if (← peek) = some .flowSequenceEnd then
      skip
      pure (.sequence done.reverse)
    else
      if !isFirst then expect .flowEntry
      match ← peek with
      | some .flowSequenceEnd =>
        skip
        pure (.sequence done.reverse)
      | some .key =>
        skip
        let item ← readPair bound
        readFlowItems bound false (item :: done)
      | _ =>
        let item ← readNode bound false false
        readFlowItems bound false (item :: done)

/-- A mapping that is an item of a flow sequence, after the mark of its key. Where no key is
written, the token in its place is passed. -/
def readPair : Nat → Read Node
  | 0 => failure
  | bound + 1 => do
    -- The token in the place of a missing key is lost, even where it is the colon or the bracket.
    let ends := [Token.value, .flowEntry, .flowSequenceEnd]
    let bare ← atAny ends
    let key ← readUnless bound ends false false
    if bare then skip
    if (← peek) = some .value then
      skip
      let value ← readUnless bound [.flowEntry, .flowSequenceEnd] false false
      pure (.mapping [(key, value)])
    else pure (.mapping [(key, .empty)])

def readFlowEntries : Nat → Bool → List (Node × Node) → Read Node
  | 0, _, _ => failure
  | bound + 1, isFirst, done => do
    if (← peek) = some .flowMappingEnd then
      skip
      pure (.mapping done.reverse)
    else
      if !isFirst then expect .flowEntry
      match ← peek with
      | some .flowMappingEnd =>
        skip
        pure (.mapping done.reverse)
      | some .key =>
        skip
        let key ← readUnless bound [.value, .flowEntry, .flowMappingEnd] false false
        if (← peek) = some .value then
          skip
          let value ← readUnless bound [.flowEntry, .flowMappingEnd] false false
          readFlowEntries bound false ((key, value) :: done)
        else readFlowEntries bound false ((key, .empty) :: done)
      | _ =>
        let key ← readNode bound false false
        readFlowEntries bound false ((key, .empty) :: done)

end

/-- The meaning of the handles that need no directive. -/
def standardHandles : List (String × Tag) :=
  [("!", bareTag), ("!!", Tag.ofText "tag:yaml.org,2002:")]

/-- The directives before a document. The version may be given once, and each handle once. -/
def readDirectives : Nat → (versionSeen : Bool) → List (String × Tag) → Read Unit
  | 0, _, _ => failure
  | bound + 1, versionSeen, handles => do
    match ← peek with
    | some (.version major minor) =>
      if versionSeen || major != 1 || (minor != 1 && minor != 2) then failure
      else
        skip
        readDirectives bound true handles
    | some (.handle name stem) =>
      if (handles.lookup name).isSome then failure
      else
        skip
        readDirectives bound versionSeen ((name, stem) :: handles)
    | _ => modify fun r => { r with handles := handles ++ standardHandles }

/-- Whether a directive or the marker of a document comes next. -/
def atPrologue : Read Bool := do
  match ← peek with
  | some (.version _ _) => pure true
  | some (.handle _ _) => pure true
  | some .documentStart => pure true
  | _ => pure false

/-- Whether the document that was begun has no content. -/
def atEpilogue : Read Bool := do
  match ← peek with
  | none => pure true
  | some .documentEnd => pure true
  | _ => atPrologue

/-- Pass the markers of a document's end, after which nothing may come. -/
def readEnd : Read Unit := do
  let r ← get
  if (r.tokens.dropWhile fun t => t == .documentEnd).isEmpty then pure () else failure

/-- The document, or nothing where there is no document. -/
def readDocument (bound : Nat) : Read (Option Document) := do
  if (← peek).isNone then pure none
  else
    let root ← if ← atPrologue then do
        readDirectives bound false []
        expect .documentStart
        if ← atEpilogue then pure .empty else readNode bound true false
      else readNode bound true false
    readEnd
    let r ← get
    pure (some ⟨root, r.owners, r.anchored⟩)

end Read

/-- The document of a text; nothing where the text has no content. It takes two steps at most to
pass a token, and a few more to find the end. -/
def documentOf (text : String) : Option (Option Document) := do
  let tokens ← tokensOf text
  let start : Reading := ⟨tokens, Read.standardHandles, [], [], []⟩
  let (document, _) ← (Read.readDocument (4 * tokens.length + 8)).run start
  pure document

end Herald.Yaml
