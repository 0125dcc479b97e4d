import ContextRoles.Yaml.Resolution
import ContextRoles.Yaml.Token

/-! # Nodes

The tokens of a document form one tree of scalars, sequences and mappings. An alias stands for the node
of its anchor. Inside that node itself it stands for a copy of it, in which the alias is left open.
-/

namespace ContextRoles.Yaml

inductive Node where
  | scalar (tag : Tag) (text : String)
  | sequence (tag : Tag) (items : List Node)
  | mapping (tag : Tag) (members : List (Node × Node))
  /-- An alias of a node around this one. -/
  | enclosing (anchor : String)

namespace Node

def absent : Node := scalar .null ""

mutual

def close (anchor : String) (value : Node) : Node → Node
  | scalar tag text => scalar tag text
  | sequence tag items => sequence tag (closeItems anchor value items)
  | mapping tag members => mapping tag (closeMembers anchor value members)
  | enclosing name => if name = anchor then value else enclosing name

def closeItems (anchor : String) (value : Node) : List Node → List Node
  | [] => []
  | item :: items => close anchor value item :: closeItems anchor value items

def closeMembers (anchor : String) (value : Node) : List (Node × Node) → List (Node × Node)
  | [] => []
  | (k, v) :: members =>
    (close anchor value k, close anchor value v) :: closeMembers anchor value members

end

end Node

/-- What is left of the tokens, with the meaning of anchors and tag handles. -/
structure NodeReader where
  tokens : List Token
  anchors : List (String × Node) := []
  handles : List (String × String) := []

abbrev NodeRead (α : Type) := Except Fault (α × NodeReader)

/-- What may stand before the content of a node. -/
structure NodeProperties where
  anchor : Option String := none
  tag : Option String := none

namespace NodeReader

variable (r : NodeReader)

def next? : Option Token := r.tokens.head?

def skip : NodeReader := { r with tokens := r.tokens.drop 1 }

def isAt (tokens : List Token) : Bool :=
  match r.next? with
  | some t => tokens.contains t
  | none => false

def resolveTag (handle : Option String) (suffix : String) : Except Fault String :=
  match handle with
  | none => .ok suffix
  | some name =>
    match r.handles.lookup name with
    | some target => .ok (target ++ suffix)
    | none => .error .malformed

def readTag? : Except Fault (Option String × NodeReader) :=
  match r.next? with
  | some (.tag handle suffix) => do pure (some (← r.resolveTag handle suffix), r.skip)
  | _ => .ok (none, r)

def readAnchor? : Option String × NodeReader :=
  match r.next? with
  | some (.anchor name) => (some name, r.skip)
  | _ => (none, r)

def readProperties : Except Fault (NodeProperties × NodeReader) :=
  match r.readAnchor? with
  | (some anchor, r) => do
    let (tag, r) ← r.readTag?
    pure (⟨some anchor, tag⟩, r)
  | (none, r) => do
    let (tag, r) ← r.readTag?
    if tag.isSome then
      let (anchor, r) := r.readAnchor?
      pure (⟨anchor, tag⟩, r)
    else pure (⟨none, none⟩, r)

def setAnchor (anchor : Option String) (node : Node) : NodeReader :=
  match anchor with
  | some name => { r with anchors := (name, node) :: r.anchors.filter fun (n, _) => n ≠ name }
  | none => r

end NodeReader

namespace NodeProperties

variable (p : NodeProperties)

def collectionTag (default : Tag) : Tag :=
  match p.tag with
  | none => default
  | some "!" => default
  | some name => Tag.ofName name

/-- The tag of a scalar. The spelling decides for plain scalars and those with a single mark. -/
def scalarTag (text : String) (plain : Bool) : Tag :=
  match p.tag with
  | none => if plain then implicitTag text else .text
  | some "!" => implicitTag text
  | some name => Tag.ofName name

/-- Registers a collection under its anchor, closing the aliases of it inside. -/
def register (node : Node) (r : NodeReader) : Node × NodeReader :=
  match p.anchor with
  | some name =>
    let node := node.close name node
    (node, r.setAnchor (some name) node)
  | none => (node, r)

end NodeProperties

/-- Where a node stands: in a flow collection, in a block, or as a value in a block mapping, where a
sequence need not be indented. -/
inductive Place where
  | flow
  | block
  | blockValue
  deriving DecidableEq, Repr

namespace Node

mutual

/-- The node at the reader. Every call but the first two in a row reads a token. -/
def read (place : Place) : Nat → NodeReader → NodeRead Node
  | 0, _ => .error .malformed
  | fuel + 1, r =>
    match r.next? with
    | some (.alias name) =>
      match r.anchors.lookup name with
      | some node => .ok (node, r.skip)
      | none => .error .malformed
    | _ =>
      match r.readProperties with
      | .error e => .error e
      | .ok (p, r) =>
        if p.anchor.any fun name => (r.anchors.lookup name).isSome then .error .malformed
        else
          let opened := r.setAnchor p.anchor (.enclosing (p.anchor.getD ""))
          let sequence (items : NodeRead (List Node)) : NodeRead Node :=
            items.map fun (items, r) => p.register (.sequence (p.collectionTag .seq) items) r
          let mapping (members : NodeRead (List (Node × Node))) : NodeRead Node :=
            members.map fun (members, r) => p.register (.mapping (p.collectionTag .map) members) r
          match r.next?, place with
          | some .blockEntry, .blockValue => sequence (readLooseItems fuel opened)
          | some (.scalar text plain), _ =>
            let node := scalar (p.scalarTag text plain) text
            .ok (node, r.skip.setAnchor p.anchor node)
          | some .flowSequenceStart, _ => sequence (readFlowItems true fuel opened.skip)
          | some .flowMappingStart, _ => mapping (readFlowMembers true fuel opened.skip)
          | some .blockSequenceStart, .block => sequence (readItems fuel opened.skip)
          | some .blockSequenceStart, .blockValue => sequence (readItems fuel opened.skip)
          | some .blockMappingStart, .block => mapping (readMembers fuel opened.skip)
          | some .blockMappingStart, .blockValue => mapping (readMembers fuel opened.skip)
          | _, _ =>
            if p.anchor.isSome || p.tag.isSome then
              let node := scalar (p.scalarTag "" true) ""
              .ok (node, r.setAnchor p.anchor node)
            else .error .malformed

def readUnless (place : Place) (ends : List Token) : Nat → NodeReader → NodeRead Node
  | 0, _ => .error .malformed
  | fuel + 1, r => if r.isAt ends then .ok (absent, r) else read place fuel r

def readItems : Nat → NodeReader → NodeRead (List Node)
  | 0, _ => .error .malformed
  | fuel + 1, r =>
    match r.next? with
    | some .blockEntry =>
      match readUnless .block [.blockEntry, .blockEnd] fuel r.skip with
      | .error e => .error e
      | .ok (item, r) => (readItems fuel r).map fun (items, r) => (item :: items, r)
    | some .blockEnd => .ok ([], r.skip)
    | _ => .error .malformed

/-- The entries of a sequence that is not indented; it has no token for its end. -/
def readLooseItems : Nat → NodeReader → NodeRead (List Node)
  | 0, _ => .error .malformed
  | fuel + 1, r =>
    match r.next? with
    | some .blockEntry =>
      match readUnless .block [.blockEntry, .key, .value, .blockEnd] fuel r.skip with
      | .error e => .error e
      | .ok (item, r) => (readLooseItems fuel r).map fun (items, r) => (item :: items, r)
    | _ => .ok ([], r)

def readMembers : Nat → NodeReader → NodeRead (List (Node × Node))
  | 0, _ => .error .malformed
  | fuel + 1, r =>
    match r.next? with
    | some .key =>
      match readUnless .blockValue [.key, .value, .blockEnd] fuel r.skip with
      | .error e => .error e
      | .ok (key, r) =>
        match readValue .blockValue [.key, .value, .blockEnd] fuel r with
        | .error e => .error e
        | .ok (value, r) => (readMembers fuel r).map fun (rest, r) => ((key, value) :: rest, r)
    | some .blockEnd => .ok ([], r.skip)
    | _ => .error .malformed

/-- The value after a key, which may be left out with or without its colon. -/
def readValue (place : Place) (ends : List Token) : Nat → NodeReader → NodeRead Node
  | 0, _ => .error .malformed
  | fuel + 1, r =>
    match r.next? with
    | some .value => readUnless place ends fuel r.skip
    | _ => .ok (absent, r)

/-- The entries of a flow sequence, after a comma unless they are the first. A key makes an entry a
mapping of one member. -/
def readFlowItems (first : Bool) : Nat → NodeReader → NodeRead (List Node)
  | 0, _ => .error .malformed
  | fuel + 1, r =>
    match r.next? with
    | some .flowSequenceEnd => .ok ([], r.skip)
    | _ =>
      if !first && r.next? ≠ some .flowEntry then .error .malformed
      else
        let r := if first then r else r.skip
        match r.next? with
        | some .flowSequenceEnd => .ok ([], r.skip)
        | some .key =>
          match readUnless .flow [.value, .flowEntry, .flowSequenceEnd] fuel r.skip with
          | .error e => .error e
          | .ok (key, r) =>
            match readValue .flow [.flowEntry, .flowSequenceEnd] fuel r with
            | .error e => .error e
            | .ok (value, r) => (readFlowItems false fuel r).map fun (items, r) =>
              (.mapping .map [(key, value)] :: items, r)
        | _ =>
          match read .flow fuel r with
          | .error e => .error e
          | .ok (item, r) => (readFlowItems false fuel r).map fun (items, r) => (item :: items, r)

/-- The members of a flow mapping, after a comma unless they are the first. -/
def readFlowMembers (first : Bool) : Nat → NodeReader → NodeRead (List (Node × Node))
  | 0, _ => .error .malformed
  | fuel + 1, r =>
    match r.next? with
    | some .flowMappingEnd => .ok ([], r.skip)
    | _ =>
      if !first && r.next? ≠ some .flowEntry then .error .malformed
      else
        let r := if first then r else r.skip
        match r.next? with
        | some .flowMappingEnd => .ok ([], r.skip)
        | some .key =>
          match readUnless .flow [.value, .flowEntry, .flowMappingEnd] fuel r.skip with
          | .error e => .error e
          | .ok (key, r) =>
            match readValue .flow [.flowEntry, .flowMappingEnd] fuel r with
            | .error e => .error e
            | .ok (value, r) => (readFlowMembers false fuel r).map fun (members, r) =>
              ((key, value) :: members, r)
        | _ =>
          match read .flow fuel r with
          | .error e => .error e
          | .ok (key, r) => (readFlowMembers false fuel r).map fun (members, r) =>
            ((key, absent) :: members, r)

end

end Node

/-! ## Documents -/

def defaultHandles : List (String × String) := [("!", "!"), ("!!", Tag.standardSpace)]

/-- The tag handles that directives define. There is one version directive at most, of version 1. -/
def readDirectives : List Token → Bool → List (String × String) →
    Except Fault (List (String × String) × List Token)
  | .directive (.version major) :: tokens, versioned, handles =>
    if versioned || major ≠ 1 then .error .malformed else readDirectives tokens true handles
  | .directive (.handle name target) :: tokens, versioned, handles =>
    if (handles.lookup name).isSome then .error .malformed
    else readDirectives tokens versioned (handles ++ [(name, target)])
  | .directive .other :: tokens, versioned, handles => readDirectives tokens versioned handles
  | tokens, _, handles => .ok (handles, tokens)

def isDirective : Token → Bool
  | .directive _ => true
  | _ => false

def endsDocument : List Token → Bool
  | [] => true
  | t :: _ => isDirective t || t == .documentStart || t == .documentEnd

def isDocumentEnd (t : Token) : Bool := t == .documentEnd

/-- Reads the content of a document; nothing but markers of its end may follow it. -/
def readContent (handles : List (String × String)) (tokens : List Token) :
    Except Fault Node := do
  let (node, r) ← Node.read .block (3 * tokens.length + 3) { tokens, handles }
  if (r.tokens.dropWhile isDocumentEnd).isEmpty then pure node else throw .malformed

def Node.ofTokens? : List Token → Except Fault (Option Node)
  | [] => .ok none
  | t :: tokens =>
    if isDirective t || t == .documentStart then do
      let (handles, rest) ← readDirectives (t :: tokens) false []
      let handles := handles ++ defaultHandles
      match rest with
      | .documentStart :: rest =>
        if endsDocument rest then
          if (rest.dropWhile isDocumentEnd).isEmpty then pure (some .absent) else throw .malformed
        else
          let node ← readContent handles rest
          pure (some node)
      | _ => throw .malformed
    else do
      let node ← readContent defaultHandles (t :: tokens)
      pure (some node)

end ContextRoles.Yaml
