import TypeBounds.Yaml.Node
import TypeBounds.Yaml.Scan

/-! # From tokens to nodes

The first document of a text is read. Places where nothing is written hold empty
scalars. A handle in front of a tag stands for what a directive says, and an alias
for the node that had the anchor last.
-/

namespace TypeBounds.Yaml

/-- What tag handles stand for. -/
abbrev Handles := List (String × String)

/-- Where the standard tags live. -/
def standardTags : String := "tag:yaml.org,2002:"

/-- The handles that need no directive. -/
def Handles.standard : Handles := [("!", "!"), ("!!", standardTags)]

/-- What is left to read, and the nodes that have anchors, the latest first. -/
structure Feed where
  tokens : List Token
  anchors : List (String × Node)

/-- Reading can fail, and takes from the feed. -/
abbrev NodeReader := StateT Feed Option

namespace NodeReader

def malformed {α : Type} : NodeReader α := fun _ => none

def peek : NodeReader Token := fun f => f.tokens.head?.map (·, f)

def skip : NodeReader Unit := modify fun f => { f with tokens := f.tokens.tail }

/-- Give a node an anchor, if it has one. -/
def anchor (name : Option String) (n : Node) : NodeReader Unit :=
  match name with
  | none => return
  | some name => modify fun f => { f with anchors := (name, n) :: f.anchors }

/-- Complete a collection that was anchored when it began. An anchor that was given away
    inside it stays there. -/
def complete (name : Option String) (n : Node) : NodeReader Unit :=
  match name with
  | none => return
  | some name => modify fun f =>
      match f.anchors.lookup name with
      | some (.enclosing position _ _) =>
          if position = n.position then { f with anchors := (name, n) :: f.anchors } else f
      | _ => f

end NodeReader

open NodeReader

def emptyScalar (mark : Mark) : Node := .scalar mark.position none .plain ""

/-- A tag in its short form; standard tags start with two exclamation marks. -/
def shortTag (tag : String) : String :=
  if standardTags.isPrefixOf tag then "!!" ++ (tag.drop standardTags.length).toString else tag

/-- What stands before a node's content. -/
structure Properties where
  anchor : Option String
  tag : Option String
  start : Mark

/-- The tag a handle and a suffix make; a lone exclamation mark is none. -/
def expandTag (handles : Handles) (handle suffix : String) : NodeReader (Option String) :=
  if handle = "" then return if suffix = "!" then none else some (shortTag suffix)
  else match handles.lookup handle with
    | some expansion => return some (shortTag (expansion ++ suffix))
    | none => malformed

/-- An anchor and a tag, in either order. -/
def readProperties (handles : Handles) : NodeReader Properties := do
  let first ← peek
  match first.kind with
  | .anchor name =>
      skip
      match (← peek).kind with
      | .tag handle suffix =>
          skip
          return ⟨some name, ← expandTag handles handle suffix, first.start⟩
      | _ => return ⟨some name, none, first.start⟩
  | .tag handle suffix =>
      skip
      match (← peek).kind with
      | .anchor name =>
          skip
          return ⟨some name, ← expandTag handles handle suffix, first.start⟩
      | _ => return ⟨none, ← expandTag handles handle suffix, first.start⟩
  | _ => return ⟨none, none, first.start⟩

/-- Whether the token starts with what may stand before a node's content. -/
def isProperty : Kind → Bool
  | .anchor _ => true
  | .tag .. => true
  | _ => false

/-- Nothing behind an anchor or a tag is an empty scalar; without them a node is missing. -/
def readNothing (props : Properties) (first : Kind) : NodeReader Node := do
  if !isProperty first then malformed
  let n : Node := .scalar props.start.position props.tag .plain ""
  anchor props.anchor n
  return n

/-- A sequence, given how its items are read. -/
def readSequence (props : Properties) (items : NodeReader (List Node)) : NodeReader Node := do
  let position := props.start.position
  anchor props.anchor (.enclosing position props.tag false)
  let n : Node := .sequence position props.tag (← items)
  complete props.anchor n
  return n

/-- A mapping, given how its entries are read. -/
def readMapping (props : Properties) (entries : NodeReader (List (Node × Node))) :
    NodeReader Node := do
  let position := props.start.position
  anchor props.anchor (.enclosing position props.tag true)
  let n : Node := .mapping position props.tag (← entries)
  complete props.anchor n
  return n

/-- An alias of the node that had the anchor last. -/
def readAlias (first : Token) (name : String) : NodeReader Node := do
  skip
  match (← get).anchors.lookup name with
  | some target => return .alias first.start.position name target
  | none => malformed

/-- The tokens that leave a place in a block empty. -/
def endsBlockPart : Kind → Bool
  | .key => true
  | .value => true
  | .blockEnd => true
  | _ => false

/-- The tokens that leave an item of a block sequence empty. -/
def endsBlockItem : Kind → Bool
  | .blockEntry => true
  | .blockEnd => true
  | _ => false

/-- The tokens that leave an item of a sequence without indentation empty. -/
def endsIndentlessItem (k : Kind) : Bool := endsBlockPart k || k == .blockEntry

/-- The tokens that leave a place between brackets empty. -/
def endsFlowPart (closing : Kind) (k : Kind) : Bool := k == .flowEntry || k == closing

/-- The comma before all items between brackets but the first; true at the closing bracket. -/
def atClosing (closing : Kind) (first : Bool) : NodeReader Bool := do
  if (← peek).kind == closing then
    skip
    return true
  if !first then
    if (← peek).kind != .flowEntry then malformed
    skip
    if (← peek).kind == closing then
      skip
      return true
  return false

mutual
/-- A node; `block` where an indented block may stand, `indentless` where a sequence may
    stand without further indentation. -/
def readNode (handles : Handles) (block indentless : Bool) : (fuel : Nat) → NodeReader Node
  | 0 => malformed
  | fuel + 1 => do
      let first ← peek
      if let .alias name := first.kind then return ← readAlias first name
      let props ← readProperties handles
      match (← peek).kind, block, indentless with
      | .scalar text style, _, _ =>
          skip
          let n : Node := .scalar props.start.position props.tag style text
          anchor props.anchor n
          return n
      | .flowSequenceStart, _, _ =>
          skip
          readSequence props (readFlowItems handles true fuel)
      | .flowMappingStart, _, _ =>
          skip
          readMapping props (readFlowEntries handles true fuel)
      | .blockEntry, _, true => readSequence props (readIndentlessItems handles fuel)
      | .blockSequenceStart, true, _ =>
          skip
          readSequence props (readBlockItems handles fuel)
      | .blockMappingStart, true, _ =>
          skip
          readMapping props (readBlockEntries handles fuel)
      | _, _, _ => readNothing props first.kind

/-- The items of an indented sequence, up to its end. -/
def readBlockItems (handles : Handles) : (fuel : Nat) → NodeReader (List Node)
  | 0 => malformed
  | fuel + 1 => do
      let here ← peek
      match here.kind with
      | .blockEntry =>
          skip
          let item ← if endsBlockItem (← peek).kind then pure (emptyScalar here.stop)
            else readNode handles true false fuel
          return item :: (← readBlockItems handles fuel)
      | .blockEnd =>
          skip
          return []
      | _ => malformed

/-- The items of a sequence that is indented no further than the key before it. -/
def readIndentlessItems (handles : Handles) : (fuel : Nat) → NodeReader (List Node)
  | 0 => malformed
  | fuel + 1 => do
      let here ← peek
      match here.kind with
      | .blockEntry =>
          skip
          let item ← if endsIndentlessItem (← peek).kind then pure (emptyScalar here.stop)
            else readNode handles true false fuel
          return item :: (← readIndentlessItems handles fuel)
      | _ => return []

/-- The entries of an indented mapping, up to its end. -/
def readBlockEntries (handles : Handles) : (fuel : Nat) → NodeReader (List (Node × Node))
  | 0 => malformed
  | fuel + 1 => do
      let here ← peek
      match here.kind with
      | .key =>
          skip
          let key ← if endsBlockPart (← peek).kind then pure (emptyScalar here.stop)
            else readNode handles true true fuel
          let value ← readBlockValue handles fuel
          return (key, value) :: (← readBlockEntries handles fuel)
      | .blockEnd =>
          skip
          return []
      | _ => malformed

/-- What stands behind a key of an indented mapping. -/
def readBlockValue (handles : Handles) : (fuel : Nat) → NodeReader Node
  | 0 => malformed
  | fuel + 1 => do
      let here ← peek
      match here.kind with
      | .value =>
          skip
          if endsBlockPart (← peek).kind then return emptyScalar here.stop
          else readNode handles true true fuel
      | _ => return emptyScalar here.start

/-- The items between square brackets, up to the closing one. -/
def readFlowItems (handles : Handles) (first : Bool) : (fuel : Nat) → NodeReader (List Node)
  | 0 => malformed
  | fuel + 1 => do
      if ← atClosing .flowSequenceEnd first then return []
      let here ← peek
      let item ← match here.kind with
        | .key => do
            skip
            readPair handles here.start fuel
        | _ => readNode handles false false fuel
      return item :: (← readFlowItems handles false fuel)

/-- A mapping of one entry that stands between square brackets without braces. -/
def readPair (handles : Handles) (start : Mark) : (fuel : Nat) → NodeReader Node
  | 0 => malformed
  | fuel + 1 => do
      let afterKey ← peek
      let key ← if afterKey.kind == .value || endsFlowPart .flowSequenceEnd afterKey.kind then do
          skip
          pure (emptyScalar afterKey.stop)
        else readNode handles false false fuel
      let here ← peek
      let value ← match here.kind with
        | .value => do
            skip
            if endsFlowPart .flowSequenceEnd (← peek).kind then pure (emptyScalar here.start)
            else readNode handles false false fuel
        | _ => pure (emptyScalar here.start)
      return .mapping start.position none [(key, value)]

/-- The entries between braces, up to the closing one. -/
def readFlowEntries (handles : Handles) (first : Bool) :
    (fuel : Nat) → NodeReader (List (Node × Node))
  | 0 => malformed
  | fuel + 1 => do
      if ← atClosing .flowMappingEnd first then return []
      let entry ← match (← peek).kind with
        | .key => do
            skip
            let here ← peek
            let key ← if here.kind == .value || endsFlowPart .flowMappingEnd here.kind then
                pure (emptyScalar here.start)
              else readNode handles false false fuel
            pure (key, ← readFlowValue handles fuel)
        | _ => do
            let key ← readNode handles false false fuel
            pure (key, emptyScalar (← peek).start)
      return entry :: (← readFlowEntries handles false fuel)

/-- What stands behind a key between braces. -/
def readFlowValue (handles : Handles) : (fuel : Nat) → NodeReader Node
  | 0 => malformed
  | fuel + 1 => do
      let here ← peek
      match here.kind with
      | .value =>
          skip
          let inside ← peek
          if endsFlowPart .flowMappingEnd inside.kind then return emptyScalar inside.start
          else readNode handles false false fuel
      | _ => return emptyScalar here.start
end

/-- The directives before a document: at most one version, which has to be 1.1, and
    different handles. -/
def readDirectives (version : Bool) (handles : Handles) : (fuel : Nat) → NodeReader Handles
  | 0 => malformed
  | fuel + 1 => do
      match (← peek).kind with
      | .versionDirective major minor =>
          if version || major ≠ 1 || minor ≠ 1 then malformed
          skip
          readDirectives true handles fuel
      | .tagDirective handle expansion =>
          if (handles.lookup handle).isSome then malformed
          skip
          readDirectives version ((handle, expansion) :: handles) fuel
      | .documentStart =>
          skip
          return handles ++ Handles.standard
      | _ => malformed

/-- The tokens that may not stand in a document. -/
def boundsDocument : Kind → Bool
  | .versionDirective .. => true
  | .tagDirective .. => true
  | .documentStart => true
  | .documentEnd => true
  | .streamEnd => true
  | _ => false

/-- The first document, if there is one. Of what follows only the next token has to be
    sound. -/
def readDocument (fuel : Nat) : NodeReader (Option Node) := do
  let root ← match (← peek).kind with
    | .streamEnd => return none
    | .versionDirective .. | .tagDirective .. | .documentStart => do
        let handles ← readDirectives false [] fuel
        let here ← peek
        if boundsDocument here.kind then pure (emptyScalar here.start)
        else readNode handles true false fuel
    | _ => readNode Handles.standard true false fuel
  let _ ← peek
  return some root

/-- The root of the first document of a text; nothing when the text is malformed, and no
    root when it is empty. -/
def Node.read (source : String) : Option (Option Node) :=
  let text := match source.toList with
    | '\ufeff' :: rest => rest
    | text => text
  if !text.all isAllowed then none
  else
    let feed : Feed := ⟨tokens text, []⟩
    (readDocument (2 * feed.tokens.length + 2) feed).map (·.1)

end TypeBounds.Yaml
