import GatewayTelemetry.Yaml.Token

/-! # Document trees

A document is one node: a scalar, a sequence or a mapping. A node may carry an anchor, and an
alias stands for the last node of the document with the anchor it names. A text holds at most one
document; a text without any is not an error.
-/

namespace GatewayTelemetry.Yaml

/-- Anchors are numbered. Giving a name again numbers it anew, by the count of names so far. -/
inductive Node where
  | scalar (style : Style) (tag : Option Octets) (text : String)
  | sequence (items : List Node)
  | mapping (pairs : List (Node × Node))
  | anchored (anchor : Nat) (node : Node)
  | reference (anchor : Nat)

namespace Node

def blank : Node := .scalar .plain none ""

instance : Inhabited Node := ⟨blank⟩

mutual

def targets : Node → List (Nat × Node)
  | anchored anchor node => (anchor, node) :: node.targets
  | sequence items => targetsOfItems items
  | mapping pairs => targetsOfPairs pairs
  | scalar _ _ _ | reference _ => []

def targetsOfItems : List Node → List (Nat × Node)
  | [] => []
  | item :: items => item.targets ++ targetsOfItems items

def targetsOfPairs : List (Node × Node) → List (Nat × Node)
  | [] => []
  | (key, value) :: pairs => key.targets ++ value.targets ++ targetsOfPairs pairs

end

def resolved (root : Node) : Node → Node
  | anchored _ node => node
  | reference anchor => (root.targets.reverse.lookup anchor).getD blank
  | node => node

end Node

structure Reading where
  tokens : List Token
  anchors : List (List Char × Nat)
  handles : List (List Char × Octets)

abbrev Read := StateT Reading Option

namespace Read

def peek? : Read (Option Token) := do return (← get).tokens.head?

def advance : Read Unit := modify fun r => { r with tokens := r.tokens.drop 1 }

def accept (t : Token) : Read Bool := do
  if (← peek?) = some t then
    advance
    return true
  else return false

def expect (t : Token) : Read Unit := do
  if !(← accept t) then failure

def atOneOf (ts : List Token) : Read Bool := do
  match ← peek? with
  | some t => return ts.contains t
  | none => return true

def define (name : List Char) : Read Nat := do
  let anchors := (← get).anchors
  let others := anchors.filter fun a => a.1 != name
  modify fun r => { r with anchors := (name, anchors.length) :: others }
  return anchors.length

def resolve (name : List Char) : Read Node := do
  match (← get).anchors.lookup name with
  | some anchor => return .reference anchor
  | none => failure

def expandTag (handle : List Char) (suffix : Octets) : Read Octets := do
  if handle.isEmpty then return suffix
  match (← get).handles.lookup handle with
  | some expansion => return expansion ++ suffix
  | none => failure

def anchor? : Read (Option (List Char)) := do
  match ← peek? with
  | some (.anchor name) =>
    advance
    return some name
  | _ => return none

def tag? : Read (Option Octets) := do
  match ← peek? with
  | some (.tag handle suffix) =>
    advance
    return some (← expandTag handle suffix)
  | _ => return none

def properties : Read (Option (List Char) × Option Octets) := do
  match ← anchor? with
  | some name => return (some name, ← tag?)
  | none =>
    let tag ← tag?
    return (← anchor?, tag)

end Read

open Read

mutual

/-- One node. Block collections need `block`; `flush` also takes entries that are not indented. -/
def readNode : Nat → Bool → Bool → Read Node
  | 0, _, _ => failure
  | fuel + 1, block, flush => do
    match ← peek? with
    | some (.alias name) =>
      advance
      resolve name
    | _ =>
      let (name, tag) ← properties
      match name with
      | some name =>
        let anchor ← define name
        return .anchored anchor (← readContent fuel block flush true tag)
      | none => readContent fuel block flush tag.isSome tag

def readContent : Nat → Bool → Bool → Bool → Option Octets → Read Node
  | 0, _, _, _, _ => failure
  | fuel + 1, block, flush, marked, tag => do
    match ← peek? with
    | some (.scalar style text) =>
      advance
      return .scalar style tag (String.ofList text)
    | some .openItems =>
      advance
      readItems fuel true
    | some .openPairs =>
      advance
      readPairs fuel true
    | t =>
      if block && t = some .openBlockItems then
        advance
        readBlockItems fuel
      else if block && t = some .openBlockPairs then
        advance
        readBlockPairs fuel
      else if flush && t = some .blockEntry then readFlushItems fuel
      else if marked then return .scalar .plain tag ""
      else failure

def readBlockItems : Nat → Read Node
  | 0 => failure
  | fuel + 1 => do
    let items ← readEntries fuel [.blockEntry, .closeBlock]
    expect .closeBlock
    return .sequence items

def readFlushItems : Nat → Read Node
  | 0 => failure
  | fuel + 1 => do
    return .sequence (← readEntries fuel [.blockEntry, .key, .value, .closeBlock])

def readEntries : Nat → List Token → Read (List Node)
  | 0, _ => failure
  | fuel + 1, ends => do
    if ← accept .blockEntry then
      let item ← if ← atOneOf ends then pure .blank else readNode fuel true false
      return item :: (← readEntries fuel ends)
    else return []

def readBlockPairs : Nat → Read Node
  | 0 => failure
  | fuel + 1 => do return .mapping (← readBlockMembers fuel)

def readBlockMembers : Nat → Read (List (Node × Node))
  | 0 => failure
  | fuel + 1 => do
    if ← accept .closeBlock then return []
    else
      let ends : List Token := [.key, .value, .closeBlock]
      expect .key
      let key ← if ← atOneOf ends then pure .blank else readNode fuel true true
      let value ←
        if ← accept .value then
          if ← atOneOf ends then pure .blank else readNode fuel true true
        else pure .blank
      return (key, value) :: (← readBlockMembers fuel)

/-- The items of a flow sequence; all but the first follow a comma. A single pair may stand for a
mapping; where its key is left out, the token in its place is passed over. -/
def readItems : Nat → Bool → Read Node
  | 0, _ => failure
  | fuel + 1, first => do return .sequence (← readFlowItems fuel first)

def readFlowItems : Nat → Bool → Read (List Node)
  | 0, _ => failure
  | fuel + 1, first => do
    if ← accept .closeItems then return []
    if !first then expect .flowEntry
    if ← accept .closeItems then return []
    let item ←
      if ← accept .key then
        let key ←
          if ← atOneOf [.value, .flowEntry, .closeItems] then
            advance
            pure .blank
          else readNode fuel false false
        let value ← readFlowValue fuel .closeItems
        pure (.mapping [(key, value)])
      else readNode fuel false false
    return item :: (← readFlowItems fuel false)

def readPairs : Nat → Bool → Read Node
  | 0, _ => failure
  | fuel + 1, first => do return .mapping (← readFlowPairs fuel first)

def readFlowPairs : Nat → Bool → Read (List (Node × Node))
  | 0, _ => failure
  | fuel + 1, first => do
    if ← accept .closePairs then return []
    if !first then expect .flowEntry
    if ← accept .closePairs then return []
    let pair ←
      if ← accept .key then
        let ends : List Token := [.value, .flowEntry, .closePairs]
        let key ← if ← atOneOf ends then pure .blank else readNode fuel false false
        pure (key, ← readFlowValue fuel .closePairs)
      else pure (← readNode fuel false false, .blank)
    return pair :: (← readFlowPairs fuel false)

def readFlowValue : Nat → Token → Read Node
  | 0, _ => failure
  | fuel + 1, close => do
    if ← accept .value then
      if ← atOneOf [.flowEntry, close] then return .blank else readNode fuel false false
    else return .blank

end

def standardExpansion : String := "tag:yaml.org,2002:"

def standardHandles : List (List Char × Octets) :=
  [(['!'], .ofText "!"), (['!', '!'], .ofText standardExpansion)]

def readDirectives : Nat → Bool → List (List Char × Octets) → Read (List (List Char × Octets))
  | 0, _, _ => failure
  | fuel + 1, versioned, handles => do
    match ← peek? with
    | some (.version major minor) =>
      if versioned || major ≠ 1 || (minor ≠ 1 && minor ≠ 2) then failure
      advance
      readDirectives fuel true handles
    | some (.tagDirective handle expansion) =>
      if handles.any fun h => h.1 == handle then failure
      advance
      readDirectives fuel versioned (handles ++ [(handle, expansion)])
    | _ => return handles

def readDocumentEnds : Nat → Read Unit
  | 0 => failure
  | fuel + 1 => do
    if ← accept .documentEnd then readDocumentEnds fuel

def readDocument (fuel : Nat) : Read (Option Node) := do
  let start ← peek?
  let handles ← readDirectives fuel false []
  modify fun r => { r with handles := handles ++ standardHandles }
  if (← peek?).isNone && start.isNone then return none
  if ← accept .documentStart then
    let node ←
      if ← atOneOf [.documentStart, .documentEnd] then pure .blank else readNode fuel true false
    readDocumentEnds fuel
    return some node
  else
    if !handles.isEmpty || start != (← peek?) then failure
    let node ← readNode fuel true false
    readDocumentEnds fuel
    return some node

/-- The document of a text. Fails unless the whole text is one document or none. -/
def document? (text : String) : Option (Option Node) := do
  let tokens ← tokens? text
  let (node, rest) ← (readDocument (4 * tokens.length + 8)).run ⟨tokens, [], []⟩
  if rest.tokens.isEmpty then return node else none

end GatewayTelemetry.Yaml
