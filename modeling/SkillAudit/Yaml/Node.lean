import SkillAudit.Yaml.Token

/-! The tree of nodes that the tokens of a YAML text describe. -/
namespace SkillAudit.Yaml

/-- A node. An alias has the number of the slot that its anchor fills. -/
inductive Node where
  | reference (slot : Nat)
  | scalar (tag : Option String) (text : String) (plain : Bool)
  | sequence (tag : Option String) (items : List Node)
  | mapping (tag : Option String) (entries : List (Node × Node))
  deriving Inhabited

namespace Node

def empty : Node := .scalar none "" true

/-- An anchored node: its slot, and how many anchors came before. Of two nodes with one slot the one
that starts later fills it. -/
structure Anchored where
  slot : Nat
  order : Nat
  node : Node

structure State where
  tokens : List Token
  /-- Tag handles with what they stand for, the ones that count first in front. -/
  handles : List (String × String)
  names : List (String × Nat)
  anchors : Nat
  anchored : List Anchored
  /-- How many marks of nodes there are: one for a scalar or an alias, two for a collection. -/
  events : Nat

abbrev Build := StateT State Option

namespace Build

def fail {α : Type} : Build α := fun _ => none

def peek : Build (Option Token) := return (← get).tokens.head?

def skip : Build Unit := modify fun s => { s with tokens := s.tokens.drop 1 }

def count (n : Nat) : Build Unit := modify fun s => { s with events := s.events + n }

def expect (t : Token) : Build Unit := do
  if (← peek) == some t then skip else fail

def nextIn (ts : List Token) : Build Bool := return (← peek).any ts.contains

def emptyNode : Build Node := do
  count 1
  return .empty

def anchor? : Build (Option String) := do
  match ← peek with
  | some (.anchor name) => skip; return some name
  | _ => return none

def tag? : Build (Option String) := do
  match ← peek with
  | some (.tag handle suffix) =>
    skip
    if handle.isEmpty then return some suffix
    else
      match (← get).handles.lookup handle with
      | some meaning => return some (meaning ++ suffix)
      | none => fail
  | _ => return none

def properties : Build (Option String × Option String) := do
  match ← anchor? with
  | some name => return (some name, ← tag?)
  | none =>
    let tag ← tag?
    return (← anchor?, tag)

def enter (name : String) : Build (Nat × Nat) := do
  let s ← get
  let slot := s.names.length
  set { s with
    names := (name, slot) :: s.names.filter (·.1 != name)
    anchors := s.anchors + 1 }
  return (slot, s.anchors)

def fill (place : Option (Nat × Nat)) (node : Node) : Build Node := do
  match place with
  | some (slot, order) =>
    modify fun s => { s with anchored := ⟨slot, order, node⟩ :: s.anchored }
    return node
  | none => return node

/-- Where a node stands: whether block collections, and items without indentation, may follow. -/
inductive Context where
  | flow
  | block
  | blockValue
  deriving DecidableEq

/-- The tag of a scalar with text: a lone exclamation mark is none. -/
def scalarTag (tag : Option String) : Option String :=
  if tag == some "!" then none else tag

mutual

def node : Nat → Context → Build Node
  | 0, _ => fail
  | fuel + 1, context => do
    match ← peek with
    | some (.reference name) =>
      skip
      count 1
      match (← get).names.lookup name with
      | some slot => return .reference slot
      | none => fail
    | _ =>
      let (anchor, tag) ← properties
      let enterAnchor : Build (Option (Nat × Nat)) := do
        match anchor with
        | some name => return some (← enter name)
        | none => return none
      match ← peek with
      | some (.scalar text plain) =>
        skip
        count 1
        fill (← enterAnchor) (.scalar (scalarTag tag) text (plain || tag == some "!"))
      | some .flowSequenceStart =>
        skip
        count 2
        let place ← enterAnchor
        fill place (.sequence tag (← flowItems fuel true))
      | some .flowMappingStart =>
        skip
        count 2
        let place ← enterAnchor
        fill place (.mapping tag (← flowEntries fuel true))
      | some .blockEntry =>
        if context == .blockValue then
          count 2
          let place ← enterAnchor
          fill place (.sequence tag (← looseItems fuel))
        else absent anchor tag enterAnchor
      | some .blockSequenceStart =>
        if context == .flow then absent anchor tag enterAnchor
        else
          skip
          count 2
          let place ← enterAnchor
          fill place (.sequence tag (← blockItems fuel))
      | some .blockMappingStart =>
        if context == .flow then absent anchor tag enterAnchor
        else
          skip
          count 2
          let place ← enterAnchor
          fill place (.mapping tag (← blockEntries fuel))
      | _ => absent anchor tag enterAnchor

def absent (anchor tag : Option String) (enterAnchor : Build (Option (Nat × Nat))) :
    Build Node := do
  if anchor.isNone && tag.isNone then fail
  else
    count 1
    fill (← enterAnchor) (.scalar tag "" true)

def nodeUnless : Nat → List Token → Context → Build Node
  | 0, _, _ => fail
  | fuel + 1, ends, context => do
    if ← nextIn ends then emptyNode else node fuel context

def blockItems : Nat → Build (List Node)
  | 0 => fail
  | fuel + 1 => do
    if ← nextIn [.blockEntry] then
      skip
      let item ← nodeUnless fuel [.blockEntry, .blockEnd] .block
      return item :: (← blockItems fuel)
    else
      expect .blockEnd
      return []

/-- Items that are not indented, under a key. -/
def looseItems : Nat → Build (List Node)
  | 0 => fail
  | fuel + 1 => do
    if ← nextIn [.blockEntry] then
      skip
      let item ← nodeUnless fuel [.blockEntry, .key, .value, .blockEnd] .block
      return item :: (← looseItems fuel)
    else return []

def blockEntries : Nat → Build (List (Node × Node))
  | 0 => fail
  | fuel + 1 => do
    if ← nextIn [.key] then
      skip
      let key ← nodeUnless fuel [.key, .value, .blockEnd] .blockValue
      let value ← if ← nextIn [.value] then do
          skip
          nodeUnless fuel [.key, .value, .blockEnd] .blockValue
        else emptyNode
      return (key, value) :: (← blockEntries fuel)
    else
      expect .blockEnd
      return []

/-- A value of an entry between brackets, if there is a colon. -/
def flowValue : Nat → Token → Build Node
  | 0, _ => fail
  | fuel + 1, close => do
    if ← nextIn [.value] then
      skip
      nodeUnless fuel [.flowEntry, close] .flow
    else emptyNode

/-- The items of a sequence in brackets. An item may be a single entry of a mapping. -/
def flowItems : Nat → Bool → Build (List Node)
  | 0, _ => fail
  | fuel + 1, first => do
    if ← nextIn [.flowSequenceEnd] then
      skip
      return []
    else
      if !first then expect .flowEntry
      if ← nextIn [.flowSequenceEnd] then
        skip
        return []
      else if ← nextIn [.key] then
        skip
        count 2
        let key ← if ← nextIn [.value, .flowEntry, .flowSequenceEnd] then do
            skip
            emptyNode
          else node fuel .flow
        let value ← flowValue fuel .flowSequenceEnd
        return .mapping none [(key, value)] :: (← flowItems fuel false)
      else
        let item ← node fuel .flow
        return item :: (← flowItems fuel false)

def flowEntries : Nat → Bool → Build (List (Node × Node))
  | 0, _ => fail
  | fuel + 1, first => do
    if ← nextIn [.flowMappingEnd] then
      skip
      return []
    else
      if !first then expect .flowEntry
      if ← nextIn [.flowMappingEnd] then
        skip
        return []
      else if ← nextIn [.key] then
        skip
        let key ← nodeUnless fuel [.value, .flowEntry, .flowMappingEnd] .flow
        let value ← flowValue fuel .flowMappingEnd
        return (key, value) :: (← flowEntries fuel false)
      else
        let key ← node fuel .flow
        let value ← emptyNode
        return (key, value) :: (← flowEntries fuel false)

end

/-- The directives before a document: one version at most, and every handle once. -/
def directives : Nat → Bool → List (String × String) → Build (List (String × String))
  | 0, _, _ => fail
  | fuel + 1, versioned, handles => do
    match ← peek with
    | some (.directive (.version major minor)) =>
      if versioned || major != 1 || (minor != 1 && minor != 2) then fail
      else
        skip
        directives fuel true handles
    | some (.directive (.tag handle meaning)) =>
      if (handles.lookup handle).isSome then fail
      else
        skip
        directives fuel versioned (handles ++ [(handle, meaning)])
    | _ => return handles

def defaultHandles : List (String × String) := [("!", "!"), ("!!", "tag:yaml.org,2002:")]

def isDocumentToken : Option Token → Bool
  | some (.directive _) => true
  | some .documentStart => true
  | some .documentEnd => true
  | some .streamEnd => true
  | _ => false

def atEnd : Nat → Build Unit
  | 0 => fail
  | fuel + 1 => do
    if ← nextIn [.documentEnd] then
      skip
      atEnd fuel
    else expect .streamEnd

def document (fuel : Nat) : Build (Option Node) := do
  let first ← peek
  if first == some .streamEnd then return none
  else if isDocumentToken first && first != some .documentEnd then
    let handles ← directives fuel false []
    modify fun s => { s with handles := handles ++ defaultHandles }
    expect .documentStart
    let root ← if isDocumentToken (← peek) then emptyNode else node fuel .block
    atEnd fuel
    return some root
  else
    let root ← node fuel .block
    atEnd fuel
    return some root

end Build

/-- A document: its root, its anchored nodes and the count of its marks. -/
structure Document where
  root : Option Node
  anchored : List Anchored
  events : Nat

def Document.inSlot? (d : Document) (slot : Nat) : Option Node :=
  ((d.anchored.filter (·.slot == slot)).foldl
    (fun best a => match best with
      | none => some a
      | some b => if b.order < a.order then some a else some b) (none : Option Anchored)).map
    (·.node)

def documentOf? (text : String) : Option Document :=
  (Token.ofText? text).bind fun tokens =>
    let fuel := 2 * tokens.length + 4
    ((Build.document fuel).run ⟨tokens, Build.defaultHandles, [], 0, [], 0⟩).map
      fun (root, s) => ⟨root, s.anchored, s.events⟩

end Node
end SkillAudit.Yaml
