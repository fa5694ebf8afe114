import SkillAudit.Yaml.Tag

/-!
The tokens of a YAML text. Indentation opens and closes block collections, and a key is known as
such only when its colon is met: what stands there is noted as a possible key until then.
-/
namespace SkillAudit.Yaml

inductive Token where
  | streamEnd
  | directive (d : Directive)
  | documentStart
  | documentEnd
  | blockSequenceStart
  | blockMappingStart
  | blockEnd
  | flowSequenceStart
  | flowSequenceEnd
  | flowMappingStart
  | flowMappingEnd
  | blockEntry
  | flowEntry
  | key
  | value
  | reference (name : String)
  | anchor (name : String)
  | tag (handle suffix : String)
  | scalar (text : String) (plain : Bool)
  deriving DecidableEq

namespace Token

structure PossibleKey where
  position : Nat
  required : Bool
  line : Nat
  column : Nat
  index : Nat

/-- How far a key may reach, in characters. -/
def keyLength : Nat := 1024

structure State where
  cursor : Cursor
  tokens : Array Token
  /-- The possible key of every open flow collection, innermost first, then of the block level. -/
  keys : List (Option PossibleKey)
  /-- The columns of the open block collections, innermost first. -/
  indents : List Nat
  keyAllowed : Bool

abbrev Build := StateT State Option

namespace Build

def fail {α : Type} : Build α := fun _ => none

def read {α : Type} (r : Read α) : Build α := fun s =>
  (r s.cursor).map fun (a, cursor) => (a, { s with cursor })

def emit (t : Token) : Build Unit := modify fun s => { s with tokens := s.tokens.push t }

def inFlow : Build Bool := return (← get).keys.length > 1

def allowKey (b : Bool) : Build Unit := modify fun s => { s with keyAllowed := b }

def setKey (k : Option PossibleKey) : Build Unit := modify fun s =>
  { s with keys := k :: s.keys.drop 1 }

def dropKey : Build Unit := do
  match (← get).keys.head?.join with
  | some k => if k.required then fail else setKey none
  | none => return ()

def noteKey : Build Unit := do
  let s ← get
  if s.keyAllowed then
    let required := !(← inFlow) && s.indents.head? == some s.cursor.column
    dropKey
    setKey (some ⟨s.tokens.size, required, s.cursor.line, s.cursor.column, s.cursor.index⟩)

/-- Whether a key that started at `k` has ended by now: it stays on one line and is short. -/
def isStale (c : Cursor) (k : PossibleKey) : Bool :=
  k.line < c.line || k.index + keyLength < c.index

def keepFresh (c : Cursor) (key : Option PossibleKey) : Option PossibleKey :=
  key.filter fun k => !isStale c k

def dropStaleKeys : Build Unit := do
  let s ← get
  if s.keys.any (·.any fun k => isStale s.cursor k && k.required) then fail
  else set { s with keys := s.keys.map (keepFresh s.cursor) }

/-- Opens a block collection at a column, if that is further in, with its token at `position`. -/
def indentTo (column position : Nat) (t : Token) : Build Unit := do
  if !(← inFlow) && (← get).indents.head?.all (· < column) then
    modify fun s => { s with
      indents := column :: s.indents
      tokens := s.tokens.insertIdxIfInBounds position t }

/-- Closes the block collections that satisfy `p`, from the innermost on. -/
def closeWhile (p : Nat → Bool) : Build Unit := do
  if !(← inFlow) then
    modify fun s =>
      let closed := s.indents.takeWhile p
      { s with
        indents := s.indents.drop closed.length
        tokens := s.tokens ++ (closed.map fun _ => Token.blockEnd).toArray }

def skipToToken : Nat → Build Unit
  | 0 => return ()
  | fuel + 1 => do
    if (← get).cursor.column == 0 && (← read Read.peek) == some '\ufeff' then read Read.skip
    let tabs := (← inFlow) || !(← get).keyAllowed
    read (discard (Read.takeWhile fun c => c == ' ' || (tabs && c == '\t')))
    read Read.skipComment
    if (← read Read.peek).any isBreak then
      read (discard Read.takeBreak)
      if !(← inFlow) then allowKey true
      skipToToken fuel

def openFlow (t : Token) : Build Unit := do
  noteKey
  modify fun s => { s with keys := none :: s.keys }
  allowKey true
  read Read.skip
  emit t

def closeFlow (t : Token) : Build Unit := do
  dropKey
  if ← inFlow then modify fun s => { s with keys := s.keys.drop 1 }
  allowKey false
  read Read.skip
  emit t

/-- A mark for the whole stream, which ends all block collections. -/
def endBlocks : Build Unit := do
  closeWhile fun _ => true
  dropKey
  allowKey false

def documentMark (t : Token) : Build Unit := do
  endBlocks
  read (Read.skipMany 3)
  emit t

def blockMark (collection t : Token) (keyInFlow : Bool) : Build Unit := do
  if !(← inFlow) then
    let s ← get
    if !s.keyAllowed then fail
    indentTo s.cursor.column s.tokens.size collection
  dropKey
  allowKey (keyInFlow || !(← inFlow))
  read Read.skip
  emit t

/-- The colon of a value. A possible key before it becomes a key. -/
def valueMark : Build Unit := do
  match (← get).keys.head?.join with
  | some k =>
    modify fun s => { s with tokens := s.tokens.insertIdxIfInBounds k.position .key }
    indentTo k.column k.position .blockMappingStart
    setKey none
    allowKey false
  | none =>
    if !(← inFlow) then
      let s ← get
      if !s.keyAllowed then fail
      indentTo s.cursor.column s.tokens.size .blockMappingStart
    allowKey (!(← inFlow))
  read Read.skip
  emit .value

/-- A token that may be, or may start, a key. -/
def keyStart (r : Read Token) : Build Unit := do
  noteKey
  allowKey false
  emit (← read r)

def quoted (quote : Char) (fuel : Nat) : Build Unit := keyStart do
  Read.skip
  return .scalar (String.ofList (← quotedScalar quote fuel []).reverse) false

def block (literal : Bool) (fuel : Nat) : Build Unit := do
  dropKey
  allowKey true
  read Read.skip
  let text ← read (blockScalar literal (← get).indents.head? fuel)
  emit (.scalar (String.ofList text) false)

def plain (fuel : Nat) : Build Unit := do
  noteKey
  allowKey false
  let indent := match (← get).indents.head? with
    | some n => n + 1
    | none => 0
  let (text, broken) ← read (plainScalar (← inFlow) indent fuel [] (.blanks []))
  if broken then allowKey true
  emit (.scalar (String.ofList text.reverse) true)

def marks : List Char := "-?:,[]\x7b\x7d#&*!|>'\"%@\x60".toList

/-- Whether a plain scalar can start with `c` before `next`. -/
def startsPlain (flow : Bool) (c : Char) (next : Option Char) : Bool :=
  !(isEnd (some c) || marks.contains c) || (c == '-' && !next.any isBlank) ||
    (!flow && (c == '?' || c == ':') && !isEnd next)

def next (fuel : Nat) : Build Bool := do
  skipToToken fuel
  dropStaleKeys
  let s ← get
  closeWhile (s.cursor.column < ·)
  let flow ← inFlow
  match s.cursor.rest with
  | [] =>
    endBlocks
    emit .streamEnd
    return false
  | c :: rest =>
    let after := rest.head?
    if s.cursor.column == 0 && c == '%' then
      endBlocks
      emit (.directive (← read (readDirective fuel)))
    else if ← read (Read.atMark '-') then documentMark .documentStart
    else if ← read (Read.atMark '.') then documentMark .documentEnd
    else if c == '[' then openFlow .flowSequenceStart
    else if c == '\x7b' then openFlow .flowMappingStart
    else if c == ']' then closeFlow .flowSequenceEnd
    else if c == '\x7d' then closeFlow .flowMappingEnd
    else if c == ',' then
      dropKey
      allowKey true
      read Read.skip
      emit .flowEntry
    else if c == '-' && isEnd after then blockMark .blockSequenceStart .blockEntry true
    else if c == '?' && (flow || isEnd after) then blockMark .blockMappingStart .key false
    else if c == ':' && (flow || isEnd after) then valueMark
    else if c == '*' then keyStart (Token.reference <$> anchorName)
    else if c == '&' then keyStart (Token.anchor <$> anchorName)
    else if c == '!' then keyStart do
      let (handle, suffix) ← tagParts flow fuel
      return .tag handle suffix
    else if c == '|' && !flow then block true fuel
    else if c == '>' && !flow then block false fuel
    else if c == '\'' || c == '"' then quoted c fuel
    else if startsPlain flow c after then plain fuel
    else fail
    return true

def all (fuel : Nat) : Nat → Build Unit
  | 0 => fail
  | more + 1 => do if ← next fuel then all fuel more

end Build

def ofText? (text : String) : Option (List Token) :=
  let chars := match text.toList with
    | '\ufeff' :: rest => rest
    | cs => cs
  if chars.all isAllowed then
    let fuel := chars.length + 2
    ((Build.all fuel fuel).run ⟨⟨chars, 0, 0, 0⟩, #[], [none], [], true⟩).map
      fun (_, s) => s.tokens.toList
  else none

end Token
end SkillAudit.Yaml
