import SkillAudit.Text.Blank
import SkillAudit.Regex.Error
import SkillAudit.Regex.Pattern
import SkillAudit.Regex.Property

/-! Reading the text of a regular expression. -/
namespace SkillAudit.Regex

structure Flags where
  ignoreCase : Bool := false
  multiLine : Bool := false
  dotAll : Bool := false
  swapGreed : Bool := false
  unicode : Bool := true
  crlf : Bool := false
  /-- Blanks and comments between items are skipped. -/
  verbose : Bool := false
  deriving DecidableEq, Repr

namespace Parser

/-- Where the reader stands: the text to come, the flags, and the groups met. -/
structure Cursor where
  rest : List Char
  flags : Flags
  groups : Nat
  names : List (String × Nat)

abbrev Parse := StateT Cursor (Except SyntaxError)

def fail {α : Type} (e : SyntaxError) : Parse α := throw e

def peek : Parse (Option Char) := return (← get).rest.head?

def peekSecond : Parse (Option Char) := return (← get).rest[1]?

def flags : Parse Flags := return (← get).flags

def advance : Parse Unit := modify fun s => { s with rest := s.rest.drop 1 }

/-- Drops blanks and comments; inside a comment everything up to the line's end goes. -/
def dropVerbose : Bool → List Char → List Char
  | _, [] => []
  | true, c :: rest => dropVerbose (c != '\n') rest
  | false, c :: rest =>
    if Text.isBlank c then dropVerbose false rest
    else if c == '#' then dropVerbose true rest
    else c :: rest

/-- Skips blanks and comments where the verbose flag is set. -/
def skipBlank : Parse Unit :=
  modify fun s => if s.flags.verbose then { s with rest := dropVerbose false s.rest } else s

def advanceBlank : Parse Unit := do
  advance
  skipBlank

/-- Whether the text goes on with `word`, which is then consumed. -/
def accept (word : String) : Parse Bool := do
  match word.toList.isPrefixOf? (← get).rest with
  | some rest => modify fun s => { s with rest }; return true
  | none => return false

def need (e : SyntaxError) : Parse Char := do
  match ← peek with
  | some c => return c
  | none => fail e

def isHex (c : Char) : Bool :=
  c.isDigit || ('a' ≤ c && c ≤ 'f') || ('A' ≤ c && c ≤ 'F')

def hexValue (cs : List Char) : Nat :=
  cs.foldl (fun n c => n * 16 +
    (if c.isDigit then c.toNat - 48 else if c.toNat ≥ 97 then c.toNat - 87 else c.toNat - 55)) 0

/-- The character with a code point, unless it is a surrogate or too large. -/
def scalar (n : Nat) : Parse Char :=
  if h : n.isValidChar then return Char.ofNatAux n h else fail .invalidEscape

/-- A single thing that an escape or a plain character stands for. `byte` marks a character written
as two hexadecimal digits. -/
inductive Atom where
  | literal (c : Char) (byte : Bool)
  | set (s : CharSet)
  | look (l : Look)
  | dot

def hexFixed : Nat → List Char → Parse (List Char)
  | 0, done => return done.reverse
  | n + 1, done => do
    let c ← need .invalidEscape
    if isHex c then
      advanceBlank
      hexFixed n (c :: done)
    else fail .invalidEscape

/-- Characters up to a closing brace, blanks being skipped where they may be. -/
def braced : Nat → List Char → Parse (List Char)
  | 0, _ => fail .invalidEscape
  | fuel + 1, done => do
    advanceBlank
    let c ← need .invalidEscape
    if c == '\x7d' then return done.reverse else braced fuel (c :: done)

/-- The character after `\x`, `\u` or `\U`, which takes `digits` digits or some in braces. -/
def hexEscape (digits : Nat) : Parse Atom := do
  advanceBlank
  let c ← need .invalidEscape
  if c == '\x7b' then
    let ds ← braced ((← get).rest.length + 1) []
    advanceBlank
    if ds.isEmpty || !ds.all isHex then fail .invalidEscape
    else return .literal (← scalar (hexValue ds)) false
  else
    let ds ← hexFixed digits []
    return .literal (← scalar (hexValue ds)) (digits == 2)

def cutAt (mark : List Char) : List Char → List Char → Option (String × String)
  | _, [] => none
  | before, c :: rest =>
    match mark.isPrefixOf? (c :: rest) with
    | some after => some (String.ofList before.reverse, String.ofList after)
    | none => cutAt mark (c :: before) rest

/-- A property in braces, and whether it is negated by `!=`. -/
def propertyQuery (name : List Char) : PropertyQuery × Bool :=
  match cutAt ['!', '='] [] name with
  | some (n, v) => (.value n v, true)
  | none =>
    match cutAt [':'] [] name with
    | some (n, v) => (.value n v, false)
    | none =>
      match cutAt ['='] [] name with
      | some (n, v) => (.value n v, false)
      | none => (.word (String.ofList name), false)

/-- A set, turned into its complement when `negated`; without Unicode only ASCII may remain. -/
def finishSet (s : CharSet) (negated : Bool) : Parse CharSet := do
  let f ← flags
  if f.unicode then return if negated then s.complement CharSet.lastCode else s
  else
    let s := if negated then s.complement 0xFF else s
    if s.below 0x80 then return s else fail .invalidUtf8

def foldSet (s : CharSet) : Parse CharSet := do
  let f ← flags
  return if f.ignoreCase then (if f.unicode then s.foldCase else s.foldAscii) else s

def propertyEscape (negated : Bool) : Parse Atom := do
  advanceBlank
  let c ← need .invalidEscape
  let (query, inverted) ←
    if c == '\x7b' then do
      let name ← braced ((← get).rest.length + 1) []
      advance
      pure (propertyQuery name)
    else if c == '\\' then fail .invalidEscape
    else do
      advanceBlank
      pure (PropertyQuery.word (String.ofList [c]), false)
  if !(← flags).unicode then fail .notAllowedWithoutUnicode
  else
    match query.set? with
    | none => fail .unknownProperty
    | some s => return .set (← finishSet (← foldSet s) (negated != inverted))

def perlSet (c : Char) : Parse CharSet := do
  let unicode := (← flags).unicode
  return match c with
    | 'd' => if unicode then CharSet.digit else CharSet.asciiDigit
    | 's' => if unicode then CharSet.space else CharSet.asciiSpace
    | _ => if unicode then CharSet.word else CharSet.asciiWord

/-- The letters of a word edge in braces, from the first of them on. -/
def edgeName : Nat → List Char → Parse (List Char)
  | 0, done => return done.reverse
  | fuel + 1, done => do
    match ← peek with
    | some c =>
      if c.isAlpha || c == '-' then
        advanceBlank
        edgeName fuel (c :: done)
      else return done.reverse
    | none => return done.reverse

/-- The edge in braces after `\b`, if the braces hold a name rather than a count. -/
def boundary : Parse WordEdge := do
  if (← peek) != some '\x7b' then return .boundary
  let saved ← get
  advanceBlank
  let c ← need .unclosedCount
  if !(c.isAlpha || c == '-') then
    set saved
    return .boundary
  let name ← edgeName ((← get).rest.length + 1) []
  if (← peek) != some '\x7d' then fail .invalidEscape
  advance
  match String.ofList name with
  | "start" => return .startOf
  | "end" => return .endOf
  | "start-half" => return .startHalf
  | "end-half" => return .endHalf
  | _ => fail .invalidEscape

def isEscapable (c : Char) : Bool :=
  c.toNat < 128 && !c.isAlphanum && c != '<' && c != '>'

/-- What an escape stands for; the backslash is the next character. -/
def escape : Parse Atom := do
  advance
  let c ← need .invalidEscape
  if c.isDigit then fail .backreference
  else if c == 'x' then hexEscape 2
  else if c == 'u' then hexEscape 4
  else if c == 'U' then hexEscape 8
  else if c == 'p' then propertyEscape false
  else if c == 'P' then propertyEscape true
  else
    advance
    let unicode := (← flags).unicode
    let plain (c : Char) : Parse Atom := return .literal c false
    let edge (e : WordEdge) : Parse Atom := return .look (.word e unicode)
    if isEscapable c then plain c
    else
      match c with
      | 'd' => return .set (← finishSet (← perlSet 'd') false)
      | 's' => return .set (← finishSet (← perlSet 's') false)
      | 'w' => return .set (← finishSet (← perlSet 'w') false)
      | 'D' => return .set (← finishSet (← perlSet 'd') true)
      | 'S' => return .set (← finishSet (← perlSet 's') true)
      | 'W' => return .set (← finishSet (← perlSet 'w') true)
      | 'a' => plain '\x07'
      | 'f' => plain '\x0c'
      | 't' => plain '\t'
      | 'n' => plain '\n'
      | 'r' => plain '\r'
      | 'v' => plain '\x0b'
      | 'A' => return .look .textStart
      | 'z' => return .look .textEnd
      | 'b' => edge (← boundary)
      | 'B' => edge .notBoundary
      | '<' => edge .startOf
      | '>' => edge .endOf
      | _ => fail .invalidEscape

def atomPattern : Atom → Parse Pattern
  | .set s => return .chars s
  | .look l => return .look l
  | .literal c byte => do
    let f ← flags
    if !f.unicode && byte && c.toNat > 0x7F then fail .invalidUtf8
    else return .chars (← foldSet (.single c.toNat))
  | .dot => do
    let f ← flags
    if !f.unicode then fail .invalidUtf8
    else if f.dotAll then return .chars .any
    else if f.crlf then
      return .chars (CharSet.complement ⟨[(10, 10), (13, 13)]⟩ CharSet.lastCode)
    else return .chars ((CharSet.single 10).complement CharSet.lastCode)

/-- An item of a class: a literal that may start a range, or a set. -/
inductive ClassItem where
  | literal (c : Char) (byte : Bool)
  | set (s : CharSet)

def classItem : Parse ClassItem := do
  let c ← need .unclosedClass
  if c == '\\' then
    match ← escape with
    | .literal c byte => return .literal c byte
    | .set s => return .set s
    | _ => fail .invalidClassItem
  else
    advance
    return .literal c false

/-- The code point of a literal in a class; without Unicode it must be ASCII. -/
def classCode (c : Char) (byte : Bool) : Parse Nat := do
  if (← flags).unicode || c.toNat < 0x80 then return c.toNat
  else fail (if byte then .invalidUtf8 else .notAllowedWithoutUnicode)

/-- A range, or the single item that starts none. -/
def classRange : Parse CharSet := do
  let item ← classItem
  skipBlank
  let c ← need .unclosedClass
  let after := do
    let s ← get
    let rest := s.rest.drop 1
    return (if s.flags.verbose then dropVerbose false rest else rest).head?
  let isRange ← if c != '-' then pure false else do
    let next : Option Char ← after
    pure (next != some ']' && next != some '-')
  if !isRange then
    match item with
    | .literal c byte => return .single (← classCode c byte)
    | .set s => return s
  else
    advanceBlank
    let last ← classItem
    match item, last with
    | .literal a byteA, .literal b byteB =>
      let low ← classCode a byteA
      let high ← classCode b byteB
      if low ≤ high then return .range low high else fail .invalidRange
    | _, _ => fail .invalidClassItem

/-- A class name in brackets and colons, such as `[:alpha:]`; nothing is consumed otherwise. -/
def className : Parse (Option CharSet) := do
  let saved ← get
  match saved.rest with
  | '[' :: ':' :: rest =>
    let (negated, rest) := match rest with
      | '^' :: r => (true, r)
      | r => (false, r)
    let name := rest.takeWhile (· != ':')
    match rest.dropWhile (· != ':') with
    | ':' :: ']' :: rest =>
      match CharSet.ofClassName? (String.ofList name) with
      | none => return none
      | some s =>
        set { saved with rest }
        return some (← finishSet (← foldSet s) negated)
    | _ => return none
  | _ => return none

/-- The operators on sets, which bind more weakly than union. -/
inductive SetOp where
  | inter
  | diff
  | symmDiff
  deriving DecidableEq, Repr

def SetOp.apply (op : SetOp) (a b : CharSet) (top : Nat) : CharSet :=
  match op with
  | .inter => a.inter b top
  | .diff => a.diff b top
  | .symmDiff => a.symmDiff b top

/-- A class that is being read: what stands left of its last operator, and the union after it. -/
structure OpenClass where
  negated : Bool
  left : Option (CharSet × SetOp)
  items : CharSet
  depth : Nat

def OpenClass.close (k : OpenClass) : Parse CharSet := do
  match k.left with
  | none => return k.items
  | some (left, op) =>
    let top := if (← flags).unicode then CharSet.lastCode else 0xFF
    return op.apply (← foldSet left) (← foldSet k.items) top

/-- Opens a class: a circumflex negates it, and leading hyphens and a bracket after them are
literal. -/
def openClass : Parse OpenClass := do
  advanceBlank
  let negated ← if (← need .unclosedClass) == '^' then do advanceBlank; pure true else pure false
  let hyphens ← leadingHyphens ((← get).rest.length + 1) false
  if !hyphens && (← need .unclosedClass) == ']' then
    advanceBlank
    discard <| need .unclosedClass
    return ⟨negated, none, .single ']'.toNat, 0⟩
  else return ⟨negated, none, if hyphens then .single '-'.toNat else .empty, 0⟩
where
  leadingHyphens : Nat → Bool → Parse Bool
    | 0, met => return met
    | fuel + 1, met => do
      if (← need .unclosedClass) == '-' then
        advanceBlank
        leadingHyphens fuel true
      else return met

/-- The items of the classes on the stack, up to the bracket that closes the outermost one. -/
def classBody : Nat → OpenClass → List OpenClass → Parse (CharSet × Nat)
  | 0, _, _ => fail .unclosedClass
  | fuel + 1, k, stack => do
    skipBlank
    let c ← need .unclosedClass
    let second ← peekSecond
    let operator (op : SetOp) : Parse (CharSet × Nat) := do
      advance
      advance
      let left ← k.close
      classBody fuel { k with left := some (left, op), items := .empty, depth := k.depth + 1 } stack
    if c == '[' then
      match ← className with
      | some s => classBody fuel { k with items := k.items.union s } stack
      | none => classBody fuel (← openClass) (k :: stack)
    else if c == ']' then
      advance
      let s ← finishSet (← foldSet (← k.close)) k.negated
      match stack with
      | [] => return (s, k.depth + 1)
      | outer :: stack =>
        let outer := { outer with
          items := outer.items.union s, depth := max outer.depth (k.depth + 1) }
        classBody fuel outer stack
    else if c == '&' && second == some '&' then operator .inter
    else if c == '-' && second == some '-' then operator .diff
    else if c == '~' && second == some '~' then operator .symmDiff
    else
      let s ← classRange
      classBody fuel { k with items := k.items.union s } stack

/-- A bracketed class and how deeply it nests; the opening bracket is the next character. -/
def bracketed : Parse (CharSet × Nat) := do
  let fuel := (← get).rest.length + 1
  classBody fuel (← openClass) []

/-- A part of a sequence. Flags that are set in the midst of one cannot be repeated. -/
structure Piece where
  pattern : Pattern
  depth : Nat
  repeatable : Bool

/-- The alternatives finished so far and the sequence being read, both backwards. -/
structure Level where
  branches : List (Pattern × Nat)
  pieces : List Piece

/-- A group that is still open: what surrounds it, its number, and the flags to go back to. -/
structure OpenGroup where
  outer : Level
  index : Option Nat
  flags : Flags

def maxDepth (ds : List Nat) : Nat := ds.foldl max 0

def Level.sequence (l : Level) : Pattern × Nat :=
  let pieces := l.pieces.reverse
  let depth := maxDepth (pieces.map (·.depth))
  (.sequence (pieces.map (·.pattern)), if pieces.length > 1 then depth + 1 else depth)

def Level.pattern (l : Level) : Pattern × Nat :=
  let branches := (l.sequence :: l.branches).reverse
  let depth := maxDepth (branches.map (·.2))
  (.choice (branches.map (·.1)), if branches.length > 1 then depth + 1 else depth)

def decimal : Parse (Option Nat) := do
  modify fun s => { s with rest := s.rest.dropWhile Text.isBlank }
  let ds ← digits ((← get).rest.length + 1) []
  modify fun s => { s with rest := s.rest.dropWhile Text.isBlank }
  skipBlank
  if ds.isEmpty then return none
  else
    let n := ds.foldl (fun n c => n * 10 + (c.toNat - 48)) 0
    if n < UInt32.size then return some n else fail .invalidCount
where
  digits : Nat → List Char → Parse (List Char)
    | 0, done => return done.reverse
    | fuel + 1, done => do
      match ← peek with
      | some c =>
        if c.isDigit then
          advanceBlank
          digits fuel (c :: done)
        else return done.reverse
      | none => return done.reverse

/-- The least and greatest number of a counted repetition; the brace is the next character. -/
def counts : Parse (Nat × Option Nat) := do
  advanceBlank
  discard <| need .unclosedCount
  let least ← decimal
  let c ← need .unclosedCount
  let bounds ←
    if c == ',' then do
      advanceBlank
      let c ← need .unclosedCount
      match least with
      | none => fail .invalidCount
      | some least =>
        if c != '\x7d' then
          match ← decimal with
          | some most => pure (least, some most)
          | none => fail .invalidCount
        else pure (least, none)
    else
      match least with
      | some n => pure (n, some n)
      | none => fail .invalidCount
  if (← need .unclosedCount) != '\x7d' then fail .unclosedCount
  advanceBlank
  match bounds with
  | (least, some most) => if least ≤ most then return (least, some most) else fail .invalidCount
  | b => return b

/-- Repeats the last piece of a sequence; a question mark makes the repetition reluctant. -/
def repeatLast (l : Level) (bounds : Parse (Nat × Option Nat)) : Parse Level := do
  match l.pieces with
  | [] => fail .missingOperand
  | p :: rest =>
    if !p.repeatable then fail .missingOperand
    else
      let (least, most) ← bounds
      let greedy ← if (← peek) == some '?' then do advance; pure false else pure true
      let greedy := greedy != (← flags).swapGreed
      let repeated := Pattern.repeated p.pattern least most greedy
      return { l with pieces := ⟨repeated, p.depth + 1, true⟩ :: rest }

def Flags.set (f : Flags) (c : Char) (on : Bool) : Option Flags :=
  match c with
  | 'i' => some { f with ignoreCase := on }
  | 'm' => some { f with multiLine := on }
  | 's' => some { f with dotAll := on }
  | 'U' => some { f with swapGreed := on }
  | 'u' => some { f with unicode := on }
  | 'R' => some { f with crlf := on }
  | 'x' => some { f with verbose := on }
  | _ => none

/-- Flag letters up to a colon or a closing parenthesis, which is left. No letter and no hyphen may
repeat, and a hyphen may not come last. -/
def flagLetters : Nat → Flags → List Char → Parse (Flags × List Char)
  | 0, _, _ => fail .invalidFlags
  | fuel + 1, f, seen => do
    let c ← need .invalidFlags
    if c == ':' || c == ')' then
      if seen.head? == some '-' then fail .invalidFlags else return (f, seen)
    else if seen.contains c then fail .invalidFlags
    else if c == '-' then
      advance
      flagLetters fuel f (c :: seen)
    else
      match Flags.set f c (!seen.contains '-') with
      | none => fail .invalidFlags
      | some f =>
        advance
        flagLetters fuel f (c :: seen)

def isNameStart (c : Char) : Bool :=
  c == '_' || CharSet.alphabetic.contains c.toNat

def isNamePart (c : Char) : Bool :=
  isNameStart c || c == '.' || c == '[' || c == ']' ||
    CharSet.numeric.contains c.toNat

def groupName : Parse String := do
  let rest := (← get).rest
  let name := rest.takeWhile (· != '>')
  match rest.dropWhile (· != '>') with
  | [] => fail .invalidGroupName
  | _ :: rest =>
    modify fun s => { s with rest }
    match name with
    | [] => fail .invalidGroupName
    | c :: more =>
      if isNameStart c && more.all isNamePart then return String.ofList name
      else fail .invalidGroupName

def openGroup (l : Level) : Parse (Level × Option OpenGroup) := do
  let saved ← flags
  advance
  skipBlank
  let rest := (← get).rest
  if ["?=", "?!", "?<=", "?<!"].any fun w => w.toList.isPrefixOf rest then fail .lookAround
  let capture (name : Option String) : Parse (Level × Option OpenGroup) := do
    let index := (← get).groups + 1
    match name with
    | some n =>
      if (← get).names.any (·.1 == n) then fail .duplicateGroupName
      modify fun s => { s with names := (n, index) :: s.names }
    | none => pure ()
    modify fun s => { s with groups := index }
    return (⟨[], []⟩, some ⟨l, some index, saved⟩)
  if ← accept "?P<" then capture (some (← groupName))
  else if ← accept "?<" then capture (some (← groupName))
  else if ← accept "?" then
    discard <| need .unclosedGroup
    let (f, seen) ← flagLetters ((← get).rest.length + 1) saved []
    let closing ← need .invalidFlags
    advance
    modify fun s => { s with flags := f }
    if closing == ')' then
      if seen.isEmpty then fail .missingOperand
      else return ({ l with pieces := ⟨.empty, 0, false⟩ :: l.pieces }, none)
    else return (⟨[], []⟩, some ⟨l, none, saved⟩)
  else capture none

def body : Nat → Level → List OpenGroup → Parse (Pattern × Nat)
  | 0, _, _ => fail .unclosedGroup
  | fuel + 1, l, stack => do
    skipBlank
    match ← peek with
    | none => if stack.isEmpty then return l.pattern else fail .unclosedGroup
    | some '(' =>
      match ← openGroup l with
      | (l, none) => body fuel l stack
      | (l, some g) => body fuel l (g :: stack)
    | some ')' =>
      match stack with
      | [] => fail .unopenedGroup
      | g :: stack =>
        advance
        modify fun s => { s with flags := g.flags }
        let (p, depth) := l.pattern
        let p := match g.index with
          | some i => Pattern.group i p
          | none => p
        body fuel { g.outer with pieces := ⟨p, depth + 1, true⟩ :: g.outer.pieces } stack
    | some '|' =>
      advance
      body fuel ⟨l.sequence :: l.branches, []⟩ stack
    | some '[' =>
      let (s, depth) ← bracketed
      body fuel { l with pieces := ⟨.chars s, depth, true⟩ :: l.pieces } stack
    | some '?' => body fuel (← repeatLast l (do advance; return (0, some 1))) stack
    | some '*' => body fuel (← repeatLast l (do advance; return (0, none))) stack
    | some '+' => body fuel (← repeatLast l (do advance; return (1, none))) stack
    | some '\x7b' => body fuel (← repeatLast l counts) stack
    | some c =>
      let f ← flags
      let pattern ←
        match c with
        | '\\' => atomPattern (← escape)
        | '.' => do advance; atomPattern .dot
        | '^' => do
          advance
          pure (.look (if f.multiLine then .lineStart f.crlf else .textStart))
        | '$' => do
          advance
          pure (.look (if f.multiLine then .lineEnd f.crlf else .textEnd))
        | c => do advance; atomPattern (.literal c false)
      body fuel { l with pieces := ⟨pattern, 0, true⟩ :: l.pieces } stack

def nestLimit : Nat := 250

end Parser

/-- The pattern a text stands for, and the numbers of its named groups. -/
def parse (f : Flags) (text : String) : Except SyntaxError (Pattern × List (String × Nat)) := do
  let cs := text.toList
  let ((p, depth), s) ← (Parser.body (cs.length + 1) ⟨[], []⟩ []).run ⟨cs, f, 0, []⟩
  if depth > Parser.nestLimit then throw .nestedTooDeep else return (p, s.names)

end SkillAudit.Regex
