import SkillAudit.Yaml.Cursor

/-! The texts of plain, quoted and block scalars. -/
namespace SkillAudit.Yaml
open Read

inductive Gap where
  | blanks (text : List Char)
  | lines (first more : List Char)

namespace Gap

/-- A single line feed becomes a space; of several the first is dropped. -/
def fold : Gap → List Char
  | blanks text => text
  | lines first more =>
    if first == ['\n'] then (if more.isEmpty then [' '] else more) else first ++ more

def isLines : Gap → Bool
  | blanks _ => false
  | lines _ _ => true

/-- Moves over blanks and breaks. A tab before column `indent` of a new line is an error. -/
def read (indent : Nat) : Nat → Gap → Read Gap
  | 0, _ => fail
  | fuel + 1, gap => do
    match ← peek with
    | none => return gap
    | some c =>
      if isBlank c then
        let column ← column
        skip
        match gap with
        | blanks text => read indent fuel (blanks (text ++ [c]))
        | lines first more =>
          if c == '\t' && column < indent then fail else read indent fuel (lines first more)
      else if isBreak c then
        let text ← takeBreak
        match gap with
        | blanks _ => read indent fuel (lines text [])
        | lines first more => read indent fuel (lines first (more ++ text))
      else return gap

end Gap

def isFlowMark (c : Char) : Bool := c == ',' || c == '[' || c == ']' || c == '\x7b' || c == '\x7d'

def plainWord (flow : Bool) : Nat → List Char → Read (List Char)
  | 0, _ => fail
  | fuel + 1, word => do
    match ← peek with
    | none => return word
    | some c =>
      if isEnd (some c) then return word
      else
        let next ← peekAt 1
        if flow && c == ':' && next.any (fun n => isFlowMark n || n == '?') then fail
        else if (c == ':' && isEnd next) || (flow && isFlowMark c) then return word
        else
          skip
          plainWord flow fuel (c :: word)

/-- A plain scalar, backwards, whose further lines start at column `indent` or later, and whether
line breaks follow it. -/
def plainScalar (flow : Bool) (indent : Nat) :
    Nat → List Char → Gap → Read (List Char × Bool)
  | 0, _, _ => fail
  | fuel + 1, text, gap => do
    if (← atDocumentMark) || (← peek) == some '#' then return (text, gap.isLines)
    let word ← plainWord flow (fuel + 1) []
    let (text, gap) :=
      if word.isEmpty then (text, gap) else (word ++ (gap.fold.reverse ++ text), Gap.blanks [])
    match ← peek with
    | none => return (text, gap.isLines)
    | some c =>
      if isBlank c || isBreak c then
        let gap ← Gap.read indent (fuel + 1) (.blanks [])
        if !flow && (← column) < indent then return (text, gap.isLines)
        plainScalar flow indent fuel text gap
      else return (text, gap.isLines)

def escaped? (c : Char) : Option Char :=
  match c with
  | '0' => some '\x00'
  | 'a' => some '\x07'
  | 'b' => some '\x08'
  | 't' => some '\t'
  | '\t' => some '\t'
  | 'n' => some '\n'
  | 'v' => some '\x0b'
  | 'f' => some '\x0c'
  | 'r' => some '\r'
  | 'e' => some '\x1b'
  | ' ' => some ' '
  | '"' => some '"'
  | '/' => some '/'
  | '\\' => some '\\'
  | 'N' => some '\u0085'
  | '_' => some '\u00a0'
  | 'L' => some '\u2028'
  | 'P' => some '\u2029'
  | _ => none

def codeLength? (c : Char) : Option Nat :=
  match c with
  | 'x' => some 2
  | 'u' => some 4
  | 'U' => some 8
  | _ => none

def hexValue? (c : Char) : Option Nat :=
  if c.isDigit then some (c.toNat - '0'.toNat)
  else if 'a' ≤ c && c ≤ 'f' then some (c.toNat - 'a'.toNat + 10)
  else if 'A' ≤ c && c ≤ 'F' then some (c.toNat - 'A'.toNat + 10)
  else none

def hexNumber? (digits : List Char) : Option Nat :=
  digits.foldlM (fun n c => (hexValue? c).map (16 * n + ·)) 0

/-- The character after a backslash, both consumed. -/
def escape : Read Char := do
  match ← peekAt 1 with
  | none => fail
  | some c =>
    match escaped? c with
    | some x => skipMany 2; return x
    | none =>
      match codeLength? c with
      | none => fail
      | some n =>
        skipMany 2
        let digits := (← get).rest.take n
        match hexNumber? digits with
        | none => fail
        | some value =>
          if digits.length < n || (0xD800 ≤ value && value ≤ 0xDFFF) || value > 0x10FFFF then fail
          else
            skipMany n
            return Char.ofNat value

/-- The part of a double-quoted scalar up to a blank, a break or the quote, backwards, and whether
it ends with an escaped line break. -/
def doubleWord : Nat → List Char → Read (List Char × Bool)
  | 0, _ => fail
  | fuel + 1, word => do
    match ← peek with
    | none => return (word, false)
    | some c =>
      if isEnd (some c) || c == '"' then return (word, false)
      else if c == '\\' then
        if (← peekAt 1).any isBreak then
          skip
          discard takeBreak
          return (word, true)
        else doubleWord fuel ((← escape) :: word)
      else
        skip
        doubleWord fuel (c :: word)

/-- The part of a single-quoted scalar up to a blank, a break or the quote, backwards. -/
def singleWord : Nat → List Char → Read (List Char)
  | 0, _ => fail
  | fuel + 1, word => do
    match ← peek with
    | none => return word
    | some c =>
      if isEnd (some c) then return word
      else if c == '\'' then
        if (← peekAt 1) == some '\'' then
          skipMany 2
          singleWord fuel ('\'' :: word)
        else return word
      else
        skip
        singleWord fuel (c :: word)

def quotedScalar (quote : Char) : Nat → List Char → Read (List Char)
  | 0, _ => fail
  | fuel + 1, text => do
    if (← atDocumentMark) || (← peek).isNone then fail
    let (word, joined) ←
      if quote == '"' then doubleWord (fuel + 1) []
      else (·, false) <$> singleWord (fuel + 1) []
    let text := word ++ text
    if (← peek) == some quote then
      skip
      return text
    else
      let gap ← Gap.read 0 (fuel + 1) (if joined then .lines [] [] else .blanks [])
      quotedScalar quote fuel (gap.fold.reverse ++ text)

inductive Chomp where
  | strip
  | clip
  | keep
  deriving DecidableEq

/-- The marks after the sign of a block scalar: how to end it, and how far it is indented. -/
def blockMarks : Read (Chomp × Option Nat) := do
  let chomp? : Read (Option Chomp) := do
    match ← peek with
    | some '+' => skip; return some .keep
    | some '-' => skip; return some .strip
    | _ => return none
  let increment? : Read (Option Nat) := do
    match ← peek with
    | some c =>
      if c == '0' then fail
      else if c.isDigit then skip; return some (c.toNat - '0'.toNat)
      else return none
    | none => return none
  match ← chomp? with
  | some chomp => return (chomp, ← increment?)
  | none =>
    match ← increment? with
    | some n => return ((← chomp?).getD .clip, some n)
    | none => return (.clip, none)

/-- The empty lines before a line of a block scalar, and the widest of their indentations and of
that line. With an indentation given no more is skipped; a tab in it is an error. -/
def blockBreaks (indent : Option Nat) : Nat → List Char → Nat → Read (List Char × Nat)
  | 0, _, _ => fail
  | fuel + 1, breaks, widest => do
    let c ← get
    let spaces := (c.rest.takeWhile (· == ' ')).length
    skipMany (match indent with
      | some n => min spaces (n - c.column)
      | none => spaces)
    let column ← column
    let widest := max widest column
    match ← peek with
    | some '\t' =>
      if indent.all (column < ·) then fail else return (breaks, widest)
    | some x =>
      if isBreak x then
        let text ← takeBreak
        blockBreaks indent fuel (breaks ++ text) widest
      else return (breaks, widest)
    | none => return (breaks, widest)

/-- The lines of a block scalar: its text, backwards, the last break and the breaks after that. -/
def blockLines (literal : Bool) (indent : Nat) :
    Nat → List Char → List Char → List Char → Bool → Read (List Char × List Char × List Char)
  | 0, _, _, _, _ => fail
  | fuel + 1, text, last, more, afterBlank => do
    let c ← get
    if c.column == indent && !c.rest.isEmpty then
      let blank := c.rest.head?.any isBlank
      let joint :=
        if !literal && last == ['\n'] && !afterBlank && !blank then
          (if more.isEmpty then [' '] else [])
        else last
      let line ← takeWhile fun _ => true
      let last ← takeBreak
      let (breaks, _) ← blockBreaks (some indent) (fuel + 1) [] 0
      let added := joint ++ more ++ line
      blockLines literal indent fuel (added.reverse ++ text) last breaks blank
    else return (text, last, more)

/-- A block scalar after its sign, inside a collection at column `parent` (or at the top). -/
def blockScalar (literal : Bool) (parent : Option Nat) (fuel : Nat) : Read (List Char) := do
  let (chomp, increment) ← blockMarks
  endLine
  let given := increment.map (parent.getD 0 + ·)
  let (breaks, widest) ← blockBreaks given fuel [] 0
  let least := match parent with
    | some n => n + 1
    | none => 1
  let indent := given.getD (max widest least)
  let (text, last, more) ← blockLines literal indent fuel [] [] breaks false
  return match chomp with
    | .strip => text.reverse
    | .clip => text.reverse ++ last
    | .keep => text.reverse ++ last ++ more

end SkillAudit.Yaml
