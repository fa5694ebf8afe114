import SkillAudit.Text.Blank

/-! A place in a YAML text, and moving on from it. -/
namespace SkillAudit.Yaml

def isBlank (c : Char) : Bool := c == ' ' || c == '\t'

def isBreak (c : Char) : Bool :=
  c == '\n' || c == '\r' || c == '\u0085' || c == '\u2028' || c == '\u2029'

def isEnd : Option Char → Bool
  | none => true
  | some c => isBlank c || isBreak c

def isNameChar (c : Char) : Bool := c.isAlphanum || c == '_' || c == '-'

def isAllowed (c : Char) : Bool :=
  let n := c.toNat
  n == 0x09 || n == 0x0A || n == 0x0D || (0x20 ≤ n && n ≤ 0x7E) || n == 0x85 ||
    (0xA0 ≤ n && n ≤ 0xFFFD) || 0x10000 ≤ n

/-- What is left of a text, and where it starts; all counts from zero, in characters. -/
structure Cursor where
  rest : List Char
  line : Nat
  column : Nat
  index : Nat

abbrev Read := StateT Cursor Option

namespace Read

def fail {α : Type} : Read α := fun _ => none

def peek : Read (Option Char) := return (← get).rest.head?

def peekAt (n : Nat) : Read (Option Char) := return (← get).rest[n]?

def column : Read Nat := return (← get).column

def skip : Read Unit := modify fun c =>
  { c with rest := c.rest.drop 1, column := c.column + 1, index := c.index + 1 }

def skipMany (n : Nat) : Read Unit := modify fun c =>
  { c with rest := c.rest.drop n, column := c.column + n, index := c.index + n }

/-- Moves over the characters that satisfy `p`, none of which ends a line, and returns them. -/
def takeWhile (p : Char → Bool) : Read (List Char) := fun c =>
  let taken := c.rest.takeWhile fun x => p x && !isBreak x
  some (taken, { c with
    rest := c.rest.drop taken.length
    column := c.column + taken.length
    index := c.index + taken.length })

def skipBlanks : Read Unit := discard (takeWhile isBlank)

/-- Moves over the end of a line, if there is one, and returns the break it stands for. -/
def takeBreak : Read (List Char) := fun c =>
  let moved (n : Nat) (rest : List Char) : Cursor := ⟨rest, c.line + 1, 0, c.index + n⟩
  match c.rest with
  | '\r' :: '\n' :: rest => some (['\n'], moved 2 rest)
  | x :: rest =>
    if x == '\u2028' || x == '\u2029' then some ([x], moved 1 rest)
    else if isBreak x then some (['\n'], moved 1 rest)
    else some ([], c)
  | [] => some ([], c)

def skipComment : Read Unit := do
  if (← peek) == some '#' then discard (takeWhile fun _ => true)

def endLine : Read Unit := do
  skipBlanks
  skipComment
  match ← peek with
  | none => return ()
  | some c => if isBreak c then discard takeBreak else fail

/-- Whether a line starts here with three marks and no more. -/
def atMark (mark : Char) : Read Bool := do
  let c ← get
  return c.column == 0 && c.rest.take 3 == [mark, mark, mark] && isEnd c.rest[3]?

def atDocumentMark : Read Bool := do
  if ← atMark '-' then return true else atMark '.'

end Read
end SkillAudit.Yaml
