import SkillAudit.Regex.Parser
import SkillAudit.Regex.Program
import SkillAudit.Regex.Size

/-!
Finding matches. Of all matches the one that starts first is taken, and of those the one its
pattern prefers.
-/
namespace SkillAudit

structure Regex where
  program : Regex.Program
  names : List (String × Nat)
  nullable : Bool
  /-- The characters with which a match that is not empty begins. -/
  first : Regex.CharTest
  wordTest : Regex.CharTest
  asciiWordTest : Regex.CharTest

namespace Regex

def defaultSizeLimit : Nat := 10485760

structure Settings where
  flags : Flags := {}
  sizeLimit : Nat := defaultSizeLimit
  marks : Bool := false

def compile (settings : Settings) (text : String) : Except Error Regex :=
  match parse settings.flags text with
  | .error e => .error (.parse e)
  | .ok (p, names) =>
    if p.totalSize > settings.sizeLimit then .error (.tooLarge settings.sizeLimit)
    else .ok {
      program := Program.ofPattern settings.marks p
      names
      nullable := p.nullable
      first := CharTest.ofSet p.first
      wordTest := CharTest.ofSet CharSet.word
      asciiWordTest := CharTest.ofSet CharSet.asciiWord }

/-- A place in a program, and the positions noted on the way to it, latest first. -/
structure Thread where
  pc : Nat
  saves : List (Nat × Nat)

/-- A position in a text: the characters before and after it and its byte offset. -/
structure Place where
  prev : Option Char
  rest : List Char
  offset : Nat

def Place.start (cs : List Char) : Place := ⟨none, cs, 0⟩

def Place.next (p : Place) : Option Char := p.rest.head?

def isWordChar (re : Regex) (unicode : Bool) : Option Char → Bool
  | none => false
  | some c => if unicode then re.wordTest.test c else re.asciiWordTest.test c

def holds (re : Regex) (prev next : Option Char) : Look → Bool
  | .textStart => prev.isNone
  | .textEnd => next.isNone
  | .lineStart false => prev.isNone || prev == some '\n'
  | .lineStart true =>
    prev.isNone || prev == some '\n' || (prev == some '\r' && next != some '\n')
  | .lineEnd false => next.isNone || next == some '\n'
  | .lineEnd true =>
    next.isNone || next == some '\r' || (next == some '\n' && prev != some '\r')
  | .word edge unicode =>
    let before := isWordChar re unicode prev
    let after := isWordChar re unicode next
    match edge with
    | .boundary => before != after
    | .notBoundary => before == after
    | .startOf => !before && after
    | .endOf => before && !after
    | .startHalf => !before
    | .endHalf => !after

/-- Threads in order of preference, and for every instruction the round in which it was met. -/
structure Queue where
  threads : Array Thread
  marks : Array Nat

/-- Follows threads through instructions that consume nothing. An instruction is met once in a
round, first by the preferred thread. -/
def follow (re : Regex) (prev next : Option Char) (offset : Nat) :
    Nat → List Thread → Queue → Queue
  | 0, _, q => q
  | _ + 1, [], q => q
  | fuel + 1, t :: stack, q =>
    if q.marks.getD t.pc 0 == offset + 1 then follow re prev next offset fuel stack q
    else
      let q : Queue := { q with marks := q.marks.setIfInBounds t.pc (offset + 1) }
      match re.program[t.pc]? with
      | none => follow re prev next offset fuel stack q
      | some (.char _) =>
        follow re prev next offset fuel stack { q with threads := q.threads.push t }
      | some .accept =>
        follow re prev next offset fuel stack { q with threads := q.threads.push t }
      | some (.jump a) => follow re prev next offset fuel (⟨a, t.saves⟩ :: stack) q
      | some (.split a b) =>
        follow re prev next offset fuel (⟨a, t.saves⟩ :: ⟨b, t.saves⟩ :: stack) q
      | some (.save slot) =>
        follow re prev next offset fuel (⟨t.pc + 1, (slot, offset) :: t.saves⟩ :: stack) q
      | some (.look l) =>
        if holds re prev next l then
          follow re prev next offset fuel (⟨t.pc + 1, t.saves⟩ :: stack) q
        else follow re prev next offset fuel stack q

/-- Enough for every instruction to be met once. -/
def followFuel (re : Regex) : Nat := 2 * re.program.size + 2

structure Found where
  saves : List (Nat × Nat)
  stop : Place

/-- Lets every thread consume `c`, preferred ones first, up to one that accepts. -/
def advance (re : Regex) (here after : Place) (c : Option Char) :
    List Thread → Queue → Option Found → Queue × Option Found
  | [], q, found => (q, found)
  | t :: rest, q, found =>
    match re.program[t.pc]? with
    | some .accept => (q, some ⟨t.saves, here⟩)
    | some (.char test) =>
      match c with
      | some ch =>
        if test.test ch then
          let q := follow re c after.next after.offset (followFuel re) [⟨t.pc + 1, t.saves⟩] q
          advance re here after c rest q found
        else advance re here after c rest q found
      | none => advance re here after c rest q found
    | _ => advance re here after c rest q found

/-- Goes through the text with the threads alive at each place. A new thread starts as long as
nothing is found, and the search ends when no thread is left. -/
def run (re : Regex) : List Char → Option Char → Nat → Queue → Option Found → Option Found
  | [], prev, offset, q, found =>
    let q := match found with
      | none => follow re prev none offset (followFuel re) [⟨0, [(0, offset)]⟩] q
      | some _ => q
    let here : Place := ⟨prev, [], offset⟩
    (advance re here here none q.threads.toList ⟨#[], q.marks⟩ found).2
  | c :: rest, prev, offset, q, found =>
    let size := c.utf8Size
    if q.threads.isEmpty then
      match found with
      | some f => some f
      | none =>
        if !re.nullable && !re.first.test c then run re rest (some c) (offset + size) q none
        else
          let q := follow re prev (some c) offset (followFuel re) [⟨0, [(0, offset)]⟩] q
          let (q, found) := advance re ⟨prev, c :: rest, offset⟩ ⟨some c, rest, offset + size⟩
            (some c) q.threads.toList ⟨#[], q.marks⟩ none
          run re rest (some c) (offset + size) q found
    else
      let q := match found with
        | none => follow re prev (some c) offset (followFuel re) [⟨0, [(0, offset)]⟩] q
        | some _ => q
      let (q, found) := advance re ⟨prev, c :: rest, offset⟩ ⟨some c, rest, offset + size⟩
        (some c) q.threads.toList ⟨#[], q.marks⟩ found
      run re rest (some c) (offset + size) q found

def findFrom (re : Regex) (p : Place) : Option Found :=
  run re p.rest p.prev p.offset ⟨#[], Array.replicate re.program.size 0⟩ none

def Found.start (f : Found) : Nat := ((f.saves.reverse.lookup 0).getD 0)

/-- A part of a text, by byte offsets, and the parts its groups matched. -/
structure Match where
  start : Nat
  stop : Nat
  saves : List (Nat × Nat)
  deriving DecidableEq, Repr

def Found.toMatch (f : Found) : Match := ⟨f.start, f.stop.offset, f.saves⟩

def slice (text : String) (start stop : Nat) : String :=
  String.Pos.Raw.extract text ⟨start⟩ ⟨stop⟩

def Match.text (m : Match) (text : String) : String := slice text m.start m.stop

def Match.named (m : Match) (re : Regex) (text name : String) : Option String := do
  let index ← re.names.lookup name
  let start ← m.saves.lookup (2 * index)
  let stop ← m.saves.lookup (2 * index + 1)
  return slice text start stop

def find? (re : Regex) (cs : List Char) : Option Match := (findFrom re (.start cs)).map (·.toMatch)

def isMatch (re : Regex) (cs : List Char) : Bool := (findFrom re (.start cs)).isSome

/-- Matches one after another, none overlapping the one before. An empty match right where the last
match ended does not count. -/
def findAllFrom (re : Regex) : Nat → Place → Option Nat → List Match → List Match
  | 0, _, _, done => done.reverse
  | fuel + 1, p, last, done =>
    match findFrom re p with
    | none => done.reverse
    | some f =>
      if f.start == f.stop.offset && last == some f.stop.offset then
        match p.rest with
        | [] => done.reverse
        | c :: rest => findAllFrom re fuel ⟨some c, rest, p.offset + c.utf8Size⟩ last done
      else findAllFrom re fuel f.stop (some f.stop.offset) (f.toMatch :: done)

def findAll (re : Regex) (cs : List Char) : List Match :=
  findAllFrom re (2 * cs.length + 2) (.start cs) none []

end Regex
end SkillAudit
