import SkillAudit.Regex.Pattern

/-!
How much room the byte-level automaton of a pattern takes. A state takes 32 bytes, a branch of a
choice 4 more, a range among several of one state 8 more.
-/
namespace SkillAudit.Regex

def utf8Bytes (n : Nat) : List Nat :=
  if n < 0x80 then [n]
  else if n < 0x800 then [0xC0 + n / 64, 0x80 + n % 64]
  else if n < 0x10000 then [0xE0 + n / 4096, 0x80 + n / 64 % 64, 0x80 + n % 64]
  else [0xF0 + n / 262144, 0x80 + n / 4096 % 64, 0x80 + n / 64 % 64, 0x80 + n % 64]

/-- Cuts a range of code points so that all members of a piece have UTF-8 texts of one length and
the bytes of a piece vary independently. -/
def byteRuns : Nat → Nat → Nat → List (List (Nat × Nat))
  | 0, _, _ => []
  | fuel + 1, a, b =>
    if a > b then []
    else
      let cut (limit : Nat) : Bool := a ≤ limit && limit < b
      if cut 0x7F then byteRuns fuel a 0x7F ++ byteRuns fuel 0x80 b
      else if cut 0x7FF then byteRuns fuel a 0x7FF ++ byteRuns fuel 0x800 b
      else if cut 0xD7FF then byteRuns fuel a 0xD7FF ++ byteRuns fuel 0xE000 b
      else if cut 0xFFFF then byteRuns fuel a 0xFFFF ++ byteRuns fuel 0x10000 b
      else if a < 0x80 then [[(a, b)]]
      else
        match [64, 4096, 262144].find? fun m =>
            a / m != b / m && (a % m != 0 || b % m != m - 1) with
        | some m =>
          if a % m != 0 then
            let e := a / m * m + (m - 1)
            byteRuns fuel a e ++ byteRuns fuel (e + 1) b
          else
            let e := b / m * m
            byteRuns fuel a (e - 1) ++ byteRuns fuel e b
        | none => [(utf8Bytes a).zip (utf8Bytes b)]

def commonLength : List (Nat × Nat) → List (Nat × Nat) → Nat
  | a :: x, b :: y => if a == b then commonLength x y + 1 else 0
  | _, _ => 0

/-- The states of a chain for every run, runs sharing their leading states, and the runs' number. -/
def chainStates : List (List (Nat × Nat)) → List (Nat × Nat) → Nat → Nat → Nat × Nat
  | [], _, states, runs => (states, runs)
  | r :: rest, last, states, runs =>
    chainStates rest r (states + (r.length - commonLength last r)) (runs + 1)

def CharSet.size (s : CharSet) : Nat :=
  match s.ranges with
  | [] => 32
  | [(a, b)] =>
    if a == b then 32 * (utf8Bytes a).length else if b < 128 then 64 else wide s
  | rs => if s.below 128 then 64 + 8 * rs.length else wide s
where
  wide (s : CharSet) : Nat :=
    let (states, runs) := chainStates (s.ranges.flatMap fun (a, b) => byteRuns 64 a b) [] 0 0
    32 * (states + 2) + 4 * runs

namespace Pattern

def isAlt : Pattern → Bool
  | .alt .. => true
  | _ => false

/-- The size of a pattern, `inChoice` when it continues a choice that has begun. -/
def sizeIn (inChoice : Bool) : Pattern → Nat
  | .empty => 32
  | .chars set => set.size
  | .look _ => 32
  | .seq a b => sizeIn false a + sizeIn false b
  | .alt a b =>
    (if inChoice then 0 else 64) + 4 + sizeIn false a + (if b.isAlt then 0 else 4) + sizeIn true b
  | .repeated p least most _ =>
    let body := sizeIn false p
    match most with
    | none =>
      if least == 0 then (if p.nullable then body + 112 else body + 40) else least * body + 40
    | some most =>
      if most == 0 then 32
      else if least == most then least * body
      else (if least == 0 then 32 else least * body) + 32 + (most - least) * (body + 40)
  | .group _ p => sizeIn false p + 64

/-- The size with the states that begin and end every search. -/
def totalSize (p : Pattern) : Nat := sizeIn false p + 168

end Pattern
end SkillAudit.Regex
