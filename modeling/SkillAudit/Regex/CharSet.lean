import SkillAudit.Regex.FoldTable
import SkillAudit.Regex.WordTable

/-! Sets of characters as sorted, separated ranges of code points. -/
namespace SkillAudit.Regex

/-- A set of code points, as ascending ranges that neither overlap nor touch. -/
structure CharSet where
  ranges : List (Nat × Nat)
  deriving DecidableEq, Repr, Inhabited

namespace CharSet

def lastCode : Nat := 0x10FFFF

def empty : CharSet := ⟨[]⟩

def isEmpty (s : CharSet) : Bool := s.ranges.isEmpty

/-- Joins ranges that overlap or touch; the ranges ascend by their first ends. -/
def merge : List (Nat × Nat) → List (Nat × Nat) → List (Nat × Nat)
  | [], done => done.reverse
  | r :: rest, [] => merge rest [r]
  | (a, b) :: rest, (c, d) :: done =>
    if a ≤ d + 1 then merge rest ((c, max b d) :: done) else merge rest ((a, b) :: (c, d) :: done)

def ofRanges (rs : List (Nat × Nat)) : CharSet :=
  ⟨merge (rs.mergeSort fun x y => x.1 ≤ y.1) []⟩

def range (a b : Nat) : CharSet := if a ≤ b then ⟨[(a, b)]⟩ else empty

def single (c : Nat) : CharSet := ⟨[(c, c)]⟩

/-- The set whose ranges are listed by first and last code points, by turns. -/
def ofBounds (bounds : Array Nat) : CharSet := ⟨pairs bounds.toList⟩
where
  pairs : List Nat → List (Nat × Nat)
    | a :: b :: rest => (a, b) :: pairs rest
    | _ => []

def union (s t : CharSet) : CharSet :=
  if s.isEmpty then t else if t.isEmpty then s else ofRanges (s.ranges ++ t.ranges)

def gaps (top : Nat) : Nat → List (Nat × Nat) → List (Nat × Nat)
  | next, [] => if next ≤ top then [(next, top)] else []
  | next, (a, b) :: rest =>
    if next < a then (next, a - 1) :: gaps top (b + 1) rest else gaps top (b + 1) rest

def complement (s : CharSet) (top : Nat) : CharSet := ⟨gaps top 0 s.ranges⟩

def inter (s t : CharSet) (top : Nat) : CharSet :=
  ((s.complement top).union (t.complement top)).complement top

def diff (s t : CharSet) (top : Nat) : CharSet := s.inter (t.complement top) top

def symmDiff (s t : CharSet) (top : Nat) : CharSet := (s.diff t top).union (t.diff s top)

def contains (s : CharSet) (n : Nat) : Bool := s.ranges.any fun (a, b) => a ≤ n && n ≤ b

def meets (s : CharSet) (a b : Nat) : Bool := s.ranges.any fun (c, d) => c ≤ b && a ≤ d

def runPartners (s : CharSet) (r : FoldRun) : List (Nat × Nat) :=
  if s.meets r.first r.last || s.meets (r.first + r.distance) (r.last + r.distance) then
    (List.range ((r.last - r.first) / r.stride + 1)).flatMap fun i =>
      let low := r.first + i * r.stride
      let high := low + r.distance
      (if s.contains low then [(high, high)] else []) ++
        (if s.contains high then [(low, low)] else [])
  else []

/-- The set with every character that differs from a member only in case. -/
def foldCase (s : CharSet) : CharSet :=
  let pairs := foldRuns.flatMap s.runPartners
  let more := foldOrbits.flatMap fun o =>
    if o.any s.contains then o.map fun c => (c, c) else []
  if pairs.isEmpty && more.isEmpty then s else ofRanges (s.ranges ++ pairs ++ more)

/-- As `foldCase`, for the letters of ASCII alone. -/
def foldAscii (s : CharSet) : CharSet :=
  let partners := (List.range 26).flatMap fun i =>
    (if s.contains (65 + i) then [(97 + i, 97 + i)] else []) ++
      (if s.contains (97 + i) then [(65 + i, 65 + i)] else [])
  if partners.isEmpty then s else ofRanges (s.ranges ++ partners)

def below (s : CharSet) (n : Nat) : Bool := s.ranges.all fun (_, b) => b < n

def any : CharSet := range 0 lastCode

def digit : CharSet := ofBounds digitBounds

def word : CharSet := ofBounds wordBounds

def alphabetic : CharSet := ofBounds alphabeticBounds

def numeric : CharSet := ofBounds numericBounds

def space : CharSet := ⟨[(0x09, 0x0D), (0x20, 0x20), (0x85, 0x85), (0xA0, 0xA0), (0x1680, 0x1680),
  (0x2000, 0x200A), (0x2028, 0x2029), (0x202F, 0x202F), (0x205F, 0x205F), (0x3000, 0x3000)]⟩

def asciiDigit : CharSet := range 48 57

def asciiWord : CharSet := ⟨[(48, 57), (65, 90), (95, 95), (97, 122)]⟩

def asciiSpace : CharSet := ⟨[(0x09, 0x0D), (0x20, 0x20)]⟩

def ofClassName? : String → Option CharSet
  | "alnum" => some ⟨[(48, 57), (65, 90), (97, 122)]⟩
  | "alpha" => some ⟨[(65, 90), (97, 122)]⟩
  | "ascii" => some ⟨[(0, 127)]⟩
  | "blank" => some ⟨[(9, 9), (32, 32)]⟩
  | "cntrl" => some ⟨[(0, 31), (127, 127)]⟩
  | "digit" => some asciiDigit
  | "graph" => some ⟨[(33, 126)]⟩
  | "lower" => some ⟨[(97, 122)]⟩
  | "print" => some ⟨[(32, 126)]⟩
  | "punct" => some ⟨[(33, 47), (58, 64), (91, 96), (123, 126)]⟩
  | "space" => some asciiSpace
  | "upper" => some ⟨[(65, 90)]⟩
  | "word" => some asciiWord
  | "xdigit" => some ⟨[(48, 57), (65, 70), (97, 102)]⟩
  | _ => none

end CharSet

/-- A set prepared for membership tests: a table of ASCII, and the other ranges in order. -/
structure CharTest where
  ascii : ByteArray
  ranges : Array (Nat × Nat)

namespace CharTest

def ofSet (s : CharSet) : CharTest where
  ascii := ((List.range 128).map fun n => if s.contains n then (1 : UInt8) else 0).toByteArray
  ranges := (s.ranges.filter fun (_, b) => 128 ≤ b).toArray

def search (ranges : Array (Nat × Nat)) (n : Nat) : Nat → Nat → Nat → Bool
  | 0, _, _ => false
  | fuel + 1, low, high =>
    if low < high then
      let mid := (low + high) / 2
      match ranges[mid]? with
      | none => false
      | some (a, b) =>
        if n < a then search ranges n fuel low mid
        else if b < n then search ranges n fuel (mid + 1) high
        else true
    else false

def test (t : CharTest) (c : Char) : Bool :=
  let n := c.toNat
  if h : n < t.ascii.size then t.ascii[n] == 1
  else search t.ranges n 32 0 t.ranges.size

end CharTest
end SkillAudit.Regex
