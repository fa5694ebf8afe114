import SkillAudit.Text.Blank
import SkillAudit.Text.WidthTable

/-! Columns that a text takes on a terminal. -/
namespace SkillAudit.Text

def inRanges (ranges : List (Nat × Nat)) (n : Nat) : Bool :=
  ranges.any fun (low, high) => low ≤ n && n ≤ high

/-- Columns of a character. Controls take none. -/
def charWidth (c : Char) : Nat :=
  let n := c.toNat
  if n < 0x20 || (0x7F ≤ n && n < 0xA0) then 0
  else if n < 0x7F then 1
  else if inRanges zeroWidthRanges n then 0
  else if inRanges wideRanges n then 2
  else 1

/-- Columns of a line. A selector makes the picture before it wide. -/
def lineWidth : List Char → Nat
  | c :: '\ufe0f' :: rest =>
    (if inRanges pictureRanges c.toNat then 2 else charWidth c) + lineWidth rest
  | c :: rest => charWidth c + lineWidth rest
  | [] => 0

/-- Drops the rest of an escape sequence: what follows its opening, up to a letter. -/
def afterSequence : List Char → List Char
  | [] => []
  | c :: rest => if 0x40 ≤ c.toNat && c.toNat ≤ 0x7E then rest else afterSequence rest

theorem afterSequence_length (cs : List Char) : (afterSequence cs).length ≤ cs.length := by
  induction cs with
  | nil => simp [afterSequence]
  | cons c rest ih =>
    simp only [afterSequence]
    split
    · simp
    · exact Nat.le_succ_of_le ih

def withoutSequences : List Char → List Char
  | '\x1b' :: '[' :: rest => withoutSequences (afterSequence rest)
  | c :: rest => c :: withoutSequences rest
  | [] => []
termination_by cs => cs.length
decreasing_by
  · have := afterSequence_length rest
    simp only [List.length_cons]
    omega
  · simp

def shownWidth (line : String) : Nat := lineWidth (withoutSequences line.toList)

end SkillAudit.Text
