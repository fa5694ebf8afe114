import SkillAudit.Text.Blank

/-! Lines of a text, and the line that holds a byte offset. -/
namespace SkillAudit.Text

def dropReturn : List Char → List Char
  | '\r' :: reversed => reversed
  | reversed => reversed

/-- The lines of a text. A line ends with a line feed, or a carriage return and a line feed;
neither belongs to it, and nothing after the last line feed is no line. -/
def lines (s : String) : List String :=
  go s.toList [] []
where
  /-- `reversed` is the current line and `done` the finished ones, both backwards. -/
  go : List Char → List Char → List String → List String
    | [], [], done => done.reverse
    | [], reversed, done => (String.ofList reversed.reverse :: done).reverse
    | c :: rest, reversed, done =>
      if c == '\n' then go rest [] (String.ofList (dropReturn reversed).reverse :: done)
      else go rest (c :: reversed) done

/-- The byte offsets at which the lines of a text start, in ascending order. -/
structure LineIndex where
  starts : Array Nat

namespace LineIndex

/-- Offsets just after each line feed of `cs`, the first character standing at `offset`. -/
def afterFeeds : List Char → Nat → List Nat → List Nat
  | [], _, done => done.reverse
  | c :: rest, offset, done =>
    let next := offset + c.utf8Size
    afterFeeds rest next (if c == '\n' then next :: done else done)

def ofChars (cs : List Char) : LineIndex := ⟨(0 :: afterFeeds cs 0 []).toArray⟩

def ofText (s : String) : LineIndex := ofChars s.toList

/-- Looks for an offset among the starts from `low` to before `high` by halving: the place that
holds it, or else the place at which it would have to be put in. -/
def search (starts : Array Nat) (offset low high : Nat) : Except Nat Nat :=
  if low < high then
    let middle := low + (high - low) / 2
    let start := starts.getD middle 0
    if start = offset then .ok middle
    else if start < offset then search starts offset (middle + 1) high
    else search starts offset low middle
  else .error low
termination_by high - low

def lineOf (index : LineIndex) (offset : Nat) : Nat :=
  match search index.starts offset 0 index.starts.size with
  | .ok i => i + 1
  | .error i => i

end LineIndex
end SkillAudit.Text
