/-! White space of Unicode text, and trimming by it. -/
namespace SkillAudit.Text

def isBlank (c : Char) : Bool :=
  let n := c.toNat
  (0x09 ≤ n && n ≤ 0x0D) || n == 0x20 || n == 0x85 || n == 0xA0 || n == 0x1680 ||
    (0x2000 ≤ n && n ≤ 0x200A) || n == 0x2028 || n == 0x2029 || n == 0x202F || n == 0x205F ||
    n == 0x3000

/-- What is left of a list after dropping its longest tail of elements that satisfy `p`. -/
def dropEndWhile {α : Type} (p : α → Bool) (l : List α) : List α :=
  (l.reverse.dropWhile p).reverse

def trimStart (s : String) : String := String.ofList (s.toList.dropWhile isBlank)

def trimEnd (s : String) : String := String.ofList (dropEndWhile isBlank s.toList)

def trim (s : String) : String :=
  String.ofList (dropEndWhile isBlank (s.toList.dropWhile isBlank))

def stripFront (front s : String) : Option String :=
  (front.toList.isPrefixOf? s.toList).map String.ofList

def stripBack (back s : String) : Option String :=
  (back.toList.reverse.isPrefixOf? s.toList.reverse).map fun r => String.ofList r.reverse

def hasPart (part s : String) : Bool :=
  go s.toList
where
  go : List Char → Bool
    | [] => part.toList.isEmpty
    | c :: r => part.toList.isPrefixOf (c :: r) || go r

/-- The pieces of `cs` between the characters that satisfy `p`; one more piece than separators. -/
def splitWhen (p : Char → Bool) (cs : List Char) : List (List Char) :=
  go cs [] []
where
  go : List Char → List Char → List (List Char) → List (List Char)
    | [], piece, done => (piece.reverse :: done).reverse
    | c :: r, piece, done =>
      if p c then go r [] (piece.reverse :: done) else go r (c :: piece) done

def splitAt (sep : Char) (s : String) : List String :=
  (splitWhen (· == sep) s.toList).map String.ofList

end SkillAudit.Text
