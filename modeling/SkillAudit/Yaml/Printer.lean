import SkillAudit.Json.Printer
import SkillAudit.Yaml.Value

/-!
JSON trees as YAML in block style. A string stands plain where it reads back as itself, and else in
single quotes, in double quotes or as a literal block.
-/
namespace SkillAudit.Yaml.Printer

/-- Whether a plain text would be read as something other than a string. -/
def isTyped (s : String) : Bool :=
  s == "" || Plain.isNull s || (Plain.boolean? s).isSome || (Plain.integer? s.toList).isSome ||
    (Plain.float? s).isSome || Plain.isZeroLed s.toList

def isPrintable (c : Char) : Bool :=
  let n := c.toNat
  n == 0x0A || (0x20 ≤ n && n ≤ 0x7E) || (0xA0 ≤ n && n != 0xFEFF && n != 0xFFFE && n != 0xFFFF)

/-- Whether a position ends a word: a blank, a break, a zero or no character. -/
def endsWord : Option Char → Bool
  | none => true
  | some c => isBlank c || isBreak c || c == '\x00'

def isMark (previous : Option Char) (c : Char) (next : Option Char) : Bool :=
  match previous with
  | none =>
    "#,[]\x7b\x7d&*!|>'\"%@\x60".toList.contains c ||
      ((c == '?' || c == ':' || c == '-') && endsWord next)
  | some p => (c == ':' && endsWord next) || (c == '#' && endsWord (some p))

def hasMark : Option Char → List Char → Bool
  | _, [] => false
  | previous, c :: rest => isMark previous c rest.head? || hasMark (some c) rest

def hasPair (p : Char → Char → Bool) : List Char → Bool
  | a :: b :: rest => p a b || hasPair p (b :: rest)
  | _ => false

def isAtEnd (p : Char → Bool) (cs : List Char) : Bool := cs.getLast?.any p

def isAtStart (p : Char → Bool) (cs : List Char) : Bool := cs.head?.any p

/-- Whether a text has a blank before a break, or a character that cannot stand as itself. -/
def needsEscapes (cs : List Char) : Bool :=
  cs.any (fun c => !isPrintable c) || hasPair (fun a b => a == ' ' && isBreak b) cs

def allowsBlock (cs : List Char) : Bool := !needsEscapes cs && !isAtEnd (· == ' ') cs

def allowsSingle (cs : List Char) : Bool :=
  !needsEscapes cs && !hasPair (fun a b => isBreak a && b == ' ') cs

def allowsPlain (cs : List Char) : Bool :=
  let isEdge (c : Char) : Bool := c == ' ' || isBreak c
  allowsSingle cs && !cs.any isBreak && !isAtStart isEdge cs && !isAtEnd isEdge cs &&
    !"---".toList.isPrefixOf cs && !"...".toList.isPrefixOf cs && !hasMark none cs

def hexCode (width n : Nat) : String :=
  let digits := (Nat.toDigits 16 n).map Char.toUpper
  String.ofList (List.replicate (width - digits.length) '0' ++ digits)

def escape (c : Char) : String :=
  if c == '"' then "\\\"" else if c == '\\' then "\\\\"
  else if isPrintable c && !isBreak c then String.singleton c
  else
    match c.toNat with
    | 0x00 => "\\0"
    | 0x07 => "\\a"
    | 0x08 => "\\b"
    | 0x09 => "\\t"
    | 0x0A => "\\n"
    | 0x0B => "\\v"
    | 0x0C => "\\f"
    | 0x0D => "\\r"
    | 0x1B => "\\e"
    | 0x85 => "\\N"
    | 0x2028 => "\\L"
    | 0x2029 => "\\P"
    | n =>
      if n ≤ 0xFF then "\\x" ++ hexCode 2 n
      else if n ≤ 0xFFFF then "\\u" ++ hexCode 4 n
      else "\\U" ++ hexCode 8 n

def doubleQuoted (cs : List Char) : String := "\"" ++ String.join (cs.map escape) ++ "\""

def blanks (n : Nat) : String := String.ofList (List.replicate n ' ')

/-- A text in single quotes; a quote is doubled, and a line after a break is indented. -/
def singleQuoted (indent : Nat) (cs : List Char) : String :=
  "'" ++ go false cs ++ "'"
where
  go : Bool → List Char → String
    | _, [] => ""
    | fresh, c :: rest =>
      if isBreak c then String.singleton c ++ go true rest
      else
        (if fresh then blanks indent else "") ++ (if c == '\'' then "''" else String.singleton c) ++
          go false rest

/-- The marks after the bar of a literal block: its indentation where it starts with a blank, and
what becomes of the breaks at its end. -/
def blockMarks (cs : List Char) : String :=
  (if isAtStart (fun c => c == ' ' || isBreak c) cs then "2" else "") ++
    (match cs.reverse with
      | [] => "-"
      | last :: before =>
        if !isBreak last then "-"
        else if isAtStart isBreak before || before.isEmpty then "+"
        else "")

/-- The lines of a literal block. Empty ones are not indented. -/
def blockText (indent : Nat) (cs : List Char) : String :=
  go true cs
where
  go : Bool → List Char → String
    | _, [] => ""
    | fresh, c :: rest =>
      if isBreak c then String.singleton c ++ go true rest
      else (if fresh then blanks indent else "") ++ String.singleton c ++ go false rest

/-- A literal block with a line end after it. -/
def literal (indent : Nat) (cs : List Char) : String :=
  "|" ++ blockMarks cs ++ "\n" ++ blockText indent cs ++ (if isAtEnd isBreak cs then "" else "\n")

/-- A string that ends its line; further lines are indented. -/
def stringLine (indent : Nat) (s : String) : String :=
  let cs := s.toList
  if cs.contains '\n' && allowsBlock cs then literal indent cs
  else if cs.contains '\n' then doubleQuoted cs ++ "\n"
  else if allowsPlain cs && !isTyped s then s ++ "\n"
  else if allowsSingle cs then singleQuoted indent cs ++ "\n"
  else doubleQuoted cs ++ "\n"

def key (k : Option String) : String :=
  String.ofList (Text.dropEndWhile (· == '\n') (stringLine 0 (k.getD "")).toList)

mutual

def afterKey (indent : Nat) : Json → String
  | .arr [] => " []\n"
  | .arr items => "\n" ++ sequence indent items
  | .obj [] => " \x7b\x7d\n"
  | .obj members => "\n" ++ mapping (indent + 2) true members
  | j => " " ++ scalar (indent + 2) j

def afterDash (indent : Nat) : Json → String
  | .arr [] => "[]\n"
  | .arr items => nested indent items
  | .obj [] => "\x7b\x7d\n"
  | .obj members => mapping (indent + 2) false members
  | j => scalar (indent + 2) j

/-- A sequence inside a sequence: its first dash follows the outer one. -/
def nested (indent : Nat) : List Json → String
  | [] => ""
  | item :: rest => "- " ++ afterDash (indent + 2) item ++ sequence (indent + 2) rest

def sequence (indent : Nat) : List Json → String
  | [] => ""
  | item :: rest => blanks indent ++ "- " ++ afterDash indent item ++ sequence indent rest

/-- The members of a mapping; `full` tells whether the first line is indented too. -/
def mapping (indent : Nat) (full : Bool) : List (Option String × Json) → String
  | [] => ""
  | (k, value) :: rest =>
    (if full then blanks indent else "") ++ key k ++ ":" ++ afterKey indent value ++
      mapping indent true rest

def scalar (indent : Nat) : Json → String
  | .null => "null\n"
  | .bool b => (if b then "true" else "false") ++ "\n"
  | .num n => n.text ++ "\n"
  | .str s => stringLine indent (s.getD "")
  | _ => "\n"

end

def document : Json → String
  | .arr [] => "[]\n"
  | .arr items => sequence 0 items
  | .obj [] => "\x7b\x7d\n"
  | .obj members => mapping 0 true members
  | j => scalar 2 j

end SkillAudit.Yaml.Printer
