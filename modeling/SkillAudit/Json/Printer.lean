import SkillAudit.Json.Basic

/-! Writing JSON text, on one line or with every item on a line of its own. -/
namespace SkillAudit.Json

/-- A digit below sixteen, in lower case. -/
def hexChar (n : Nat) : Char := Char.ofNat (if n < 10 then 48 + n else 87 + n)

def escape (c : Char) : List Char :=
  if c == '"' then ['\\', '"']
  else if c == '\\' then ['\\', '\\']
  else if c == '\x08' then ['\\', 'b']
  else if c == '\x0c' then ['\\', 'f']
  else if c == '\n' then ['\\', 'n']
  else if c == '\r' then ['\\', 'r']
  else if c == '\t' then ['\\', 't']
  else if c.toNat < 0x20 then ['\\', 'u', '0', '0', hexChar (c.toNat / 16), hexChar (c.toNat % 16)]
  else [c]

def quoted (s : String) : String := "\"" ++ String.ofList (s.toList.flatMap escape) ++ "\""

/-- A number, `null` standing for one that is out of range. -/
def Number.text (n : Number) : String := n.text?.getD "null"

def compact : Json → String
  | .null => "null"
  | .bool b => if b then "true" else "false"
  | .num n => n.text
  | .str s => quoted (s.getD "")
  | .arr items => "[" ++ String.intercalate "," (compactItems items) ++ "]"
  | .obj members => "\x7b" ++ String.intercalate "," (compactMembers members) ++ "\x7d"
where
  compactItems : List Json → List String
    | [] => []
    | j :: rest => compact j :: compactItems rest
  compactMembers : List (Option String × Json) → List String
    | [] => []
    | (k, j) :: rest => (quoted (k.getD "") ++ ":" ++ compact j) :: compactMembers rest

def indent (level : Nat) : String := String.ofList (List.replicate (2 * level) ' ')

def block (opening closing : String) (level : Nat) (entries : List String) : String :=
  opening ++ "\n" ++ String.intercalate ",\n" (entries.map (indent (level + 1) ++ ·)) ++ "\n" ++
    indent level ++ closing

/-- The text with every item and member on a line of its own, `level` deep. -/
def prettyAt : Nat → Json → String
  | _, .null => "null"
  | _, .bool b => if b then "true" else "false"
  | _, .num n => n.text
  | _, .str s => quoted (s.getD "")
  | _, .arr [] => "[]"
  | level, .arr (j :: rest) => block "[" "]" level (prettyItems (level + 1) (j :: rest))
  | _, .obj [] => "\x7b\x7d"
  | level, .obj (m :: rest) => block "\x7b" "\x7d" level (prettyMembers (level + 1) (m :: rest))
where
  prettyItems : Nat → List Json → List String
    | _, [] => []
    | level, j :: rest => prettyAt level j :: prettyItems level rest
  prettyMembers : Nat → List (Option String × Json) → List String
    | _, [] => []
    | level, (k, j) :: rest =>
      (quoted (k.getD "") ++ ": " ++ prettyAt level j) :: prettyMembers level rest

def pretty (j : Json) : String := prettyAt 0 j

end SkillAudit.Json
