import SkillAudit.Json.Record
import SkillAudit.Text.Dict

/-! JSON values that are kept as they are: every string has a text and every number is in range. -/
namespace SkillAudit.Json

def depthLimit : Nat := 127

def isSound : Json → Bool
  | .num n => n.text?.isSome
  | .str s => s.isSome
  | .arr items => soundItems items
  | .obj members => soundMembers members
  | _ => true
where
  soundItems : List Json → Bool
    | [] => true
    | j :: rest => isSound j && soundItems rest
  soundMembers : List (Option String × Json) → Bool
    | [] => true
    | (k, j) :: rest => k.isSome && isSound j && soundMembers rest

/-- The value with the members of its objects in the order of their keys, each key once. -/
def sorted : Json → Json
  | .arr items => .arr (sortedItems items)
  | .obj members => .object (Dict.ofList (sortedMembers members))
  | j => j
where
  sortedItems : List Json → List Json
    | [] => []
    | j :: rest => sorted j :: sortedItems rest
  sortedMembers : List (Option String × Json) → List (String × Json)
    | [] => []
    | (k, j) :: rest => (k.getD "", sorted j) :: sortedMembers rest

/-- Any value, inside `levels` arrays and objects. -/
def asTree (levels : Nat) : Decoder Json := fun j =>
  if j.isSound && j.depth + levels ≤ depthLimit then some j.sorted else none

def asDict {α : Type} (decode : Decoder α) : Decoder (Dict α) := fun j =>
  (asMap decode j).map Dict.ofList

end SkillAudit.Json
