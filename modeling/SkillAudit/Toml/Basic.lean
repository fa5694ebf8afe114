import SkillAudit.Json.Basic

/-! TOML documents, as trees. -/
namespace SkillAudit

inductive Toml.Float where
  | finite (negative : Bool) (coefficient : Nat) (power : Int)
  | infinite (negative : Bool)
  | nan (negative : Bool)
  deriving DecidableEq, Repr

inductive Toml where
  | string (text : String)
  | integer (value : Int)
  | float (value : Toml.Float)
  | boolean (value : Bool)
  | datetime (text : String)
  | array (items : List Toml)
  | table (entries : List (String × Toml))
  deriving Repr, Inhabited

namespace Toml

/-- The key under which a date or time appears where a table is expected. -/
def datetimeKey : String := "$__toml_private_datetime"

/-- The value as a JSON tree, for decoding. A date or time is an object with one private key. -/
def toJson : Toml → Json
  | .string s => .text s
  | .integer i => .int i
  | .float (.finite negative c p) => .num (.real negative c p)
  | .float _ => .num (.real false 0 0)
  | .boolean b => .bool b
  | .datetime s => .object [(datetimeKey, .text s)]
  | .array items => .arr (arrayJson items)
  | .table entries => .obj (tableJson entries)
where
  arrayJson : List Toml → List Json
    | [] => []
    | v :: rest => toJson v :: arrayJson rest
  tableJson : List (String × Toml) → List (Option String × Json)
    | [] => []
    | (k, v) :: rest => (some k, toJson v) :: tableJson rest

end Toml
end SkillAudit
