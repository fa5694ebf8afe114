import SkillAudit.Json.Basic

/-!
Decoding JSON values into domain values. A record is an object whose known keys occur at most once,
or an array of its fields in order; unknown keys are skipped.
-/
namespace SkillAudit.Json

abbrev Decoder (α : Type) := Json → Option α

def asText : Decoder String
  | .str s => s
  | _ => none

def asBool : Decoder Bool
  | .bool b => some b
  | _ => none

/-- A natural number below `bound`, written as an integer. -/
def asNatBelow (bound : Nat) : Decoder Nat
  | .num (.int false n) => if n < bound then some n else none
  | _ => none

def asUInt32 : Decoder UInt32 := fun j => (asNatBelow UInt32.size j).map UInt32.ofNat

/-- A natural number of at most 64 bits. -/
def asNat : Decoder Nat := asNatBelow UInt64.size

def asUInt64 : Decoder UInt64 := fun j => (asNat j).map UInt64.ofNat

/-- An integer of at most 64 bits with its sign. -/
def asInt : Decoder Int
  | .num (.int false n) => if n < 0x8000000000000000 then some n else none
  | .num (.int true n) => if 0 < n && n ≤ 0x8000000000000000 then some (-(n : Int)) else none
  | _ => none

def asOption {α : Type} (decode : Decoder α) : Decoder (Option α)
  | .null => some none
  | j => (decode j).map some

def asList {α : Type} (decode : Decoder α) : Decoder (List α)
  | .arr items => items.mapM decode
  | _ => none

/-- One of finitely many words: the word itself, or an object that maps it alone to `null`. -/
def asWord {α : Type} (word? : String → Option α) : Decoder α
  | .str (some s) => word? s
  | .obj [(some s, .null)] => word? s
  | _ => none

/-- The members of an object, each with a text as its key. -/
def asMap {α : Type} (decode : Decoder α) : Decoder (List (String × α))
  | .obj members => members.mapM fun (k, j) => do return (← k, ← decode j)
  | _ => none

/-- The fields found for a record, and whether they were given by position. -/
structure Record where
  positional : Bool
  fields : List (String × Json)

/-- The members with known keys; fails if a key has no text or a known key repeats. -/
def namedFields (names : List String) : List (Option String × Json) → Option (List (String × Json))
  | [] => some []
  | (none, _) :: _ => none
  | (some k, j) :: rest =>
    match namedFields names rest with
    | none => none
    | some found =>
      if names.contains k then
        if found.any (·.1 == k) then none else some ((k, j) :: found)
      else some found

def asRecord (names : List String) : Decoder Record
  | .obj members => (namedFields names members).map (⟨false, ·⟩)
  | .arr items => if items.length ≤ names.length then some ⟨true, names.zip items⟩ else none
  | _ => none

/-- As `asRecord`, but items beyond the last field are skipped. -/
def asOpenRecord (names : List String) : Decoder Record
  | .arr items => some ⟨true, names.zip items⟩
  | j => asRecord names j

namespace Record

def get? (r : Record) (name : String) : Option Json := r.fields.lookup name

def required {α : Type} (r : Record) (name : String) (decode : Decoder α) : Option α :=
  (r.get? name).bind decode

def withDefault {α : Type} (r : Record) (name : String) (default : α) (decode : Decoder α) :
    Option α :=
  match r.get? name with
  | none => some default
  | some j => decode j

def optional {α : Type} (r : Record) (name : String) (decode : Decoder α) : Option (Option α) :=
  r.withDefault name none (asOption decode)

/-- A field that may be `null`, or be missing when fields are named. -/
def nullable {α : Type} (r : Record) (name : String) (decode : Decoder α) : Option (Option α) :=
  match r.get? name with
  | none => if r.positional then none else some none
  | some j => asOption decode j

end Record
end SkillAudit.Json
