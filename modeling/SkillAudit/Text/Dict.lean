/-! Maps from texts, as lists in strictly ascending order of their keys. -/
namespace SkillAudit

abbrev Dict (α : Type) := List (String × α)

namespace Dict

variable {α : Type}

def insert (key : String) (value : α) : Dict α → Dict α
  | [] => [(key, value)]
  | (k, v) :: rest =>
    if key < k then (key, value) :: (k, v) :: rest
    else if key = k then (key, value) :: rest
    else (k, v) :: insert key value rest

def get? (d : Dict α) (key : String) : Option α := d.lookup key

def erase (d : Dict α) (key : String) : Dict α := d.filter fun (k, _) => k != key

def keys (d : Dict α) : List String := d.map (·.1)

def values (d : Dict α) : List α := d.map (·.2)

/-- The map of some pairs; of two with one key the later counts. -/
def ofList (pairs : List (String × α)) : Dict α := pairs.foldl (fun d (k, v) => insert k v d) []

end Dict
end SkillAudit
