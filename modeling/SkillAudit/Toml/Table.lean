import SkillAudit.Toml.Basic

/-!
Tables of a TOML document while it is read. A table is defined once: by a header, by dotted keys, or
inside a value; headers of inner tables define it only implicitly.
-/
namespace SkillAudit.Toml

mutual

inductive Item where
  | value (v : Toml)
  | table (t : Table)
  /-- Tables with headers in double brackets, the latest first. -/
  | tables (latest : Table) (earlier : List Table)

/-- A table. `implicit` if only headers of inner tables or dotted keys have named it, `dotted` if
dotted keys have. -/
inductive Table where
  | mk (implicit dotted : Bool) (entries : List (String × Item))

end

namespace Table

def implicit : Table → Bool
  | mk i _ _ => i

def dotted : Table → Bool
  | mk _ d _ => d

def entries : Table → List (String × Item)
  | mk _ _ es => es

def withEntries (t : Table) (es : List (String × Item)) : Table := mk t.implicit t.dotted es

def explicit : Table → Table
  | mk _ d es => mk false d es

def empty : Table := mk false false []

def get? (t : Table) (key : String) : Option Item := t.entries.lookup key

def put (t : Table) (key : String) (item : Item) : Table :=
  if t.entries.any (·.1 == key) then
    t.withEntries (t.entries.map fun (k, v) => if k == key then (k, item) else (k, v))
  else t.withEntries ((key, item) :: t.entries)

/-- Changes the table that `path` leads to from `t`, making missing tables on the way; `none` where
a value stands in the way, or, for dotted keys, a table with a header. -/
def modifyAt (dotted : Bool) (f : Table → Option Table) : List String → Table → Option Table
  | [], t => f t
  | key :: path, t =>
    match t.get? key with
    | none => (modifyAt dotted f path (mk true dotted [])).map fun s => t.put key (.table s)
    | some (.value _) => none
    | some (.table s) =>
      if dotted && !s.implicit then none
      else (modifyAt dotted f path s).map fun s => t.put key (.table s)
    | some (.tables latest earlier) =>
      (modifyAt dotted f path latest).map fun s => t.put key (.tables s earlier)

def addValue (path : List String) (key : String) (v : Toml) (t : Table) : Option Table :=
  modifyAt true (fun s =>
    if s.dotted == path.isEmpty then none
    else if (s.get? key).isSome then none
    else some (s.put key (.value v))) path t

def openTable (path : List String) (key : String) (t : Table) : Option Table :=
  modifyAt false (fun s =>
    match s.get? key with
    | none => some (s.put key (.table empty))
    | some (.table u) =>
      if u.implicit && !u.dotted then some (s.put key (.table u.explicit)) else none
    | some _ => none) path t

def appendTable (path : List String) (key : String) (t : Table) : Option Table :=
  modifyAt false (fun s =>
    match s.get? key with
    | none => some (s.put key (.tables empty []))
    | some (.tables latest earlier) => some (s.put key (.tables empty (latest :: earlier)))
    | some _ => none) path t

mutual

def toToml : Table → Toml
  | mk _ _ es => .table (entriesToml es [])

def entriesToml : List (String × Item) → List (String × Toml) → List (String × Toml)
  | [], done => done
  | (k, item) :: rest, done => entriesToml rest ((k, itemToml item) :: done)

def itemToml : Item → Toml
  | .value v => v
  | .table t => toToml t
  | .tables latest earlier => .array (tablesToml earlier [toToml latest])

def tablesToml : List Table → List Toml → List Toml
  | [], done => done
  | t :: rest, done => tablesToml rest (toToml t :: done)

end

end Table
end SkillAudit.Toml
