import SkillAudit.Decimal.Binary64
import SkillAudit.Yaml.Node

/-! The values of YAML nodes: plain scalars may be numbers, truth values or nothing. -/
namespace SkillAudit.Yaml

inductive Float where
  | finite (negative : Bool) (magnitude : Decimal.Binary64)
  | infinite (negative : Bool)
  | nan
  deriving DecidableEq, Repr

/-- Whether two numbers are equal; a number that is none equals itself. -/
def Float.same : Float → Float → Bool
  | .finite n a, .finite m b => a == b && (n == m || a.mantissa == 0)
  | a, b => a == b

def Float.text : Float → String
  | .finite negative magnitude => magnitude.text negative
  | .infinite negative => if negative then "-.inf" else ".inf"
  | .nan => ".nan"

inductive Value where
  | null
  | boolean (b : Bool)
  | integer (i : Int)
  | float (f : Float)
  | string (s : String)
  | sequence (items : List Value)
  | mapping (entries : List (Value × Value))
  | tagged (tag : String) (value : Value)
  deriving Inhabited

namespace Value

/-- Whether two values are equal. The order of entries does not count. -/
def same : Value → Value → Bool
  | .null, .null => true
  | .boolean a, .boolean b => a == b
  | .integer a, .integer b => a == b
  | .float a, .float b => a.same b
  | .string a, .string b => a == b
  | .sequence as, .sequence bs => sameItems as bs
  | .mapping as, .mapping bs => as.length == bs.length && sameEntries as bs
  | .tagged s a, .tagged t b => s == t && same a b
  | _, _ => false
where
  sameItems : List Value → List Value → Bool
    | [], [] => true
    | a :: as, b :: bs => same a b && sameItems as bs
    | _, _ => false
  sameEntries : List (Value × Value) → List (Value × Value) → Bool
    | [], _ => true
    | (k, v) :: as, bs => bs.any (fun (k', v') => same k k' && same v v') && sameEntries as bs

def untagged : Value → Value
  | .tagged _ v => untagged v
  | v => v

def get? (v : Value) (key : String) : Option Value :=
  match v.untagged with
  | .mapping entries => (entries.find? fun (k, _) =>
      match k with
      | .string s => s == key
      | _ => false).map (·.2)
  | _ => none

end Value

namespace Plain

def isNull (s : String) : Bool := ["null", "Null", "NULL", "~"].contains s

def boolean? (s : String) : Option Bool :=
  if ["true", "True", "TRUE"].contains s then some true
  else if ["false", "False", "FALSE"].contains s then some false
  else none

def unsigned (s : List Char) : List Char :=
  match s with
  | '+' :: rest => rest
  | '-' :: rest => rest
  | _ => s

/-- Whether a text is digits after a zero, which is no number. -/
def isZeroLed (s : List Char) : Bool :=
  match unsigned s with
  | '0' :: c :: rest => (c :: rest).all Char.isDigit
  | _ => false

def natural? (base : Nat) (digits : List Char) : Option Nat :=
  if digits.isEmpty then none
  else digits.foldlM (fun n c =>
    match hexValue? c with
    | some d => if d < base then some (base * n + d) else none
    | none => none) 0

/-- The magnitude of an integer without its sign; letters after a zero give the base. -/
def magnitude? (s : List Char) : Option Nat :=
  match s with
  | '0' :: 'x' :: digits => natural? 16 digits
  | '0' :: 'o' :: digits => natural? 8 digits
  | '0' :: 'b' :: digits => natural? 2 digits
  | _ => if isZeroLed s then none else natural? 10 s

/-- An integer, unless it has more than 128 bits. -/
def integer? (s : List Char) : Option Int :=
  match s with
  | '-' :: rest => (magnitude? rest).bind fun n => if n ≤ 1 <<< 127 then some (-(n : Int)) else none
  | _ =>
    let rest := match s with
      | '+' :: rest => rest
      | _ => s
    (magnitude? rest).bind fun n => if n < 1 <<< 128 then some (n : Int) else none

def fits (i : Int) : Bool := -0x8000000000000000 ≤ i && i < UInt64.size

/-- A decimal fraction with an exponent, as a coefficient and a power of ten. -/
def decimal? (s : List Char) : Option (Nat × Int) :=
  let whole := s.takeWhile Char.isDigit
  let rest := s.dropWhile Char.isDigit
  let (fraction, rest) := match rest with
    | '.' :: more => (more.takeWhile Char.isDigit, more.dropWhile Char.isDigit)
    | _ => ([], rest)
  if whole.isEmpty && fraction.isEmpty then none
  else
    (natural? 10 (whole ++ fraction)).bind fun coefficient =>
      let scale : Int := -(fraction.length : Int)
      match rest with
      | [] => some (coefficient, scale)
      | e :: exponent =>
        if e == 'e' || e == 'E' then
          (natural? 10 (unsigned exponent)).map fun n =>
            (coefficient, scale + (if exponent.head? == some '-' then -(n : Int) else n))
        else none

def float? (s : String) : Option Float :=
  let positive := (Text.stripFront "+" s).getD s
  if [".inf", ".Inf", ".INF"].contains positive then some (.infinite false)
  else if ["-.inf", "-.Inf", "-.INF"].contains s then some (.infinite true)
  else if [".nan", ".NaN", ".NAN"].contains s then some .nan
  else if positive != s && unsigned positive.toList != positive.toList then none
  else
    (decimal? (unsigned s.toList)).bind fun (coefficient, power) =>
      (Decimal.Binary64.ofDecimal coefficient power).map
        (.finite (s.toList.head? == some '-'))

/-- The value of a plain scalar. An integer of more than 64 bits has none. -/
def value? (s : String) : Option Value :=
  if s.isEmpty || isNull s then some .null
  else
    match boolean? s with
    | some b => some (.boolean b)
    | none =>
      match integer? s.toList with
      | some i => if fits i then some (.integer i) else none
      | none =>
        match (if isZeroLed s.toList then none else float? s) with
        | some f => some (.float f)
        | none => some (.string s)

end Plain

namespace Value

def depthLimit : Nat := 128

def coreTag (name : String) : String := "tag:yaml.org,2002:" ++ name

/-- The name of a tag of the document's own, which starts with an exclamation mark. -/
def ownTag? (tag : Option String) : Option String := tag.bind (Text.stripFront "!")

def ofScalar? (tag : Option String) (text : String) (plain : Bool) : Option Value :=
  match tag with
  | none => if plain then Plain.value? text else some (.string text)
  | some t =>
    if t == coreTag "bool" then (Plain.boolean? text).map .boolean
    else if t == coreTag "int" then
      (Plain.integer? text.toList).bind fun i => if Plain.fits i then some (.integer i) else none
    else if t == coreTag "float" then (Plain.float? text).map .float
    else if t == coreTag "null" then if Plain.isNull text then some .null else none
    else some (.string text)

/-- Puts the document's own tag on a value; the tag has a name. -/
def withTag (tag : Option String) (value : Value) : Option Value :=
  match ownTag? tag with
  | none => some value
  | some name => if name.isEmpty then none else some (.tagged name value)

abbrev Build := StateT Nat Option

def fail {α : Type} : Build α := fun _ => none

/-- How many aliases may be followed for every mark of a document. -/
def aliasFactor : Nat := 100

def follow (d : Node.Document) (n : Node) : Build Node := do
  match n with
  | .reference slot =>
    let jumps := (← get) + 1
    set jumps
    if jumps > aliasFactor * d.events then fail
    else
      match d.inSlot? slot with
      | some target => return target
      | none => fail
  | n => return n

def addEntry (entries : List (Value × Value)) (k v : Value) : Option (List (Value × Value)) :=
  if entries.any (·.1.same k) then none else some (entries ++ [(k, v)])

def ofNode (d : Node.Document) : Nat → Node → Build Value
  | _, .reference _ => fail
  | _, .scalar tag text plain =>
    match ownTag? tag with
    | some _ => fun jumps => do
      let value ← if plain then Plain.value? text else some (.string text)
      return (← withTag tag value, jumps)
    | none => fun jumps => (ofScalar? tag text plain).map (·, jumps)
  | 0, _ => fail
  | depth + 1, .sequence tag items => do
    let values ← items.mapM fun n => do ofNode d depth (← follow d n)
    match withTag tag (.sequence values) with
    | some v => return v
    | none => fail
  | depth + 1, .mapping tag entries => do
    let entries ← entries.foldlM (fun done (k, v) => do
      let key ← ofNode d depth (← follow d k)
      let value ← ofNode d depth (← follow d v)
      match addEntry done key value with
      | some done => return done
      | none => fail) []
    match withTag tag (.mapping entries) with
    | some v => return v
    | none => fail

def parse? (text : String) : Option Value :=
  (Node.documentOf? text).bind fun d =>
    match d.root with
    | none => some .null
    | some root => ((ofNode d depthLimit root).run 0).map (·.1)

end Value
end SkillAudit.Yaml
