import SkillAudit.Decimal.Binary64

/-! JSON documents, as trees. -/
namespace SkillAudit

/-- A JSON number. One written without fraction and exponent is an integer. -/
inductive Json.Number where
  | int (negative : Bool) (magnitude : Nat)
  /-- `coefficient * 10 ^ power`. -/
  | real (negative : Bool) (coefficient : Nat) (power : Int)
  deriving DecidableEq, Repr

/-- A JSON value. Members keep their order and may repeat a key. A string is `none` when its escapes
leave a surrogate unpaired: such a string has no text, and matters only where a value is skipped. -/
inductive Json where
  | null
  | bool (value : Bool)
  | num (value : Json.Number)
  | str (text : Option String)
  | arr (items : List Json)
  | obj (members : List (Option String × Json))
  deriving Repr, Inhabited

namespace Json

def text (s : String) : Json := .str (some s)

def nat (n : Nat) : Json := .num (.int false n)

def int (i : Int) : Json := .num (.int (i < 0) i.natAbs)

def list {α : Type} (encode : α → Json) (xs : List α) : Json := .arr (xs.map encode)

def option {α : Type} (encode : α → Json) : Option α → Json
  | none => .null
  | some a => encode a

def object (members : List (String × Json)) : Json :=
  .obj (members.map fun (k, v) => (some k, v))

/-- The member `key`, for an object that has it when there is a value. -/
def whenSome {α : Type} (key : String) (encode : α → Json) : Option α → List (String × Json)
  | none => []
  | some a => [(key, encode a)]

def depth : Json → Nat
  | .arr items => depthItems items + 1
  | .obj members => depthMembers members + 1
  | _ => 0
where
  depthItems : List Json → Nat
    | [] => 0
    | j :: rest => max (depth j) (depthItems rest)
  depthMembers : List (Option String × Json) → Nat
    | [] => 0
    | (_, j) :: rest => max (depth j) (depthMembers rest)

def member? (key : String) : Json → Option Json
  | .obj members => (members.find? fun (k, _) => k == some key).map (·.2)
  | _ => none

end Json

/-- The least and the greatest integer that is kept exactly; beyond them a number is a binary64. -/
def Json.Number.isExact (negative : Bool) (magnitude : Nat) : Bool :=
  if negative then 0 < magnitude && magnitude ≤ 0x8000000000000000 else magnitude < UInt64.size

/-- The digits of an integer that fit in 64 bits, from the front, and how many are left. -/
def Json.Number.leading (coefficient : Nat) : Nat × Nat :=
  go (Nat.toDigits 10 coefficient) 0
where
  go : List Char → Nat → Nat × Nat
    | [], n => (n, 0)
    | c :: rest, n =>
      let n' := n * 10 + (c.toNat - 48)
      if n' < UInt64.size then go rest n' else (n, rest.length + 1)

/-- The binary64 read for `coefficient * 10 ^ power`: the leading digits as a binary64, then one
product or quotient with a power of ten; `none` beyond the largest number. -/
def Json.Number.binary64 (coefficient : Nat) (power : Int) : Option Decimal.Binary64 :=
  let (significand, dropped) := leading coefficient
  match Decimal.Binary64.ofQuotient significand 1 with
  | none => none
  | some x => scale 400 x (power + dropped)
where
  scale : Nat → Decimal.Binary64 → Int → Option Decimal.Binary64
    | 0, x, _ => some x
    | fuel + 1, x, power =>
      if x.mantissa == 0 then some x
      else if power ≥ 0 then
        if power > 308 then none
        else (Decimal.Binary64.ofQuotient (.pow 10 power.toNat) 1).bind x.mul
      else if power < -308 then
        (Decimal.Binary64.ofQuotient (.pow 10 308) 1).bind fun p =>
          (x.div p).bind fun y => scale fuel y (power + 308)
      else (Decimal.Binary64.ofQuotient (.pow 10 (-power).toNat) 1).bind x.div

/-- A number as it is kept: an exact integer, or else the binary64 read for it; `none` when that is
out of range. -/
def Json.Number.text? : Json.Number → Option String
  | .int negative magnitude =>
    if isExact negative magnitude then some ((if negative then "-" else "") ++ toString magnitude)
    else (binary64 magnitude 0).map (·.text negative)
  | .real negative coefficient power => (binary64 coefficient power).map (·.text negative)

end SkillAudit
