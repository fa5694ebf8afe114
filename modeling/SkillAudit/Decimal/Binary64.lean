/-!
Finite binary64 numbers as exact products `mantissa * 2 ^ exponent`, rounding of quotients to them,
and the shortest decimal that reads back.
-/
namespace SkillAudit.Decimal

/-- The number `mantissa * 2 ^ exponent`. -/
structure Binary64 where
  mantissa : Nat
  exponent : Int
  deriving DecidableEq, Repr

namespace Binary64

def zero : Binary64 := ⟨0, -1074⟩

def scaled (num den : Nat) (e : Int) : Nat × Nat :=
  if e ≥ 0 then (num, den <<< e.toNat) else (num <<< (-e).toNat, den)

/-- The quotient rounded to an integer, a half to the even neighbour. -/
def roundHalfEven (num den : Nat) : Nat :=
  let q := num / den
  let r := num % den
  if 2 * r < den then q else if 2 * r > den then q + 1 else q + q % 2

/-- The binary64 number nearest to `num / den`, `none` beyond the largest one. -/
def ofQuotient (num den : Nat) : Option Binary64 :=
  if num == 0 then some zero
  else
    let guess : Int := (num.log2 : Int) - (den.log2 : Int) - 52
    let (n, d) := scaled num den guess
    let fitted := if n / d < 1 <<< 52 then guess - 1 else guess
    let e := max fitted (-1074)
    let (n, d) := scaled num den e
    let m := roundHalfEven n d
    let (m, e) := if m == 1 <<< 53 then (1 <<< 52, e + 1) else (m, e)
    if e > 971 then none else some ⟨m, e⟩

def quotient (x : Binary64) : Nat × Nat :=
  if x.exponent ≥ 0 then (x.mantissa <<< x.exponent.toNat, 1)
  else (x.mantissa, 1 <<< (-x.exponent).toNat)

def mul (x y : Binary64) : Option Binary64 :=
  let (a, b) := x.quotient
  let (c, d) := y.quotient
  ofQuotient (a * c) (b * d)

def div (x y : Binary64) : Option Binary64 :=
  let (a, b) := x.quotient
  let (c, d) := y.quotient
  if c == 0 then none else ofQuotient (a * d) (b * c)

/-- The number nearest to `coefficient * 10 ^ power`, `none` beyond the largest one. -/
def ofDecimal (coefficient : Nat) (power : Int) : Option Binary64 :=
  if coefficient == 0 then some zero
  else
    let digits : Int := (Nat.toDigits 10 coefficient).length
    if digits + power > 400 then none
    else if digits + power < -400 then some zero
    else if power ≥ 0 then ofQuotient (coefficient * .pow 10 power.toNat) 1
    else ofQuotient coefficient (.pow 10 (-power).toNat)

def onGrid (num den : Nat) (k : Int) : Nat × Nat :=
  if k ≥ 0 then (num, den * .pow 10 k.toNat) else (num * .pow 10 (-k).toNat, den)

/-- The ends of the interval of reals that round to `x`, and `x` itself, over one denominator. -/
def interval (x : Binary64) : Nat × Nat × Nat × Nat :=
  let below := if x.mantissa == 1 <<< 52 && x.exponent > -1074 then 1 else 2
  let m := 4 * x.mantissa
  let e := x.exponent - 2
  if e ≥ 0 then
    let s := 1 <<< e.toNat
    ((m - below) * s, m * s, (m + 2) * s, 1)
  else (m - below, m, m + 2, 1 <<< (-e).toNat)

/-- A multiple of `10 ^ k` that rounds to `x`, the nearer of two. -/
def gridHit (x : Binary64) (k : Int) : Option Nat :=
  let (low, mid, high, den) := x.interval
  let closed := x.mantissa % 2 == 0
  let (n, d) := onGrid mid den k
  let inside (c : Nat) : Bool :=
    let (ln, ld) := onGrid low den k
    let (hn, hd) := onGrid high den k
    if closed then ln ≤ c * ld && c * hd ≤ hn else ln < c * ld && c * hd < hn
  let floor := n / d
  let r := n % d
  match inside floor && floor > 0, inside (floor + 1) with
  | true, true => some (if 2 * r ≤ d then floor else floor + 1)
  | true, false => some floor
  | false, true => some (floor + 1)
  | false, false => none

/-- The first hit on ever finer grids, from `10 ^ k` downwards. -/
def firstHit (x : Binary64) : Nat → Int → Nat × Int
  | 0, k => (0, k)
  | fuel + 1, k =>
    match x.gridHit k with
    | some c => (c, k)
    | none => firstHit x fuel (k - 1)

/-- The decimal `c * 10 ^ k` with the fewest digits that rounds to `x`, the nearest of those. -/
def shortest (x : Binary64) : Nat × Int :=
  if x.mantissa == 0 then (0, 0)
  else
    let (num, den) := x.quotient
    let magnitude : Int := (((num.log2 : Int) - (den.log2 : Int)) * 30103) / 100000
    let (c, k) := firstHit x 25 (magnitude + 2)
    trimZeros 20 c k
where
  trimZeros : Nat → Nat → Int → Nat × Int
    | 0, c, k => (c, k)
    | fuel + 1, c, k => if c % 10 == 0 && c != 0 then trimZeros fuel (c / 10) (k + 1) else (c, k)

end Binary64

/-- Decimals from `10 ^ -5` up to below `10 ^ 16` are written out, with `.0` after an integer;
others have an exponent. -/
def positional (digits : List Char) (k : Int) : String :=
  let length : Int := digits.length
  let point := length + k
  if 0 ≤ k && point ≤ 16 then
    String.ofList (digits ++ List.replicate k.toNat '0') ++ ".0"
  else if 0 < point && point ≤ 16 then
    String.ofList (digits.take point.toNat) ++ "." ++ String.ofList (digits.drop point.toNat)
  else if -5 < point && point ≤ 0 then
    "0." ++ String.ofList (List.replicate (-point).toNat '0' ++ digits)
  else
    let exponent := toString (point - 1)
    match digits with
    | [d] => String.ofList [d] ++ "e" ++ exponent
    | d :: rest => String.ofList (d :: '.' :: rest) ++ "e" ++ exponent
    | [] => "0.0"

def Binary64.text (negative : Bool) (x : Binary64) : String :=
  let sign := if negative then "-" else ""
  if x.mantissa == 0 then sign ++ "0.0"
  else
    let (c, k) := x.shortest
    sign ++ positional (Nat.toDigits 10 c) k

end SkillAudit.Decimal
