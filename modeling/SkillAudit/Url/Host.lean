import SkillAudit.Text.Blank
import SkillAudit.Text.Utf8
import SkillAudit.Url.Percent

/-! Hosts of URLs: names, and addresses of versions four and six. -/
namespace SkillAudit.Url

/-- The text of a host that is a number, by its four bytes. -/
def v4Text (n : Nat) : String :=
  String.intercalate "." ([n >>> 24, (n >>> 16) % 256, (n >>> 8) % 256, n % 256].map toString)

def number? (base : Nat) (digits : List Char) : Option Nat :=
  digits.foldlM (fun n c =>
    match hexDigit? c with
    | some d => if d < base then some (base * n + d) else none
    | none => none) 0

/-- A part of an address: hexadecimal after `0x`, octal after a zero, else decimal. -/
def v4Number? (part : List Char) : Option Nat :=
  match part with
  | [] => none
  | '0' :: 'x' :: digits => number? 16 digits
  | '0' :: 'X' :: digits => number? 16 digits
  | '0' :: d :: digits => number? 8 (d :: digits)
  | _ => number? 10 part

def dotParts (host : List Char) : List (List Char) :=
  let parts := Text.splitWhen (· == '.') host
  if parts.length > 1 && parts.getLast? == some [] then parts.dropLast else parts

/-- Whether a host has to be an address: its last part is a number. -/
def endsInNumber (host : List Char) : Bool :=
  match (dotParts host).getLast? with
  | some last => (!last.isEmpty && last.all Char.isDigit) || (v4Number? last).isSome
  | none => false

/-- An address of one to four parts, the last of which fills what is left. -/
def v4? (host : List Char) : Option Nat := do
  let parts := dotParts host
  if parts.length > 4 then none
  else
    let numbers ← parts.mapM v4Number?
    let last ← numbers.getLast?
    let front := numbers.dropLast
    if last ≥ .pow 256 (4 - front.length) || front.any (· > 255) then none
    else some (front.zipIdx.foldl (fun n (x, i) => n + x * .pow 256 (3 - i)) last)

def v6Piece? (piece : List Char) : Option Nat :=
  if piece.isEmpty || piece.length > 4 then none else number? 16 piece

def v6Byte? (part : List Char) : Option Nat :=
  match part with
  | [] => none
  | ['0'] => some 0
  | '0' :: _ => none
  | _ =>
    if part.all Char.isDigit && part.length ≤ 3 then (number? 10 part).filter (· ≤ 255) else none

/-- Pieces between colons, the last of which may be an address of version four. -/
def v6Pieces? (cs : List Char) : Option (List Nat) :=
  if cs.isEmpty then some []
  else
    let parts := Text.splitWhen (· == ':') cs
    match parts.getLast? with
    | none => none
    | some last =>
      if last.contains '.' then do
        let front ← parts.dropLast.mapM v6Piece?
        let bytes ← (Text.splitWhen (· == '.') last).mapM v6Byte?
        match bytes with
        | [a, b, c, d] => some (front ++ [a * 256 + b, c * 256 + d])
        | _ => none
      else parts.mapM v6Piece?

def atDoubleColon : List Char → List Char → Option (List Char × List Char)
  | ':' :: ':' :: rest, before => some (before.reverse, rest)
  | c :: rest, before => atDoubleColon rest (c :: before)
  | [], _ => none

/-- The eight pieces of an address, two colons standing for the zeros that are left out. -/
def v6? (cs : List Char) : Option (List Nat) :=
  match atDoubleColon cs [] with
  | some (before, after) => do
    if before.contains '.' then none
    else
      let front ← v6Pieces? before
      let back ← v6Pieces? after
      if front.length + back.length > 7 then none
      else some (front ++ List.replicate (8 - front.length - back.length) 0 ++ back)
  | none => (v6Pieces? cs).filter (·.length == 8)

def hexText (n : Nat) : String := String.ofList (Nat.toDigits 16 n)

/-- The start and length of the longest run of zeros, the first of equals. -/
def longestZeros (pieces : List Nat) : Nat × Nat :=
  (List.range pieces.length).foldl (fun (best : Nat × Nat) i =>
    let length := ((pieces.drop i).takeWhile (· == 0)).length
    if length > best.2 then (i, length) else best) (0, 0)

/-- An address in brackets; its longest run of two or more zeros is left out. -/
def v6Text (pieces : List Nat) : String :=
  let (start, length) := longestZeros pieces
  let joined (ps : List Nat) : String := String.intercalate ":" (ps.map hexText)
  if length < 2 then "[" ++ joined pieces ++ "]"
  else "[" ++ joined (pieces.take start) ++ "::" ++ joined (pieces.drop (start + length)) ++ "]"

def isForbidden (c : Char) : Bool :=
  "\x00\t\n\x0d #/:<>?@[\\]^|".toList.contains c

/-- Characters that no name of a special scheme holds. -/
def isForbiddenInDomain (c : Char) : Bool := isForbidden c || isControl c || c == '%'

namespace Punycode

def adapt (delta count : Nat) (first : Bool) : Nat :=
  let delta := if first then delta / 700 else delta / 2
  go (delta + delta / count) 0
where
  go (delta k : Nat) : Nat :=
    if 455 < delta then go (delta / 35) (k + 36) else k + 36 * delta / (delta + 38)
  termination_by delta
  decreasing_by exact Nat.div_lt_self (by omega) (by omega)

def digit (n : Nat) : Char := Char.ofNat (if n < 26 then 97 + n else 22 + n)

/-- From this number on the digit of weight `k` is not the last one. -/
def threshold (bias k : Nat) : Nat := max 1 (min 26 (k - bias))

theorem threshold_bounds (bias k : Nat) : 1 ≤ threshold bias k ∧ threshold bias k ≤ 26 := by
  unfold threshold
  omega

def digits (bias k q : Nat) : List Char :=
  let t := threshold bias k
  if q < t then [digit q]
  else digit (t + (q - t) % (36 - t)) :: digits bias (k + 36) ((q - t) / (36 - t))
termination_by q
decreasing_by
  have h := threshold_bounds bias k
  have hle : (q - threshold bias k) / (36 - threshold bias k) ≤ q - threshold bias k :=
    Nat.div_le_self _ _
  omega

structure State where
  delta : Nat
  bias : Nat
  handled : Nat
  out : List Char

def pass (basic n : Nat) (label : List Char) (s : State) : State :=
  label.foldl (fun s c =>
    if c.toNat < n then { s with delta := s.delta + 1 }
    else if c.toNat == n then
      { delta := 0
        bias := adapt s.delta (s.handled + 1) (s.handled == basic)
        handled := s.handled + 1
        out := s.out ++ digits s.bias 36 s.delta }
    else s) s

def encodeFrom (basic : Nat) (label : List Char) : List Nat → Nat → State → List Char
  | [], _, s => s.out
  | m :: rest, n, s =>
    let s := pass basic m label { s with delta := s.delta + (m - n) * (s.handled + 1) }
    encodeFrom basic label rest (m + 1) { s with delta := s.delta + 1 }

def encode (label : List Char) : List Char :=
  let basic := label.filter (·.toNat < 0x80)
  let others := ((label.filter (·.toNat ≥ 0x80)).map Char.toNat).eraseDups.mergeSort (· ≤ ·)
  let start := if basic.isEmpty then [] else basic ++ ['-']
  start ++ encodeFrom basic.length label others 0x80 ⟨0, 72, basic.length, []⟩

end Punycode

def asciiLabel (label : List Char) : List Char :=
  let lower := label.map Char.toLower
  if lower.all (·.toNat < 0x80) then lower else "xn--".toList ++ Punycode.encode lower

def asciiDomain (cs : List Char) : List Char :=
  List.intercalate ['.'] ((Text.splitWhen (fun c => c == '.' || c == '。') cs).map asciiLabel)

def hasBareMark (domain : List Char) : Bool :=
  (Text.splitWhen (· == '.') domain).any (· == "xn--".toList)

def bracketed? (cs : List Char) : Option (Option String) :=
  match cs with
  | '[' :: rest =>
    if rest.getLast? == some ']' then some ((v6? rest.dropLast).map v6Text) else some none
  | _ => none

def specialHost? (cs : List Char) : Option String :=
  match bracketed? cs with
  | some host => host
  | none =>
    match Text.Utf8.strict? (decodeBytes cs .empty) with
    | none => none
    | some decoded =>
      let domain := asciiDomain decoded.toList
      if domain.isEmpty || domain.any isForbiddenInDomain || hasBareMark domain then none
      else if endsInNumber domain then (v4? domain).map v4Text
      else some (String.ofList domain)

def opaqueHost? (cs : List Char) : Option String :=
  match bracketed? cs with
  | some host => host
  | none =>
    if cs.any isForbidden then none else some (String.ofList (encode isControl cs))

end SkillAudit.Url
