/-! Base64 with the standard alphabet and padding. -/
namespace SkillAudit.Text.Base64

def digit? (c : Char) : Option Nat :=
  if 'A' ≤ c && c ≤ 'Z' then some (c.toNat - 'A'.toNat)
  else if 'a' ≤ c && c ≤ 'z' then some (c.toNat - 'a'.toNat + 26)
  else if c.isDigit then some (c.toNat - '0'.toNat + 52)
  else if c == '+' then some 62
  else if c == '/' then some 63
  else none

/-- The bytes of a text in groups of four characters. Bits left over in the last group are zero. -/
def decodeGroups : List Char → ByteArray → Option ByteArray
  | [], bytes => some bytes
  | [a, b, '=', '='], bytes => do
    let n := (← digit? a) * 64 + (← digit? b)
    if n % 16 == 0 then some (bytes.push (UInt8.ofNat (n / 16))) else none
  | [a, b, c, '='], bytes => do
    let n := ((← digit? a) * 64 + (← digit? b)) * 64 + (← digit? c)
    if n % 4 == 0 then
      some ((bytes.push (UInt8.ofNat (n / 1024))).push (UInt8.ofNat (n / 4 % 256)))
    else none
  | a :: b :: c :: d :: rest, bytes => do
    let n := (((← digit? a) * 64 + (← digit? b)) * 64 + (← digit? c)) * 64 + (← digit? d)
    decodeGroups rest (((bytes.push (UInt8.ofNat (n / 65536))).push
      (UInt8.ofNat (n / 256 % 256))).push (UInt8.ofNat (n % 256)))
  | _, _ => none

def decode? (text : String) : Option ByteArray := decodeGroups text.toList .empty

end SkillAudit.Text.Base64
