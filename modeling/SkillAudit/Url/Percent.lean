import SkillAudit.Json.Printer

/-! Percent-encoding of the parts of a URL. -/
namespace SkillAudit.Url

/-- Characters below the blank, and the one after the tilde. -/
def isControl (c : Char) : Bool := c.toNat < 0x20 || c.toNat == 0x7F

def inFragmentSet (c : Char) : Bool := isControl c || " \"<>\x60".toList.contains c

def inQuerySet (c : Char) : Bool := isControl c || " \"#<>".toList.contains c

def inSpecialQuerySet (c : Char) : Bool := inQuerySet c || c == '\''

def inPathSet (c : Char) : Bool := inFragmentSet c || "#?\x7b\x7d".toList.contains c

def inSegmentSet (c : Char) : Bool := inPathSet c || c == '/' || c == '%'

def inSpecialSegmentSet (c : Char) : Bool := inSegmentSet c || c == '\\'

def inUserSet (c : Char) : Bool := inPathSet c || "/:;=@[\\]^|".toList.contains c

def upperHex (n : Nat) : Char := (Json.hexChar n).toUpper

def encodeByte (b : UInt8) : List Char :=
  ['%', upperHex (b.toNat / 16), upperHex (b.toNat % 16)]

def encodeChar (inSet : Char → Bool) (c : Char) : List Char :=
  if inSet c || c.toNat ≥ 0x80 then (String.singleton c).toUTF8.toList.flatMap encodeByte else [c]

def encode (inSet : Char → Bool) (cs : List Char) : List Char := cs.flatMap (encodeChar inSet)

def hexDigit? (c : Char) : Option Nat :=
  if c.isDigit then some (c.toNat - '0'.toNat)
  else if 'a' ≤ c && c ≤ 'f' then some (c.toNat - 'a'.toNat + 10)
  else if 'A' ≤ c && c ≤ 'F' then some (c.toNat - 'A'.toNat + 10)
  else none

/-- The bytes that a text stands for; a percent sign without two digits stands for itself. -/
def decodeBytes : List Char → ByteArray → ByteArray
  | '%' :: a :: b :: rest, bytes =>
    match hexDigit? a, hexDigit? b with
    | some x, some y => decodeBytes rest (bytes.push (UInt8.ofNat (16 * x + y)))
    | _, _ => decodeBytes (a :: b :: rest) (bytes.push 0x25)
  | c :: rest, bytes => decodeBytes rest (bytes ++ (String.singleton c).toUTF8)
  | [], bytes => bytes
termination_by cs => cs.length

end SkillAudit.Url
