/-! The SHA-256 digest. -/
namespace SkillAudit.Sha256

structure State where
  a : UInt32
  b : UInt32
  c : UInt32
  d : UInt32
  e : UInt32
  f : UInt32
  g : UInt32
  h : UInt32
  deriving DecidableEq, Repr

def initial : State :=
  ⟨0x6a09e667, 0xbb67ae85, 0x3c6ef372, 0xa54ff53a, 0x510e527f, 0x9b05688c, 0x1f83d9ab, 0x5be0cd19⟩

def roundConstants : Array UInt32 := #[
  0x428a2f98, 0x71374491, 0xb5c0fbcf, 0xe9b5dba5, 0x3956c25b, 0x59f111f1, 0x923f82a4, 0xab1c5ed5,
  0xd807aa98, 0x12835b01, 0x243185be, 0x550c7dc3, 0x72be5d74, 0x80deb1fe, 0x9bdc06a7, 0xc19bf174,
  0xe49b69c1, 0xefbe4786, 0x0fc19dc6, 0x240ca1cc, 0x2de92c6f, 0x4a7484aa, 0x5cb0a9dc, 0x76f988da,
  0x983e5152, 0xa831c66d, 0xb00327c8, 0xbf597fc7, 0xc6e00bf3, 0xd5a79147, 0x06ca6351, 0x14292967,
  0x27b70a85, 0x2e1b2138, 0x4d2c6dfc, 0x53380d13, 0x650a7354, 0x766a0abb, 0x81c2c92e, 0x92722c85,
  0xa2bfe8a1, 0xa81a664b, 0xc24b8b70, 0xc76c51a3, 0xd192e819, 0xd6990624, 0xf40e3585, 0x106aa070,
  0x19a4c116, 0x1e376c08, 0x2748774c, 0x34b0bcb5, 0x391c0cb3, 0x4ed8aa4a, 0x5b9cca4f, 0x682e6ff3,
  0x748f82ee, 0x78a5636f, 0x84c87814, 0x8cc70208, 0x90befffa, 0xa4506ceb, 0xbef9a3f7, 0xc67178f2]

def rotateRight (x n : UInt32) : UInt32 := (x >>> n) ||| (x <<< (32 - n))

def wordAt (bytes : ByteArray) (i : Nat) : UInt32 :=
  let byte (k : Nat) : UInt32 := if h : i + k < bytes.size then bytes[i + k].toUInt32 else 0
  (byte 0 <<< 24) ||| (byte 1 <<< 16) ||| (byte 2 <<< 8) ||| byte 3

/-- The message schedule of the block at `start`, extended to `n` more words than `words` has. -/
def schedule (bytes : ByteArray) (start : Nat) : Nat → Array UInt32 → Array UInt32
  | 0, words => words
  | n + 1, words =>
    let i := words.size
    let word :=
      if i < 16 then wordAt bytes (start + 4 * i)
      else
        let x := words.getD (i - 15) 0
        let y := words.getD (i - 2) 0
        let s0 := rotateRight x 7 ^^^ rotateRight x 18 ^^^ (x >>> 3)
        let s1 := rotateRight y 17 ^^^ rotateRight y 19 ^^^ (y >>> 10)
        words.getD (i - 16) 0 + s0 + words.getD (i - 7) 0 + s1
    schedule bytes start n (words.push word)

/-- The rounds from `i` on, `n` of them. -/
def rounds (words : Array UInt32) : Nat → Nat → State → State
  | 0, _, s => s
  | n + 1, i, s =>
    let s1 := rotateRight s.e 6 ^^^ rotateRight s.e 11 ^^^ rotateRight s.e 25
    let choice := (s.e &&& s.f) ^^^ (~~~s.e &&& s.g)
    let t1 := s.h + s1 + choice + roundConstants.getD i 0 + words.getD i 0
    let s0 := rotateRight s.a 2 ^^^ rotateRight s.a 13 ^^^ rotateRight s.a 22
    let majority := (s.a &&& s.b) ^^^ (s.a &&& s.c) ^^^ (s.b &&& s.c)
    rounds words n (i + 1) ⟨t1 + (s0 + majority), s.a, s.b, s.c, s.d + t1, s.e, s.f, s.g⟩

/-- The state after the block at `start`. -/
def compress (bytes : ByteArray) (start : Nat) (s : State) : State :=
  let t := rounds (schedule bytes start 64 (Array.mkEmpty 64)) 64 0 s
  ⟨s.a + t.a, s.b + t.b, s.c + t.c, s.d + t.d, s.e + t.e, s.f + t.f, s.g + t.g, s.h + t.h⟩

/-- The state after `n` blocks from `start` on. -/
def blocks (bytes : ByteArray) : Nat → Nat → State → State
  | 0, _, s => s
  | n + 1, start, s => blocks bytes n (start + 64) (compress bytes start s)

/-- The message, a one bit, zeros up to 56 modulo 64, and the length in bits. -/
def pad (message : ByteArray) : ByteArray :=
  let zeros := (119 - message.size % 64) % 64
  let bits := message.size * 8
  let tail : List UInt8 := (0x80 : UInt8) :: List.replicate zeros (0 : UInt8) ++
    [56, 48, 40, 32, 24, 16, 8, 0].map fun shift => UInt8.ofNat (bits >>> shift)
  message ++ tail.toByteArray

def State.words (s : State) : List UInt32 := [s.a, s.b, s.c, s.d, s.e, s.f, s.g, s.h]

def wordText (w : UInt32) : List Char :=
  [28, 24, 20, 16, 12, 8, 4, 0].map fun shift =>
    let n := (w.toNat >>> shift) % 16
    Char.ofNat (if n < 10 then 48 + n else 87 + n)

def hexDigest (message : ByteArray) : String :=
  let padded := pad message
  let s := blocks padded (padded.size / 64) 0 initial
  String.ofList (s.words.flatMap wordText)

end SkillAudit.Sha256
