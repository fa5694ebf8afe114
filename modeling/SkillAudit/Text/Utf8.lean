/-! Decoding bytes as UTF-8 text, with a replacement for what is not UTF-8. -/
namespace SkillAudit.Text.Utf8

/-- Stands for every maximal run of bytes that starts a character and cannot be completed. -/
def replacement : Char := '�'

/-- How a leading byte goes on: no further byte, or the number of further bytes and the range of
the second one. -/
inductive Lead where
  | single
  | more (count : Nat) (low high : UInt8)
  | invalid
  deriving DecidableEq, Repr

def lead (b : UInt8) : Lead :=
  if b < 0x80 then .single
  else if b < 0xC2 then .invalid
  else if b < 0xE0 then .more 1 0x80 0xBF
  else if b == 0xE0 then .more 2 0xA0 0xBF
  else if b == 0xED then .more 2 0x80 0x9F
  else if b < 0xF0 then .more 2 0x80 0xBF
  else if b == 0xF0 then .more 3 0x90 0xBF
  else if b < 0xF4 then .more 3 0x80 0xBF
  else if b == 0xF4 then .more 3 0x80 0x8F
  else .invalid

def leadBits (b : UInt8) : Nat :=
  if b < 0x80 then b.toNat
  else if b < 0xE0 then b.toNat % 0x20
  else if b < 0xF0 then b.toNat % 0x10
  else b.toNat % 0x08

/-- Where the decoder stands: between characters, or inside one with `count` bytes to come, the
next of them from `low` to `high`. -/
inductive State where
  | between
  | inside (code count : Nat) (low high : UInt8)
  deriving DecidableEq, Repr

/-- Starts a character with byte `b`. The characters read so far are kept backwards. -/
def start (b : UInt8) (done : List Char) : State × List Char :=
  match lead b with
  | .single => (.between, Char.ofNat (leadBits b) :: done)
  | .more count low high => (.inside (leadBits b) count low high, done)
  | .invalid => (.between, replacement :: done)

def step (b : UInt8) : State → List Char → State × List Char
  | .between, done => start b done
  | .inside code count low high, done =>
    if low ≤ b ∧ b ≤ high then
      let code := code * 64 + b.toNat % 64
      if count ≤ 1 then (.between, Char.ofNat code :: done)
      else (.inside code (count - 1) 0x80 0xBF, done)
    else start b (replacement :: done)

def run : List UInt8 → State → List Char → State × List Char
  | [], state, done => (state, done)
  | b :: rest, state, done =>
    let (state, done) := step b state done
    run rest state done

/-- The characters of a byte list, `replacement` standing for what is not UTF-8. -/
def lossyChars (bytes : List UInt8) : List Char :=
  match run bytes .between [] with
  | (.between, done) => done.reverse
  | (.inside .., done) => (replacement :: done).reverse

def lossy (bytes : ByteArray) : String := String.ofList (lossyChars bytes.toList)

def strict? (bytes : ByteArray) : Option String := String.fromUTF8? bytes

end SkillAudit.Text.Utf8
