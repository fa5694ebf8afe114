import Mathlib
import SkillAudit.Proofs.TextLines
import SkillAudit.Text.Utf8

/-!
Text that is read from any bytes. The reader goes byte by byte and knows of a character that has begun
only its first bits, how many bytes are to come and the range of the next one; what it reads is told here
without it: a character for its bytes, and a replacement for a run that begins a character and goes on with
none. A line feed ends every such run, so the lines of the text are those of the bytes.
-/
namespace SkillAudit.Text.Utf8
open String (utf8EncodeChar)

/-! The bytes of a character. -/

theorem toNat_valid (c : Char) : c.toNat < 0xD800 ∨ 0xDFFF < c.toNat ∧ c.toNat < 0x110000 := c.valid

theorem encode_eq (c : Char) : utf8EncodeChar c =
    if c.toNat ≤ 0x7F then [UInt8.ofNat c.toNat]
    else if c.toNat ≤ 0x7FF then
      [UInt8.ofNat (c.toNat / 64 % 32 + 0xC0), UInt8.ofNat (c.toNat % 64 + 0x80)]
    else if c.toNat ≤ 0xFFFF then
      [UInt8.ofNat (c.toNat / 4096 % 16 + 0xE0), UInt8.ofNat (c.toNat / 64 % 64 + 0x80),
        UInt8.ofNat (c.toNat % 64 + 0x80)]
    else
      [UInt8.ofNat (c.toNat / 262144 % 8 + 0xF0), UInt8.ofNat (c.toNat / 4096 % 64 + 0x80),
        UInt8.ofNat (c.toNat / 64 % 64 + 0x80), UInt8.ofNat (c.toNat % 64 + 0x80)] := rfl

def Spans (v size : Nat) : Prop :=
  v ≤ 0x7F ∧ size = 1 ∨ 0x7F < v ∧ v ≤ 0x7FF ∧ size = 2 ∨ 0x7FF < v ∧ v ≤ 0xFFFF ∧ size = 3 ∨
    0xFFFF < v ∧ size = 4

theorem spans_utf8Size (c : Char) : Spans c.toNat c.utf8Size := by
  rw [← String.length_utf8EncodeChar, encode_eq, Spans]
  split_ifs
  · exact .inl ⟨by omega, rfl⟩
  · exact .inr (.inl ⟨by omega, by omega, rfl⟩)
  · exact .inr (.inr (.inl ⟨by omega, by omega, rfl⟩))
  · exact .inr (.inr (.inr ⟨by omega, rfl⟩))

theorem exists_char {v size : Nat} (h : v.isValidChar) (hsize : Spans v size) :
    ∃ c : Char, c.toNat = v ∧ c.utf8Size = size := by
  have hv : (Char.ofNatAux v h).toNat = v := by simp [Char.ofNatAux, Char.toNat]
  refine ⟨Char.ofNatAux v h, hv, ?_⟩
  have hspans := spans_utf8Size (Char.ofNatAux v h)
  rw [hv] at hspans
  unfold Spans at hsize hspans
  omega

theorem byte_eq_iff {b : UInt8} {n : Nat} (hn : n < 256) : b = UInt8.ofNat n ↔ b.toNat = n := by
  rw [← UInt8.toNat_inj, UInt8.toNat_ofNat_of_lt' hn]

/-- The first byte of a character tells how many follow, and holds the highest bits of its number. -/
theorem singleton_prefix_encode_iff {b : UInt8} {c : Char} :
    [b] <+: utf8EncodeChar c ↔
      c.utf8Size = 1 ∧ b.toNat = c.toNat ∨ c.utf8Size = 2 ∧ b.toNat = c.toNat / 64 + 0xC0 ∨
      c.utf8Size = 3 ∧ b.toNat = c.toNat / 4096 + 0xE0 ∨
      c.utf8Size = 4 ∧ b.toNat = c.toNat / 262144 + 0xF0 := by
  have hvalid := toNat_valid c
  rcases spans_utf8Size c with ⟨hv, hsize⟩ | ⟨hlow, hv, hsize⟩ | ⟨hlow, hv, hsize⟩ | ⟨hlow, hsize⟩
  · rw [encode_eq, if_pos hv, List.cons_prefix_cons, byte_eq_iff (by omega)]
    simp [hsize]
  · rw [encode_eq, if_neg (by omega), if_pos hv, List.cons_prefix_cons, byte_eq_iff (by omega),
      Nat.mod_eq_of_lt (show c.toNat / 64 < 32 by omega)]
    simp [hsize]
  · rw [encode_eq, if_neg (by omega), if_neg (by omega), if_pos hv, List.cons_prefix_cons,
      byte_eq_iff (by omega), Nat.mod_eq_of_lt (show c.toNat / 4096 < 16 by omega)]
    simp [hsize]
  · rw [encode_eq, if_neg (by omega), if_neg (by omega), if_neg (by omega), List.cons_prefix_cons,
      byte_eq_iff (by omega), Nat.mod_eq_of_lt (show c.toNat / 262144 < 8 by omega)]
    simp [hsize]

/-- A byte after the first of a character holds six bits of its number. -/
theorem getElem?_encode {c : Char} {i k : Nat} (hi : 0 < i) (h : c.utf8Size = i + (k + 1)) :
    (utf8EncodeChar c)[i]? = some (UInt8.ofNat (c.toNat / 64 ^ k % 64 + 0x80)) := by
  have hspans := spans_utf8Size c
  rw [encode_eq]
  unfold Spans at hspans
  split_ifs
  · omega
  · obtain ⟨rfl, rfl⟩ : i = 1 ∧ k = 0 := by omega
    rw [pow_zero, Nat.div_one]
    rfl
  · obtain ⟨rfl, rfl⟩ | ⟨rfl, rfl⟩ : i = 1 ∧ k = 1 ∨ i = 2 ∧ k = 0 := by omega
    · rfl
    · rw [pow_zero, Nat.div_one]
      rfl
  · obtain ⟨rfl, rfl⟩ | ⟨rfl, rfl⟩ | ⟨rfl, rfl⟩ :
        i = 1 ∧ k = 2 ∨ i = 2 ∧ k = 1 ∨ i = 3 ∧ k = 0 := by omega
    · rfl
    · rfl
    · rw [pow_zero, Nat.div_one]
      rfl

theorem concat_prefix_iff {run l : List UInt8} {b : UInt8} :
    run ++ [b] <+: l ↔ run <+: l ∧ l[run.length]? = some b := by
  constructor
  · rintro ⟨rest, rfl⟩
    exact ⟨⟨b :: rest, by simp⟩, by simp⟩
  · rintro ⟨⟨rest, rfl⟩, hb⟩
    rw [List.getElem?_append_right (le_refl _), Nat.sub_self] at hb
    obtain ⟨rest, rfl⟩ := List.head?_eq_some_iff.mp (List.head?_eq_getElem? ▸ hb)
    exact ⟨rest, by simp⟩

/-! Inside a character. -/

/-- Bytes with which a character begins, and what they tell of it: the leading bits `code` of its number, the
range of the next byte and how many more follow it. -/
structure Awaits (run : List UInt8) (code k : Nat) (low high : UInt8) : Prop where
  begun : run ≠ []
  low_le : 0x80 ≤ low.toNat
  le_high : low.toNat ≤ high.toNat
  high_le : high.toNat ≤ 0xBF
  front : ∀ c : Char, run <+: utf8EncodeChar c ↔
    c.toNat / 64 ^ k / 64 = code ∧ c.utf8Size = run.length + (k + 1)
  fits : ∀ v, code * 64 + low.toNat % 64 ≤ v / 64 ^ k → v / 64 ^ k ≤ code * 64 + high.toNat % 64 →
    ∃ c : Char, c.toNat = v ∧ c.utf8Size = run.length + (k + 1)
  covers : ∀ c : Char, run <+: utf8EncodeChar c →
    low.toNat % 64 ≤ c.toNat / 64 ^ k % 64 ∧ c.toNat / 64 ^ k % 64 ≤ high.toNat % 64

def Begins (run : List UInt8) : Prop := ∃ c, run <+: utf8EncodeChar c

namespace Awaits
variable {run : List UInt8} {code k : Nat} {low high b : UInt8}

theorem concat_iff (h : Awaits run code k low high) (c : Char) :
    run ++ [b] <+: utf8EncodeChar c ↔
      run <+: utf8EncodeChar c ∧ b.toNat = c.toNat / 64 ^ k % 64 + 0x80 := by
  rw [concat_prefix_iff]
  refine and_congr_right fun hrun => ?_
  have hbyte := getElem?_encode (List.length_pos_of_ne_nil h.begun) ((h.front c).mp hrun).2
  have hsmall : c.toNat / 64 ^ k % 64 + 0x80 < 256 := by omega
  rw [hbyte, Option.some_inj, ← UInt8.toNat_inj, UInt8.toNat_ofNat_of_lt' hsmall]
  exact eq_comm

theorem more (h : Awaits run code (k + 1) low high) (hlow : low ≤ b) (hhigh : b ≤ high) :
    Awaits (run ++ [b]) (code * 64 + b.toNat % 64) k 0x80 0xBF := by
  have hdiv : ∀ v, v / 64 ^ (k + 1) = v / 64 ^ k / 64 := by
    intro v
    rw [pow_succ, Nat.div_div_eq_div_mul]
  have hlow : low.toNat ≤ b.toNat := hlow
  have hhigh : b.toNat ≤ high.toNat := hhigh
  obtain ⟨-, hlow', -, hhigh', hfront, hfits, -⟩ := id h
  refine ⟨by simp, by decide, by decide, by decide, ?_, ?_, ?_⟩
  · intro c
    rw [h.concat_iff, hfront, hdiv, List.length_append, List.length_singleton]
    omega
  · intro v hle hge
    have hlow80 : (0x80 : UInt8).toNat % 64 = 0 := rfl
    have hhighBF : (0xBF : UInt8).toNat % 64 = 63 := rfl
    rw [hlow80] at hle
    rw [hhighBF] at hge
    obtain ⟨c, hc, hsize⟩ := hfits v (by rw [hdiv]; omega) (by rw [hdiv]; omega)
    exact ⟨c, hc, by rw [hsize, List.length_append, List.length_singleton]; omega⟩
  · intro c _
    exact ⟨Nat.zero_le _, Nat.le_of_lt_succ (Nat.mod_lt _ (by decide))⟩

theorem last (h : Awaits run code 0 low high) (hlow : low ≤ b) (hhigh : b ≤ high) :
    run ++ [b] = utf8EncodeChar (Char.ofNat (code * 64 + b.toNat % 64)) := by
  have hlow : low.toNat ≤ b.toNat := hlow
  have hhigh : b.toNat ≤ high.toNat := hhigh
  obtain ⟨-, hlow', -, hhigh', hfront, hfits, -⟩ := id h
  obtain ⟨c, hc, hsize⟩ := hfits (code * 64 + b.toNat % 64)
    (by rw [pow_zero, Nat.div_one]; omega) (by rw [pow_zero, Nat.div_one]; omega)
  rw [← hc, Char.ofNat_toNat]
  have hpart : run ++ [b] <+: utf8EncodeChar c := by
    rw [h.concat_iff, hfront, pow_zero, Nat.div_one, hc]
    omega
  exact hpart.eq_of_length (by simp [String.length_utf8EncodeChar, hsize])

theorem rejects (h : Awaits run code k low high) (hb : ¬ (low ≤ b ∧ b ≤ high)) :
    ¬ Begins (run ++ [b]) := by
  rintro ⟨c, hc⟩
  obtain ⟨hrun, hbyte⟩ := (h.concat_iff c).mp hc
  obtain ⟨-, hlow, hlowhigh, hhigh, -, -, hcovers⟩ := id h
  obtain ⟨hle, hge⟩ := hcovers c hrun
  refine hb ⟨UInt8.le_iff_toNat_le.mpr ?_, UInt8.le_iff_toNat_le.mpr ?_⟩
  · omega
  · omega

theorem begins (h : Awaits run code k low high) : ∃ c : Char, run <+: utf8EncodeChar c ∧
    run.length < c.utf8Size := by
  obtain ⟨-, hlow, hle, hhigh, hfront, hfits, -⟩ := id h
  have hdiv : (code * 64 + low.toNat % 64) * 64 ^ k / 64 ^ k = code * 64 + low.toNat % 64 :=
    Nat.mul_div_cancel _ (by positivity)
  obtain ⟨c, hc, hsize⟩ := hfits ((code * 64 + low.toNat % 64) * 64 ^ k) (by rw [hdiv])
    (by rw [hdiv]; omega)
  refine ⟨c, (hfront c).mpr ⟨?_, hsize⟩, by omega⟩
  rw [hc, hdiv]
  omega

end Awaits

theorem char_eq_of_front {c d : Char} {rest : List UInt8}
    (h : utf8EncodeChar c <+: utf8EncodeChar d ++ rest) : c = d := by
  obtain ⟨tail, htail⟩ := h
  have hc := ByteArray.utf8DecodeChar?_utf8EncodeChar_append (b := tail.toByteArray) (c := c)
  have hd := ByteArray.utf8DecodeChar?_utf8EncodeChar_append (b := rest.toByteArray) (c := d)
  rw [← List.toByteArray_append, htail] at hc
  rw [← List.toByteArray_append, hc] at hd
  exact Option.some_inj.mp hd

theorem Awaits.stuck {run : List UInt8} {code k : Nat} {low high : UInt8}
    (h : Awaits run code k low high) (c : Char) : ¬ utf8EncodeChar c <+: run := by
  intro hc
  obtain ⟨d, hd, hlength⟩ := h.begins
  have hcd : c = d := by
    have hpart : utf8EncodeChar c <+: utf8EncodeChar d ++ [] := by simpa using hc.trans hd
    exact char_eq_of_front hpart
  have hle := hc.length_le
  rw [String.length_utf8EncodeChar, hcd] at hle
  omega

/-! Leading bytes. -/

/-- A leading byte that is followed by others, what it holds of the number, and the range of the next
byte. The ranges leave out what a shorter run says, the surrogates and numbers that are too high. -/
def IsLead (b : UInt8) (count : Nat) (low high : UInt8) : Prop :=
  (0xC2 ≤ b.toNat ∧ b.toNat ≤ 0xDF ∧ count = 1 ∧ leadBits b = b.toNat - 0xC0 ∧
    low.toNat = 0x80 ∧ high.toNat = 0xBF) ∨
  (0xE0 ≤ b.toNat ∧ b.toNat ≤ 0xEF ∧ count = 2 ∧ leadBits b = b.toNat - 0xE0 ∧
    (b.toNat = 0xE0 ∧ low.toNat = 0xA0 ∨ b.toNat ≠ 0xE0 ∧ low.toNat = 0x80) ∧
    (b.toNat = 0xED ∧ high.toNat = 0x9F ∨ b.toNat ≠ 0xED ∧ high.toNat = 0xBF)) ∨
  (0xF0 ≤ b.toNat ∧ b.toNat ≤ 0xF4 ∧ count = 3 ∧ leadBits b = b.toNat - 0xF0 ∧
    (b.toNat = 0xF0 ∧ low.toNat = 0x90 ∨ b.toNat ≠ 0xF0 ∧ low.toNat = 0x80) ∧
    (b.toNat = 0xF4 ∧ high.toNat = 0x8F ∨ b.toNat ≠ 0xF4 ∧ high.toNat = 0xBF))

theorem leadBits_eq (b : UInt8) :
    (b.toNat < 0x80 → leadBits b = b.toNat) ∧
    (0xC2 ≤ b.toNat ∧ b.toNat ≤ 0xDF → leadBits b = b.toNat - 0xC0) ∧
    (0xE0 ≤ b.toNat ∧ b.toNat ≤ 0xEF → leadBits b = b.toNat - 0xE0) ∧
    (0xF0 ≤ b.toNat ∧ b.toNat ≤ 0xF4 → leadBits b = b.toNat - 0xF0) := by
  simp only [leadBits, UInt8.lt_iff_toNat_lt, UInt8.reduceToNat]
  split_ifs <;> omega

theorem lead_cases (b : UInt8) :
    lead b = .single ∧ b.toNat < 0x80 ∨
    lead b = .invalid ∧ (0x80 ≤ b.toNat ∧ b.toNat < 0xC2 ∨ 0xF4 < b.toNat) ∨
    ∃ count low high, lead b = .more count low high ∧ IsLead b count low high := by
  obtain ⟨-, htwo, hthree, hfour⟩ := leadBits_eq b
  simp only [lead, UInt8.lt_iff_toNat_lt, beq_iff_eq, ← UInt8.toNat_inj, UInt8.reduceToNat]
  split_ifs with h80 hC2 hE0 hE0' hED hF0 hF0' hF4 hF4'
  · exact .inl ⟨rfl, h80⟩
  · exact .inr (.inl ⟨rfl, .inl ⟨not_lt.mp h80, hC2⟩⟩)
  · have hb : 0xC2 ≤ b.toNat ∧ b.toNat ≤ 0xDF := ⟨not_lt.mp hC2, Nat.le_of_lt_succ hE0⟩
    exact .inr (.inr ⟨1, _, _, rfl, .inl ⟨hb.1, hb.2, rfl, htwo hb, rfl, rfl⟩⟩)
  · have hb : 0xE0 ≤ b.toNat ∧ b.toNat ≤ 0xEF := by rw [hE0']; decide
    exact .inr (.inr ⟨2, _, _, rfl, .inr (.inl ⟨hb.1, hb.2, rfl, hthree hb, .inl ⟨hE0', rfl⟩,
      .inr ⟨by rw [hE0']; decide, rfl⟩⟩)⟩)
  · have hb : 0xE0 ≤ b.toNat ∧ b.toNat ≤ 0xEF := by rw [hED]; decide
    exact .inr (.inr ⟨2, _, _, rfl, .inr (.inl ⟨hb.1, hb.2, rfl, hthree hb, .inr ⟨hE0', rfl⟩,
      .inl ⟨hED, rfl⟩⟩)⟩)
  · have hb : 0xE0 ≤ b.toNat ∧ b.toNat ≤ 0xEF := ⟨not_lt.mp hE0, Nat.le_of_lt_succ hF0⟩
    exact .inr (.inr ⟨2, _, _, rfl, .inr (.inl ⟨hb.1, hb.2, rfl, hthree hb, .inr ⟨hE0', rfl⟩,
      .inr ⟨hED, rfl⟩⟩)⟩)
  · have hb : 0xF0 ≤ b.toNat ∧ b.toNat ≤ 0xF4 := by rw [hF0']; decide
    exact .inr (.inr ⟨3, _, _, rfl, .inr (.inr ⟨hb.1, hb.2, rfl, hfour hb, .inl ⟨hF0', rfl⟩,
      .inr ⟨by rw [hF0']; decide, rfl⟩⟩)⟩)
  · have hb : 0xF0 ≤ b.toNat ∧ b.toNat ≤ 0xF4 := ⟨not_lt.mp hF0, hF4.le⟩
    exact .inr (.inr ⟨3, _, _, rfl, .inr (.inr ⟨hb.1, hb.2, rfl, hfour hb, .inr ⟨hF0', rfl⟩,
      .inr ⟨hF4.ne, rfl⟩⟩)⟩)
  · have hb : 0xF0 ≤ b.toNat ∧ b.toNat ≤ 0xF4 := by rw [hF4']; decide
    exact .inr (.inr ⟨3, _, _, rfl, .inr (.inr ⟨hb.1, hb.2, rfl, hfour hb, .inr ⟨hF0', rfl⟩,
      .inl ⟨hF4', rfl⟩⟩)⟩)
  · exact .inr (.inl ⟨rfl, .inr (lt_of_le_of_ne (not_lt.mp hF4) (Ne.symm hF4'))⟩)

theorem IsLead.awaits {b low high : UInt8} {count : Nat} (h : IsLead b count low high) :
    ∃ k, count = k + 1 ∧ Awaits [b] (leadBits b) k low high := by
  rcases h with ⟨hge, hle, rfl, hbits, hlow, hhigh⟩ | ⟨hge, hle, rfl, hbits, hlow, hhigh⟩ |
    ⟨hge, hle, rfl, hbits, hlow, hhigh⟩
  · refine ⟨0, rfl, by simp, by omega, by omega, by omega, ?_, ?_, ?_⟩
    all_goals simp only [pow_zero, Nat.div_one, List.length_singleton, singleton_prefix_encode_iff]
    · intro c
      have hspans := spans_utf8Size c
      unfold Spans at hspans
      omega
    · intro v hv hv'
      exact exists_char (.inl (by omega)) (.inr (.inl (by omega)))
    · intro c _
      omega
  · have hfront : ∀ c : Char, [b] <+: utf8EncodeChar c ↔
        c.toNat / 64 ^ 1 / 64 = leadBits b ∧ c.utf8Size = 3 := by
      intro c
      have hspans := spans_utf8Size c
      unfold Spans at hspans
      rw [singleton_prefix_encode_iff]
      omega
    refine ⟨1, rfl, by simp, by omega, by omega, by omega, hfront, ?_, ?_⟩
    · intro v hv hv'
      rw [List.length_singleton]
      have hvalid : v < 0xD800 ∨ 0xDFFF < v ∧ v < 0x110000 := by omega
      exact exists_char hvalid (.inr (.inr (.inl (by omega))))
    · intro c hc
      obtain ⟨hcode, hsize⟩ := (hfront c).mp hc
      have hvalid := toNat_valid c
      have hrange : 0x800 ≤ c.toNat ∧ c.toNat < 0x10000 := by
        have hspans := spans_utf8Size c
        unfold Spans at hspans
        omega
      clear hfront hsize
      omega
  · have hfront : ∀ c : Char, [b] <+: utf8EncodeChar c ↔
        c.toNat / 64 ^ 2 / 64 = leadBits b ∧ c.utf8Size = 4 := by
      intro c
      have hspans := spans_utf8Size c
      unfold Spans at hspans
      rw [singleton_prefix_encode_iff]
      omega
    refine ⟨2, rfl, by simp, by omega, by omega, by omega, hfront, ?_, ?_⟩
    · intro v hv hv'
      rw [List.length_singleton]
      have hvalid : v < 0xD800 ∨ 0xDFFF < v ∧ v < 0x110000 := by omega
      exact exists_char hvalid (.inr (.inr (.inr (by omega))))
    · intro c hc
      obtain ⟨hcode, hsize⟩ := (hfront c).mp hc
      have hvalid := toNat_valid c
      have hrange : 0x10000 ≤ c.toNat := by
        have hspans := spans_utf8Size c
        unfold Spans at hspans
        omega
      clear hfront hsize
      omega

/-! What bytes are read as. -/

/-- A run of bytes that stands for no character before `rest`: it begins a character that it does not
complete, and that the next byte does not go on with; or it is one byte with which none begins. -/
structure IsBroken (run rest : List UInt8) : Prop where
  begun : run ≠ []
  short : run.length = 1 ∨ Begins run
  stuck : ∀ c, ¬ utf8EncodeChar c <+: run
  longest : ∀ b ∈ rest.head?, ¬ Begins (run ++ [b])

/-- What a run of bytes is read as before `rest`: a character with these bytes, or the replacement of a
broken run. -/
inductive Stands : List UInt8 → List UInt8 → Char → Prop where
  | char (c : Char) (rest : List UInt8) : Stands (utf8EncodeChar c) rest c
  | broken {run rest : List UInt8} : IsBroken run rest → Stands run rest replacement

/-- Bytes and the text they are read as, run by run. -/
inductive Decodes : List UInt8 → List Char → Prop where
  | nil : Decodes [] []
  | cons {run rest : List UInt8} {c : Char} {cs : List Char} :
    Stands run rest c → Decodes rest cs → Decodes (run ++ rest) (c :: cs)

theorem Awaits.isBroken {run : List UInt8} {code k : Nat} {low high : UInt8}
    (h : Awaits run code k low high) {rest : List UInt8}
    (hnext : ∀ b ∈ rest.head?, ¬ (low ≤ b ∧ b ≤ high)) : IsBroken run rest where
  begun := h.begun
  short := by
    obtain ⟨c, hc, -⟩ := h.begins
    exact .inr ⟨c, hc⟩
  stuck := h.stuck
  longest := fun b hb => h.rejects (hnext b hb)

/-- A byte that is no leading byte begins no character. -/
theorem isBroken_invalid {b : UInt8} (h : 0x80 ≤ b.toNat ∧ b.toNat < 0xC2 ∨ 0xF4 < b.toNat)
    (rest : List UInt8) : IsBroken [b] rest := by
  have hnot : ¬ Begins [b] := by
    rintro ⟨c, hc⟩
    have hspans := spans_utf8Size c
    have hvalid := toNat_valid c
    rw [singleton_prefix_encode_iff] at hc
    unfold Spans at hspans
    omega
  refine ⟨by simp, .inl rfl, ?_, ?_⟩
  · intro c hc
    have hone : utf8EncodeChar c = [b] := by
      refine hc.eq_of_length_le ?_
      rw [String.length_utf8EncodeChar]
      exact c.utf8Size_pos
    exact hnot ⟨c, hone ▸ List.prefix_rfl⟩
  · rintro d - ⟨c, hc⟩
    exact hnot ⟨c, (List.prefix_append _ _).trans hc⟩

theorem encode_single {b : UInt8} (h : b.toNat < 0x80) :
    utf8EncodeChar (Char.ofNat (leadBits b)) = [b] := by
  obtain ⟨c, hc, -⟩ := exists_char (v := b.toNat) (.inl (by omega)) (.inl ⟨by omega, rfl⟩)
  rw [(leadBits_eq b).1 h, ← hc, Char.ofNat_toNat, encode_eq, if_pos (by omega), hc,
    UInt8.ofNat_toNat]

/-! The reader, with what it has read taken off. -/

def reads (bytes : List UInt8) (state : State) : List Char :=
  match run bytes state [] with
  | (.between, done) => done.reverse
  | (.inside .., done) => (replacement :: done).reverse

theorem start_done (b : UInt8) (done : List Char) :
    start b done = ((start b []).1, (start b []).2 ++ done) := by
  unfold start
  cases lead b <;> rfl

theorem step_done (b : UInt8) (state : State) (done : List Char) :
    step b state done = ((step b state []).1, (step b state []).2 ++ done) := by
  cases state with
  | between => exact start_done b done
  | inside code count low high =>
    simp only [step]
    split_ifs
    · rfl
    · rfl
    · rw [start_done b (replacement :: done), start_done b [replacement]]
      simp

theorem run_done (bytes : List UInt8) (state : State) (done : List Char) :
    run bytes state done = ((run bytes state []).1, (run bytes state []).2 ++ done) := by
  induction bytes generalizing state done with
  | nil => rfl
  | cons b bytes ih =>
    simp only [run]
    rw [step_done b state done, ih, ih _ (step b state []).2]
    simp

theorem reads_cons (b : UInt8) (bytes : List UInt8) (state : State) :
    reads (b :: bytes) state = (step b state []).2.reverse ++ reads bytes (step b state []).1 := by
  simp only [reads, run]
  rw [run_done]
  generalize run bytes (step b state []).1 [] = after
  obtain ⟨last, done⟩ := after
  cases last <;> simp

/-- Bytes are read as the decoding says, from within a character as well as from between two. -/
theorem decodes_reads (bytes : List UInt8) :
    Decodes bytes (reads bytes .between) ∧
      ∀ {run code k low high}, Awaits run code k low high →
        Decodes (run ++ bytes) (reads bytes (.inside code (k + 1) low high)) := by
  induction bytes with
  | nil =>
    refine ⟨.nil, fun h => ?_⟩
    exact .cons (.broken (h.isBroken (by simp))) .nil
  | cons b bytes ih =>
    obtain ⟨hbetween, hinside⟩ := ih
    have hstart : Decodes (b :: bytes) (reads (b :: bytes) .between) := by
      rw [reads_cons]
      simp only [step, start]
      rcases lead_cases b with ⟨hlead, hb⟩ | ⟨hlead, hb⟩ | ⟨count, low, high, hlead, hb⟩
      · have hchar := hbetween.cons (.char (Char.ofNat (leadBits b)) _)
        rw [encode_single hb] at hchar
        simpa [hlead] using hchar
      · have hbroken := hbetween.cons (.broken (isBroken_invalid hb bytes))
        simpa [hlead] using hbroken
      · obtain ⟨k, rfl, hawaits⟩ := hb.awaits
        simpa [hlead] using hinside hawaits
    refine ⟨hstart, ?_⟩
    -- Inside a character the byte completes it, goes on with it, or breaks it off and is read anew.
    intro run code k low high h
    by_cases hb : low ≤ b ∧ b ≤ high
    · cases k with
      | zero =>
        have hchar := hbetween.cons (.char (Char.ofNat (code * 64 + b.toNat % 64)) _)
        rw [← h.last hb.1 hb.2, List.append_assoc] at hchar
        rw [reads_cons]
        simpa [step, hb] using hchar
      | succ k =>
        have hmore := hinside (h.more hb.1 hb.2)
        rw [List.append_assoc] at hmore
        rw [reads_cons]
        simpa [step, hb] using hmore
    · have hbroken := hstart.cons (.broken (h.isBroken (by simpa using hb)))
      rw [reads_cons] at hbroken ⊢
      simp only [step, hb, if_false]
      rw [start_done]
      simpa [step] using hbroken

theorem decodes_lossyChars (bytes : List UInt8) : Decodes bytes (lossyChars bytes) :=
  (decodes_reads bytes).1

/-! There is one decoding. -/

theorem IsBroken.maximal {run more rest : List UInt8} (h : IsBroken run (more ++ rest))
    (hbegins : Begins (run ++ more)) : more = [] := by
  cases more with
  | nil => rfl
  | cons b more =>
    obtain ⟨c, hc⟩ := hbegins
    refine absurd ⟨c, List.IsPrefix.trans ?_ hc⟩ (h.longest b (by simp))
    simp

theorem IsBroken.not_char {run rest tail : List UInt8} (h : IsBroken run rest) (c : Char) :
    run ++ rest ≠ utf8EncodeChar c ++ tail := by
  intro heq
  rcases List.append_eq_append_iff.mp heq with ⟨more, hc, rfl⟩ | ⟨more, rfl, -⟩
  · obtain rfl := h.maximal ⟨c, by rw [hc]⟩
    exact h.stuck c (by simp [hc])
  · exact h.stuck c (List.prefix_append _ _)

theorem IsBroken.eq_of_le {run run' rest rest' : List UInt8} (h : IsBroken run rest)
    (h' : IsBroken run' rest') {more : List UInt8} (hrun : run' = run ++ more)
    (hrest : rest = more ++ rest') : more = [] := by
  subst hrun hrest
  rcases h'.short with hone | hbegins
  · have hpos := List.length_pos_of_ne_nil h.begun
    rw [List.length_append] at hone
    exact List.eq_nil_of_length_eq_zero (by omega)
  · exact h.maximal hbegins

theorem Stands.unique {run run' rest rest' : List UInt8} {c c' : Char} (h : Stands run rest c)
    (h' : Stands run' rest' c') (heq : run ++ rest = run' ++ rest') :
    run = run' ∧ rest = rest' ∧ c = c' := by
  cases h with
  | char =>
    cases h' with
    | char =>
      obtain rfl : c = c' := char_eq_of_front (heq ▸ List.prefix_append _ _)
      exact ⟨rfl, List.append_cancel_left heq, rfl⟩
    | broken h' => exact absurd heq.symm (h'.not_char c)
  | broken h =>
    cases h' with
    | char => exact absurd heq (h.not_char c')
    | broken h' =>
      rcases List.append_eq_append_iff.mp heq with ⟨more, hrun, hrest⟩ | ⟨more, hrun, hrest⟩
      · obtain rfl := h.eq_of_le h' hrun hrest
        rw [List.append_nil] at hrun
        exact ⟨hrun.symm, hrest, rfl⟩
      · obtain rfl := h'.eq_of_le h hrun hrest
        rw [List.append_nil] at hrun
        exact ⟨hrun, hrest.symm, rfl⟩

theorem Stands.ne_nil {run rest : List UInt8} {c : Char} (h : Stands run rest c) : run ≠ [] := by
  cases h with
  | char => exact String.utf8EncodeChar_ne_nil
  | broken h => exact h.begun

theorem Decodes.unique {bytes : List UInt8} {cs ds : List Char} (h : Decodes bytes cs)
    (h' : Decodes bytes ds) : cs = ds := by
  induction h generalizing ds with
  | nil =>
    generalize hbytes : ([] : List UInt8) = bytes at h'
    cases h' with
    | nil => rfl
    | cons hc =>
      rw [eq_comm, List.append_eq_nil_iff] at hbytes
      exact absurd hbytes.1 hc.ne_nil
  | @cons run rest c cs hc _ ih =>
    generalize hbytes : run ++ rest = bytes at h'
    cases h' with
    | nil => exact absurd (List.append_eq_nil_iff.mp hbytes).1 hc.ne_nil
    | cons hc' hrest =>
      obtain ⟨rfl, rfl, rfl⟩ := hc.unique hc' hbytes
      rw [ih hrest]

theorem decodes_iff {bytes : List UInt8} {cs : List Char} :
    Decodes bytes cs ↔ lossyChars bytes = cs :=
  ⟨fun h => (decodes_lossyChars bytes).unique h, fun h => h ▸ decodes_lossyChars bytes⟩

theorem decodes_encode (cs : List Char) : Decodes (cs.flatMap utf8EncodeChar) cs := by
  induction cs with
  | nil => exact .nil
  | cons c cs ih => exact ih.cons (.char c _)

/-! Line feeds. -/

theorem feed_not_mem_encode {c : Char} (hc : c ≠ '\n') : 10 ∉ utf8EncodeChar c := by
  have hne : c.toNat ≠ 10 := fun h => hc (Char.toNat_inj.mp h)
  intro hmem
  have hbyte : ∀ n, n < 256 → (10 : UInt8) = UInt8.ofNat n → n = 10 := by
    intro n hn h
    rw [← UInt8.toNat_inj, UInt8.toNat_ofNat_of_lt' hn] at h
    exact h.symm
  rw [encode_eq] at hmem
  split_ifs at hmem
  all_goals
    simp only [List.mem_cons, List.not_mem_nil, or_false] at hmem
  · exact hne (hbyte _ (by omega) hmem)
  · rcases hmem with hmem | hmem
    all_goals
      have := hbyte _ (by omega) hmem
      omega
  · rcases hmem with hmem | hmem | hmem
    all_goals
      have := hbyte _ (by omega) hmem
      omega
  · rcases hmem with hmem | hmem | hmem | hmem
    all_goals
      have := hbyte _ (by omega) hmem
      omega

theorem le_of_begins {run : List UInt8} {b : UInt8} (hrun : run ≠ []) (h : Begins (run ++ [b])) :
    0x80 ≤ b.toNat := by
  obtain ⟨c, hc⟩ := h
  have hb := (concat_prefix_iff.mp hc).2
  have hlength := hc.length_le
  rw [List.length_append, List.length_singleton, String.length_utf8EncodeChar] at hlength
  obtain ⟨k, hk⟩ := Nat.exists_eq_add_of_le hlength
  have hbyte := getElem?_encode (List.length_pos_of_ne_nil hrun) (k := k) (c := c) (by omega)
  rw [hb, Option.some_inj] at hbyte
  have hsmall : c.toNat / 64 ^ k % 64 + 0x80 < 256 := by omega
  rw [hbyte, UInt8.toNat_ofNat_of_lt' hsmall]
  omega

/-- A broken run holds no line feed, which is a character of its own. -/
theorem IsBroken.feed_not_mem {run rest : List UInt8} (h : IsBroken run rest) : 10 ∉ run := by
  intro hmem
  have honly : run = [10] := by
    rcases h.short with hone | ⟨c, hc⟩
    · obtain ⟨b, rfl⟩ := List.length_eq_one_iff.mp hone
      simpa [eq_comm] using hmem
    · have hfeed : c = '\n' := by
        by_contra hne
        exact feed_not_mem_encode hne (hc.subset hmem)
      subst hfeed
      refine hc.eq_of_length_le ?_
      exact List.length_pos_of_ne_nil h.begun
  exact h.stuck '\n' (honly ▸ List.prefix_rfl)

theorem Stands.count_feed {run rest : List UInt8} {c : Char} (h : Stands run rest c) :
    run.count 10 = if c = '\n' then 1 else 0 := by
  cases h with
  | char =>
    by_cases hc : c = '\n'
    · subst hc
      rfl
    · rw [if_neg hc]
      exact List.count_eq_zero.mpr (feed_not_mem_encode hc)
  | broken h => exact List.count_eq_zero.mpr h.feed_not_mem

theorem Decodes.count_feed {bytes : List UInt8} {cs : List Char} (h : Decodes bytes cs) :
    cs.count '\n' = bytes.count 10 := by
  induction h with
  | nil => rfl
  | cons hc _ ih =>
    rw [List.count_append, hc.count_feed, ← ih, List.count_cons]
    simp [Nat.add_comm]

theorem Stands.feed {run rest : List UInt8} {c : Char} (h : Stands run rest c) (more : List UInt8) :
    Stands run (rest ++ 10 :: more) c := by
  cases h with
  | char => exact .char c _
  | broken h =>
    refine .broken { h with longest := ?_ }
    intro b hb hbegins
    cases rest with
    | nil =>
      obtain rfl : 10 = b := by simpa using hb
      have hle := le_of_begins h.begun hbegins
      exact absurd hle (by decide)
    | cons d rest => exact h.longest b (by simpa using hb) hbegins

/-- A line feed ends every run, so what is before and after it is read on its own. -/
theorem Decodes.feed {front back : List UInt8} {cs ds : List Char} (h : Decodes front cs)
    (h' : Decodes back ds) : Decodes (front ++ 10 :: back) (cs ++ '\n' :: ds) := by
  induction h with
  | nil =>
    have hfeed : Decodes (utf8EncodeChar '\n' ++ back) ('\n' :: ds) := .cons (.char '\n' back) h'
    exact hfeed
  | cons hc _ ih =>
    rw [List.append_assoc]
    exact ih.cons (hc.feed back)

theorem Stands.front {run front back : List UInt8} {c : Char} (h : Stands run (front ++ back) c) :
    Stands run front c := by
  cases h with
  | char => exact .char c _
  | broken h =>
    refine .broken { h with longest := fun b hb => h.longest b ?_ }
    cases front with
    | nil => cases hb
    | cons d front => simpa using hb

/-- What is before a place in the text is read from the first bytes, and what is after it from the others. -/
theorem Decodes.cut {bytes : List UInt8} {cs ds : List Char} (h : Decodes bytes (cs ++ ds)) :
    ∃ front back, bytes = front ++ back ∧ Decodes front cs ∧ Decodes back ds := by
  induction cs generalizing bytes with
  | nil => exact ⟨[], bytes, rfl, .nil, h⟩
  | cons c cs ih =>
    cases h with
    | @cons run rest _ _ hc hrest =>
      obtain ⟨front, back, rfl, hfront, hback⟩ := ih hrest
      exact ⟨run ++ front, back, by simp, hfront.cons hc.front, hback⟩

/-- The lines of the text are those of the bytes, each read on its own. -/
theorem splitOn_lossyChars (bytes : List UInt8) :
    (lossyChars bytes).splitOn '\n' = (bytes.splitOn 10).map lossyChars := by
  have hpiece : ∀ piece : List UInt8, 10 ∉ piece →
      (lossyChars piece).splitOn '\n' = [lossyChars piece] ∧ piece.splitOn 10 = [piece] := by
    intro piece hpiece
    have hcount := (decodes_lossyChars piece).count_feed
    rw [List.count_eq_zero.mpr hpiece, List.count_eq_zero] at hcount
    constructor
    · refine List.splitOnP_eq_singleton fun c hc => ?_
      simpa using ne_of_mem_of_not_mem hc hcount
    · refine List.splitOnP_eq_singleton fun b hb => ?_
      simpa using ne_of_mem_of_not_mem hb hpiece
  induction bytes using separated_induction (10 : UInt8) with
  | last l h => rw [(hpiece l h).1, (hpiece l h).2, List.map_singleton]
  | cut l rest h ih =>
    have htext := decodes_iff.mp ((decodes_lossyChars l).feed (decodes_lossyChars rest))
    have hchars := List.splitOnP_append_cons (p := (· == '\n')) (lossyChars l) (lossyChars rest)
      (beq_self_eq_true '\n')
    have hbytes := List.splitOnP_append_cons (p := (· == (10 : UInt8))) l rest (beq_self_eq_true 10)
    rw [htext]
    simp only [List.splitOn] at *
    rw [hchars, hbytes, ih, List.map_append, (hpiece l h).1, (hpiece l h).2, List.map_singleton]

end SkillAudit.Text.Utf8
