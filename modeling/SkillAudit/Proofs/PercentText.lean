import Mathlib
import SkillAudit.Proofs.ScanComposition
import SkillAudit.Url.Basic

/-!
Percent-encoding of one segment. What has been encoded is decoded to the bytes it stands for, as long
as the percent sign is encoded too; so a segment reads as a dot or two dots only if it is that.
-/
namespace SkillAudit.Url

theorem hexDigit?_upperHex {n : Nat} (h : n < 16) : hexDigit? (upperHex n) = some n := by
  revert n
  decide

theorem decodeBytes_encodeByte (b : UInt8) (rest : List Char) (bytes : ByteArray) :
    decodeBytes (encodeByte b ++ rest) bytes = decodeBytes rest (bytes.push b) := by
  have hlt : b.toNat < 256 := b.toNat_lt
  have hvalue : UInt8.ofNat (16 * (b.toNat / 16) + b.toNat % 16) = b := by
    rw [Nat.div_add_mod, UInt8.ofNat_toNat]
  rw [encodeByte, List.cons_append, List.cons_append, List.cons_append, List.nil_append, decodeBytes,
    hexDigit?_upperHex (by omega), hexDigit?_upperHex (by omega)]
  simp only [hvalue]

theorem push_append (bytes : ByteArray) (b : UInt8) (bs : List UInt8) :
    bytes.push b ++ ⟨⟨bs⟩⟩ = bytes ++ ⟨⟨b :: bs⟩⟩ := by
  apply ByteArray.ext
  apply Array.ext'
  simp

theorem decodeBytes_encodeBytes (bs : List UInt8) (rest : List Char) (bytes : ByteArray) :
    decodeBytes (bs.flatMap encodeByte ++ rest) bytes = decodeBytes rest (bytes ++ ⟨⟨bs⟩⟩) := by
  induction bs generalizing bytes with
  | nil =>
    have hnil : bytes ++ ⟨⟨[]⟩⟩ = bytes := ByteArray.append_empty
    rw [List.flatMap_nil, List.nil_append, hnil]
  | cons b bs ih =>
    rw [List.flatMap_cons, List.append_assoc, decodeBytes_encodeByte, ih, push_append]

/-- A character other than the percent sign stands for itself. -/
theorem decodeBytes_cons {c : Char} (hc : c ≠ '%') (rest : List Char) (bytes : ByteArray) :
    decodeBytes (c :: rest) bytes = decodeBytes rest (bytes ++ (String.singleton c).toUTF8) := by
  rw [decodeBytes]
  simp [hc]

/-- The characters of what has been encoded: those that are left as they are, and those of bytes. -/
theorem not_mem_encode {inSet : Char → Bool} {cs : List Char} {c : Char} (hset : inSet c = true)
    (hbyte : ∀ b, c ∉ encodeByte b) : c ∉ encode inSet cs := by
  intro hc
  obtain ⟨d, -, hd⟩ := List.mem_flatMap.mp hc
  unfold encodeChar at hd
  split at hd
  next =>
    obtain ⟨b, -, hb⟩ := List.mem_flatMap.mp hd
    exact hbyte b hb
  next hraw =>
    rw [List.mem_singleton.mp hd] at hset
    simp [hset] at hraw

theorem encode_eq_self {inSet : Char → Bool} {cs : List Char}
    (h : ∀ c ∈ cs, inSet c = false ∧ c.toNat < 0x80) : encode inSet cs = cs := by
  induction cs with
  | nil => rfl
  | cons c cs ih =>
    rw [List.forall_mem_cons] at h
    have hraw : encodeChar inSet c = [c] := by simp [encodeChar, h.1.1, h.1.2]
    rw [encode, List.flatMap_cons, hraw, List.singleton_append]
    exact congrArg (c :: ·) (ih h.2)

section Encode
variable {inSet : Char → Bool} (hpercent : inSet '%' = true)
include hpercent

theorem decodeBytes_encodeChar (c : Char) (rest : List Char) (bytes : ByteArray) :
    decodeBytes (encodeChar inSet c ++ rest) bytes =
      decodeBytes rest (bytes ++ (String.singleton c).toUTF8) := by
  unfold encodeChar
  split
  next => rw [decodeBytes_encodeBytes, toList_eq_data]
  next hraw =>
    have hc : c ≠ '%' := by
      rintro rfl
      simp [hpercent] at hraw
    rw [List.singleton_append, decodeBytes_cons hc]

theorem decodeBytes_encode (cs : List Char) (bytes : ByteArray) :
    decodeBytes (encode inSet cs) bytes = bytes ++ (String.ofList cs).toUTF8 := by
  induction cs generalizing bytes with
  | nil =>
    rw [encode, List.flatMap_nil, decodeBytes]
    simp
  | cons c cs ih =>
    have hbytes : (String.ofList (c :: cs)).toUTF8 =
        (String.singleton c).toUTF8 ++ (String.ofList cs).toUTF8 := by
      simp only [String.toUTF8_eq_toByteArray, String.toByteArray_ofList, String.toByteArray_singleton]
      exact List.utf8Encode_cons
    rw [encode, List.flatMap_cons, decodeBytes_encodeChar hpercent]
    change decodeBytes (encode inSet cs) _ = _
    rw [ih, hbytes, ByteArray.append_assoc]

end Encode

/-! Segments that mean a dot or two. -/

theorem eq_of_toLower {c d : Char} (hd : d.isAlpha = false) (h : c.toLower = d) : c = d := by
  have hc : c.isAlpha = false := by rw [← Char.isAlpha_toLower_eq_isAlpha, h, hd]
  have hupper : ¬ c.isUpper := fun hupper => by simp [Char.isAlpha, hupper] at hc
  rw [← h, Char.toLower_eq_of_not_isUpper hupper]

theorem hexDigit?_of_toLower {c : Char} (h : c.toLower = 'e') : hexDigit? c = some 14 := by
  by_cases hupper : c.isUpper = true
  · have hc : c.toUpper = c := Char.toUpper_eq_of_not_isLower (Char.not_isLower_of_isUpper hupper)
    rw [← hc, ← Char.toUpper_toLower_eq_toUpper, h]
    decide
  · rw [Char.toLower_eq_of_not_isUpper hupper] at h
    rw [h]
    decide

/-- The two spellings of a dot, in small letters. -/
def dots : List (List Char) := [['.'], ['%', '2', 'e']]

theorem decodeBytes_dot {s : List Char} (h : s.map Char.toLower ∈ dots) (rest : List Char)
    (bytes : ByteArray) : decodeBytes (s ++ rest) bytes = decodeBytes rest (bytes ++ ".".toUTF8) := by
  simp only [dots, List.mem_cons, List.not_mem_nil, or_false] at h
  rcases h with h | h
  · obtain ⟨c, rfl, hc⟩ := List.map_eq_singleton_iff.mp h
    obtain rfl := eq_of_toLower (by decide) hc
    exact decodeBytes_cons (by decide) rest bytes
  · obtain ⟨a, s, rfl, ha, hs⟩ := List.map_eq_cons_iff.mp h
    obtain ⟨b, t, rfl, hb, ht⟩ := List.map_eq_cons_iff.mp hs
    obtain ⟨c, rfl, hc⟩ := List.map_eq_singleton_iff.mp ht
    obtain rfl := eq_of_toLower (by decide) ha
    obtain rfl := eq_of_toLower (by decide) hb
    have htwo : hexDigit? '2' = some 2 := by decide
    have hpush : bytes.push 0x2E = bytes ++ ".".toUTF8 := by
      have hbytes : ".".toUTF8 = ⟨⟨[0x2E]⟩⟩ := by decide
      rw [hbytes, ← push_append]
      exact ByteArray.append_empty.symm
    rw [List.cons_append, List.cons_append, List.cons_append, List.nil_append, decodeBytes, htwo,
      hexDigit?_of_toLower hc, ← hpush]
    rfl

theorem decodeBytes_of_isDot {s : List Char} (h : isDot s = true) :
    decodeBytes s .empty = ".".toUTF8 := by
  have hs : s.map Char.toLower ∈ dots := by simpa [isDot, dots, ← String.toList_inj] using h
  have hdecoded := decodeBytes_dot hs [] .empty
  rwa [List.append_nil, decodeBytes, ByteArray.empty_append] at hdecoded

theorem decodeBytes_of_isDoubleDot {s : List Char} (h : isDoubleDot s = true) :
    decodeBytes s .empty = "..".toUTF8 := by
  have hs : ∃ a ∈ dots, ∃ b ∈ dots, s.map Char.toLower = a ++ b := by
    simpa [isDoubleDot, dots, ← String.toList_inj, or_assoc] using h
  obtain ⟨_, ha, _, hb, hs⟩ := hs
  obtain ⟨a, b, rfl, rfl, rfl⟩ := List.map_eq_append_iff.mp hs
  have hsecond := decodeBytes_dot hb [] (.empty ++ ".".toUTF8)
  rw [List.append_nil, decodeBytes] at hsecond
  rw [decodeBytes_dot ha, hsecond]
  rfl

section Segment
variable {inSet : Char → Bool} (hpercent : inSet '%' = true)
include hpercent

theorem eq_of_decodeBytes_encode {cs : List Char} {text : String}
    (h : decodeBytes (encode inSet cs) .empty = text.toUTF8) : cs = text.toList := by
  rw [decodeBytes_encode hpercent, ByteArray.empty_append] at h
  rw [← String.toByteArray_inj.mp h, String.toList_ofList]

theorem isDot_encode (hdot : inSet '.' = false) (cs : List Char) :
    isDot (encode inSet cs) = true ↔ cs = ['.'] := by
  constructor
  · exact fun h => eq_of_decodeBytes_encode hpercent (decodeBytes_of_isDot h)
  · rintro rfl
    rw [encode_eq_self (by simp [hdot])]
    decide

theorem isDoubleDot_encode (hdot : inSet '.' = false) (cs : List Char) :
    isDoubleDot (encode inSet cs) = true ↔ cs = ['.', '.'] := by
  constructor
  · exact fun h => eq_of_decodeBytes_encode hpercent (decodeBytes_of_isDoubleDot h)
  · rintro rfl
    rw [encode_eq_self (by simp [hdot])]
    decide

end Segment

end SkillAudit.Url
