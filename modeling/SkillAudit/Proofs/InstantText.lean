import Mathlib
import SkillAudit.Ledger.Entry
import SkillAudit.Proofs.Digits

/-! The text of an instant names that instant. -/
namespace SkillAudit.Instant

theorem isDigit_iff (c : Char) : c.isDigit = true ↔ 48 ≤ c.toNat ∧ c.toNat ≤ 57 := by
  simp [Char.isDigit, UInt32.le_iff_toNat_le]

theorem not_isBlank_of_isDigit {c : Char} (h : c.isDigit = true) : Text.isBlank c = false := by
  have hc := (isDigit_iff c).mp h
  simp only [Text.isBlank, Bool.or_eq_false_iff, Bool.and_eq_false_iff, beq_eq_false_iff_ne,
    decide_eq_false_iff_not]
  omega

theorem toList_padded (width n : Nat) :
    (padded width n).toList =
      List.replicate (width - (Nat.toDigits 10 n).length) '0' ++ Nat.toDigits 10 n := by
  simp [padded]

theorem isDigit_of_mem_padded {k n : Nat} {c : Char} (hc : c ∈ (padded k n).toList) :
    c.isDigit = true := by
  rw [toList_padded] at hc
  rcases List.mem_append.mp hc with hc | hc
  · rw [List.eq_of_mem_replicate hc]
    rfl
  · exact Digits.isDigit_of_mem hc

theorem value_padded (width n : Nat) : Nat.ofDigitChars 10 (padded width n).toList 0 = n := by
  rw [toList_padded, Nat.ofDigitChars_append, Nat.ofDigitChars_replicate_zero, Nat.mul_zero,
    Nat.ofDigitChars_ten_toDigits]

theorem padded_ne_nil (width n : Nat) : (padded width n).toList ≠ [] := by
  rw [toList_padded]
  simp [Nat.toDigits_ne_nil]

theorem length_padded {k n : Nat} (hw : 0 < k) (h : n < 10 ^ k) :
    (padded k n).toList.length = k := by
  have hlen := (Nat.length_toDigits_le_iff (b := 10) (by decide) hw).mpr h
  rw [toList_padded, List.length_append, List.length_replicate]
  omega

/-- What follows a number without being read as a part of it. -/
def Ends (rest : List Char) : Prop := ∀ c ∈ rest.head?, c.isDigit = false

/-- A run of digits is read whole, if it is as long as may be or something else follows it. -/
theorem number?_append {most : Nat} {ds rest : List Char} (hd : ∀ c ∈ ds, c.isDigit = true)
    (hne : ds ≠ []) (hlen : ds.length ≤ most) (hend : ds.length = most ∨ Ends rest) :
    number? most (ds ++ rest) = some (Nat.ofDigitChars 10 ds 0, rest) := by
  have htake : ((ds ++ rest).take most).takeWhile Char.isDigit = ds := by
    rw [List.take_append, List.take_of_length_le hlen]
    apply Digits.takeWhile_append hd
    rcases hend with hlen | hend
    · simp [hlen]
    · intro c hc
      rw [List.head?_take] at hc
      split at hc
      · simp at hc
      · exact hend c hc
  simp [number?, htake, hne, Digits.foldl_eq_ofDigitChars]

theorem skipBlank_cons {c : Char} (h : Text.isBlank c = false) (cs : List Char) :
    skipBlank (c :: cs) = c :: cs := by
  simp [skipBlank, h]

theorem skipBlank_padded (width n : Nat) (rest : List Char) :
    skipBlank ((padded width n).toList ++ rest) = (padded width n).toList ++ rest := by
  cases hp : (padded width n).toList with
  | nil => exact absurd hp (padded_ne_nil width n)
  | cons c cs =>
    have hc : c.isDigit = true := isDigit_of_mem_padded (k := width) (n := n) (by simp [hp])
    rw [List.cons_append, skipBlank_cons (not_isBlank_of_isDigit hc)]

theorem part?_padded {n : Nat} (h : n < 100) (rest : List Char) :
    part? ((padded 2 n).toList ++ rest) = some (n, rest) := by
  have hlen := length_padded (k := 2) (n := n) (by decide) h
  rw [part?, skipBlank_padded, number?_append (fun c hc => isDigit_of_mem_padded hc)
    (padded_ne_nil 2 n) (Nat.le_of_eq hlen) (.inl hlen), value_padded]

theorem after?_cons {c : Char} (h : Text.isBlank c = false) (rest : List Char) :
    after? c (c :: rest) = some rest := by
  simp [after?, skipBlank_cons h]

/-- A year is read up to the hyphen after it, with or without a sign. -/
theorem year?_yearText (year : Int) (rest : List Char) :
    year? ((yearText year).toList ++ '-' :: rest) = some (year, '-' :: rest) := by
  have hends : Ends ('-' :: rest) := by
    intro c hc
    obtain rfl : '-' = c := by simpa using hc
    rfl
  have hsigned : number? ((padded 4 year.natAbs).toList ++ '-' :: rest).length
      ((padded 4 year.natAbs).toList ++ '-' :: rest) = some (year.natAbs, '-' :: rest) := by
    rw [number?_append (fun c hc => isDigit_of_mem_padded hc) (padded_ne_nil _ _) (by simp)
      (.inr hends), value_padded]
  unfold yearText
  split
  next h =>
    simp only [Bool.and_eq_true, decide_eq_true_eq] at h
    have hlen := length_padded (k := 4) (n := year.toNat) (by decide) (by omega)
    have hfour : number? 4 ((padded 4 year.toNat).toList ++ '-' :: rest) =
        some (year.toNat, '-' :: rest) := by
      rw [number?_append (fun c hc => isDigit_of_mem_padded hc) (padded_ne_nil _ _) (Nat.le_of_eq hlen)
        (.inl hlen), value_padded]
    rw [year?, skipBlank_padded]
    cases hp : (padded 4 year.toNat).toList with
    | nil => exact absurd hp (padded_ne_nil _ _)
    | cons c cs =>
      have hc : c.isDigit = true :=
        isDigit_of_mem_padded (k := 4) (n := year.toNat) (by simp [hp])
      rw [hp] at hfour
      have hyear : ((year.toNat : Nat) : Int) = year := by omega
      split
      next heq => simp_all
      next heq => simp_all
      next => simp only [hfour, Option.map_some, hyear]
  next h =>
    simp only [Bool.and_eq_true, decide_eq_true_eq] at h
    split
    next hneg =>
      have hyear : -((year.natAbs : Nat) : Int) = year := by omega
      simp only [String.toList_append, String.reduceToList, List.cons_append, List.nil_append,
        year?, skipBlank_cons (c := '-') rfl, hsigned, Option.map_some, hyear]
    next hneg =>
      have hyear : ((year.natAbs : Nat) : Int) = year := by omega
      simp only [String.toList_append, String.reduceToList, List.cons_append, List.nil_append,
        year?, skipBlank_cons (c := '+') rfl, hsigned, Option.map_some, hyear]

theorem nano?_padded {k n : Nat} (hw : 0 < k) (hw9 : k ≤ 9) (h : n < 10 ^ k)
    {rest : List Char} (hrest : Ends rest) :
    nano? ('.' :: ((padded k n).toList ++ rest)) = some (n * 10 ^ (9 - k), rest) := by
  have hd : ∀ c ∈ (padded k n).toList, c.isDigit = true := fun c hc => isDigit_of_mem_padded hc
  have hlen := length_padded hw h
  have htake : ((padded k n).toList ++ List.replicate 9 '0').take 9 =
      (padded k n).toList ++ List.replicate (9 - k) '0' := by
    rw [List.take_append, List.take_of_length_le (by omega), List.take_replicate, hlen]
    congr 2
    omega
  simp only [nano?, Digits.takeWhile_append hd hrest, Digits.dropWhile_append hd hrest, htake,
    Digits.foldl_eq_ofDigitChars, Nat.ofDigitChars_append, value_padded,
    Nat.ofDigitChars_replicate_zero, List.isEmpty_iff, padded_ne_nil, if_false]
  rw [Nat.mul_comm]

theorem nano?_fractionText {nano : Nat} (h : nano < 1000000000) (rest : List Char) :
    nano? ((fractionText nano).toList ++ 'Z' :: rest) = some (nano, 'Z' :: rest) := by
  have hends : Ends ('Z' :: rest) := by
    intro c hc
    obtain rfl : 'Z' = c := by simpa using hc
    rfl
  unfold fractionText
  split
  next hz => simp_all [nano?]
  split
  next hmilli =>
    rw [beq_iff_eq] at hmilli
    have hn := nano?_padded (k := 3) (n := nano / 1000000) (by decide) (by decide) (by omega)
      hends
    have hval : nano / 1000000 * 10 ^ (9 - 3) = nano := by omega
    rw [hval] at hn
    simpa using hn
  split
  next hmicro =>
    rw [beq_iff_eq] at hmicro
    have hn := nano?_padded (k := 6) (n := nano / 1000) (by decide) (by decide) (by omega) hends
    have hval : nano / 1000 * 10 ^ (9 - 6) = nano := by omega
    rw [hval] at hn
    simpa using hn
  next =>
    have hn := nano?_padded (k := 9) (n := nano) (by decide) (by decide) h hends
    simpa using hn

/-- Every instant is read back from its text, leap seconds and years beyond 9999 included. -/
theorem parse?_text (t : Instant) : parse? t.text = some t := by
  have hv := t.valid
  simp only [Civil.isValid, Bool.and_eq_true, decide_eq_true_eq] at hv
  obtain ⟨⟨⟨⟨⟨⟨⟨⟨-, -⟩, hmonth⟩, -⟩, hday⟩, hhour⟩, hminute⟩, hsecond⟩, hnano⟩ := hv
  have hday' : t.day < 100 := by
    have : Civil.daysIn t.year t.month ≤ 31 := by
      unfold Civil.daysIn
      repeat' split
      all_goals decide
    omega
  have htext : t.text.toList = (yearText t.year).toList ++ '-' :: ((padded 2 t.month).toList ++
      '-' :: ((padded 2 t.day).toList ++ 'T' :: ((padded 2 t.hour).toList ++ ':' ::
      ((padded 2 t.minute).toList ++ ':' :: ((padded 2 t.second).toList ++
      ((fractionText t.nano).toList ++ ['Z'])))))) := by
    simp [text, date]
  have hoffset : offset? (skipBlank ['Z']) = some (0, []) := by rfl
  rw [parse?, htext]
  refine Option.bind_eq_some_iff.mpr ⟨_, year?_yearText _ _, ?_⟩
  refine Option.bind_eq_some_iff.mpr ⟨_, after?_cons rfl _, ?_⟩
  refine Option.bind_eq_some_iff.mpr ⟨_, part?_padded (by omega) _, ?_⟩
  refine Option.bind_eq_some_iff.mpr ⟨_, after?_cons rfl _, ?_⟩
  refine Option.bind_eq_some_iff.mpr ⟨_, part?_padded hday' _, ?_⟩
  refine Option.bind_eq_some_iff.mpr ⟨_, rfl, ?_⟩
  refine Option.bind_eq_some_iff.mpr ⟨_, part?_padded (by omega) _, ?_⟩
  refine Option.bind_eq_some_iff.mpr ⟨_, after?_cons rfl _, ?_⟩
  refine Option.bind_eq_some_iff.mpr ⟨_, part?_padded (by omega) _, ?_⟩
  refine Option.bind_eq_some_iff.mpr ⟨_, after?_cons rfl _, ?_⟩
  refine Option.bind_eq_some_iff.mpr ⟨_, part?_padded (by omega) _, ?_⟩
  refine Option.bind_eq_some_iff.mpr ⟨_, nano?_fractionText hnano _, ?_⟩
  refine Option.bind_eq_some_iff.mpr ⟨_, hoffset, ?_⟩
  simp [skipBlank, t.valid, Civil.earlierBy, ofCivil?]

end SkillAudit.Instant
