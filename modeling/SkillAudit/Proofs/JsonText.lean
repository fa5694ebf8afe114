import Mathlib
import SkillAudit.Json.Printer
import SkillAudit.Proofs.Digits
import SkillAudit.Store

/-!
Reading a JSON document that was written gives the document back. The values that are written
exactly are those without reals, with integers in range and with a text for every string.
-/
namespace SkillAudit.Json

inductive Plain : Json → Prop
  | null : Plain .null
  | bool (b : Bool) : Plain (.bool b)
  | int {negative : Bool} {magnitude : Nat} (h : Number.isExact negative magnitude = true) :
      Plain (.num (.int negative magnitude))
  | str (s : String) : Plain (.str (some s))
  | arr {items : List Json} (h : ∀ j ∈ items, Plain j) : Plain (.arr items)
  | obj {members : List (Option String × Json)} (hk : ∀ m ∈ members, m.1.isSome = true)
      (h : ∀ m ∈ members, Plain m.2) : Plain (.obj members)

namespace Reader

/-- What may follow a number without being read as a part of it. -/
def Stops (rest : List Char) : Prop :=
  ∀ c ∈ rest.head?, c.isDigit = false ∧ c ≠ '.' ∧ c ≠ 'e' ∧ c ≠ 'E'

theorem stops_comma (rest : List Char) : Stops (',' :: rest) := by
  intro c hc
  obtain rfl : ',' = c := by simpa using hc
  decide

theorem stops_newline (rest : List Char) : Stops ('\n' :: rest) := by
  intro c hc
  obtain rfl : '\n' = c := by simpa using hc
  decide

theorem fraction?_of_stops {rest : List Char} (h : Stops rest) :
    fraction? rest = some (none, rest) := by
  unfold fraction?
  split
  · exact absurd rfl (h '.' rfl).2.1
  · rfl

theorem exponent?_of_stops {rest : List Char} (h : Stops rest) :
    exponent? rest = some (none, rest) := by
  cases rest with
  | nil => rfl
  | cons c rest =>
    obtain ⟨-, -, he, hE⟩ := h c rfl
    simp [exponent?, he, hE]

theorem numberTail_toDigits (negative : Bool) (n : Nat) {rest : List Char} (h : Stops rest) :
    numberTail negative (Nat.toDigits 10 n ++ rest) = some (.int negative n, rest) := by
  have hd : ∀ c ∈ Nat.toDigits 10 n, isDigit c = true := by
    intro c hc
    rw [Digits.isDigit_eq]
    exact Digits.isDigit_of_mem hc
  have hr : ∀ c ∈ rest.head?, isDigit c = false := by
    intro c hc
    rw [Digits.isDigit_eq]
    exact (h c hc).1
  have hne : (Nat.toDigits 10 n).isEmpty = false := by
    simp [List.isEmpty_eq_false_iff, Nat.toDigits_ne_nil]
  have hzero : (decide ((Nat.toDigits 10 n).length > 1) &&
      (Nat.toDigits 10 n).head? == some '0') = false := by
    rcases Nat.eq_zero_or_pos n with rfl | hpos
    · simp [Nat.toDigits_zero]
    · simp [Digits.head_toDigits hpos]
  simp [numberTail, Digits.takeWhile_append hd hr, Digits.dropWhile_append hd hr, hne, hzero,
    fraction?_of_stops h, exponent?_of_stops h, Digits.digitsValue_toDigits]

/-! Strings. -/

private theorem hexDigit?_hexChar : ∀ n < 16, hexDigit? (hexChar n) = some n := by decide

theorem escape_cases (c : Char) :
    (∃ e, escape c = ['\\', e] ∧ simpleEscape? e = some c ∧ e ≠ 'u') ∨
    (escape c = ['\\', 'u', '0', '0', hexChar (c.toNat / 16), hexChar (c.toNat % 16)] ∧
      c.toNat < 0x20) ∨
    (escape c = [c] ∧ c ≠ '"' ∧ c ≠ '\\' ∧ 0x20 ≤ c.toNat) := by
  by_cases hshort : c ∈ ['"', '\\', '\x08', '\x0c', '\n', '\r', '\t']
  · left
    simp only [List.mem_cons, List.not_mem_nil, or_false] at hshort
    rcases hshort with rfl | rfl | rfl | rfl | rfl | rfl | rfl <;>
      exact ⟨_, rfl, rfl, by decide⟩
  · simp only [List.mem_cons, List.not_mem_nil, or_false, not_or] at hshort
    obtain ⟨h1, h2, h3, h4, h5, h6, h7⟩ := hshort
    by_cases hlow : c.toNat < 0x20
    · exact .inr (.inl ⟨by simp [escape, h1, h2, h3, h4, h5, h6, h7, hlow], hlow⟩)
    · exact .inr (.inr ⟨by simp [escape, h1, h2, h3, h4, h5, h6, h7, hlow], h1, h2, by omega⟩)

theorem stringTail_escape (fuel : Nat) (c : Char) (rest done : List Char) :
    stringTail (fuel + 1) (escape c ++ rest) (some done) =
      stringTail fuel rest (some (c :: done)) := by
  rcases escape_cases c with ⟨e, he, hc, hu⟩ | ⟨he, hlow⟩ | ⟨he, hquote, hslash, hlow⟩
  · simp [he, stringTail, hc]
  · have hhi := hexDigit?_hexChar (c.toNat / 16) (by omega)
    have hlo := hexDigit?_hexChar (c.toNat % 16) (by omega)
    have hcode : c.toNat / 16 * 16 + c.toNat % 16 = c.toNat := by omega
    have hzero : hexDigit? '0' = some 0 := by decide
    have hpair : ¬ (55296 ≤ c.toNat) := by omega
    have hlone : ¬ (56320 ≤ c.toNat) := by omega
    simp [he, stringTail, hex4?, hhi, hlo, hzero, hcode, hpair, hlone]
  · have hplain : ¬ (c.toNat < 32) := by omega
    simp [he, stringTail, hslash, hplain]

theorem stringTail_flatMap_escape (s : List Char) (rest done : List Char) {fuel : Nat}
    (h : s.length < fuel) :
    stringTail fuel (s.flatMap escape ++ '"' :: rest) (some done) =
      some (some (String.ofList (done.reverse ++ s)), rest) := by
  induction s generalizing done fuel with
  | nil =>
    obtain ⟨fuel, rfl⟩ : ∃ n, fuel = n + 1 := ⟨fuel - 1, by simp at h; omega⟩
    simp [stringTail]
  | cons c s ih =>
    obtain ⟨fuel, rfl⟩ : ∃ n, fuel = n + 1 := ⟨fuel - 1, by simp at h; omega⟩
    rw [List.flatMap_cons, List.append_assoc, stringTail_escape, ih _ (by simpa using h)]
    simp

theorem length_le_flatMap_escape (s : List Char) : s.length ≤ (s.flatMap escape).length := by
  induction s with
  | nil => simp
  | cons c s ih =>
    have hc : 1 ≤ (escape c).length := by
      unfold escape
      repeat' split
      all_goals simp
    simp only [List.flatMap_cons, List.length_append, List.length_cons]
    omega

theorem toList_quoted (s : String) :
    (quoted s).toList = '"' :: (s.toList.flatMap escape ++ ['"']) := by
  simp [quoted]

/-- After its opening quote a quoted string is read as the string. -/
theorem stringTail_quoted (s : String) (rest : List Char) {fuel : Nat}
    (h : (quoted s).toList.length ≤ fuel + 1) :
    stringTail fuel (s.toList.flatMap escape ++ '"' :: rest) (some []) = some (some s, rest) := by
  have hlen := length_le_flatMap_escape s.toList
  rw [toList_quoted] at h
  simp only [List.length_cons, List.length_append, List.length_nil] at h
  rw [stringTail_flatMap_escape s.toList rest [] (by omega)]
  simp

/-! White space. -/

theorem skipSpace_append {blanks : List Char} (h : ∀ c ∈ blanks, isSpace c = true)
    (cs : List Char) : skipSpace (blanks ++ cs) = skipSpace cs :=
  List.dropWhile_append_of_pos h

theorem skipSpace_cons {c : Char} (h : isSpace c = false) (cs : List Char) :
    skipSpace (c :: cs) = c :: cs := by
  simp [skipSpace, h]

theorem isSpace_indent (level : Nat) : ∀ c ∈ (indent level).toList, isSpace c = true := by
  intro c hc
  rw [indent, String.toList_ofList] at hc
  rw [List.eq_of_mem_replicate hc]
  rfl

theorem value_append {blanks : List Char} (h : ∀ c ∈ blanks, isSpace c = true) (fuel : Nat)
    (cs : List Char) : value fuel (blanks ++ cs) = value fuel cs := by
  cases fuel with
  | zero => simp [value]
  | succ fuel => simp only [value, skipSpace_append h]

theorem items_append {blanks : List Char} (h : ∀ c ∈ blanks, isSpace c = true) (fuel : Nat)
    (cs : List Char) (done : List Json) : items fuel (blanks ++ cs) done = items fuel cs done := by
  cases fuel with
  | zero => simp [items]
  | succ fuel => simp only [items, value_append h]

theorem members_append {blanks : List Char} (h : ∀ c ∈ blanks, isSpace c = true) (fuel : Nat)
    (cs : List Char) (done : List (Option String × Json)) :
    members fuel (blanks ++ cs) done = members fuel cs done := by
  cases fuel with
  | zero => simp [members]
  | succ fuel => simp only [members, skipSpace_append h]

end Reader

/-! Values. -/

theorem prettyItems_eq_map (level : Nat) (items : List Json) :
    prettyAt.prettyItems level items = items.map (prettyAt level) := by
  induction items with
  | nil => simp [prettyAt.prettyItems]
  | cons j rest ih => simp [prettyAt.prettyItems, ih]

def memberText (level : Nat) (m : Option String × Json) : String :=
  quoted (m.1.getD "") ++ ": " ++ prettyAt level m.2

theorem prettyMembers_eq_map (level : Nat) (members : List (Option String × Json)) :
    prettyAt.prettyMembers level members = members.map (memberText level) := by
  induction members with
  | nil => simp [prettyAt.prettyMembers]
  | cons m rest ih => simp [prettyAt.prettyMembers, memberText, ih]

/-- Blocks on lines of their own, up to the closing bracket. -/
def blockTail (closing : String) (level : Nat) (entries : List String) : String :=
  String.intercalate ",\n" (entries.map (indent (level + 1) ++ ·)) ++ "\n" ++ indent level ++ closing

theorem block_eq (opening closing : String) (level : Nat) (entries : List String) :
    block opening closing level entries = opening ++ "\n" ++ blockTail closing level entries := by
  simp [block, blockTail, String.append_assoc]

theorem blockTail_singleton (closing : String) (level : Nat) (t : String) :
    blockTail closing level [t] = indent (level + 1) ++ t ++ "\n" ++ indent level ++ closing := by
  simp [blockTail]

theorem blockTail_cons (closing : String) (level : Nat) (t u : String) (ts : List String) :
    blockTail closing level (t :: u :: ts) =
      indent (level + 1) ++ t ++ ",\n" ++ blockTail closing level (u :: ts) := by
  simp [blockTail, String.append_assoc]

namespace Reader

/-- A value is read from its text, whatever follows that cannot belong to a number. -/
def ReadsBack (j : Json) : Prop :=
  ∀ (level fuel : Nat) (rest : List Char), Stops rest → (prettyAt level j).toList.length ≤ fuel →
    value fuel ((prettyAt level j).toList ++ rest) = some (j, rest)

theorem skipSpace_close {c : Char} (h : isSpace c = false) (level : Nat) (rest : List Char) :
    skipSpace ('\n' :: ((indent level).toList ++ c :: rest)) = c :: rest := by
  rw [← List.cons_append, skipSpace_append, skipSpace_cons h]
  intro d hd
  rcases List.mem_cons.mp hd with rfl | hd
  · rfl
  · exact isSpace_indent level d hd

theorem items_blockTail {js : List Json} (hne : js ≠ []) (hread : ∀ j ∈ js, ReadsBack j)
    (level fuel : Nat) (rest : List Char) (done : List Json)
    (hfuel : (blockTail "]" level (js.map (prettyAt (level + 1)))).toList.length ≤ fuel) :
    items fuel ((blockTail "]" level (js.map (prettyAt (level + 1)))).toList ++ rest) done =
      some (.arr (done.reverse ++ js), rest) := by
  induction js generalizing fuel done with
  | nil => exact absurd rfl hne
  | cons j js ih =>
    have hj := hread j (by simp) (level + 1) (fuel - 1)
    cases js with
    | nil =>
      simp only [List.map_cons, List.map_nil, blockTail_singleton, String.toList_append,
        List.length_append, String.reduceToList, List.length_cons, List.length_nil] at hfuel ⊢
      obtain ⟨fuel, rfl⟩ : ∃ n, fuel = n + 1 := ⟨fuel - 1, by omega⟩
      have hv := hj ('\n' :: ((indent level).toList ++ ']' :: rest)) (stops_newline _) (by omega)
      simp only [List.append_assoc]
      rw [items_append (isSpace_indent _), items]
      simp only [Nat.add_sub_cancel, List.cons_append, List.nil_append] at hv ⊢
      rw [hv]
      simp [skipSpace_close (c := ']') rfl]
    | cons k js =>
      simp only [List.map_cons, blockTail_cons, String.toList_append, List.length_append,
        String.reduceToList, List.length_cons, List.length_nil] at hfuel ⊢
      obtain ⟨fuel, rfl⟩ : ∃ n, fuel = n + 1 := ⟨fuel - 1, by omega⟩
      have hv := hj (',' :: '\n' :: ((blockTail "]" level
        (prettyAt (level + 1) k :: js.map (prettyAt (level + 1)))).toList ++ rest))
        (stops_comma _) (by omega)
      have hrec := ih (by simp) (fun x hx => hread x (by simp [hx])) fuel (j :: done) (by
        simp only [List.map_cons]; omega)
      simp only [List.append_assoc]
      rw [items_append (isSpace_indent _), items]
      simp only [Nat.add_sub_cancel, List.cons_append, List.nil_append] at hv ⊢
      rw [hv]
      simp only [skipSpace_cons (c := ',') rfl]
      rw [← List.singleton_append, items_append (by simp [isSpace])]
      simpa using hrec

/-- One member is read from its text: a quoted key, a colon and the value. -/
theorem memberText_reads {m : Option String × Json} (hk : m.1.isSome = true)
    (hread : ReadsBack m.2) (level fuel : Nat) {rest : List Char} (hrest : Stops rest)
    (hfuel : (memberText level m).toList.length ≤ fuel) :
    ∃ tail after, (memberText level m).toList ++ rest = '"' :: tail ∧
      stringTail fuel tail (some []) = some (m.1, ':' :: after) ∧
      value fuel after = some (m.2, rest) := by
  obtain ⟨key, j⟩ := m
  obtain ⟨key, rfl⟩ := Option.isSome_iff_exists.mp hk
  simp only [memberText, Option.getD_some, String.toList_append, List.length_append,
    String.reduceToList, List.length_cons, List.length_nil] at hfuel ⊢
  have hkey := stringTail_quoted key (':' :: ' ' :: ((prettyAt level j).toList ++ rest))
    (show (quoted key).toList.length ≤ fuel + 1 by omega)
  have hv := hread level fuel rest hrest (by simp only; omega)
  refine ⟨_, ' ' :: ((prettyAt level j).toList ++ rest), ?_, hkey, ?_⟩
  · simp [toList_quoted]
  · rw [← List.singleton_append, value_append (by simp [isSpace]), hv]

theorem members_blockTail {ms : List (Option String × Json)} (hne : ms ≠ [])
    (hk : ∀ m ∈ ms, m.1.isSome = true) (hread : ∀ m ∈ ms, ReadsBack m.2)
    (level fuel : Nat) (rest : List Char) (done : List (Option String × Json))
    (hfuel : (blockTail "\x7d" level (ms.map (memberText (level + 1)))).toList.length ≤ fuel) :
    members fuel ((blockTail "\x7d" level (ms.map (memberText (level + 1)))).toList ++ rest) done =
      some (.obj (done.reverse ++ ms), rest) := by
  induction ms generalizing fuel done with
  | nil => exact absurd rfl hne
  | cons m ms ih =>
    have hk' := hk m (by simp)
    have hread' := hread m (by simp)
    cases ms with
    | nil =>
      simp only [List.map_cons, List.map_nil, blockTail_singleton, String.toList_append,
        List.length_append, String.reduceToList, List.length_cons, List.length_nil] at hfuel ⊢
      obtain ⟨fuel, rfl⟩ : ∃ n, fuel = n + 1 := ⟨fuel - 1, by omega⟩
      simp only [List.append_assoc, List.cons_append, List.nil_append]
      obtain ⟨tail, after, htext, hkey, hvalue⟩ := memberText_reads hk' hread' (level + 1) fuel
        (stops_newline ((indent level).toList ++ '\x7d' :: rest)) (by omega)
      rw [members_append (isSpace_indent _), htext, members]
      simp only [skipSpace_cons (c := '"') rfl, hkey, skipSpace_cons (c := ':') rfl, hvalue,
        skipSpace_close (c := '\x7d') rfl, List.reverse_cons]
    | cons n ms =>
      simp only [List.map_cons, blockTail_cons, String.toList_append, List.length_append,
        String.reduceToList, List.length_cons, List.length_nil] at hfuel ⊢
      obtain ⟨fuel, rfl⟩ : ∃ n, fuel = n + 1 := ⟨fuel - 1, by omega⟩
      have hrec := ih (by simp) (fun x hx => hk x (by simp [hx])) (fun x hx => hread x (by simp [hx]))
        fuel (m :: done) (by simp only [List.map_cons]; omega)
      simp only [List.append_assoc, List.cons_append, List.nil_append]
      obtain ⟨tail, after, htext, hkey, hvalue⟩ := memberText_reads hk' hread' (level + 1) fuel
        (stops_comma ('\n' :: ((blockTail "\x7d" level (memberText (level + 1) n ::
          ms.map (memberText (level + 1)))).toList ++ rest))) (by omega)
      rw [members_append (isSpace_indent _), htext, members]
      simp only [skipSpace_cons (c := '"') rfl, hkey, skipSpace_cons (c := ':') rfl, hvalue,
        skipSpace_cons (c := ',') rfl]
      rw [← List.singleton_append, members_append (by simp [isSpace])]
      simpa using hrec

/-- No text of a value starts with a blank or closes an array. -/
theorem prettyAt_head {j : Json} (h : Plain j) (level : Nat) :
    ∃ c, (prettyAt level j).toList.head? = some c ∧ isSpace c = false ∧ c ≠ ']' := by
  cases h with
  | null => exact ⟨'n', by simp [prettyAt], rfl, by decide⟩
  | bool b =>
    cases b with
    | false => exact ⟨'f', by simp [prettyAt], rfl, by decide⟩
    | true => exact ⟨'t', by simp [prettyAt], rfl, by decide⟩
  | @int negative magnitude h =>
    cases negative with
    | true => exact ⟨'-', by simp [prettyAt, Number.text, Number.text?, h], rfl, by decide⟩
    | false =>
      cases hd : Nat.toDigits 10 magnitude with
      | nil => exact absurd hd Nat.toDigits_ne_nil
      | cons c cs =>
        have hc : c.isDigit = true := Digits.isDigit_of_mem (n := magnitude) (by simp [hd])
        refine ⟨c, by simp [prettyAt, Number.text, Number.text?, h, hd], ?_, ?_⟩
        · cases hs : isSpace c with
          | false => rfl
          | true =>
            simp only [isSpace, Bool.or_eq_true, beq_iff_eq] at hs
            rcases hs with ((rfl | rfl) | rfl) | rfl <;> simp at hc
        · rintro rfl
          simp at hc
  | str s => exact ⟨'"', by simp [prettyAt, toList_quoted], rfl, by decide⟩
  | @arr items h =>
    cases items <;> exact ⟨'[', by simp [prettyAt, block], rfl, by decide⟩
  | @obj members hk h =>
    cases members <;> exact ⟨'\x7b', by simp [prettyAt, block], rfl, by decide⟩

theorem readsBack_int {negative : Bool} {magnitude : Nat}
    (h : Number.isExact negative magnitude = true) : ReadsBack (.num (.int negative magnitude)) := by
  intro level fuel rest hrest hfuel
  cases negative with
  | true =>
    have htext : (prettyAt level (.num (.int true magnitude))).toList =
        '-' :: Nat.toDigits 10 magnitude := by
      simp [prettyAt, Number.text, Number.text?, h]
    rw [htext] at hfuel ⊢
    obtain ⟨fuel, rfl⟩ : ∃ n, fuel = n + 1 := ⟨fuel - 1, by simp at hfuel; omega⟩
    simp [value, skipSpace_cons (c := '-') rfl, numberTail_toDigits true magnitude hrest]
  | false =>
    have htext : (prettyAt level (.num (.int false magnitude))).toList =
        Nat.toDigits 10 magnitude := by
      simp [prettyAt, Number.text, Number.text?, h]
    obtain ⟨c, hhead, hspace, -⟩ := prettyAt_head (.int h) level
    obtain ⟨cs, hc⟩ := List.head?_eq_some_iff.mp hhead
    have hdigit : c.isDigit = true :=
      Digits.isDigit_of_mem (n := magnitude) (by simp [← htext, hc])
    have hnum := numberTail_toDigits false magnitude hrest
    rw [← htext, hc] at hnum
    rw [hc] at hfuel ⊢
    obtain ⟨fuel, rfl⟩ : ∃ n, fuel = n + 1 := ⟨fuel - 1, by simp at hfuel; omega⟩
    rw [List.cons_append] at hnum ⊢
    rw [value, skipSpace_cons hspace]
    split
    all_goals simp_all

/-- Leading blanks are skipped before the items of an array. -/
theorem items_skipSpace (fuel : Nat) (cs : List Char) (done : List Json) :
    items fuel (skipSpace cs) done = items fuel cs done := by
  conv => rhs; rw [← List.takeWhile_append_dropWhile (p := isSpace) (l := cs)]
  exact (items_append (List.all_eq_true.mp List.all_takeWhile) _ _ _).symm

/-- Leading blanks are skipped before the members of an object. -/
theorem members_skipSpace (fuel : Nat) (cs : List Char) (done : List (Option String × Json)) :
    members fuel (skipSpace cs) done = members fuel cs done := by
  conv => rhs; rw [← List.takeWhile_append_dropWhile (p := isSpace) (l := cs)]
  exact (members_append (List.all_eq_true.mp List.all_takeWhile) _ _ _).symm

/-- After the opening bracket of a block comes the first character of its first entry. -/
theorem skipSpace_blockTail {t : String} {c : Char} (hc : t.toList.head? = some c)
    (hspace : isSpace c = false) (closing : String) (level : Nat) (ts : List String)
    (rest : List Char) :
    (skipSpace ('\n' :: ((blockTail closing level (t :: ts)).toList ++ rest))).head? = some c := by
  obtain ⟨cs, ht⟩ := List.head?_eq_some_iff.mp hc
  have hblank : ∀ d ∈ '\n' :: (indent (level + 1)).toList, isSpace d = true := by
    intro d hd
    rcases List.mem_cons.mp hd with rfl | hd
    · rfl
    · exact isSpace_indent _ d hd
  have htail : ∃ tail, (blockTail closing level (t :: ts)).toList ++ rest =
      (indent (level + 1)).toList ++ c :: tail := by
    cases ts with
    | nil => exact ⟨_, by rw [blockTail_singleton]; simp [ht]; rfl⟩
    | cons u us => exact ⟨_, by rw [blockTail_cons]; simp [ht]; rfl⟩
  obtain ⟨tail, htail⟩ := htail
  rw [htail, ← List.cons_append, skipSpace_append hblank, skipSpace_cons hspace, List.head?_cons]

theorem readsBack_arr {js : List Json} (h : ∀ j ∈ js, Plain j) (hread : ∀ j ∈ js, ReadsBack j) :
    ReadsBack (.arr js) := by
  intro level fuel rest hrest hfuel
  cases js with
  | nil =>
    obtain ⟨fuel, rfl⟩ : ∃ n, fuel = n + 1 := ⟨fuel - 1, by simp [prettyAt] at hfuel; omega⟩
    simp [prettyAt, value, skipSpace_cons (c := '[') rfl, skipSpace_cons (c := ']') rfl]
  | cons j js =>
    obtain ⟨c, hhead, hspace, hclose⟩ := prettyAt_head (h j (by simp)) (level + 1)
    have hskip := skipSpace_blockTail hhead hspace "]" level (js.map (prettyAt (level + 1))) rest
    simp only [prettyAt, prettyItems_eq_map, block_eq, List.map_cons, String.toList_append,
      String.reduceToList, List.cons_append, List.nil_append, List.length_cons] at hfuel ⊢
    obtain ⟨fuel, rfl⟩ : ∃ n, fuel = n + 1 := ⟨fuel - 1, by omega⟩
    have hitems := items_blockTail (by simp) hread level fuel rest [] (by
      simp only [List.map_cons]; omega)
    rw [value, skipSpace_cons (c := '[') rfl]
    simp only
    split
    next r hr =>
      rw [hr] at hskip
      exact absurd (Option.some.inj hskip).symm hclose
    next =>
      rw [items_skipSpace, ← List.singleton_append, items_append (by simp [isSpace])]
      simpa using hitems

theorem readsBack_obj {ms : List (Option String × Json)} (hk : ∀ m ∈ ms, m.1.isSome = true)
    (hread : ∀ m ∈ ms, ReadsBack m.2) : ReadsBack (.obj ms) := by
  intro level fuel rest hrest hfuel
  cases ms with
  | nil =>
    obtain ⟨fuel, rfl⟩ : ∃ n, fuel = n + 1 := ⟨fuel - 1, by simp [prettyAt] at hfuel; omega⟩
    simp [prettyAt, value, skipSpace_cons (c := '\x7b') rfl, skipSpace_cons (c := '\x7d') rfl]
  | cons m ms =>
    have hhead : (memberText (level + 1) m).toList.head? = some '"' := by
      simp [memberText, toList_quoted]
    have hskip := skipSpace_blockTail hhead rfl "\x7d" level (ms.map (memberText (level + 1))) rest
    simp only [prettyAt, prettyMembers_eq_map, block_eq, List.map_cons, String.toList_append,
      String.reduceToList, List.cons_append, List.nil_append, List.length_cons] at hfuel ⊢
    obtain ⟨fuel, rfl⟩ : ∃ n, fuel = n + 1 := ⟨fuel - 1, by omega⟩
    have hmembers := members_blockTail (by simp) hk hread level fuel rest [] (by
      simp only [List.map_cons]; omega)
    rw [value, skipSpace_cons (c := '\x7b') rfl]
    simp only
    split
    next r hr =>
      rw [hr] at hskip
      simp at hskip
    next =>
      rw [members_skipSpace, ← List.singleton_append, members_append (by simp [isSpace])]
      simpa using hmembers

theorem readsBack_of_plain {j : Json} (h : Plain j) : ReadsBack j := by
  induction h with
  | null =>
    intro level fuel rest hrest hfuel
    obtain ⟨fuel, rfl⟩ : ∃ n, fuel = n + 1 := ⟨fuel - 1, by simp [prettyAt] at hfuel; omega⟩
    simp [prettyAt, value, skipSpace_cons (c := 'n') rfl, keyword, List.isPrefixOf?]
  | bool b =>
    intro level fuel rest hrest hfuel
    obtain ⟨fuel, rfl⟩ : ∃ n, fuel = n + 1 :=
      ⟨fuel - 1, by cases b <;> simp [prettyAt] at hfuel <;> omega⟩
    cases b with
    | false => simp [prettyAt, value, skipSpace_cons (c := 'f') rfl, keyword, List.isPrefixOf?]
    | true => simp [prettyAt, value, skipSpace_cons (c := 't') rfl, keyword, List.isPrefixOf?]
  | int h => exact readsBack_int h
  | str s =>
    intro level fuel rest hrest hfuel
    simp only [prettyAt, Option.getD_some] at hfuel ⊢
    obtain ⟨fuel, rfl⟩ : ∃ n, fuel = n + 1 := ⟨fuel - 1, by simp [toList_quoted] at hfuel; omega⟩
    have hs := stringTail_quoted s rest hfuel
    simp [toList_quoted, value, skipSpace_cons (c := '"') rfl, hs]
  | arr h ih => exact readsBack_arr h ih
  | obj hk h ih => exact readsBack_obj hk ih

end Reader

theorem parse?_jsonText {j : Json} (h : Plain j) : parse? (Store.jsonText j) = some j := by
  have hread := Reader.readsBack_of_plain h 0 (2 * (Store.jsonText j).toList.length + 2) ['\n']
    (Reader.stops_newline []) (by
      simp only [Store.jsonText, pretty, String.toList_append, List.length_append]
      omega)
  have htext : (Store.jsonText j).toList = (prettyAt 0 j).toList ++ ['\n'] := by
    simp [Store.jsonText, pretty]
  simp only [parse?]
  rw [htext] at hread ⊢
  rw [hread]
  rfl

end SkillAudit.Json
