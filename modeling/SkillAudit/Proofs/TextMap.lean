import Mathlib
import SkillAudit.Text.Dict

/-!
Maps from texts. A map is given by its look-ups, since its keys ascend; of the pairs it is made of,
the last one with a key counts, and where no two have the same key their order does not matter.
-/
namespace SkillAudit

/-- Where keys are distinct, a look-up finds what is there. -/
theorem lookup_eq_some_iff_mem {α β : Type} [BEq α] [LawfulBEq α] {l : List (α × β)}
    (hdistinct : (l.map Prod.fst).Nodup) {k : α} {v : β} : l.lookup k = some v ↔ (k, v) ∈ l := by
  induction l with
  | nil => simp
  | cons x l ih =>
    obtain ⟨k', v'⟩ := x
    obtain ⟨hnew, hrest⟩ := List.nodup_cons.mp hdistinct
    by_cases hk : k = k'
    · subst hk
      have habsent : (k, v) ∉ l := fun hmem => hnew (List.mem_map.mpr ⟨_, hmem, rfl⟩)
      simp [habsent, eq_comm]
    · rw [List.lookup_cons, beq_eq_false_iff_ne.mpr hk, ih hrest]
      simp [hk]

namespace Dict
variable {α : Type} {d e : Dict α}

/-- The keys ascend, so each of them occurs once. -/
def Sorted (d : Dict α) : Prop := d.keys.Pairwise (· < ·)

theorem get?_insert (key : String) (value : α) (d : Dict α) (k : String) :
    (d.insert key value).get? k = if k = key then some value else d.get? k := by
  induction d with
  | nil =>
    by_cases hk : k = key <;> simp [insert, get?, List.lookup_cons, hk, beq_eq_false_iff_ne.mpr]
  | cons x rest ih =>
    obtain ⟨k', v⟩ := x
    simp only [get?] at ih
    by_cases hlt : key < k'
    · by_cases hk : k = key <;>
        simp [insert, get?, hlt, List.lookup_cons, hk, beq_eq_false_iff_ne.mpr]
    · by_cases heq : key = k'
      · subst heq
        by_cases hk : k = key <;>
          simp [insert, get?, List.lookup_cons, hk, beq_eq_false_iff_ne.mpr]
      · by_cases hk : k = k'
        · subst hk
          simp [insert, get?, hlt, heq, Ne.symm heq]
        · simp [insert, get?, hlt, heq, List.lookup_cons, beq_eq_false_iff_ne.mpr hk, ih]

theorem mem_keys_insert {key k : String} {value : α} {d : Dict α}
    (h : k ∈ (d.insert key value).keys) : k = key ∨ k ∈ d.keys := by
  induction d with
  | nil => simpa [insert, keys] using h
  | cons x rest ih =>
    obtain ⟨k', v⟩ := x
    simp only [insert] at h
    split at h
    · simpa [keys] using h
    · split at h
      · simp_all [keys]
      · simp only [keys, List.map_cons, List.mem_cons] at h ih ⊢
        rcases h with h | h
        · exact .inr (.inl h)
        · rcases ih h with h | h
          · exact .inl h
          · exact .inr (.inr h)

theorem mem_values_insert {key : String} {value x : α} {d : Dict α}
    (h : x ∈ (d.insert key value).values) : x = value ∨ x ∈ d.values := by
  induction d with
  | nil => simpa [insert, values] using h
  | cons y rest ih =>
    obtain ⟨k', v⟩ := y
    simp only [insert] at h
    split at h
    · simpa [values] using h
    · split at h
      · have hmem : x = value ∨ x ∈ values rest := by simpa [values] using h
        exact hmem.imp_right (List.mem_cons_of_mem _)
      · rcases List.mem_cons.mp h with h | h
        · exact .inr (List.mem_cons.mpr (.inl h))
        · exact (ih h).imp_right (List.mem_cons_of_mem _)

theorem Sorted.insert {d : Dict α} (h : d.Sorted) (key : String) (value : α) :
    (d.insert key value).Sorted := by
  induction d with
  | nil => simp [Dict.insert, Sorted, keys]
  | cons x rest ih =>
    obtain ⟨k', v⟩ := x
    obtain ⟨hhead, hrest⟩ := List.pairwise_cons.mp h
    simp only [Dict.insert]
    split
    · rename_i hlt
      refine List.pairwise_cons.mpr ⟨fun k hk => ?_, h⟩
      rcases List.mem_cons.mp hk with rfl | hk
      · exact hlt
      · exact hlt.trans (hhead k hk)
    · split
      · rename_i heq
        exact List.pairwise_cons.mpr ⟨heq ▸ hhead, hrest⟩
      · rename_i hlt hne
        refine List.pairwise_cons.mpr ⟨fun k hk => ?_, ih hrest⟩
        rcases mem_keys_insert hk with rfl | hk
        · exact lt_of_le_of_ne (not_lt.mp hlt) (Ne.symm hne)
        · exact hhead k hk

theorem Sorted.filter {d : Dict α} (h : d.Sorted) (p : String × α → Bool) :
    Sorted (d.filter p) := by
  exact List.Pairwise.sublist (List.filter_sublist.map _) h

theorem Sorted.nodup {d : Dict α} (h : d.Sorted) : d.keys.Nodup := h.imp ne_of_lt

theorem insert_of_forall_lt {key : String} {value : α} {d : Dict α} (h : ∀ k ∈ d.keys, k < key) :
    d.insert key value = d ++ [(key, value)] := by
  induction d with
  | nil => rfl
  | cons x rest ih =>
    obtain ⟨k', v⟩ := x
    have hlt : k' < key := h k' (by simp [keys])
    rw [insert, if_neg hlt.asymm, if_neg hlt.ne', ih fun k hk => h k (by simp_all [keys])]
    rfl

theorem foldl_insert_of_sorted {done rest : Dict α} (h : Sorted (done ++ rest)) :
    rest.foldl (fun d (k, v) => insert k v d) done = done ++ rest := by
  induction rest generalizing done with
  | nil => simp
  | cons x rest ih =>
    obtain ⟨k, v⟩ := x
    have hbelow : ∀ k' ∈ done.keys, k' < k := by
      intro k' hk'
      rw [Sorted, keys, List.map_append, List.pairwise_append] at h
      exact h.2.2 k' hk' k (by simp)
    have hstep := @ih (insert k v done)
    rw [insert_of_forall_lt hbelow] at hstep
    simpa [insert_of_forall_lt hbelow] using hstep (by simpa using h)

theorem ofList_of_sorted {d : Dict α} (h : d.Sorted) : ofList d = d :=
  foldl_insert_of_sorted h

theorem sorted_foldl_insert (pairs : List (String × α)) {d : Dict α} (hd : d.Sorted) :
    (pairs.foldl (fun d (k, v) => insert k v d) d).Sorted ∧
      ∀ x ∈ values (pairs.foldl (fun d (k, v) => insert k v d) d),
        x ∈ d.values ∨ x ∈ pairs.map Prod.snd := by
  induction pairs generalizing d with
  | nil => exact ⟨hd, fun x hx => .inl hx⟩
  | cons y rest ih =>
    obtain ⟨hsorted, hvalues⟩ := ih (hd.insert y.1 y.2)
    refine ⟨hsorted, fun x hx => ?_⟩
    rcases hvalues x hx with hx | hx
    · rcases mem_values_insert hx with rfl | hx
      · exact .inr (by simp)
      · exact .inl hx
    · exact .inr (by simp only [List.map_cons, List.mem_cons, hx, or_true])

/-- What is put into a map is kept sorted, and nothing else is in it. -/
theorem sorted_ofList (pairs : List (String × α)) :
    (ofList pairs).Sorted ∧ ∀ x ∈ (ofList pairs).values, x ∈ pairs.map Prod.snd := by
  obtain ⟨hsorted, hvalues⟩ := sorted_foldl_insert (d := []) pairs List.Pairwise.nil
  exact ⟨hsorted, fun x hx => (hvalues x hx).resolve_left (by simp [values])⟩

theorem get?_filter_keys (d : Dict α) (p : String → Bool) (name : String) :
    get? (d.filter fun (k, _) => p k) name = if p name then d.get? name else none := by
  simp only [get?]
  induction d with
  | nil => simp
  | cons x rest ih =>
    obtain ⟨k, a⟩ := x
    by_cases hk : p k = true
    · by_cases hname : name = k
      · subst hname
        simp [hk]
      · simp [hk, List.lookup_cons, beq_eq_false_iff_ne.mpr hname, ih]
    · by_cases hname : name = k
      · subst hname
        simp [hk, ih]
      · simp [hk, List.lookup_cons, beq_eq_false_iff_ne.mpr hname, ih]

theorem get?_erase (d : Dict α) (key k : String) :
    (d.erase key).get? k = if k = key then none else d.get? k := by
  rw [erase, get?_filter_keys d (· != key)]
  by_cases hk : k = key <;> simp [hk]

theorem Sorted.mem_iff (h : d.Sorted) {key : String} {value : α} :
    (key, value) ∈ d ↔ d.get? key = some value :=
  (lookup_eq_some_iff_mem h.nodup).symm

theorem Sorted.ext (h : d.Sorted) (h' : e.Sorted) (hget : ∀ key, d.get? key = e.get? key) :
    d = e := by
  have hd : d.Pairwise fun x y => x.1 < y.1 := List.pairwise_map.mp h
  have he : e.Pairwise fun x y => x.1 < y.1 := List.pairwise_map.mp h'
  have hperm : d.Perm e := by
    refine (List.perm_ext_iff_of_nodup h.nodup.of_map h'.nodup.of_map).mpr ?_
    rintro ⟨key, value⟩
    rw [h.mem_iff, h'.mem_iff, hget]
  refine hperm.eq_of_pairwise ?_ hd he
  intro x y _ _ hxy hyx
  exact absurd hxy (lt_asymm hyx)

theorem erase_of_get? {key : String} (hget : d.get? key = none) : d.erase key = d := by
  rw [erase, List.filter_eq_self]
  rintro ⟨k, value⟩ hmem
  have hne : k ≠ key := by
    rintro rfl
    have hall := List.lookup_eq_none_iff.mp hget _ hmem
    simp at hall
  simpa using hne

theorem get?_ofList (pairs : List (String × α)) (key : String) :
    (ofList pairs).get? key = pairs.reverse.lookup key := by
  induction pairs using List.reverseRecOn with
  | nil => rfl
  | append_singleton pairs pair ih =>
    obtain ⟨k, value⟩ := pair
    have hstep : ofList (pairs ++ [(k, value)]) = (ofList pairs).insert k value := by
      simp [ofList, List.foldl_append]
    rw [hstep, get?_insert, ih, List.reverse_append, List.reverse_singleton, List.singleton_append,
      List.lookup_cons]
    by_cases hkey : key = k
    · simp [hkey]
    · simp [hkey, beq_eq_false_iff_ne.mpr hkey]

theorem mem_of_mem_ofList {pairs : List (String × α)} {x : String × α} (h : x ∈ ofList pairs) :
    x ∈ pairs := by
  have hget := (sorted_ofList pairs).1.mem_iff.mp h
  rw [get?_ofList] at hget
  obtain ⟨before, after, hpairs, -⟩ := List.lookup_eq_some_iff.mp hget
  exact List.mem_reverse.mp (by simp [hpairs])

section DistinctKeys
variable {pairs : List (String × α)} (hdistinct : (pairs.map Prod.fst).Nodup)
include hdistinct

theorem get?_ofList_eq_some {key : String} {value : α} :
    (ofList pairs).get? key = some value ↔ (key, value) ∈ pairs := by
  have hreverse : (pairs.reverse.map Prod.fst).Nodup := by
    rwa [List.map_reverse, List.nodup_reverse]
  rw [get?_ofList, lookup_eq_some_iff_mem hreverse, List.mem_reverse]

theorem ofList_perm {pairs' : List (String × α)} (h : pairs'.Perm pairs) :
    ofList pairs' = ofList pairs := by
  have hdistinct' : (pairs'.map Prod.fst).Nodup := (h.map _).nodup_iff.mpr hdistinct
  refine (sorted_ofList pairs').1.ext (sorted_ofList pairs).1 fun key => Option.ext fun value => ?_
  rw [get?_ofList_eq_some hdistinct', get?_ofList_eq_some hdistinct, h.mem_iff]

end DistinctKeys

end Dict
end SkillAudit
