import Mathlib
import SkillAudit.Ledger.Basic
import SkillAudit.Proofs.InstantText
import SkillAudit.Proofs.JsonText

/-! A ledger file holds the entries that were written to it. -/
namespace SkillAudit

namespace Json

theorem plain_text (s : String) : Plain (.text s) := .str s

theorem plain_nat {n : Nat} (h : n < 2 ^ 64) : Plain (.nat n) :=
  .int (by simpa [Number.isExact] using h)

theorem plain_option {α : Type} {encode : α → Json} (h : ∀ a, Plain (encode a)) (o : Option α) :
    Plain (.option encode o) := by
  cases o with
  | none => exact .null
  | some a => exact h a

theorem plain_list_of_mem {α : Type} {encode : α → Json} {xs : List α}
    (h : ∀ a ∈ xs, Plain (encode a)) : Plain (.list encode xs) := by
  refine .arr fun j hj => ?_
  obtain ⟨a, ha, rfl⟩ := List.mem_map.mp hj
  exact h a ha

theorem plain_list {α : Type} {encode : α → Json} (h : ∀ a, Plain (encode a)) (xs : List α) :
    Plain (.list encode xs) := plain_list_of_mem fun a _ => h a

theorem plain_object {members : List (String × Json)} (h : ∀ m ∈ members, Plain m.2) :
    Plain (.object members) := by
  refine .obj (fun m hm => ?_) (fun m hm => ?_)
  all_goals obtain ⟨⟨k, j⟩, hkj, rfl⟩ := List.mem_map.mp hm
  · rfl
  · exact h _ hkj

theorem plain_whenSome {α : Type} {encode : α → Json} (h : ∀ a, Plain (encode a)) (key : String)
    (o : Option α) : ∀ m ∈ whenSome key encode o, Plain m.2 := by
  cases o with
  | none => simp [whenSome]
  | some a =>
    intro m hm
    obtain rfl : m = (key, encode a) := by simpa [whenSome] using hm
    exact h a

theorem soundItems_of_forall {items : List Json} (h : ∀ j ∈ items, isSound j = true) :
    isSound.soundItems items = true := by
  induction items with
  | nil => simp [isSound.soundItems]
  | cons j rest ih => simp_all [isSound.soundItems]

theorem soundMembers_of_forall {members : List (Option String × Json)}
    (h : ∀ m ∈ members, m.1.isSome = true ∧ isSound m.2 = true) :
    isSound.soundMembers members = true := by
  induction members with
  | nil => simp [isSound.soundMembers]
  | cons m rest ih => simp_all [isSound.soundMembers]

theorem isSound_of_plain {j : Json} (h : Plain j) : j.isSound = true := by
  induction h with
  | null => simp [isSound]
  | bool b => simp [isSound]
  | int h => simp [isSound, Number.text?, h]
  | str s => simp [isSound]
  | arr h ih => simpa [isSound] using soundItems_of_forall ih
  | obj hk h ih => simpa [isSound] using soundMembers_of_forall fun m hm => ⟨hk m hm, ih m hm⟩

theorem depthItems_le {items : List Json} {n : Nat} (h : ∀ j ∈ items, depth j ≤ n) :
    depth.depthItems items ≤ n := by
  induction items with
  | nil => simp [depth.depthItems]
  | cons j rest ih =>
    have hrest := ih fun x hx => h x (by simp [hx])
    exact Nat.max_le.mpr ⟨h j (by simp), hrest⟩

theorem depthMembers_le {members : List (Option String × Json)} {n : Nat}
    (h : ∀ m ∈ members, depth m.2 ≤ n) : depth.depthMembers members ≤ n := by
  induction members with
  | nil => simp [depth.depthMembers]
  | cons m rest ih =>
    have hrest := ih fun x hx => h x (by simp [hx])
    exact Nat.max_le.mpr ⟨h m (by simp), hrest⟩

theorem depth_object_le {members : List (String × Json)} {n : Nat}
    (h : ∀ m ∈ members, depth m.2 ≤ n) : depth (.object members) ≤ n + 1 := by
  simp only [object, depth, Nat.add_le_add_iff_right]
  refine depthMembers_le fun m hm => ?_
  obtain ⟨⟨k, j⟩, hkj, rfl⟩ := List.mem_map.mp hm
  exact h _ hkj

theorem depth_list_le {α : Type} {encode : α → Json} {n : Nat} (h : ∀ a, depth (encode a) ≤ n)
    (xs : List α) : depth (.list encode xs) ≤ n + 1 := by
  simp only [list, depth, Nat.add_le_add_iff_right]
  refine depthItems_le fun j hj => ?_
  obtain ⟨a, -, rfl⟩ := List.mem_map.mp hj
  exact h a

/-! Decoding what was encoded. -/

theorem namedFields_object {names : List String} {members : List (String × Json)}
    (hknown : ∀ m ∈ members, names.contains m.1 = true) (honce : (members.map (·.1)).Nodup) :
    namedFields names (members.map fun (k, v) => (some k, v)) = some members := by
  induction members with
  | nil => rfl
  | cons m rest ih =>
    rw [List.map_cons, List.nodup_cons] at honce
    have hrest := ih (fun x hx => hknown x (by simp [hx])) honce.2
    have hm := hknown m (by simp)
    have hnew : (rest.any fun x => x.1 == m.1) = false := by
      simp only [List.any_eq_false, beq_iff_eq]
      intro x hx heq
      exact honce.1 (List.mem_map.mpr ⟨x, hx, heq⟩)
    simp only [List.map_cons, namedFields, hrest, hm, hnew, if_true, if_false, Bool.false_eq_true]

theorem asRecord_object {names : List String} {members : List (String × Json)}
    (hknown : ∀ m ∈ members, names.contains m.1 = true) (honce : (members.map (·.1)).Nodup) :
    asRecord names (.object members) = some ⟨false, members⟩ := by
  rw [object, asRecord, namedFields_object hknown honce, Option.map_some]

theorem asText_text (s : String) : asText (.text s) = some s := rfl

theorem asUInt32_nat (n : UInt32) : asUInt32 (.nat n.toNat) = some n := by
  simp [asUInt32, asNatBelow, nat, n.toNat_lt]

theorem asUInt64_nat (n : UInt64) : asUInt64 (.nat n.toNat) = some n := by
  simp [asUInt64, asNat, asNatBelow, nat, n.toNat_lt]

theorem asOption_option {α : Type} {encode : α → Json} {decode : Decoder α}
    (hnull : ∀ a, encode a ≠ .null) (h : ∀ a, decode (encode a) = some a) (o : Option α) :
    asOption decode (.option encode o) = some o := by
  cases o with
  | none => rfl
  | some a =>
    simp only [option]
    unfold asOption
    split
    next heq => exact absurd heq (hnull a)
    next => simp [h a]

theorem asList_list_of_mem {α : Type} {encode : α → Json} {decode : Decoder α} {xs : List α}
    (h : ∀ a ∈ xs, decode (encode a) = some a) : asList decode (.list encode xs) = some xs := by
  simp only [list, asList]
  induction xs with
  | nil => rfl
  | cons x xs ih => simp [List.mapM_cons, h x (by simp), ih fun a ha => h a (by simp [ha])]

theorem asList_list {α : Type} {encode : α → Json} {decode : Decoder α}
    (h : ∀ a, decode (encode a) = some a) (xs : List α) :
    asList decode (.list encode xs) = some xs := asList_list_of_mem fun a _ => h a

namespace Record
variable {r : Record} {name : String} {α : Type} {encode : α → Json} {decode : Decoder α}

theorem required_eq {a : α} (hget : r.get? name = some (encode a))
    (h : ∀ a, decode (encode a) = some a) : r.required name decode = some a := by
  rw [required, hget, Option.bind_some, h]

/-- A field that is always written, with `null` for nothing. -/
theorem optional_eq {o : Option α} (hget : r.get? name = some (.option encode o))
    (hnull : ∀ a, encode a ≠ .null) (h : ∀ a, decode (encode a) = some a) :
    r.optional name decode = some o := by
  simp only [optional, withDefault, hget, asOption_option hnull h]

/-- A field that is written when there is something. -/
theorem optional_whenSome {o : Option α} (hget : r.get? name = o.map encode)
    (hnull : ∀ a, encode a ≠ .null) (h : ∀ a, decode (encode a) = some a) :
    r.optional name decode = some o := by
  cases o with
  | none => simp only [optional, withDefault, hget, Option.map_none]
  | some a => exact optional_eq hget hnull h

end Record
end Json

theorem Risk.ofJson_toJson (r : Risk) : Risk.ofJson r.toJson = some r := by
  cases r <;> simp [Risk.ofJson, Risk.toJson, Json.text, Json.asWord, Risk.word, Risk.ofWord?]

theorem EntryStatus.ofJson_toJson (s : EntryStatus) : EntryStatus.ofJson s.toJson = some s := by
  cases s <;> simp [EntryStatus.ofJson, EntryStatus.toJson, Json.text, Json.asWord,
    EntryStatus.word, EntryStatus.ofWord?]

theorem Approver.ofJson_toJson (a : Approver) : Approver.ofJson a.toJson = some a := by
  cases a <;> simp [Approver.ofJson, Approver.toJson, Json.text, Json.asWord, Approver.word,
    Approver.ofWord?]

theorem Instant.ofJson_toJson (t : Instant) : Instant.ofJson t.toJson = some t := by
  simp [Instant.ofJson, Instant.toJson, Json.asText_text, Instant.parse?_text]

namespace LedgerEntry

theorem toJson_plain (e : LedgerEntry) : Json.Plain e.toJson := by
  refine Json.plain_object fun m hm => ?_
  have htime : ∀ t : Instant, Json.Plain t.toJson := fun t => Json.plain_text t.text
  simp only [List.mem_append, List.mem_cons, List.not_mem_nil, or_false] at hm
  rcases hm with ((hm | hm) | hm) | hm
  · rcases hm with rfl | rfl | rfl | rfl | rfl | rfl | rfl | rfl | rfl
    · exact Json.plain_text _
    · exact Json.plain_option Json.plain_text _
    · exact Json.plain_option Json.plain_text _
    · exact Json.plain_nat (Nat.lt_trans e.score.toNat_lt (by decide))
    · exact Json.plain_text _
    · exact Json.plain_text _
    · exact Json.plain_option htime _
    · exact Json.plain_text _
    · exact Json.plain_text _
  · exact Json.plain_whenSome Json.plain_text _ _ m hm
  · exact Json.plain_whenSome (fun n : UInt64 => Json.plain_nat n.toNat_lt) _ _ m hm
  · exact Json.plain_whenSome htime _ _ m hm

theorem ofJson_toJson (e : LedgerEntry) : ofJson e.toJson = some e := by
  have hrecord : Json.asRecord fieldNames e.toJson = some ⟨false, [
      ("name", .text e.name), ("version", .option .text e.version),
      ("source", .option .text e.source), ("score", .nat e.score.toNat), ("risk", e.risk.toJson),
      ("hash", .text e.hash), ("date", .option Instant.toJson e.date),
      ("status", e.status.toJson), ("approver", e.approver.toJson)] ++
      Json.whenSome "purpose" .text e.purpose ++
      Json.whenSome "findingsCount" (fun n => .nat n.toNat) e.findingsCount ++
      Json.whenSome "revokedAt" Instant.toJson e.revokedAt⟩ := by
    apply Json.asRecord_object
    all_goals
      cases e.purpose <;> cases e.findingsCount <;> cases e.revokedAt <;>
        simp [Json.whenSome, fieldNames]
  have htext : ∀ s : String, Json.text s ≠ .null := by simp [Json.text]
  have htime : ∀ t : Instant, t.toJson ≠ .null := by simp [Instant.toJson, Json.text]
  have hcount : ∀ n : UInt64, Json.nat n.toNat ≠ .null := by simp [Json.nat]
  refine Option.bind_eq_some_iff.mpr ⟨_, hrecord, ?_⟩
  refine Option.bind_eq_some_iff.mpr ⟨_, Json.Record.required_eq rfl Json.asText_text, ?_⟩
  refine Option.bind_eq_some_iff.mpr ⟨_, Json.Record.optional_eq rfl htext Json.asText_text, ?_⟩
  refine Option.bind_eq_some_iff.mpr ⟨_, Json.Record.optional_eq rfl htext Json.asText_text, ?_⟩
  refine Option.bind_eq_some_iff.mpr ⟨_, Json.Record.required_eq rfl Json.asUInt32_nat, ?_⟩
  refine Option.bind_eq_some_iff.mpr ⟨_, Json.Record.required_eq rfl Risk.ofJson_toJson, ?_⟩
  refine Option.bind_eq_some_iff.mpr ⟨_, Json.Record.required_eq rfl Json.asText_text, ?_⟩
  refine Option.bind_eq_some_iff.mpr
    ⟨_, Json.Record.optional_eq rfl htime Instant.ofJson_toJson, ?_⟩
  refine Option.bind_eq_some_iff.mpr ⟨_, Json.Record.required_eq rfl EntryStatus.ofJson_toJson, ?_⟩
  refine Option.bind_eq_some_iff.mpr ⟨_, Json.Record.required_eq rfl Approver.ofJson_toJson, ?_⟩
  refine Option.bind_eq_some_iff.mpr
    ⟨e.purpose, Json.Record.optional_whenSome ?_ htext Json.asText_text, ?_⟩
  · cases e.purpose <;> cases e.findingsCount <;> cases e.revokedAt <;> rfl
  refine Option.bind_eq_some_iff.mpr
    ⟨e.findingsCount, Json.Record.optional_whenSome ?_ hcount Json.asUInt64_nat, ?_⟩
  · cases e.purpose <;> cases e.findingsCount <;> cases e.revokedAt <;> rfl
  refine Option.bind_eq_some_iff.mpr
    ⟨e.revokedAt, Json.Record.optional_whenSome ?_ htime Instant.ofJson_toJson, ?_⟩
  · cases e.purpose <;> cases e.findingsCount <;> cases e.revokedAt <;> rfl
  rfl

theorem depth_toJson_le (e : LedgerEntry) : e.toJson.depth ≤ 1 := by
  refine Json.depth_object_le (n := 0) fun m hm => ?_
  simp only [List.mem_append, List.mem_cons, List.not_mem_nil, or_false] at hm
  rcases hm with ((hm | hm) | hm) | hm
  · rcases hm with rfl | rfl | rfl | rfl | rfl | rfl | rfl | rfl | rfl
    · simp [Json.text, Json.depth]
    · cases e.version <;> simp [Json.option, Json.text, Json.depth]
    · cases e.source <;> simp [Json.option, Json.text, Json.depth]
    · simp [Json.nat, Json.depth]
    · simp [Risk.toJson, Json.text, Json.depth]
    · simp [Json.text, Json.depth]
    · cases e.date <;> simp [Json.option, Instant.toJson, Json.text, Json.depth]
    · simp [EntryStatus.toJson, Json.text, Json.depth]
    · simp [Approver.toJson, Json.text, Json.depth]
  · cases h : e.purpose <;> simp_all [Json.whenSome, Json.text, Json.depth]
  · cases h : e.findingsCount <;> simp_all [Json.whenSome, Json.nat, Json.depth]
  · cases h : e.revokedAt <;> simp_all [Json.whenSome, Instant.toJson, Json.text, Json.depth]

end LedgerEntry

namespace Ledger

theorem documentJson_plain (es : List LedgerEntry) : Json.Plain (documentJson es) := by
  refine Json.plain_object fun m hm => ?_
  simp only [List.mem_cons, List.not_mem_nil, or_false] at hm
  rcases hm with rfl | rfl
  · exact Json.plain_nat (by decide)
  · exact Json.plain_list LedgerEntry.toJson_plain es

theorem depth_documentJson_le (es : List LedgerEntry) : (documentJson es).depth ≤ 3 := by
  refine Json.depth_object_le (n := 2) fun m hm => ?_
  simp only [List.mem_cons, List.not_mem_nil, or_false] at hm
  rcases hm with rfl | rfl
  · simp [Json.nat, Json.depth]
  · exact Json.depth_list_le LedgerEntry.depth_toJson_le es

theorem entries?_documentJson (es : List LedgerEntry) : entries? (documentJson es) = some es := by
  have hsound := Json.isSound_of_plain (documentJson_plain es)
  have hdepth : (documentJson es).depth ≤ Json.depthLimit :=
    Nat.le_trans (depth_documentJson_le es) (by decide)
  have hrecord : Json.asRecord ["schemaVersion", "entries"] (documentJson es) =
      some ⟨false, [("schemaVersion", .nat schema.toNat),
        ("entries", .list LedgerEntry.toJson es)]⟩ :=
    Json.asRecord_object (by simp) (by simp)
  have hversion : Json.asUInt32 (.nat schema.toNat) = some schema := Json.asUInt32_nat schema
  have hentries := Json.asList_list LedgerEntry.ofJson_toJson es
  simp only [entries?, hsound, hdepth, Bool.true_and, decide_true, if_true]
  have hobj : ∃ members, documentJson es = .obj members := ⟨_, rfl⟩
  obtain ⟨members, hmembers⟩ := hobj
  simp only [hmembers] at hrecord ⊢
  simp [hrecord, Json.Record.required, Json.Record.withDefault, Json.Record.get?, List.lookup,
    hversion, hentries]

def documentOf (items : List Json) : Json :=
  .object [("schemaVersion", .nat schema.toNat), ("entries", .arr items)]

theorem declaredSchema?_documentOf (items : List Json) :
    declaredSchema? (documentOf items) = some schema := by
  have hrecord : Json.asRecord ["schemaVersion"] (documentOf items) =
      some ⟨false, [("schemaVersion", .nat schema.toNat)]⟩ := by
    simp [documentOf, Json.object, Json.asRecord, Json.namedFields]
  have hversion :
      Json.asOption Json.asUInt32 (.option (fun n : UInt32 => .nat n.toNat) (some schema)) =
        some (some schema) :=
    Json.asOption_option (fun _ => by simp [Json.nat]) Json.asUInt32_nat (some schema)
  simp only [Json.option] at hversion
  simp [declaredSchema?, hrecord, Json.Record.nullable, Json.Record.get?, List.lookup, hversion]

theorem ofText_documentOf {text : String} {items : List Json} {es : List LedgerEntry}
    (hparse : Json.parse? text = some (documentOf items))
    (h : entries? (documentOf items) = some es) : Content.ofText text = .current es := by
  have hnewer : (some schema).filter (· > schema) = none := by decide
  simp only [Content.ofText, hparse, declaredSchema?_documentOf, hnewer, h, Option.getD_some]

/-- Writing entries and reading the file gives the entries, whatever they hold. -/
theorem ofText_jsonText_documentJson (es : List LedgerEntry) :
    Content.ofText (Store.jsonText (documentJson es)) = .current es :=
  ofText_documentOf (Json.parse?_jsonText (documentJson_plain es)) (entries?_documentJson es)

end Ledger
end SkillAudit
