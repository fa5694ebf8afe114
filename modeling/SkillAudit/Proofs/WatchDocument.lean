import Mathlib
import SkillAudit.Proofs.LedgerDocument
import SkillAudit.Proofs.TextMap
import SkillAudit.Watch.Report

/-! A watch state that is written to its file is the one read from it. -/
namespace SkillAudit

theorem Json.asDict_object {α : Type} {encode : α → Json} {decode : Json.Decoder α} {d : Dict α}
    (h : ∀ a ∈ d.values, decode (encode a) = some a) (hd : d.Sorted) :
    Json.asDict decode (.object (d.map fun (k, a) => (k, encode a))) = some d := by
  have hmap : Json.asMap decode (.object (d.map fun (k, a) => (k, encode a))) = some d := by
    clear hd
    simp only [Json.object, Json.asMap]
    induction d with
    | nil => rfl
    | cons x rest ih =>
      obtain ⟨k, a⟩ := x
      have hrest := ih fun b hb => h b (List.mem_cons_of_mem _ hb)
      simp only [List.map_cons, List.mapM_cons, hrest, h a (by simp [Dict.values])]
      rfl
  rw [Json.asDict, hmap, Option.map_some, Dict.ofList_of_sorted hd]

namespace WatchedPackage

theorem toJson_plain (p : WatchedPackage) : Json.Plain p.toJson := by
  refine Json.plain_object fun m hm => ?_
  simp only [List.mem_cons, List.not_mem_nil, or_false] at hm
  rcases hm with rfl | rfl | rfl | rfl | rfl
  · exact Json.plain_text _
  · exact Json.plain_nat (Nat.lt_trans p.score.toNat_lt (by decide))
  · exact Json.plain_nat p.findingsCount.toNat_lt
  · exact Json.plain_text _
  · exact Json.plain_list Json.plain_text _

theorem ofJson_toJson (p : WatchedPackage) : ofJson p.toJson = some p := by
  have hrecord : Json.asRecord ["hash", "score", "findingsCount", "lastScannedAt", "flowChains"]
      p.toJson = some ⟨false, [("hash", .text p.hash), ("score", .nat p.score.toNat),
        ("findingsCount", .nat p.findingsCount.toNat), ("lastScannedAt", p.lastScannedAt.toJson),
        ("flowChains", .list .text p.flowChains)]⟩ :=
    Json.asRecord_object (by simp) (by simp)
  have hchains : Json.asList Json.asText (.list .text p.flowChains) = some p.flowChains :=
    Json.asList_list Json.asText_text _
  simp [ofJson, hrecord, Json.Record.required, Json.Record.withDefault, Json.Record.get?,
    List.lookup, Json.asText_text, Json.asUInt32_nat, Json.asUInt64_nat, Instant.ofJson_toJson,
    hchains]

end WatchedPackage

namespace WatchState

theorem toJson_plain (s : WatchState) : Json.Plain s.toJson := by
  refine Json.plain_object fun m hm => ?_
  simp only [List.mem_cons, List.not_mem_nil, or_false] at hm
  rcases hm with rfl | rfl | rfl
  · exact Json.plain_nat (Nat.lt_trans s.schemaVersion.toNat_lt (by decide))
  · exact Json.plain_option (fun t : Instant => Json.plain_text t.text) _
  · refine Json.plain_object fun m hm => ?_
    obtain ⟨x, -, rfl⟩ := List.mem_map.mp hm
    exact x.2.toJson_plain

theorem ofJson_toJson {s : WatchState} (h : s.skills.Sorted) : ofJson s.toJson = some s := by
  have hrecord : Json.asRecord ["schemaVersion", "lastRunAt", "skills"] s.toJson =
      some ⟨false, [("schemaVersion", .nat s.schemaVersion.toNat),
        ("lastRunAt", .option Instant.toJson s.lastRunAt),
        ("skills", _)]⟩ :=
    Json.asRecord_object (by simp) (by simp)
  have hrun : Json.asOption Instant.ofJson (.option Instant.toJson s.lastRunAt) =
      some s.lastRunAt :=
    Json.asOption_option (by simp [Instant.toJson, Json.text]) Instant.ofJson_toJson _
  have hskills := Json.asDict_object (fun p _ => WatchedPackage.ofJson_toJson p) h
  simp [ofJson, hrecord, Json.Record.withDefault, Json.Record.nullable, Json.Record.get?,
    List.lookup, Json.asUInt32_nat, hrun, hskills]

end WatchState
end SkillAudit
