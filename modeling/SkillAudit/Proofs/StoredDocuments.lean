import Mathlib
import SkillAudit.Pending
import SkillAudit.Proofs.LocalLedger
import SkillAudit.Proofs.WatchDocument
import SkillAudit.Watch.Cycle

/-!
What is written to the ledger, the watch state and the file of pending reviews is what is read from
it. Numbers without a width of their own have to fit in the words that a document has for them.
-/
namespace SkillAudit

namespace Json

theorem asBool_bool (b : Bool) : asBool (.bool b) = some b := rfl

theorem asNat_nat {n : Nat} (h : n < 2 ^ 64) : asNat (.nat n) = some n := by
  simpa [asNat, asNatBelow, nat] using h

def Fits (i : Int) : Prop := -2 ^ 63 ≤ i ∧ i < 2 ^ 63

theorem plain_int {i : Int} (h : Fits i) : Plain (.int i) := by
  obtain ⟨hleast, hgreatest⟩ := h
  refine .int ?_
  by_cases hneg : i < 0
  · have hpos : 0 < i.natAbs := by omega
    have hbound : i.natAbs ≤ 0x8000000000000000 := by omega
    simp [Number.isExact, hneg, hpos, hbound]
  · have hbound : i.natAbs < UInt64.size := by
      have hsize : UInt64.size = 2 ^ 64 := rfl
      omega
    simp [Number.isExact, hneg, hbound]

theorem asInt_int {i : Int} (h : Fits i) : asInt (.int i) = some i := by
  obtain ⟨hleast, hgreatest⟩ := h
  by_cases hneg : i < 0
  · have hpos : 0 < i.natAbs := by omega
    have hbound : i.natAbs ≤ 0x8000000000000000 := by omega
    have hback : -(i.natAbs : Int) = i := by omega
    simp only [int, hneg, decide_true, asInt, hpos, hbound, Bool.and_self, if_true, hback]
  · have hbound : i.natAbs < 0x8000000000000000 := by omega
    have hback : (i.natAbs : Int) = i := by omega
    simp only [int, hneg, decide_false, asInt, hbound, if_true, hback]

namespace Record
variable {r : Record} {name : String} {α : Type} {decode : Decoder α} {j : Json}

theorem required_of_get? {a : α} (hget : r.get? name = some j) (h : decode j = some a) :
    r.required name decode = some a := by
  rw [required, hget, Option.bind_some, h]

theorem optional_of_get? {o : Option α} (hget : r.get? name = some j)
    (h : asOption decode j = some o) : r.optional name decode = some o := by
  simp only [optional, withDefault, hget, h]

end Record
end Json

theorem Severity.ofJson_toJson (s : Severity) : Severity.ofJson s.toJson = some s := by
  cases s <;> simp [Severity.ofJson, Severity.toJson, Json.text, Json.asWord, Severity.word,
    Severity.ofWord?]

theorem Signal.ofJson_toJson (s : Signal) : Signal.ofJson s.toJson = some s := by
  cases s <;> simp [Signal.ofJson, Signal.toJson, Json.text, Json.asWord, Signal.word,
    Signal.ofWord?]

theorem Verdict.ofJson_toJson (v : Verdict) : Verdict.ofJson v.toJson = some v := by
  cases v <;> simp [Verdict.ofJson, Verdict.toJson, Json.text, Json.asWord, Verdict.word,
    Verdict.ofWord?]

namespace Finding

def Fits (f : Finding) : Prop := f.line < 2 ^ 64

variable {f : Finding}

theorem toJson_plain (h : f.Fits) : Json.Plain f.toJson := by
  refine Json.plain_object fun m hm => ?_
  simp only [List.mem_cons, List.not_mem_nil, or_false] at hm
  rcases hm with rfl | rfl | rfl | rfl | rfl | rfl | rfl
  · exact Json.plain_text _
  · exact Json.plain_text _
  · exact Json.plain_text _
  · exact Json.plain_text _
  · exact Json.plain_nat h
  · exact Json.plain_text _
  · exact Json.plain_nat (Nat.lt_trans f.weight.toNat_lt (by decide))

theorem ofJson_toJson (h : f.Fits) : ofJson f.toJson = some f := by
  have hrecord : Json.asRecord
      ["ruleId", "severity", "category", "file", "line", "matchText", "weight"] f.toJson =
        some ⟨false, [("ruleId", .text f.ruleId), ("severity", f.severity.toJson),
          ("category", .text f.category), ("file", .text f.file), ("line", .nat f.line),
          ("matchText", .text f.matchText), ("weight", .nat f.weight.toNat)]⟩ :=
    Json.asRecord_object (by simp) (by simp)
  simp [ofJson, hrecord, Json.Record.required, Json.Record.get?, List.lookup, Json.asText_text,
    Json.asNat_nat h, Json.asUInt32_nat, Severity.ofJson_toJson]

end Finding

namespace SensitiveChange

def Fits (c : SensitiveChange) : Prop := c.line < 2 ^ 64

variable {c : SensitiveChange}

theorem toJson_plain (h : c.Fits) : Json.Plain c.toJson := by
  refine Json.plain_object fun m hm => ?_
  simp only [List.mem_cons, List.not_mem_nil, or_false] at hm
  rcases hm with rfl | rfl | rfl
  · exact Json.plain_text _
  · exact Json.plain_text _
  · exact Json.plain_nat h

theorem ofJson_toJson (h : c.Fits) : ofJson c.toJson = some c := by
  have hrecord : Json.asRecord ["file", "signal", "line"] c.toJson =
      some ⟨false, [("file", .text c.file), ("signal", c.signal.toJson), ("line", .nat c.line)]⟩ :=
    Json.asRecord_object (by simp) (by simp)
  simp [ofJson, hrecord, Json.Record.required, Json.Record.get?, List.lookup, Json.asText_text,
    Json.asNat_nat h, Signal.ofJson_toJson]

end SensitiveChange

/-- The lines and the difference of the scores fit in 64 bits. -/
structure Diff.Fits (d : Diff) : Prop where
  newFindings : ∀ f ∈ d.newFindings, f.Fits
  removedFindings : ∀ f ∈ d.removedFindings, f.Fits
  riskDelta : Json.Fits d.riskDelta
  sensitiveChanges : ∀ c ∈ d.sensitiveChanges, c.Fits

namespace Diff
variable {d : Diff}

theorem toJson_plain (h : d.Fits) : Json.Plain d.toJson := by
  refine Json.plain_object fun m hm => ?_
  have htexts : ∀ xs : List String, Json.Plain (.list .text xs) := Json.plain_list Json.plain_text
  simp only [List.mem_cons, List.not_mem_nil, or_false] at hm
  rcases hm with rfl | rfl | rfl | rfl | rfl | rfl | rfl | rfl | rfl
  · exact htexts _
  · exact htexts _
  · exact htexts _
  · exact htexts _
  · exact Json.plain_list_of_mem fun f hf => Finding.toJson_plain (h.newFindings f hf)
  · exact Json.plain_list_of_mem fun f hf => Finding.toJson_plain (h.removedFindings f hf)
  · exact Json.plain_int h.riskDelta
  · exact Json.plain_list_of_mem fun c hc => SensitiveChange.toJson_plain (h.sensitiveChanges c hc)
  · exact Json.plain_text _

theorem ofJson_toJson (h : d.Fits) : ofJson d.toJson = some d := by
  have hrecord : Json.asRecord ["added", "removed", "modified", "unchanged", "newFindings",
      "removedFindings", "riskDelta", "sensitiveChanges", "summary"] d.toJson =
        some ⟨false, [("added", .list .text d.added), ("removed", .list .text d.removed),
          ("modified", .list .text d.modified), ("unchanged", .list .text d.unchanged),
          ("newFindings", .list Finding.toJson d.newFindings),
          ("removedFindings", .list Finding.toJson d.removedFindings),
          ("riskDelta", .int d.riskDelta),
          ("sensitiveChanges", .list SensitiveChange.toJson d.sensitiveChanges),
          ("summary", .text d.summary)]⟩ :=
    Json.asRecord_object (by simp) (by simp)
  have htexts := Json.asList_list Json.asText_text
  have hnew := Json.asList_list_of_mem fun f hf => Finding.ofJson_toJson (h.newFindings f hf)
  have hremoved := Json.asList_list_of_mem fun f hf =>
    Finding.ofJson_toJson (h.removedFindings f hf)
  have hchanges := Json.asList_list_of_mem fun c hc =>
    SensitiveChange.ofJson_toJson (h.sensitiveChanges c hc)
  unfold ofJson
  refine Option.bind_eq_some_iff.mpr ⟨_, hrecord, ?_⟩
  refine Option.bind_eq_some_iff.mpr ⟨_, Json.Record.required_of_get? rfl (htexts _), ?_⟩
  refine Option.bind_eq_some_iff.mpr ⟨_, Json.Record.required_of_get? rfl (htexts _), ?_⟩
  refine Option.bind_eq_some_iff.mpr ⟨_, Json.Record.required_of_get? rfl (htexts _), ?_⟩
  refine Option.bind_eq_some_iff.mpr ⟨_, Json.Record.required_of_get? rfl (htexts _), ?_⟩
  refine Option.bind_eq_some_iff.mpr ⟨_, Json.Record.required_of_get? rfl hnew, ?_⟩
  refine Option.bind_eq_some_iff.mpr ⟨_, Json.Record.required_of_get? rfl hremoved, ?_⟩
  refine Option.bind_eq_some_iff.mpr
    ⟨_, Json.Record.required_of_get? rfl (Json.asInt_int h.riskDelta), ?_⟩
  refine Option.bind_eq_some_iff.mpr ⟨_, Json.Record.required_of_get? rfl hchanges, ?_⟩
  refine Option.bind_eq_some_iff.mpr
    ⟨_, Json.Record.required_of_get? rfl (Json.asText_text _), ?_⟩
  rfl

end Diff

/-- All numbers of a decision fit in 64 bits. -/
structure Decision.Fits (d : Decision) : Prop where
  findings : ∀ f ∈ d.findings, f.Fits
  flowFindings : ∀ f ∈ d.flowFindings, f.Fits
  diff : ∀ x ∈ d.diff, x.Fits

namespace Decision
variable {d : Decision}

theorem toJson_plain (h : d.Fits) : Json.Plain d.toJson := by
  refine Json.plain_object fun m hm => ?_
  simp only [List.mem_append, List.mem_cons, List.not_mem_nil, or_false] at hm
  rcases hm with hm | hm
  · rcases hm with rfl | rfl | rfl | rfl | rfl | rfl | rfl | rfl | rfl | rfl | rfl
    · exact Json.plain_text _
    · exact Json.plain_option Json.plain_text _
    · exact Json.plain_text _
    · exact Json.plain_nat (Nat.lt_trans d.score.toNat_lt (by decide))
    · exact Json.plain_text _
    · exact Json.plain_list_of_mem fun f hf => Finding.toJson_plain (h.findings f hf)
    · exact Json.plain_list_of_mem fun f hf => Finding.toJson_plain (h.flowFindings f hf)
    · exact .bool _
    · exact Json.plain_text _
    · exact .bool _
    · exact Json.plain_text _
  · cases hdiff : d.diff with
    | none => simp [hdiff, Json.whenSome] at hm
    | some x =>
      obtain rfl : m = ("diffResult", x.toJson) := by simpa [hdiff, Json.whenSome] using hm
      exact Diff.toJson_plain (h.diff x hdiff)

theorem ofJson_toJson (h : d.Fits) : ofJson d.toJson = some d := by
  have hrecord : Json.asRecord fieldNames d.toJson = some ⟨false, [
      ("name", .text d.name), ("version", .option .text d.version),
      ("decision", d.verdict.toJson), ("score", .nat d.score.toNat), ("risk", d.risk.toJson),
      ("findings", .list Finding.toJson d.findings),
      ("flowFindings", .list Finding.toJson d.flowFindings),
      ("requiresApproval", .bool d.requiresApproval), ("hash", .text d.hash),
      ("previouslyApproved", .bool d.previouslyApproved), ("reason", .text d.reason)] ++
      Json.whenSome "diffResult" Diff.toJson d.diff⟩ := by
    apply Json.asRecord_object
    all_goals cases d.diff <;> simp [Json.whenSome, fieldNames]
  have hversion : Json.asOption Json.asText (.option .text d.version) = some d.version :=
    Json.asOption_option (by simp [Json.text]) Json.asText_text _
  have hfindings := Json.asList_list_of_mem fun f hf => Finding.ofJson_toJson (h.findings f hf)
  have hflow := Json.asList_list_of_mem fun f hf => Finding.ofJson_toJson (h.flowFindings f hf)
  have hdiff : Json.Record.optional ⟨false, [
      ("name", .text d.name), ("version", .option .text d.version),
      ("decision", d.verdict.toJson), ("score", .nat d.score.toNat), ("risk", d.risk.toJson),
      ("findings", .list Finding.toJson d.findings),
      ("flowFindings", .list Finding.toJson d.flowFindings),
      ("requiresApproval", .bool d.requiresApproval), ("hash", .text d.hash),
      ("previouslyApproved", .bool d.previouslyApproved), ("reason", .text d.reason)] ++
      Json.whenSome "diffResult" Diff.toJson d.diff⟩ "diffResult" Diff.ofJson = some d.diff := by
    cases hx : d.diff with
    | none => rfl
    | some x =>
      have hback := Diff.ofJson_toJson (h.diff x hx)
      have hobject : Json.asOption Diff.ofJson x.toJson = (Diff.ofJson x.toJson).map some := rfl
      exact Json.Record.optional_of_get? rfl (by rw [hobject, hback, Option.map_some])
  refine Option.bind_eq_some_iff.mpr ⟨_, hrecord, ?_⟩
  refine Option.bind_eq_some_iff.mpr
    ⟨_, Json.Record.required_of_get? rfl (Json.asText_text _), ?_⟩
  refine Option.bind_eq_some_iff.mpr ⟨_, Json.Record.optional_of_get? rfl hversion, ?_⟩
  refine Option.bind_eq_some_iff.mpr
    ⟨_, Json.Record.required_of_get? rfl (Verdict.ofJson_toJson _), ?_⟩
  refine Option.bind_eq_some_iff.mpr
    ⟨_, Json.Record.required_of_get? rfl (Json.asUInt32_nat _), ?_⟩
  refine Option.bind_eq_some_iff.mpr
    ⟨_, Json.Record.required_of_get? rfl (Risk.ofJson_toJson _), ?_⟩
  refine Option.bind_eq_some_iff.mpr ⟨_, Json.Record.required_of_get? rfl hfindings, ?_⟩
  refine Option.bind_eq_some_iff.mpr ⟨_, Json.Record.required_of_get? rfl hflow, ?_⟩
  refine Option.bind_eq_some_iff.mpr
    ⟨_, Json.Record.required_of_get? rfl (Json.asBool_bool _), ?_⟩
  refine Option.bind_eq_some_iff.mpr
    ⟨_, Json.Record.required_of_get? rfl (Json.asText_text _), ?_⟩
  refine Option.bind_eq_some_iff.mpr
    ⟨_, Json.Record.required_of_get? rfl (Json.asBool_bool _), ?_⟩
  refine Option.bind_eq_some_iff.mpr
    ⟨_, Json.Record.required_of_get? rfl (Json.asText_text _), ?_⟩
  refine Option.bind_eq_some_iff.mpr ⟨_, hdiff, ?_⟩
  rfl

end Decision

namespace PendingReview
variable {r : PendingReview}

theorem toJson_plain (h : r.decision.Fits) : Json.Plain r.toJson := by
  refine Json.plain_object fun m hm => ?_
  simp only [List.mem_cons, List.not_mem_nil, or_false] at hm
  rcases hm with rfl | rfl | rfl | rfl
  · exact Decision.toJson_plain h
  · exact Json.plain_text _
  · exact Json.plain_option Json.plain_text _
  · exact Json.plain_text _

theorem ofJson_toJson (h : r.decision.Fits) : ofJson r.toJson = some r := by
  have hrecord : Json.asRecord ["decision", "path", "source", "recordedAt"] r.toJson =
      some ⟨false, [("decision", r.decision.toJson), ("path", .text r.path),
        ("source", .option .text r.source), ("recordedAt", r.recordedAt.toJson)]⟩ :=
    Json.asRecord_object (by simp) (by simp)
  have hsource : Json.asOption Json.asText (.option .text r.source) = some r.source :=
    Json.asOption_option (by simp [Json.text]) Json.asText_text _
  simp [ofJson, hrecord, Json.Record.required, Json.Record.optional, Json.Record.withDefault,
    Json.Record.get?, List.lookup, Json.asText_text, Instant.ofJson_toJson, hsource,
    Decision.ofJson_toJson h]

end PendingReview

namespace Pending
variable {reviews : Dict PendingReview}

theorem documentJson_plain (h : ∀ r ∈ reviews.values, r.decision.Fits) :
    Json.Plain (documentJson reviews) := by
  refine Json.plain_object fun m hm => ?_
  obtain rfl := List.mem_singleton.mp hm
  refine Json.plain_object fun m hm => ?_
  obtain ⟨x, hx, rfl⟩ := List.mem_map.mp hm
  exact PendingReview.toJson_plain (h x.2 (List.mem_map.mpr ⟨x, hx, rfl⟩))

theorem reviews?_documentJson (hsorted : reviews.Sorted)
    (h : ∀ r ∈ reviews.values, r.decision.Fits) :
    reviews? (documentJson reviews) = some reviews := by
  have hrecord : Json.asRecord ["reviews"] (documentJson reviews) =
      some ⟨false, [("reviews", _)]⟩ :=
    Json.asRecord_object (by simp) (by simp)
  have hreviews := Json.asDict_object (fun r hr => PendingReview.ofJson_toJson (h r hr)) hsorted
  simp only [reviews?, hrecord, Option.bind_eq_bind, Option.bind_some, Json.Record.withDefault,
    Json.Record.get?, List.lookup, BEq.rfl, hreviews]

theorem load_of_read? {w : World} {path : String} (hsorted : reviews.Sorted)
    (h : ∀ r ∈ reviews.values, r.decision.Fits)
    (hread : Store.read? w path = some (Store.jsonText (documentJson reviews))) :
    load w path = reviews := by
  simp only [load, Store.readJson?, hread, Option.bind_some,
    Json.parse?_jsonText (documentJson_plain h), reviews?_documentJson hsorted h, Option.getD_some]

end Pending

/-- A file with the text of a watch state of the present schema holds this state. -/
theorem Watcher.state_of_read? {watcher : Watcher} {w : World} {s : WatchState}
    (hschema : s.schemaVersion = watchSchema) (hskills : s.skills.Sorted)
    (hread : Store.read? w watcher.statePath = some (Store.jsonText s.toJson)) :
    watcher.state w = s := by
  simp only [state, Store.readJson?, hread, Option.bind_some,
    Json.parse?_jsonText s.toJson_plain, WatchState.ofJson_toJson hskills, hschema]
  exact if_neg (by decide)

namespace Ledger

/-- A list without a document around it is read as the document is. -/
theorem entries?_arr {items : List Json} {es : List LedgerEntry}
    (h : entries? (documentOf items) = some es) :
    entries? (.arr items) = some es ∧ items.mapM LedgerEntry.ofJson = some es := by
  have hrecord : Json.asRecord ["schemaVersion", "entries"] (documentOf items) =
      some ⟨false, [("schemaVersion", .nat schema.toNat), ("entries", .arr items)]⟩ :=
    Json.asRecord_object (by simp) (by simp)
  have hversion : Json.asUInt32 (.nat schema.toNat) = some schema := Json.asUInt32_nat schema
  unfold entries? at h
  split at h
  swap
  · cases h
  next hok =>
    have hmembers : ∃ members, documentOf items = .obj members := ⟨_, rfl⟩
    obtain ⟨members, hmembers⟩ := hmembers
    simp only [hmembers] at hrecord h
    have hlist : Json.asList LedgerEntry.ofJson (.arr items) = some es := by
      simpa [hrecord, Json.Record.required, Json.Record.withDefault, Json.Record.get?, List.lookup,
        hversion] using h
    have hsound : (Json.arr items).isSound = true := by
      simp_all [documentOf, Json.object, Json.isSound, Json.isSound.soundMembers]
    have hdepth : (Json.arr items).depth ≤ Json.depthLimit := by
      have hbound : (documentOf items).depth ≤ Json.depthLimit := by simp_all
      simp only [documentOf, Json.object, List.map_cons, List.map_nil, Json.depth,
        Json.depth.depthMembers] at hbound ⊢
      omega
    refine ⟨?_, hlist⟩
    simp only [entries?, hsound, hdepth, decide_true, Bool.and_self, if_true, hlist]

theorem declaredSchema?_arr {items : List Json} {es : List LedgerEntry}
    (h : items.mapM LedgerEntry.ofJson = some es) : declaredSchema? (.arr items) = none := by
  match items with
  | [] => rfl
  | [j] =>
    obtain ⟨e, he⟩ : ∃ e, LedgerEntry.ofJson j = some e := by
      cases he : LedgerEntry.ofJson j with
      | none => simp [he] at h
      | some e => exact ⟨e, rfl⟩
    -- An entry is an object or an array, so it is no number.
    cases j with
    | obj members => rfl
    | arr items => rfl
    | null => cases he
    | bool b => cases he
    | num n => cases he
    | str text => cases he
  | _ :: _ :: _ => rfl

theorem ofText_arr {text : String} {items : List Json} {es : List LedgerEntry}
    (hparse : Json.parse? text = some (.arr items)) (h : entries? (documentOf items) = some es) :
    Content.ofText text = .current es := by
  obtain ⟨hentries, hitems⟩ := entries?_arr h
  simp only [Content.ofText, hparse, declaredSchema?_arr hitems, Option.filter_none, hentries,
    Option.getD_some]

end Ledger

/-- What is written is what is read: the text of a document is read as the value it was written for,
a file that has been written has that text, and entries in a bare list are those of the document that
holds the list. A path that leads through the link it replaces finds nothing any more. -/
theorem documents_read_back (es : List LedgerEntry) {s : WatchState}
    {reviews : Dict PendingReview} (hschema : s.schemaVersion = watchSchema)
    (hskills : s.skills.Sorted) (hreviews : reviews.Sorted)
    (hfits : ∀ r ∈ reviews.values, r.decision.Fits) :
    (∀ w path, Store.read? w path = some (Store.jsonText (Ledger.documentJson es)) →
      Ledger.Content.load w path = .current es) ∧
    (∀ (watcher : Watcher) w, Store.read? w watcher.statePath = some (Store.jsonText s.toJson) →
      watcher.state w = s) ∧
    (∀ w path, Store.read? w path = some (Store.jsonText (Pending.documentJson reviews)) →
      Pending.load w path = reviews) ∧
    (∀ w v path j r, Store.writeJson path j w = (.ok (), v) → w.route? path = some r →
      r.place ∉ r.links → Store.read? v path = some (Store.jsonText j)) ∧
    ∀ bare whole items, Json.parse? bare = some (.arr items) →
      Json.parse? whole = some (Ledger.documentOf items) →
      Ledger.entries? (Ledger.documentOf items) = some es →
        Ledger.Content.ofText bare = .current es ∧ Ledger.Content.ofText whole = .current es := by
  refine ⟨fun w path hread => ?_, fun watcher w => Watcher.state_of_read? hschema hskills,
    fun w path => Pending.load_of_read? hreviews hfits, fun w v path j r hwrite hr hself => ?_,
    fun bare whole items hbare hwhole hes => ?_⟩
  · simp only [Ledger.Content.load, hread]
    exact Ledger.ofText_jsonText_documentJson es
  · exact Store.read?_of_holds (Store.write_ok hwrite hr hself).2
  · exact ⟨Ledger.ofText_arr hbare hes, Ledger.ofText_documentOf hwhole hes⟩

def farReview : PendingReview where
  decision := {
    name := "p\u2028\"\x00"
    version := none
    verdict := .review
    score := 4294967295
    risk := .critical
    findings := [⟨"r", .low, "c", "f\\\n", 18446744073709551615, "😀", 4294967295⟩]
    flowFindings := []
    requiresApproval := true
    hash := ""
    previouslyApproved := false
    reason := "\x7f"
    diff := some ⟨["a"], [], [], [], [], [], -9223372036854775808, [⟨"f", .exec, 0⟩], ""⟩ }
  path := ""
  source := some ""
  recordedAt := .newYear

theorem documents_read_back_far :
    farReview.decision.Fits ∧
      Pending.load ⟨[(["pending.json"], .file (Store.jsonText
        (Pending.documentJson [("p", farReview)])).toUTF8)], []⟩ "pending.json" =
          [("p", farReview)] := by
  have hfits : farReview.decision.Fits := by
    refine ⟨?_, ?_, ?_⟩
    · simp [farReview, Finding.Fits]
    · simp [farReview]
    · rintro x ⟨⟩
      refine ⟨by simp, by simp, ⟨by decide, by decide⟩, ?_⟩
      simp [SensitiveChange.Fits]
  have hlocal : LocalPath "pending.json" "pending.json" := by decide
  refine ⟨hfits, ?_⟩
  obtain ⟨-, -, hpending, -⟩ := @documents_read_back [] .empty [("p", farReview)] rfl
    List.Pairwise.nil (List.pairwise_singleton _ _) (by simpa [Dict.values] using hfits)
  exact hpending _ _ (Store.read?_of_holds (hlocal.holds _ rfl))

end SkillAudit
