import SkillAudit.Json.Tree
import SkillAudit.Ledger.Entry

/-! What a watch cycle remembers and reports. -/
namespace SkillAudit

def watchSchema : UInt32 := 1

structure WatchedPackage where
  hash : String
  score : UInt32
  findingsCount : UInt64
  lastScannedAt : Instant
  flowChains : List String
  deriving DecidableEq, Repr

namespace WatchedPackage

def toJson (p : WatchedPackage) : Json := .object [
  ("hash", .text p.hash),
  ("score", .nat p.score.toNat),
  ("findingsCount", .nat p.findingsCount.toNat),
  ("lastScannedAt", p.lastScannedAt.toJson),
  ("flowChains", .list .text p.flowChains)]

def ofJson : Json.Decoder WatchedPackage := fun j => do
  let r ← Json.asRecord ["hash", "score", "findingsCount", "lastScannedAt", "flowChains"] j
  return {
    hash := ← r.required "hash" Json.asText
    score := ← r.required "score" Json.asUInt32
    findingsCount := ← r.required "findingsCount" Json.asUInt64
    lastScannedAt := ← r.required "lastScannedAt" Instant.ofJson
    flowChains := ← r.withDefault "flowChains" [] (Json.asList Json.asText) }

end WatchedPackage

structure WatchState where
  schemaVersion : UInt32
  lastRunAt : Option Instant
  skills : Dict WatchedPackage
  deriving DecidableEq, Repr

namespace WatchState

def empty : WatchState := ⟨watchSchema, none, []⟩

def toJson (s : WatchState) : Json := .object [
  ("schemaVersion", .nat s.schemaVersion.toNat),
  ("lastRunAt", .option Instant.toJson s.lastRunAt),
  ("skills", .object (s.skills.map fun (k, p) => (k, p.toJson)))]

def ofJson : Json.Decoder WatchState := fun j => do
  let r ← Json.asRecord ["schemaVersion", "lastRunAt", "skills"] j
  return {
    schemaVersion := ← r.withDefault "schemaVersion" watchSchema Json.asUInt32
    lastRunAt := ← r.nullable "lastRunAt" Instant.ofJson
    skills := ← r.withDefault "skills" [] (Json.asDict WatchedPackage.ofJson) }

end WatchState

inductive AlertKind where
  | modified
  | newFindings
  | scoreDrop
  | unapproved
  | newSkill
  | removed
  deriving DecidableEq, Repr

namespace AlertKind

def word : AlertKind → String
  | modified => "modified"
  | newFindings => "new_findings"
  | scoreDrop => "score_drop"
  | unapproved => "unapproved"
  | newSkill => "new_skill"
  | removed => "removed"

def ofWord? : String → Option AlertKind
  | "modified" => some modified
  | "new_findings" => some newFindings
  | "score_drop" => some scoreDrop
  | "unapproved" => some unapproved
  | "new_skill" => some newSkill
  | "removed" => some removed
  | _ => none

def toJson (k : AlertKind) : Json := .text k.word

def ofJson : Json.Decoder AlertKind := Json.asWord ofWord?

end AlertKind

inductive AlertSeverity where
  | info
  | medium
  | high
  | critical
  deriving DecidableEq, Repr

namespace AlertSeverity

def word : AlertSeverity → String
  | info => "info"
  | medium => "medium"
  | high => "high"
  | critical => "critical"

def ofWord? : String → Option AlertSeverity
  | "info" => some info
  | "medium" => some medium
  | "high" => some high
  | "critical" => some critical
  | _ => none

def rank : AlertSeverity → Nat
  | info => 0
  | medium => 1
  | high => 2
  | critical => 3

def all : List AlertSeverity := [info, medium, high, critical]

def max (a b : AlertSeverity) : AlertSeverity := if a.rank ≤ b.rank then b else a

def toJson (s : AlertSeverity) : Json := .text s.word

def ofJson : Json.Decoder AlertSeverity := Json.asWord ofWord?

end AlertSeverity

structure WatchAlert where
  kind : AlertKind
  severity : AlertSeverity
  skill : String
  message : String
  details : Option Json
  deriving Repr

namespace WatchAlert

def toJson (a : WatchAlert) : Json := .object ([
  ("type", a.kind.toJson),
  ("severity", a.severity.toJson),
  ("skill", .text a.skill),
  ("message", .text a.message)] ++
  Json.whenSome "details" id a.details)

def ofJson : Json.Decoder WatchAlert := fun j => do
  let r ← Json.asRecord ["type", "severity", "skill", "message", "details"] j
  return {
    kind := ← r.required "type" AlertKind.ofJson
    severity := ← r.required "severity" AlertSeverity.ofJson
    skill := ← r.required "skill" Json.asText
    message := ← r.required "message" Json.asText
    details := ← r.optional "details" (Json.asTree 3) }

end WatchAlert

structure WatchReport where
  alerts : List WatchAlert
  scanned : Nat
  /-- How many of them have no alert above information. -/
  clean : Nat
  timestamp : Instant
  deriving Repr

namespace WatchReport

def worst? (r : WatchReport) : Option AlertSeverity :=
  r.alerts.foldl (fun worst a => some ((worst.map (·.max a.severity)).getD a.severity)) none

def toJson (r : WatchReport) : Json := .object [
  ("alerts", .list WatchAlert.toJson r.alerts),
  ("scanned", .nat r.scanned),
  ("clean", .nat r.clean),
  ("timestamp", r.timestamp.toJson)]

def ofJson : Json.Decoder WatchReport := fun j => do
  let r ← Json.asRecord ["alerts", "scanned", "clean", "timestamp"] j
  return {
    alerts := ← r.required "alerts" (Json.asList WatchAlert.ofJson)
    scanned := ← r.required "scanned" Json.asNat
    clean := ← r.required "clean" Json.asNat
    timestamp := ← r.required "timestamp" Instant.ofJson }

end WatchReport
end SkillAudit
