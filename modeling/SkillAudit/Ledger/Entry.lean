import SkillAudit.Severity
import SkillAudit.Time.Instant

/-! Records of approved and blocked packages. -/
namespace SkillAudit

inductive EntryStatus where
  | approved
  | blocked
  | revoked
  deriving DecidableEq, Repr

namespace EntryStatus

def word : EntryStatus → String
  | approved => "approved"
  | blocked => "blocked"
  | revoked => "revoked"

def ofWord? : String → Option EntryStatus
  | "approved" => some approved
  | "blocked" => some blocked
  | "revoked" => some revoked
  | _ => none

def toJson (s : EntryStatus) : Json := .text s.word

def ofJson : Json.Decoder EntryStatus := Json.asWord ofWord?

end EntryStatus

inductive Approver where
  | auto
  | human
  deriving DecidableEq, Repr

namespace Approver

def word : Approver → String
  | auto => "auto"
  | human => "human"

def ofWord? : String → Option Approver
  | "auto" => some auto
  | "human" => some human
  | _ => none

def toJson (a : Approver) : Json := .text a.word

def ofJson : Json.Decoder Approver := Json.asWord ofWord?

end Approver

namespace Instant

def toJson (t : Instant) : Json := .text t.text

def ofJson : Json.Decoder Instant := fun j => (Json.asText j).bind parse?

end Instant

structure LedgerEntry where
  name : String
  version : Option String
  source : Option String
  score : UInt32
  risk : Risk
  hash : String
  date : Option Instant
  status : EntryStatus
  approver : Approver
  purpose : Option String
  findingsCount : Option UInt64
  revokedAt : Option Instant
  deriving DecidableEq, Repr

namespace LedgerEntry

def toJson (e : LedgerEntry) : Json := .object ([
  ("name", .text e.name),
  ("version", .option .text e.version),
  ("source", .option .text e.source),
  ("score", .nat e.score.toNat),
  ("risk", e.risk.toJson),
  ("hash", .text e.hash),
  ("date", .option Instant.toJson e.date),
  ("status", e.status.toJson),
  ("approver", e.approver.toJson)] ++
  Json.whenSome "purpose" .text e.purpose ++
  Json.whenSome "findingsCount" (fun n => .nat n.toNat) e.findingsCount ++
  Json.whenSome "revokedAt" Instant.toJson e.revokedAt)

def fieldNames : List String :=
  ["name", "version", "source", "score", "risk", "hash", "date", "status", "approver", "purpose",
    "findingsCount", "revokedAt"]

def ofJson : Json.Decoder LedgerEntry := fun j => do
  let r ← Json.asRecord fieldNames j
  return {
    name := ← r.required "name" Json.asText
    version := ← r.optional "version" Json.asText
    source := ← r.optional "source" Json.asText
    score := ← r.required "score" Json.asUInt32
    risk := ← r.required "risk" Risk.ofJson
    hash := ← r.required "hash" Json.asText
    date := ← r.optional "date" Instant.ofJson
    status := ← r.required "status" EntryStatus.ofJson
    approver := ← r.required "approver" Approver.ofJson
    purpose := ← r.optional "purpose" Json.asText
    findingsCount := ← r.optional "findingsCount" Json.asUInt64
    revokedAt := ← r.optional "revokedAt" Instant.ofJson }

end LedgerEntry

structure ApprovalStatus where
  approved : Bool
  /-- The latest entry for the name. -/
  entry : Option LedgerEntry
  /-- For an approved package, whether the hash asked about is the approved one. -/
  hashMatch : Option Bool
  deriving DecidableEq, Repr

namespace ApprovalStatus

def toJson (s : ApprovalStatus) : Json := .object [
  ("approved", .bool s.approved),
  ("entry", .option LedgerEntry.toJson s.entry),
  ("hashMatch", .option .bool s.hashMatch)]

def ofJson : Json.Decoder ApprovalStatus := fun j => do
  let r ← Json.asRecord ["approved", "entry", "hashMatch"] j
  return {
    approved := ← r.required "approved" Json.asBool
    entry := ← r.nullable "entry" LedgerEntry.ofJson
    hashMatch := ← r.nullable "hashMatch" Json.asBool }

end ApprovalStatus

structure LedgerStats where
  total : Nat
  approved : Nat
  blocked : Nat
  revoked : Nat
  /-- Distinct names. -/
  packages : Nat
  deriving DecidableEq, Repr

namespace LedgerStats

def ofEntries (entries : List LedgerEntry) : LedgerStats :=
  let count (s : EntryStatus) : Nat := (entries.filter (·.status == s)).length
  { total := entries.length
    approved := count .approved
    blocked := count .blocked
    revoked := count .revoked
    packages := (entries.map (·.name)).eraseDups.length }

def toJson (s : LedgerStats) : Json := .object [
  ("total", .nat s.total),
  ("approved", .nat s.approved),
  ("blocked", .nat s.blocked),
  ("revoked", .nat s.revoked),
  ("packages", .nat s.packages)]

end LedgerStats
end SkillAudit
