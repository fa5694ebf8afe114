import SkillAudit.Diff.Basic
import SkillAudit.Ledger.Entry

/-! What the gate decides about a package. -/
namespace SkillAudit

inductive Verdict where
  | allow
  | review
  | block
  deriving DecidableEq, Repr

namespace Verdict

def word : Verdict → String
  | allow => "ALLOW"
  | review => "REVIEW"
  | block => "BLOCK"

def ofWord? : String → Option Verdict
  | "ALLOW" => some allow
  | "REVIEW" => some review
  | "BLOCK" => some block
  | _ => none

def all : List Verdict := [allow, review, block]

def toJson (v : Verdict) : Json := .text v.word

def ofJson : Json.Decoder Verdict := Json.asWord ofWord?

end Verdict

structure Decision where
  name : String
  version : Option String
  verdict : Verdict
  /-- The score of the scan less the flows. -/
  score : UInt32
  risk : Risk
  findings : List Finding
  flowFindings : List Finding
  requiresApproval : Bool
  hash : String
  previouslyApproved : Bool
  reason : String
  diff : Option Diff
  deriving DecidableEq, Repr

namespace Decision

def findingsCount (d : Decision) : Nat := d.findings.length + d.flowFindings.length

def toJson (d : Decision) : Json := .object ([
  ("name", .text d.name),
  ("version", .option .text d.version),
  ("decision", d.verdict.toJson),
  ("score", .nat d.score.toNat),
  ("risk", d.risk.toJson),
  ("findings", .list Finding.toJson d.findings),
  ("flowFindings", .list Finding.toJson d.flowFindings),
  ("requiresApproval", .bool d.requiresApproval),
  ("hash", .text d.hash),
  ("previouslyApproved", .bool d.previouslyApproved),
  ("reason", .text d.reason)] ++
  Json.whenSome "diffResult" Diff.toJson d.diff)

def fieldNames : List String :=
  ["name", "version", "decision", "score", "risk", "findings", "flowFindings", "requiresApproval",
    "hash", "previouslyApproved", "reason", "diffResult"]

def ofJson : Json.Decoder Decision := fun j => do
  let r ← Json.asRecord fieldNames j
  return {
    name := ← r.required "name" Json.asText
    version := ← r.optional "version" Json.asText
    verdict := ← r.required "decision" Verdict.ofJson
    score := ← r.required "score" Json.asUInt32
    risk := ← r.required "risk" Risk.ofJson
    findings := ← r.required "findings" (Json.asList Finding.ofJson)
    flowFindings := ← r.required "flowFindings" (Json.asList Finding.ofJson)
    requiresApproval := ← r.required "requiresApproval" Json.asBool
    hash := ← r.required "hash" Json.asText
    previouslyApproved := ← r.required "previouslyApproved" Json.asBool
    reason := ← r.required "reason" Json.asText
    diff := ← r.optional "diffResult" Diff.ofJson }

end Decision

inductive VerifyStatus where
  | matches
  | mismatch
  | notApproved
  deriving DecidableEq, Repr

namespace VerifyStatus

def word : VerifyStatus → String
  | .matches => "match"
  | mismatch => "mismatch"
  | notApproved => "not-approved"

def ofWord? : String → Option VerifyStatus
  | "match" => some .matches
  | "mismatch" => some mismatch
  | "not-approved" => some notApproved
  | _ => none

def label : VerifyStatus → String
  | .matches => "MATCH"
  | mismatch => "MISMATCH"
  | notApproved => "NOT APPROVED"

def toJson (s : VerifyStatus) : Json := .text s.word

def ofJson : Json.Decoder VerifyStatus := Json.asWord ofWord?

end VerifyStatus

structure VerifyOutcome where
  name : String
  hash : String
  status : VerifyStatus
  approvedEntry : Option LedgerEntry
  deriving DecidableEq, Repr

namespace VerifyOutcome

def toJson (o : VerifyOutcome) : Json := .object [
  ("name", .text o.name),
  ("hash", .text o.hash),
  ("status", o.status.toJson),
  ("approvedEntry", .option LedgerEntry.toJson o.approvedEntry)]

def ofJson : Json.Decoder VerifyOutcome := fun j => do
  let r ← Json.asRecord ["name", "hash", "status", "approvedEntry"] j
  return {
    name := ← r.required "name" Json.asText
    hash := ← r.required "hash" Json.asText
    status := ← r.required "status" VerifyStatus.ofJson
    approvedEntry := ← r.nullable "approvedEntry" LedgerEntry.ofJson }

end VerifyOutcome
end SkillAudit
