import SkillAudit.Severity

/-! Findings of the rules in a package, and the score they leave it. -/
namespace SkillAudit

/-- A match of a rule. A finding about several files has their names joined and line 0. -/
structure Finding where
  ruleId : String
  severity : Severity
  category : String
  file : String
  /-- From one on, or 0. -/
  line : Nat
  matchText : String
  weight : UInt32
  deriving DecidableEq, Repr

namespace Finding

/-- What makes two findings of two versions of a package the same. -/
def key (f : Finding) : String × String × Nat := (f.ruleId, f.file, f.line)

def toJson (f : Finding) : Json := .object [
  ("ruleId", .text f.ruleId),
  ("severity", f.severity.toJson),
  ("category", .text f.category),
  ("file", .text f.file),
  ("line", .nat f.line),
  ("matchText", .text f.matchText),
  ("weight", .nat f.weight.toNat)]

def ofJson : Json.Decoder Finding := fun j => do
  let r ← Json.asRecord ["ruleId", "severity", "category", "file", "line", "matchText", "weight"] j
  return {
    ruleId := ← r.required "ruleId" Json.asText
    severity := ← r.required "severity" Severity.ofJson
    category := ← r.required "category" Json.asText
    file := ← r.required "file" Json.asText
    line := ← r.required "line" Json.asNat
    matchText := ← r.required "matchText" Json.asText
    weight := ← r.required "weight" Json.asUInt32 }

end Finding

/-- A score of 100 less the weights, and no less than 0. The sum of 2 ^ 32 weights still fits into 64
bits. -/
def scoreOfWeights (weights : List UInt32) : UInt32 :=
  UInt32.ofNat (100 - weights.foldl (fun n w => n + w.toNat) 0)

structure ScanReport where
  score : UInt32
  risk : Risk
  findings : List Finding
  filesScanned : Nat
  filesSkipped : Nat
  complete : Bool
  deriving DecidableEq, Repr

namespace ScanReport

/-- The report on some findings. Every finding counts, also of two rules for one place. -/
def ofFindings (findings : List Finding) (scanned skipped : Nat) : ScanReport :=
  let score := scoreOfWeights (findings.map (·.weight))
  { score, risk := .ofScore score, findings, filesScanned := scanned, filesSkipped := skipped,
    complete := true }

/-- How many findings there are of each severity, the gravest first. -/
def severityCounts (r : ScanReport) : List (Severity × Nat) :=
  [Severity.critical, .high, .medium, .low].map fun s =>
    (s, (r.findings.filter (·.severity == s)).length)

def toJson (r : ScanReport) : Json := .object [
  ("score", .nat r.score.toNat),
  ("risk", r.risk.toJson),
  ("findings", .list Finding.toJson r.findings),
  ("filesScanned", .nat r.filesScanned),
  ("filesSkipped", .nat r.filesSkipped),
  ("complete", .bool r.complete)]

def ofJson : Json.Decoder ScanReport := fun j => do
  let r ← Json.asRecord
    ["score", "risk", "findings", "filesScanned", "filesSkipped", "complete"] j
  return {
    score := ← r.required "score" Json.asUInt32
    risk := ← r.required "risk" Risk.ofJson
    findings := ← r.required "findings" (Json.asList Finding.ofJson)
    filesScanned := ← r.required "filesScanned" Json.asNat
    filesSkipped := ← r.required "filesSkipped" Json.asNat
    complete := ← r.withDefault "complete" true Json.asBool }

end ScanReport
end SkillAudit
