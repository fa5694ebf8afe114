import SkillAudit.Severity

/-! What a package may do once it runs, and how risky that is. -/
namespace SkillAudit

structure BehaviourFinding where
  kind : String
  severity : Severity
  file : String
  /-- From one on, or 0 for a sign in the whole file. -/
  line : Nat
  pattern : String
  description : String
  deriving DecidableEq, Repr

namespace BehaviourFinding

def toJson (f : BehaviourFinding) : Json := .object [
  ("type", .text f.kind),
  ("severity", f.severity.toJson),
  ("file", .text f.file),
  ("line", .nat f.line),
  ("pattern", .text f.pattern),
  ("description", .text f.description)]

def ofJson : Json.Decoder BehaviourFinding := fun j => do
  let r ← Json.asRecord ["type", "severity", "file", "line", "pattern", "description"] j
  return {
    kind := ← r.required "type" Json.asText
    severity := ← r.required "severity" Severity.ofJson
    file := ← r.required "file" Json.asText
    line := ← r.required "line" Json.asNat
    pattern := ← r.required "pattern" Json.asText
    description := ← r.required "description" Json.asText }

end BehaviourFinding

structure BehaviourReport where
  findings : List BehaviourFinding
  riskScore : UInt32
  filesAnalyzed : Nat
  deriving DecidableEq, Repr

namespace BehaviourReport

/-- The weights of some findings together, in 32 bits. -/
def weight (findings : List BehaviourFinding) : UInt32 :=
  findings.foldl (fun sum f => sum + f.severity.behaviourWeight) 0

/-- The report on some findings. A higher risk is worse, and 100 is the most. -/
def ofFindings (findings : List BehaviourFinding) (filesAnalyzed : Nat) : BehaviourReport :=
  let raw := weight findings
  { findings, riskScore := if raw ≤ 100 then raw else 100, filesAnalyzed }

def hasCritical (r : BehaviourReport) : Bool := r.findings.any (·.severity == .critical)

def toJson (r : BehaviourReport) : Json := .object [
  ("findings", .list BehaviourFinding.toJson r.findings),
  ("riskScore", .nat r.riskScore.toNat),
  ("filesAnalyzed", .nat r.filesAnalyzed)]

def ofJson : Json.Decoder BehaviourReport := fun j => do
  let r ← Json.asRecord ["findings", "riskScore", "filesAnalyzed"] j
  return {
    findings := ← r.required "findings" (Json.asList BehaviourFinding.ofJson)
    riskScore := ← r.required "riskScore" Json.asUInt32
    filesAnalyzed := ← r.required "filesAnalyzed" Json.asNat }

end BehaviourReport
end SkillAudit
