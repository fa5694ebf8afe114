import SkillAudit.Flow.Graph
import SkillAudit.Package.Fingerprint
import SkillAudit.Policy

/-! Rules and flows of a package together. -/
namespace SkillAudit

/-- A path as a report holds it: its bytes may be no text. -/
structure OsPath where
  bytes : ByteArray
  deriving DecidableEq

namespace OsPath

def ofText (path : String) : OsPath := ⟨path.toUTF8⟩

def shown (p : OsPath) : String := Text.Utf8.lossy p.bytes

/-- What is said of a path that is no text. -/
def fault : String := "path contains invalid UTF-8 characters"

def toJson (p : OsPath) : Except String Json :=
  match String.fromUTF8? p.bytes with
  | some path => .ok (.text path)
  | none => .error fault

end OsPath

structure Assessment where
  name : String
  version : Option String
  path : OsPath
  source : Option String
  hash : String
  fileCount : Nat
  /-- The score before the flows count. -/
  scannerScore : UInt32
  score : UInt32
  risk : Risk
  findings : List Finding
  flow : FlowReport
  filesScanned : Nat
  filesSkipped : Nat
  /-- Whether the score reaches the threshold below which a scan fails. -/
  passed : Bool
  deriving DecidableEq

namespace Assessment

/-- A score less a penalty, and no less than 0. -/
def adjust (score penalty : UInt32) : UInt32 := UInt32.ofNat (score.toNat - penalty.toNat)

def ofPath (policy : Policy) (rules : RuleSet) (w : World) (root : String)
    (source : Option String) : Assessment :=
  let package := Package.describe w root policy.manifestFile
  let fingerprint := Fingerprint.ofPath w root
  let report := Scan.path rules policy.maxFileSize w root
  let flow := if policy.enableFlowAnalysis then Flow.ofPath policy.maxFileSize w root else .empty
  let score := adjust report.score flow.penalty
  { name := package.name
    version := package.version
    path := .ofText root
    source
    hash := fingerprint.hash
    fileCount := fingerprint.fileCount
    scannerScore := report.score
    score
    risk := .ofScore score
    findings := report.findings
    flow
    filesScanned := report.filesScanned
    filesSkipped := report.filesSkipped
    passed := policy.blockThreshold ≤ score }

def toJson (a : Assessment) : Except String Json := do
  let path ← a.path.toJson
  return .object ([("name", .text a.name)] ++ Json.whenSome "version" .text a.version ++
    [("path", path)] ++ Json.whenSome "source" .text a.source ++ [
    ("hash", .text a.hash),
    ("fileCount", .nat a.fileCount),
    ("scannerScore", .nat a.scannerScore.toNat),
    ("score", .nat a.score.toNat),
    ("risk", a.risk.toJson),
    ("findings", .list Finding.toJson a.findings),
    ("flow", a.flow.toJson),
    ("filesScanned", .nat a.filesScanned),
    ("filesSkipped", .nat a.filesSkipped),
    ("passed", .bool a.passed)])

end Assessment
end SkillAudit
