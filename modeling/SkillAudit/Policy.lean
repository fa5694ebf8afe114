import SkillAudit.AuditError
import SkillAudit.Package.Manifest
import SkillAudit.Scan
import SkillAudit.Toml.Reader

/-! The thresholds and switches that decide on a package. -/
namespace SkillAudit

structure Policy where
  /-- From this score on a package needs no review. -/
  autoAllowThreshold : UInt32 := 80
  /-- Below this score a package is blocked. -/
  reviewThreshold : UInt32 := 50
  /-- Below this score a scan fails. -/
  blockThreshold : UInt32 := 50
  requireApprovalForAll : Bool := false
  enableFlowAnalysis : Bool := true
  enableDiffScan : Bool := true
  /-- Larger files are skipped. -/
  maxFileSize : Nat := Scan.defaultSizeLimit
  manifestFile : String := Manifest.defaultName
  deriving DecidableEq, Repr

namespace Policy

/-- The policy with higher thresholds, under which every package needs an approval. -/
def strict : Policy :=
  { autoAllowThreshold := 90, reviewThreshold := 70, blockThreshold := 70,
    requireApprovalForAll := true }

inductive Fault where
  | tooHigh (setting : String) (value : UInt32)
  | reviewAboveAllow (review allow : UInt32)
  | noFileSize
  | manifestName (name : String)
  deriving DecidableEq, Repr

def Fault.message : Fault → String
  | tooHigh setting value =>
    setting ++ " must be at most 100, got " ++ toString value.toNat
  | reviewAboveAllow review allow =>
    "review_threshold (" ++ toString review.toNat ++ ") exceeds auto_allow_threshold (" ++
      toString allow.toNat ++ ")"
  | noFileSize => "max_file_size must be positive"
  | manifestName name => "manifest_file '" ++ name ++ "' is not a plain file name"

def fault? (p : Policy) : Option Fault :=
  let thresholds := [("auto_allow_threshold", p.autoAllowThreshold),
    ("review_threshold", p.reviewThreshold), ("block_threshold", p.blockThreshold)]
  match thresholds.find? fun (_, value) => value > 100 with
  | some (setting, value) => some (.tooHigh setting value)
  | none =>
    if p.reviewThreshold > p.autoAllowThreshold then
      some (.reviewAboveAllow p.reviewThreshold p.autoAllowThreshold)
    else if p.maxFileSize == 0 then some .noFileSize
    else if !isSafeName p.manifestFile then some (.manifestName p.manifestFile)
    else none

def validate (p : Policy) : Except AuditError Unit :=
  match p.fault? with
  | some f => .error (.invalidPolicy f.message)
  | none => .ok ()

def toJson (p : Policy) : Json := .object [
  ("auto_allow_threshold", .nat p.autoAllowThreshold.toNat),
  ("review_threshold", .nat p.reviewThreshold.toNat),
  ("block_threshold", .nat p.blockThreshold.toNat),
  ("require_approval_for_all", .bool p.requireApprovalForAll),
  ("enable_flow_analysis", .bool p.enableFlowAnalysis),
  ("enable_diff_scan", .bool p.enableDiffScan),
  ("max_file_size", .nat p.maxFileSize),
  ("manifest_file", .text p.manifestFile)]

def fieldNames : List String :=
  ["auto_allow_threshold", "review_threshold", "block_threshold", "require_approval_for_all",
    "enable_flow_analysis", "enable_diff_scan", "max_file_size", "manifest_file"]

def ofRecord (r : Json.Record) : Option Policy := do
  let d : Policy := {}
  return {
    autoAllowThreshold :=
      ← r.withDefault "auto_allow_threshold" d.autoAllowThreshold Json.asUInt32
    reviewThreshold := ← r.withDefault "review_threshold" d.reviewThreshold Json.asUInt32
    blockThreshold := ← r.withDefault "block_threshold" d.blockThreshold Json.asUInt32
    requireApprovalForAll :=
      ← r.withDefault "require_approval_for_all" d.requireApprovalForAll Json.asBool
    enableFlowAnalysis := ← r.withDefault "enable_flow_analysis" d.enableFlowAnalysis Json.asBool
    enableDiffScan := ← r.withDefault "enable_diff_scan" d.enableDiffScan Json.asBool
    maxFileSize := ← r.withDefault "max_file_size" d.maxFileSize Json.asNat
    manifestFile := ← r.withDefault "manifest_file" d.manifestFile Json.asText }

def ofJson : Json.Decoder Policy := fun j => (Json.asRecord fieldNames j).bind ofRecord

def ofTomlValue : Json.Decoder Policy := fun j => (Json.asOpenRecord fieldNames j).bind ofRecord

def ofToml? (text : String) : Option Policy :=
  match Toml.parse text with
  | .ok t => ofTomlValue t.toJson
  | .error _ => none

end Policy
end SkillAudit
