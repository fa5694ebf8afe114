import SkillAudit.Assessment
import SkillAudit.Diff.Compare
import SkillAudit.Gate.Decision
import SkillAudit.Ledger.Basic

/-!
The gate. A package that is approved with its present content passes without a scan. Any other is
scanned, and the policy decides, except that changed content of an approved package is for review.
-/
namespace SkillAudit

structure Gate where
  policy : Policy
  rules : RuleSet

namespace Gate

structure Options where
  /-- Stands for the name in the manifest. -/
  name : Option String := none
  source : Option String := none
  /-- The copy that would be replaced. -/
  installed : Option String := none

def ofPolicy (policy : Policy) (rules : RuleSet) : Except AuditError Gate := do
  policy.validate
  return ⟨policy, rules⟩

def approvalText (e : LedgerEntry) : String :=
  let by_ := match e.approver with
    | .human => "by a reviewer"
    | .auto => "automatically"
  match e.date with
  | some t => by_ ++ " on " ++ t.date
  | none => by_

def judgeScore (p : Policy) (score : UInt32) : Verdict × String :=
  let text := toString score.toNat
  if score < p.reviewThreshold then
    (.block, "adjusted score " ++ text ++ " is below the review threshold " ++
      toString p.reviewThreshold.toNat)
  else if p.requireApprovalForAll then
    (.review, "policy requires approval for every install (score " ++ text ++ ")")
  else if score ≥ p.autoAllowThreshold then
    (.allow, "score " ++ text ++ " meets the auto-allow threshold " ++
      toString p.autoAllowThreshold.toNat)
  else
    (.review, "score " ++ text ++ " is below the auto-allow threshold " ++
      toString p.autoAllowThreshold.toNat)

/-- The verdict on a package that is not approved with the hash `hash`. -/
def judge (p : Policy) (approval : ApprovalStatus) (hash : String) (score : UInt32) :
    Verdict × String :=
  if approval.hashMatch == some false then
    (.review, "content changed since approval (approved " ++
      shortHash ((approval.entry.map (·.hash)).getD "") ++ ", now " ++ shortHash hash ++ ")")
  else judgeScore p score

def passed (name : String) (version : Option String) (hash : String) (e : LedgerEntry) :
    Decision where
  name
  version
  verdict := .allow
  score := e.score
  risk := e.risk
  findings := []
  flowFindings := []
  requiresApproval := false
  hash
  previouslyApproved := true
  reason := "previously approved " ++ approvalText e ++ " (hash unchanged)"
  diff := none

/-- The difference from the installed copy, where there is another one. -/
def diff? (g : Gate) (w : World) (installed : Option String) (root : String) : Option Diff :=
  installed.bind fun path =>
    if g.policy.enableDiffScan && w.isDir path && !Path.same path root then
      some (Diff.ofPaths g.rules g.policy.maxFileSize w path root)
    else none

def scanned (g : Gate) (w : World) (root name : String) (version : Option String) (hash : String)
    (approval : ApprovalStatus) (installed : Option String) : Decision :=
  let scan := Scan.path g.rules g.policy.maxFileSize w root
  let flow :=
    if g.policy.enableFlowAnalysis then Flow.ofPath g.policy.maxFileSize w root else .empty
  let score := Assessment.adjust scan.score flow.penalty
  let (verdict, reason) := judge g.policy approval hash score
  { name
    version
    verdict
    score
    risk := .ofScore score
    findings := scan.findings
    flowFindings := flow.findings
    requiresApproval := verdict != .allow
    hash
    previouslyApproved := approval.approved
    reason
    diff := g.diff? w installed root }

def entryOf (d : Decision) (status : EntryStatus) (approver : Approver)
    (purpose source : Option String) : LedgerEntry where
  name := d.name
  version := d.version
  source
  score := d.score
  risk := d.risk
  hash := d.hash
  date := none
  status
  approver
  purpose
  findingsCount := some (.ofNat d.findingsCount)
  revokedAt := none

def locate (g : Gate) (path : String) : Ledger.Act String := do
  match Package.locate? (← get).2 path g.policy.manifestFile with
  | some root => return root
  | none => throw (.notPackage path g.policy.manifestFile)

/-- Decides on the package at a path. A blocked package gets an entry. -/
def check (g : Gate) (now : Instant) (path : String) (options : Options) :
    Ledger.Act Decision := do
  let root ← g.locate path
  let w := (← get).2
  let hash := (Fingerprint.ofPath w root).hash
  let package := Package.describe w root g.policy.manifestFile
  let name := options.name.getD package.name
  Ledger.reload
  let approval := (← get).1.approval name (some hash)
  match approval.hashMatch, approval.entry with
  | some true, some e => return passed name package.version hash e
  | _, _ =>
    let d := g.scanned w root name package.version hash approval options.installed
    if d.verdict == .block then
      discard (Ledger.add now (entryOf d .blocked .auto none options.source))
    return d

def approve (now : Instant) (d : Decision) (purpose source : Option String) :
    Ledger.Act LedgerEntry :=
  Ledger.add now (entryOf d .approved .human purpose source)

def verify (g : Gate) (path : String) : Ledger.Act VerifyOutcome := do
  let root ← g.locate path
  let w := (← get).2
  let hash := (Fingerprint.ofPath w root).hash
  let name := (Package.describe w root g.policy.manifestFile).name
  Ledger.reload
  let approval := (← get).1.approval name (some hash)
  return {
    name
    hash
    status := match approval.hashMatch with
      | some true => .matches
      | some false => .mismatch
      | none => .notApproved
    approvedEntry := approval.entry.filter (·.status == .approved) }

end Gate
end SkillAudit
