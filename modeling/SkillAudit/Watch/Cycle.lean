import SkillAudit.Flow.Graph
import SkillAudit.Ledger.Basic
import SkillAudit.Policy
import SkillAudit.Watch.Report

/-!
A watch cycle: every installed package is compared with what the last cycle saw, and scanned again
only if its content has changed.
-/
namespace SkillAudit

structure Watcher where
  skillsDir : String
  statePath : String
  policy : Policy
  rules : RuleSet

namespace Watcher

def dropAlert : UInt32 := 10

def dropCritical : UInt32 := 30

def newSkillMinScore : UInt32 := 50

/-- The state in the file; one of a newer schema reads as empty. -/
def state (watcher : Watcher) (w : World) : WatchState :=
  match Store.readJson? w watcher.statePath WatchState.ofJson with
  | some s => if s.schemaVersion > watchSchema then .empty else s
  | none => .empty

def scan (watcher : Watcher) (w : World) (now : Instant) (root hash : String) : WatchedPackage :=
  let limit := watcher.policy.maxFileSize
  let report := Scan.path watcher.rules limit w root
  { hash
    score := report.score
    findingsCount := .ofNat report.findings.length
    lastScannedAt := now
    flowChains := (Flow.ofPath limit w root).chains.map FlowChain.signature }

def modifiedAlert (name : String) (prev now : WatchedPackage) : WatchAlert where
  kind := .modified
  severity := .high
  skill := name
  message := "content changed (" ++ shortHash prev.hash ++ " -> " ++ shortHash now.hash ++ ")"
  details := some (.object [("hash", .text now.hash), ("previousHash", .text prev.hash)])

def scoreAlert? (name : String) (prev now : WatchedPackage) : Option WatchAlert :=
  let drop := UInt32.ofNat (prev.score.toNat - now.score.toNat)
  if drop > dropAlert then some {
    kind := .scoreDrop
    severity := if drop > dropCritical then .critical else .high
    skill := name
    message := "score dropped " ++ toString prev.score.toNat ++ " -> " ++
      toString now.score.toNat ++ " (" ++ toString drop.toNat ++ " points)"
    details := some (.object [("drop", .nat drop.toNat),
      ("previousScore", .nat prev.score.toNat), ("score", .nat now.score.toNat)]) }
  else none

def chainAlert? (name : String) (prev now : WatchedPackage) : Option WatchAlert :=
  let new := now.flowChains.filter fun c => !prev.flowChains.contains c
  if new.isEmpty then none else some {
    kind := .newFindings
    severity := .critical
    skill := name
    message := toString new.length ++ " new cross-file flow chain(s)"
    details := some (.object [("chains", .list .text new)]) }

def unapprovedAlert? (l : Ledger) (name hash : String) : Option WatchAlert :=
  if (l.approval name (some hash)).hashMatch == some true then none else some {
    kind := .unapproved
    severity := .high
    skill := name
    message := match l.approvedHash? name with
      | some approved =>
        "current content " ++ shortHash hash ++ " is not the approved " ++ shortHash approved
      | none => "current content " ++ shortHash hash ++ " has no ledger approval"
    details := none }

def changeAlerts (l : Ledger) (name : String) (prev now : WatchedPackage) : List WatchAlert :=
  modifiedAlert name prev now ::
    ([scoreAlert? name prev now, chainAlert? name prev now,
      unapprovedAlert? l name now.hash].filterMap id)

def newAlerts (l : Ledger) (name root : String) (now : WatchedPackage) : List WatchAlert :=
  [{ kind := .newSkill
     severity := .info
     skill := name
     message := "first seen at " ++ root
     details := none }] ++
  (if (l.approval name (some now.hash)).hashMatch == some true then [] else
    [{ kind := .unapproved
       severity := .high
       skill := name
       message := "installed without a matching ledger approval"
       details := none }]) ++
  (if now.score < newSkillMinScore then
    [{ kind := .newFindings
       severity := .critical
       skill := name
       message := "score " ++ toString now.score.toNat ++ " with " ++
         toString now.findingsCount.toNat ++ " findings"
       details := some (.object [("findings", .nat now.findingsCount.toNat),
         ("score", .nat now.score.toNat)]) }]
  else [])

def removedAlert (name : String) : WatchAlert where
  kind := .removed
  severity := .info
  skill := name
  message := "no longer installed"
  details := none

structure Progress where
  skills : Dict WatchedPackage
  seen : List String
  alerts : List WatchAlert
  clean : Nat

/-- Looks at one package. Of two with one name the first counts. -/
def visit (watcher : Watcher) (w : World) (l : Ledger) (now : Instant) (p : Progress)
    (root : String) : Progress :=
  let name := (Package.describe w root watcher.policy.manifestFile).name
  if p.seen.contains name then p
  else
    let hash := (Fingerprint.ofPath w root).hash
    let (alerts, skills) : List WatchAlert × Dict WatchedPackage :=
      match p.skills.get? name with
      | some prev =>
        if prev.hash == hash then ([], p.skills)
        else
          let current := watcher.scan w now root hash
          (changeAlerts l name prev current, p.skills.insert name current)
      | none =>
        let current := watcher.scan w now root hash
        (newAlerts l name root current, p.skills.insert name current)
    { skills
      seen := name :: p.seen
      alerts := p.alerts ++ alerts
      clean := p.clean + (if alerts.all (·.severity == .info) then 1 else 0) }

/-- Looks at all packages, and then for those that are gone. -/
def survey (watcher : Watcher) (w : World) (l : Ledger) (now : Instant) (s : WatchState) :
    WatchReport × WatchState :=
  let roots := Package.discover w watcher.skillsDir watcher.policy.manifestFile
  let p := roots.foldl (watcher.visit w l now) ⟨s.skills, [], [], 0⟩
  let gone := p.skills.keys.filter fun name => !p.seen.contains name
  ({ alerts := p.alerts ++ gone.map removedAlert
     scanned := p.seen.length
     clean := p.clean
     timestamp := now },
   { schemaVersion := watchSchema
     lastRunAt := some now
     skills := p.skills.filter fun (name, _) => p.seen.contains name })

def run (watcher : Watcher) (now : Instant) : Ledger.Act WatchReport := do
  Ledger.onWorld (Store.lock watcher.statePath)
  let s := watcher.state (← get).2
  Ledger.reload
  let (l, w) ← get
  let (report, next) := watcher.survey w l now s
  Ledger.onWorld (Store.writeJson watcher.statePath next.toJson)
  return report

end Watcher
end SkillAudit
