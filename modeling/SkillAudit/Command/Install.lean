import SkillAudit.Command.Scan

/-! Installing packages that the gate allows. -/
namespace SkillAudit.Command

inductive Action where
  | installed
  | alreadyInstalled
  | dryRun
  | pendingReview
  | blocked
  deriving DecidableEq, Repr

def Action.word : Action → String
  | installed => "installed"
  | alreadyInstalled => "already-installed"
  | dryRun => "dry-run"
  | pendingReview => "pending-review"
  | blocked => "blocked"

def looksLikePath (target : String) : Bool :=
  target.toList.any (fun c => c == '/' || c == '\\') ||
    target.toList.head?.any fun c => c == '.' || c == '~'

def sameDir (w : World) (a b : String) : Bool :=
  match w.find a, w.find b with
  | .ok (p, _), .ok (q, _) => p == q
  | _, _ => false

def copyFile (root staging : String) (f : PackageFile) : Act Unit := do
  let target := Path.join staging f.path
  match Path.parent target with
  | some dir => Act.makeDirs dir
  | none => pure ()
  Act.change ("cannot copy " ++ Path.join root f.path) fun w =>
    if Listing.isOpen root f then w.writeFile target f.bytes else .error .nameTooLong

def stage (root : String) (files : Listing) (staging : String) : Act Unit :=
  files.forM (copyFile root staging)

def clearAway (text path : String) : Act Unit := do
  if (← get).pathExists path then Act.change (text ++ path) (·.removeTree path)

def stagingName (name : String) : String := "." ++ name ++ ".staging"

/-- Puts a package together beside the target, and then in its place. -/
def replaceTree (root staging target : String) : Act Unit := do
  clearAway "cannot clear " staging
  stage root (Listing.met (← get) root) staging
  clearAway "cannot replace " target
  Act.change ("cannot move package into " ++ target) (·.rename staging target)

def copyPackage (root target : String) : Act Unit := do
  let some parent := Path.parent target | throw (.ofText "skills directory has no parent")
  Act.makeDirs parent
  replaceTree root (Path.join parent (stagingName ((Path.fileName target).getD ""))) target

/-- The package that a target names, and where it comes from: a path here, or else an id of the
hub. -/
def candidate (c : Context) (target : String) : Act (String × String) := do
  if (← get).pathExists target then return (target, target)
  else if looksLikePath target then throw (.ofText ("no such package directory: " ++ target))
  else
    let (_, root) ← c.fetch target
    return (root, "hub:" ++ target)

structure Judged where
  decision : Decision
  root : String
  source : String
  place : String
  inPlace : Bool

def judge (c : Context) (path source : String) (name : Option String) : Act Judged := do
  let root ← c.locate path
  let name := name.getD (Package.describe (← get) root c.policy.manifestFile).name
  if !isSafeName name then
    throw (.ofText ("'" ++ name ++ "' cannot be used as a package directory name"))
  let place := Path.join c.paths.skillsDir name
  let w ← get
  let inPlace := sameDir w place root
  let installed := if w.isDir place && !inPlace then some place else none
  let (gate, ledger) ← c.gate
  let (decision, _) ← Act.onLedger ledger
    (gate.check c.now root { name := some name, source := some source, installed })
  return { decision, root, source, place, inPlace }

/-- Acts on a decision: the action, and where the package is then. -/
def carryOut (c : Context) (j : Judged) (dryRun : Bool) : Act (Action × Option String) := do
  match j.decision.verdict with
  | .allow =>
    if dryRun then return (.dryRun, none)
    else
      let w ← get
      if j.inPlace || (w.isDir j.place && (Fingerprint.ofPath w j.place).hash == j.decision.hash) then
        return (.alreadyInstalled, some j.place)
      else
        copyPackage j.root j.place
        return (.installed, some j.place)
  | .review =>
    Act.onState (Pending.record c.paths.pending c.now j.decision j.root (some j.source))
    return (.pendingReview, none)
  | .block => return (.blocked, none)

structure Installation where
  decision : Decision
  action : Action
  place : Option String
  source : String

/-- Lets the gate decide on the package at a path, and installs it where it is allowed. -/
def installFrom (c : Context) (path source : String) (name : Option String) (dryRun : Bool) :
    Act Installation := do
  let j ← judge c path source name
  let (action, place) ← carryOut c j dryRun
  return { decision := j.decision, action, place, source := j.source }

def installation (c : Context) (target : String) (name : Option String) (dryRun : Bool) :
    Act Installation := do
  let (path, source) ← candidate c target
  installFrom c path source name dryRun

def actionLine (s : Screen) (d : Decision) (action : Action) (target : Option String) : String :=
  match action with
  | .installed => "Installed to " ++ target.getD ""
  | .alreadyInstalled => "Already installed; nothing to copy."
  | .dryRun => "Dry run; nothing installed."
  | .pendingReview =>
    "Review required. Approve with: skillgate approve " ++ d.name ++ " [purpose]"
  | .blocked => s.paint (.coloured .red) "Blocked and recorded in the ledger."

def installLines (s : Screen) (d : Decision) (action : Action) (target : Option String) :
    List String :=
  [s.verdict d.verdict ++ " " ++ s.strong d.name,
    "  " ++ s.strong "Score:" ++ " " ++ scoreText s d.score d.risk,
    "  " ++ s.strong "Reason:" ++ " " ++ d.reason,
    "  " ++ s.strong "Hash:" ++ " " ++ shortHash d.hash] ++
  (if d.findingsCount == 0 then [] else
    ["", "  " ++ s.heading ("Findings (" ++ toString d.findingsCount ++ ")")] ++
      findingLines s d.findings ++ findingLines s d.flowFindings) ++
  (match d.diff with
    | some diff => ["", "  " ++ s.strong "Changes vs installed:" ++ " " ++ diff.summary]
    | none => []) ++
  ["", actionLine s d action target]

def installJson (d : Decision) (action : Action) (target : Option String) (source : String) :
    Json :=
  let rest : List (String × Json) := [("action", .text action.word)] ++
    Json.whenSome "installedTo" .text target ++ [("source", .text source)]
  match d.toJson with
  | .obj members => .obj (members ++ rest.map fun (k, v) => (some k, v))
  | j => j

def Installation.report (c : Context) (i : Installation) : Report :=
  let d := i.decision
  let compact := d.name ++ " " ++ d.verdict.word ++ " score=" ++ toString d.score.toNat ++
    " risk=" ++ d.risk.word ++ " action=" ++ i.action.word ++ " hash=" ++ shortHash d.hash
  { text := c.text (installJson d i.action i.place i.source)
      (unlines (installLines c.screen d i.action i.place)) (unlines [compact])
    failed := d.verdict == .block }

def install (c : Context) (target : String) (name : Option String) (dryRun : Bool) :
    Act Report := do
  return (← installation c target name dryRun).report c

end SkillAudit.Command
