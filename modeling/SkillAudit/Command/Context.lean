import SkillAudit.Config.Basic
import SkillAudit.Gate.Check
import SkillAudit.OutputFormat
import SkillAudit.Pending
import SkillAudit.Terminal.Paint
import SkillAudit.Watch.Cycle

/-! What all commands share: settings, errors, and how results are shown. -/
namespace SkillAudit

/-- Why a command fails: messages from the outermost cause on. -/
structure Failure where
  causes : List String
  deriving DecidableEq, Repr

namespace Failure

def message (f : Failure) : String := String.intercalate ": " f.causes

def ofText (text : String) : Failure := ⟨[text]⟩

def ofAudit (e : AuditError) : Failure := ⟨e.causes⟩

def ofHub (e : HubError) : Failure := ⟨e.causes⟩

def within (f : Failure) (text : String) : Failure := ⟨text :: f.causes⟩

end Failure

structure Report where
  text : String
  failed : Bool := false
  deriving DecidableEq, Repr

abbrev Command.Act := ExceptT Failure (StateM World)

namespace Command

structure Context where
  config : Config
  paths : Paths
  format : OutputFormat
  screen : Screen
  now : Instant
  input : String
  send : Url → Except HubError RemotePackage
  scratch : String

namespace Act

def onState {α : Type} (act : SkillAudit.Act α) : Act α := fun w =>
  match act w with
  | (.ok a, w) => (.ok a, w)
  | (.error e, w) => (.error (.ofAudit e), w)

/-- An action with a ledger; the ledger after it comes with the result. -/
def onLedger {α : Type} (ledger : Ledger) (act : Ledger.Act α) : Act (α × Ledger) := fun w =>
  match act (ledger, w) with
  | (.ok a, ledger, w) => (.ok (a, ledger), w)
  | (.error e, _, w) => (.error (.ofAudit e), w)

/-- A change of the file tree, which fails with a message in front of the cause. -/
def change (text : String) (f : World → Except OsError World) : Act Unit := fun w =>
  match f w with
  | .ok w => (.ok (), w)
  | .error e => (.error ⟨[text, e.message]⟩, w)

def makeDirs (path : String) : Act Unit := fun w =>
  match w.makeDirs path with
  | (.ok (), w) => (.ok (), w)
  | (.error e, w) => (.error ⟨["cannot create " ++ path, e.message]⟩, w)

end Act

namespace Context

def policy (c : Context) : Policy := c.config.policy

def rules (c : Context) : Act RuleSet := do
  match c.paths.rules with
  | none =>
    match RuleSet.builtin with
    | .ok rules => return rules
    | .error e => throw (.ofAudit (.invalidRules e.message))
  | some path =>
    let context := "cannot load rules from " ++ path
    match (← get).readText path with
    | .error e => throw ((Failure.ofAudit (.file path e)).within context)
    | .ok text =>
      match RuleSet.ofToml text with
      | .ok rules => return rules
      | .error e =>
        let reason := AuditError.message (.invalidRules e.message)
        throw ((Failure.ofAudit (.invalidRules (path ++ ": " ++ reason))).within context)

def ledger (c : Context) : Act Ledger := do
  return Ledger.load (← get) c.paths.ledger c.paths.ledgerMarkdown

def gate (c : Context) : Act (Gate × Ledger) := do
  let rules ← c.rules
  let ledger ← c.ledger
  match Gate.ofPolicy c.policy rules with
  | .ok gate => return (gate, ledger)
  | .error e => throw (.ofAudit e)

def locate (c : Context) (path : String) : Act String := do
  match Package.locate? (← get) path c.policy.manifestFile with
  | some root => return root
  | none => throw (.ofAudit (.notPackage path c.policy.manifestFile))

/-- A package from the hub, and where its files are. -/
def fetch (c : Context) (id : String) : Act (RemotePackage × String) := do
  match Hub.ofBase c.config.hub.baseUrl {} with
  | .error e => throw (.ofHub e)
  | .ok hub =>
    match hub.fetch c.send id with
    | .error e => throw ((Failure.ofHub e).within ("cannot fetch '" ++ id ++ "' from the hub"))
    | .ok package =>
      let root := Path.join c.scratch package.directory
      match package.writeTo root (← get) with
      | (.ok (), w) =>
        set w
        return (package, root)
      | (.error e, w) =>
        set w
        throw (.ofHub e)

def text (c : Context) (value : Json) (pretty compact : String) : String :=
  c.format.text value pretty compact

/-- The text of a result with paths of the file tree, which may not be written. -/
def render (c : Context) (value : Except String Json) (pretty compact : String) :
    Except Failure String :=
  (c.format.render value pretty compact).mapError .ofText

end Context

def unlines (lines : List String) : String := String.join (lines.map (· ++ "\n"))

def severityRank : Severity → Nat
  | .low => 0
  | .medium => 1
  | .high => 2
  | .critical => 3

/-- Whether a finding is listed before another: the graver first, then by rule, file and line. -/
def comesBefore (a b : Finding) : Bool :=
  let ra := severityRank a.severity
  let rb := severityRank b.severity
  if ra != rb then rb < ra
  else if a.ruleId != b.ruleId then a.ruleId < b.ruleId
  else if a.file != b.file then a.file < b.file
  else a.line ≤ b.line

def spacedArrows (text : String) : String :=
  String.ofList (text.toList.flatMap fun c => if c == '→' then [' ', '→', ' '] else [c])

def location (file : String) (line : Nat) : String := file ++ ":" ++ toString line

def findingLine (s : Screen) (f : Finding) : String :=
  let place := if f.line == 0 then spacedArrows f.file else location f.file f.line
  "    " ++ s.severity f.severity ++ " " ++ s.strong f.ruleId ++ " " ++
    s.paint (.coloured .cyan) place ++ " " ++ s.dim f.matchText

def findingLines (s : Screen) (findings : List Finding) : List String :=
  (findings.mergeSort comesBefore).map (findingLine s)

end Command
end SkillAudit
