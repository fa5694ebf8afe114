import SkillAudit.Config.Expand
import SkillAudit.Hub.Client
import SkillAudit.Policy

/-! Settings: the policy, where state is kept, and the hub. -/
namespace SkillAudit

structure PathSettings where
  skillsDir : Option String := none
  ledger : Option String := none
  /-- An empty text means that there is no table. -/
  ledgerMarkdown : Option String := none
  watchState : Option String := none
  pending : Option String := none
  /-- A rule document in the place of the built-in rules. -/
  rules : Option String := none
  deriving DecidableEq, Repr

structure HubSettings where
  baseUrl : String := Hub.defaultBase
  timeoutSeconds : Nat := 30
  deriving DecidableEq, Repr

structure Config where
  policy : Policy := {}
  paths : PathSettings := {}
  hub : HubSettings := {}
  deriving DecidableEq, Repr

structure Paths where
  skillsDir : String
  ledger : String
  ledgerMarkdown : Option String
  watchState : String
  pending : String
  rules : Option String
  deriving DecidableEq, Repr

namespace PathSettings

def ofToml : Json.Decoder PathSettings := fun j => do
  let r ← Json.asOpenRecord
    ["skills_dir", "ledger", "ledger_markdown", "watch_state", "pending", "rules"] j
  let text (name : String) : Option (Option String) :=
    r.withDefault name none fun j => (Json.asText j).map some
  return {
    skillsDir := ← text "skills_dir"
    ledger := ← text "ledger"
    ledgerMarkdown := ← text "ledger_markdown"
    watchState := ← text "watch_state"
    pending := ← text "pending"
    rules := ← text "rules" }

def toJson (p : PathSettings) : Json := .object [
  ("skills_dir", .option .text p.skillsDir),
  ("ledger", .option .text p.ledger),
  ("ledger_markdown", .option .text p.ledgerMarkdown),
  ("watch_state", .option .text p.watchState),
  ("pending", .option .text p.pending),
  ("rules", .option .text p.rules)]

end PathSettings

namespace HubSettings

def ofToml : Json.Decoder HubSettings := fun j => do
  let d : HubSettings := {}
  let r ← Json.asOpenRecord ["base_url", "timeout_secs"] j
  return {
    baseUrl := ← r.withDefault "base_url" d.baseUrl Json.asText
    timeoutSeconds := ← r.withDefault "timeout_secs" d.timeoutSeconds Json.asNat }

def toJson (h : HubSettings) : Json := .object [
  ("base_url", .text h.baseUrl), ("timeout_secs", .nat h.timeoutSeconds)]

end HubSettings

namespace Paths

def toJson (p : Paths) : Json := .object [
  ("skills_dir", .text p.skillsDir),
  ("ledger", .text p.ledger),
  ("ledger_markdown", .option .text p.ledgerMarkdown),
  ("watch_state", .text p.watchState),
  ("pending", .text p.pending),
  ("rules", .option .text p.rules)]

end Paths

namespace Config

inductive Error where
  | document (cause : Toml.Error)
  | policy (cause : AuditError)
  /-- The path setting `raw` refers to a variable that is not set. -/
  | unset (raw name : String)
  | noHome
  deriving DecidableEq, Repr

def Error.causes : Error → List String
  | document cause => [cause.message]
  | policy cause => cause.causes
  | unset raw name =>
    let reason := "environment variable not found"
    ["cannot expand path '" ++ raw ++ "'",
      "error looking key '" ++ name ++ "' up: " ++ reason, reason]
  | noHome => ["Could not determine config directory"]

def ofTomlValue : Json.Decoder Config := fun j => do
  let r ← Json.asOpenRecord ["policy", "paths", "hub"] j
  return {
    policy := ← r.withDefault "policy" {} Policy.ofTomlValue
    paths := ← r.withDefault "paths" {} PathSettings.ofToml
    hub := ← r.withDefault "hub" {} HubSettings.ofToml }

/-- The settings that a TOML text gives. The policy must have no fault. -/
def parse (text : String) : Except Error Config := do
  match Toml.parse text with
  | .error e => throw (.document e)
  | .ok t =>
    match ofTomlValue t.toJson with
    | none => throw (.document .malformed)
    | some config =>
      match config.policy.validate with
      | .error e => throw (.policy e)
      | .ok () => return config

def toJson (c : Config) : Json := .object [
  ("policy", c.policy.toJson), ("paths", c.paths.toJson), ("hub", c.hub.toJson)]

def expandPath (e : Environment) (raw : String) : Except Error String :=
  match expand e raw with
  | .ok path => .ok path
  | .error name => .error (.unset raw name)

def resolve (e : Environment) (raw : Option String) (default : String) : Except Error String :=
  match raw, e.dataDir? with
  | some raw, _ => expandPath e raw
  | none, some dir => .ok (Path.join dir default)
  | none, none => .error .noHome

/-- Where things are. The table of the ledger is beside it unless set otherwise. -/
def resolvePaths (c : Config) (e : Environment) : Except Error Paths := do
  let p := c.paths
  let ledger ← resolve e p.ledger "ledger.json"
  let ledgerMarkdown ← match p.ledgerMarkdown with
    | some "" => pure none
    | some raw => some <$> expandPath e raw
    | none => pure (some (Path.withExtension ledger "md"))
  let skillsDir ← resolve e p.skillsDir "skills"
  let watchState ← resolve e p.watchState "watch-state.json"
  let pending ← resolve e p.pending "pending.json"
  let rules ← p.rules.mapM (expandPath e)
  return { skillsDir, ledger, ledgerMarkdown, watchState, pending, rules }

end Config
end SkillAudit
