import SkillAudit.Command.Install
import SkillAudit.Command.Ledger
import SkillAudit.Command.Review
import SkillAudit.CommandLine.Parse

/-! The program as a function of its arguments, its environment, its input and the file tree. -/
namespace SkillAudit

structure Outcome where
  exit : UInt32
  output : String := ""
  errors : String := ""
  deriving DecidableEq, Repr

structure Setting where
  environment : Environment
  now : Instant
  input : String := ""
  terminal : Bool := false
  send : Url → Except HubError RemotePackage := Hub.offline
  /-- A directory for packages from a hub, which is removed afterwards. -/
  scratch : String := "/tmp/skillgate-hub"

namespace Program

def version : String := "0.3.0"

def strictened (p : Policy) : Policy :=
  { Policy.strict with
    enableFlowAnalysis := p.enableFlowAnalysis
    enableDiffScan := p.enableDiffScan
    maxFileSize := p.maxFileSize
    manifestFile := p.manifestFile }

/-- The settings file that is read: the named one, which must be there, or the default one. -/
def configPath? (e : Environment) (w : World) (named : Option String) : Option String :=
  named <|> (e.configDir?.map fun dir => Path.join dir "config.toml").filter w.pathExists

def loadConfig (e : Environment) (w : World) (named : Option String) : Except Failure Config :=
  match configPath? e w named with
  | none => .ok {}
  | some path =>
    match w.readText path with
    | .error cause => .error ⟨["cannot read config " ++ path, cause.message]⟩
    | .ok text =>
      match Config.parse text with
      | .error cause => .error ⟨("invalid config " ++ path) :: cause.causes⟩
      | .ok config => .ok config

def contextOf (s : Setting) (w : World) (r : CommandLine.Request) :
    Except Failure Command.Context := do
  let config ← loadConfig s.environment w r.config
  let config := if r.strict then { config with policy := strictened config.policy } else config
  match config.resolvePaths s.environment with
  | .error e => throw ⟨e.causes⟩
  | .ok paths => return {
      config
      paths
      format := r.output.getD .pretty
      screen := ⟨s.environment.wantsColours s.terminal && !r.noColor⟩
      now := s.now
      input := s.input
      send := s.send
      scratch := s.scratch }

def perform (c : Command.Context) : CommandLine.Command → Command.Act Report
  | .scan path => Command.scan c path
  | .scanHub id => Command.scanHub c id
  | .check text => Command.check c text
  | .batch dir => Command.batch c dir
  | .install target name dryRun => Command.install c target name dryRun
  | .approve name purpose => Command.approve c name purpose
  | .revoke name => Command.revoke c name
  | .ledger name markdown => Command.showLedger c name markdown
  | .verify path => Command.verify c path
  | .diff old new => Command.diff c old new
  | .policy => Command.showPolicy c
  | .watch dir => Command.watch c dir
  | .runtime path => Command.runtime c path
  | .status => Command.status c

def failed (f : Failure) : Outcome := { exit := 2, errors := "error: " ++ f.message ++ "\n" }

def fullName (verb : Option CommandLine.Verb) (joint : String) : String :=
  "skillgate" ++ (verb.map fun v => joint ++ v.word).getD ""

def usage (verb : Option CommandLine.Verb) : String :=
  let arguments := match verb with
    | none => " [OPTIONS] <COMMAND>"
    | some v => " [OPTIONS]" ++ String.join (v.slots.map (" " ++ ·.label))
  let commands := match verb with
    | none => "\n\nCommands:\n" ++
        String.join (CommandLine.Verb.all.map fun v => "  " ++ v.word ++ "\n")
    | some _ => "\n"
  "Usage: " ++ fullName verb " " ++ arguments ++ commands

def stopped : CommandLine.Stop → Outcome
  | .usage e => { exit := 2, errors := "error: " ++ e.message ++ "\n" }
  | .noArguments => { exit := 2, errors := usage none }
  | .help verb => { exit := 0, output := usage verb }
  | .version verb => { exit := 0, output := fullName verb "-" ++ " " ++ version ++ "\n" }

/-- Runs a command, and removes what it wrote to the directory for packages from a hub. -/
def runRequest (s : Setting) (r : CommandLine.Request) (w : World) : Outcome × World :=
  match contextOf s w r with
  | .error f => (failed f, w)
  | .ok c =>
    let (result, after) := perform c r.command w
    let after :=
      if w.pathExists s.scratch then after else (after.removeTree s.scratch).toOption.getD after
    match result with
    | .error f => (failed f, after)
    | .ok report => ({ exit := if report.failed then 1 else 0, output := report.text }, after)

def givenPaths : CommandLine.Command → List String
  | .scan path => [path]
  | .batch dir => [dir]
  | .install target _ _ => [target]
  | .verify path => [path]
  | .diff old new => [old, new]
  | .watch dir => dir.toList
  | .runtime path => [path]
  | _ => []

def touchedPaths (c : Command.Context) (command : CommandLine.Command) : List String :=
  let state := [c.paths.ledger, c.paths.watchState, c.paths.pending]
  givenPaths command ++ [c.paths.skillsDir] ++ state ++ state.map Store.lockPath ++
    c.paths.ledgerMarkdown.toList ++ c.paths.rules.toList

def run (s : Setting) (args : List String) (w : World) : Outcome × World :=
  match CommandLine.parse s.environment args with
  | .error stop => (stopped stop, w)
  | .ok request => runRequest s request w

end Program
end SkillAudit
