import SkillAudit.Behaviour.Monitor
import SkillAudit.Command.Context
import SkillAudit.Terminal.Table

/-! Commands that score packages and texts. -/
namespace SkillAudit.Command

def passWord (passed : Bool) : String := if passed then "PASS" else "FAIL"

def scoreText (s : Screen) (score : UInt32) (risk : Risk) : String :=
  toString score.toNat ++ "/100 " ++ s.risk risk

namespace Assessed

def compactLine (a : Assessment) : String :=
  a.name ++ " score=" ++ toString a.score.toNat ++ " risk=" ++ a.risk.word ++ " findings=" ++
    toString a.findings.length ++ " chains=" ++ toString a.flow.chains.length ++ " hash=" ++
    shortHash a.hash ++ " " ++ passWord a.passed

def chainLines (s : Screen) (chain : FlowChain) : List String := [
  "    " ++ s.severity chain.severity ++ " " ++
    s.paint (.coloured .cyan) (String.intercalate " → " chain.files),
  "             " ++ chain.description]

def prettyLines (s : Screen) (a : Assessment) : List String :=
  let version := (a.version.map (" " ++ ·)).getD ""
  let penalty := a.flow.penalty
  let breakdown :=
    if penalty > 0 then
      " (rules " ++ toString a.scannerScore.toNat ++ ", flow -" ++ toString penalty.toNat ++ ")"
    else ""
  [s.strong a.name ++ version ++ " " ++ s.dim a.path.shown] ++
    (a.source.map fun source => "  " ++ s.strong "Source:" ++ " " ++ source).toList ++
    ["  " ++ s.strong "Score:" ++ " " ++ scoreText s a.score a.risk ++ breakdown,
      "  " ++ s.strong "Hash:" ++ " " ++ shortHash a.hash ++ " (" ++ toString a.fileCount ++
        " files, " ++ toString a.filesSkipped ++ " skipped)"] ++
    (if a.findings.isEmpty then [] else
      ["", "  " ++ s.heading ("Findings (" ++ toString a.findings.length ++ ")")] ++
        findingLines s a.findings) ++
    (if a.flow.chains.isEmpty then [] else
      ["", "  " ++ s.heading "Flow chains"] ++ a.flow.chains.flatMap (chainLines s)) ++
    ["", "  " ++ s.pass a.passed]

def report (c : Context) (a : Assessment) : Except Failure Report := do
  let text ← c.render a.toJson (unlines (prettyLines c.screen a)) (unlines [compactLine a])
  return { text, failed := !a.passed }

end Assessed

def scan (c : Context) (path : String) : Act Report := do
  let root ← c.locate path
  let rules ← c.rules
  liftExcept (Assessed.report c (.ofPath c.policy rules (← get) root none))

/-- Scores a package that a hub serves, under the name and version it is served with. -/
def scanHub (c : Context) (id : String) : Act Report := do
  let (package, root) ← c.fetch id
  let rules ← c.rules
  let a := Assessment.ofPath c.policy rules (← get) root (some ("hub:" ++ id))
  liftExcept (Assessed.report c
    { a with name := package.name, version := package.version <|> a.version })

/-- Matches the rules against a text, or against the input if the text is a dash. -/
def check (c : Context) (text : String) : Act Report := do
  let rules ← c.rules
  let r := Scan.text rules (if text == "-" then c.input else text) "<input>"
  let passed : Bool := c.policy.blockThreshold ≤ r.score
  let s := c.screen
  let pretty := (s.strong "Score:" ++ " " ++ scoreText s r.score r.risk) ::
    (if r.findings.isEmpty then ["No rule matched."] else findingLines s r.findings)
  let compact := "score=" ++ toString r.score.toNat ++ " risk=" ++ r.risk.word ++ " findings=" ++
    toString r.findings.length ++ " " ++ passWord passed
  return { text := c.text r.toJson (unlines pretty) (unlines [compact]), failed := !passed }

def batchHeader : List String :=
  ["Package", "Score", "Risk", "Findings", "Chains", "Hash", "Status"]

def batchRow (s : Screen) (a : Assessment) : List String :=
  [a.name, toString a.score.toNat, s.risk a.risk, toString a.findings.length,
    toString a.flow.chains.length, shortHash a.hash, s.pass a.passed]

def batchLines (c : Context) (packages : List Assessment) (failed : Nat) : List String :=
  if packages.isEmpty then ["No packages found."]
  else [Table.text batchHeader (packages.map (batchRow c.screen)),
    toString packages.length ++ " scanned, " ++ toString failed ++
      " below the block threshold (" ++ toString c.policy.blockThreshold.toNat ++ ")"]

def batchReport (c : Context) (packages : List Assessment) : Except Failure Report := do
  let failed := (packages.filter (!·.passed)).length
  let value : Except String Json := do
    return .object [("packages", .arr (← packages.mapM Assessment.toJson)), ("failed", .nat failed)]
  let text ← c.render value (unlines (batchLines c packages failed))
    (unlines (packages.map Assessed.compactLine))
  return { text, failed := failed > 0 }

def batch (c : Context) (dir : String) : Act Report := do
  if !(← get).isDir dir then throw (.ofText ("not a directory: " ++ dir))
  let rules ← c.rules
  let w ← get
  liftExcept (batchReport c ((Package.subdirectories w dir).map fun root =>
    Assessment.ofPath c.policy rules w root none))

/-- Looks for behaviours in a directory. The command fails where the risk is above what the
threshold for scans leaves. -/
def runtime (c : Context) (path : String) : Act Report := do
  if !(← get).isDir path then throw (.ofText ("not a directory: " ++ path))
  let r := Behaviour.ofPath c.policy.maxFileSize (← get) path
  let limit := 100 - c.policy.blockThreshold.toNat
  let exceeded : Bool := limit < r.riskScore.toNat
  let s := c.screen
  let line (f : BehaviourFinding) : String :=
    "  " ++ s.severity f.severity ++ " " ++ s.strong f.kind ++ " " ++
      s.paint (.coloured .cyan) (if f.line == 0 then f.file else location f.file f.line) ++ " " ++
      s.dim f.description
  let pretty := (s.strong "Runtime risk:" ++ " " ++ toString r.riskScore.toNat ++ "/100 (" ++
    toString r.filesAnalyzed ++ " files analyzed, limit " ++ toString limit ++ ")") ::
    r.findings.map line
  let compact := "risk=" ++ toString r.riskScore.toNat ++ " findings=" ++
    toString r.findings.length ++ " files=" ++ toString r.filesAnalyzed ++ " " ++
    passWord !exceeded
  return { text := c.text r.toJson (unlines pretty) (unlines [compact]), failed := exceeded }

end SkillAudit.Command
