import SkillAudit.Command.Scan

/-! Commands that compare and survey: differences, watch cycles, the policy and the state. -/
namespace SkillAudit.Command

def diffLines (s : Screen) (d : Diff) : List String :=
  let files (label : String) (names : List String) : List String :=
    names.map fun name => "  " ++ Screen.padded 9 label ++ " " ++ name
  let findings (title : String) (list : List Finding) : List String :=
    if list.isEmpty then [] else ["", "  " ++ s.heading title] ++ findingLines s list
  [s.strong d.summary] ++ files "added" d.added ++ files "removed" d.removed ++
    files "modified" d.modified ++
    (if d.sensitiveChanges.isEmpty then [] else
      ["", "  " ++ s.heading "Sensitive changes"] ++ d.sensitiveChanges.map fun change =>
        "    new " ++ s.paint (.coloured .red) change.signal.phrase ++ " in " ++
          location change.file change.line) ++
    findings "New findings" d.newFindings ++ findings "Resolved findings" d.removedFindings ++
    ["", "  " ++ s.strong "Risk delta:" ++ " " ++ Diff.signed d.riskDelta]

/-- Compares two versions of a package. The command fails where the new one is riskier. -/
def diff (c : Context) (old new : String) : Act Report := do
  let w ← get
  match [old, new].find? fun dir => !w.isDir dir with
  | some dir => throw (.ofText ("not a directory: " ++ dir))
  | none =>
    let rules ← c.rules
    let d := Diff.ofPaths rules c.policy.maxFileSize w old new
    return {
      text := c.text d.toJson (unlines (diffLines c.screen d)) (unlines [d.summary])
      failed := !d.newFindings.isEmpty || !d.sensitiveChanges.isEmpty }

def watchLines (s : Screen) (r : WatchReport) : List String :=
  (s.strong "Watch:" ++ " " ++ toString r.scanned ++ " packages, " ++ toString r.clean ++
    " clean") ::
  (if r.alerts.isEmpty then ["  " ++ s.paint (.coloured .green) "No alerts."] else
    r.alerts.map fun a =>
      "  " ++ s.alert a.severity ++ " " ++ Screen.padded 12 a.kind.word ++ " " ++
        s.strong a.skill ++ " " ++ a.message)

/-- Runs a watch cycle. The command fails on an alert that is high or critical. -/
def watch (c : Context) (dir : Option String) : Act Report := do
  let dir := dir.getD c.paths.skillsDir
  if !(← get).isDir dir then throw (.ofText ("skills directory not found: " ++ dir))
  let rules ← c.rules
  let watcher : Watcher := ⟨dir, c.paths.watchState, c.policy, rules⟩
  let (r, _) ← Act.onLedger (← c.ledger) (watcher.run c.now)
  let compact := r.alerts.map fun a =>
    a.severity.word ++ " " ++ a.kind.word ++ " " ++ a.skill ++ " " ++ a.message
  return {
    text := c.text r.toJson (unlines (watchLines c.screen r)) (unlines compact)
    failed := r.worst?.any fun worst => AlertSeverity.rank .high ≤ worst.rank }

def trueFalse (b : Bool) : String := if b then "true" else "false"

def onOff (b : Bool) : String := if b then "on" else "off"

def policyLines (s : Screen) (p : Policy) (rules : RuleSet) : List String :=
  let row (label value : String) : String :=
    "  " ++ s.paintTo .strong 26 (label ++ ":") ++ " " ++ value
  [s.heading "Policy",
    row "Auto-allow threshold" (toString p.autoAllowThreshold.toNat),
    row "Review threshold" (toString p.reviewThreshold.toNat),
    row "Block threshold" (toString p.blockThreshold.toNat),
    row "Require approval for all" (trueFalse p.requireApprovalForAll),
    row "Flow analysis" (onOff p.enableFlowAnalysis),
    row "Diff scan" (onOff p.enableDiffScan),
    row "Max file size" (toString p.maxFileSize ++ " bytes"),
    row "Manifest" p.manifestFile,
    row "Rules" (rules.version ++ " (" ++ toString rules.rules.length ++ " rules)")]

def policyCompact (p : Policy) (rules : RuleSet) : String :=
  "auto_allow=" ++ toString p.autoAllowThreshold.toNat ++ " review=" ++
    toString p.reviewThreshold.toNat ++ " block=" ++ toString p.blockThreshold.toNat ++
    " require_all=" ++ trueFalse p.requireApprovalForAll ++ " flow=" ++
    trueFalse p.enableFlowAnalysis ++ " diff=" ++ trueFalse p.enableDiffScan ++ " rules=" ++
    rules.version

def policyJson (p : Policy) (rules : RuleSet) : Json :=
  match p.toJson with
  | .obj members => .obj (members ++ [(some "rulesVersion", .text rules.version),
      (some "ruleCount", .nat rules.rules.length)])
  | j => j

def showPolicy (c : Context) : Act Report := do
  let rules ← c.rules
  let text := c.text (policyJson c.policy rules)
    (unlines (policyLines c.screen c.policy rules)) (unlines [policyCompact c.policy rules])
  return { text }

def statusLines (s : Screen) (stats : LedgerStats) (pending tracked : Nat) (lastRun : String)
    (skillsDir : String) (p : Policy) : List String := [
  s.heading "Ledger",
  "  " ++ s.paint (.coloured .green) (toString stats.approved) ++ " approved, " ++
    s.paint (.coloured .red) (toString stats.blocked) ++ " blocked, " ++
    s.paint (.coloured .yellow) (toString stats.revoked) ++ " revoked (" ++
    toString stats.packages ++ " packages)",
  "  " ++ toString pending ++ " pending review",
  s.heading "Watch",
  "  " ++ toString tracked ++ " packages tracked, last run " ++ lastRun,
  "  skills in " ++ skillsDir,
  s.heading "Policy",
  "  allow >= " ++ toString p.autoAllowThreshold.toNat ++ ", block < " ++
    toString p.reviewThreshold.toNat ++ ", exit threshold " ++ toString p.blockThreshold.toNat ++
    (if p.requireApprovalForAll then ", approval required for all" else "")]

def status (c : Context) : Act Report := do
  let stats := (← c.ledger).stats
  let rules ← c.rules
  let w ← get
  let watcher : Watcher := ⟨c.paths.skillsDir, c.paths.watchState, c.policy, rules⟩
  let state := watcher.state w
  let pending := (Pending.list w c.paths.pending).length
  let tracked := state.skills.length
  let lastRun := (state.lastRunAt.map fun t => t.dateMinute ++ " UTC").getD "never"
  let value : Json := .object [
    ("ledger", stats.toJson),
    ("pendingReviews", .nat pending),
    ("watch", .object [("tracked", .nat tracked),
      ("lastRunAt", .option Instant.toJson state.lastRunAt)]),
    ("policy", c.policy.toJson),
    ("paths", c.paths.toJson)]
  let compact := "approved=" ++ toString stats.approved ++ " blocked=" ++
    toString stats.blocked ++ " revoked=" ++ toString stats.revoked ++ " pending=" ++
    toString pending ++ " tracked=" ++ toString tracked ++ " last_watch=" ++ lastRun
  let text := c.text value
    (unlines (statusLines c.screen stats pending tracked lastRun c.paths.skillsDir c.policy))
    (unlines [compact])
  return { text }

end SkillAudit.Command
