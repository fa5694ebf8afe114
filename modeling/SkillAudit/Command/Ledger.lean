import SkillAudit.Command.Scan

/-! Commands on the ledger: approving, revoking, showing, verifying. -/
namespace SkillAudit.Command

def entryLines (s : Screen) (verb : String) (e : LedgerEntry) : List String :=
  (s.paint (.strongColoured .green) (Screen.upper verb) ++ " " ++ s.strong e.name ++ " (score " ++
    scoreText s e.score e.risk ++ ", hash " ++ shortHash e.hash ++ ")") ::
  (e.purpose.map fun purpose => "  " ++ s.strong "Purpose:" ++ " " ++ purpose).toList

def entryCompact (verb : String) (e : LedgerEntry) : String :=
  verb ++ " " ++ e.name ++ " score=" ++ toString e.score.toNat ++ " hash=" ++ shortHash e.hash

def approve (c : Context) (name : String) (purpose : Option String) : Act Report := do
  match Pending.get? (← get) c.paths.pending name with
  | none => throw (.ofAudit (.noPendingReview name))
  | some review =>
    let (_, ledger) ← c.gate
    let (entry, _) ← Act.onLedger ledger
      (Gate.approve c.now review.decision purpose review.source)
    discard (Act.onState (Pending.take c.paths.pending name))
    let hint := review.source.map fun source => "Install it with: skillgate install " ++ source
    let text := c.text entry.toJson
      (unlines (entryLines c.screen "approved" entry ++ hint.toList))
      (unlines [entryCompact "approved" entry])
    return { text }

/-- The later of two entries by when they were revoked; the second if that is the same. -/
def laterRevoked (a b : LedgerEntry) : LedgerEntry :=
  match a.revokedAt, b.revokedAt with
  | some s, some t => if t.isBefore s then a else b
  | some _, none => a
  | none, _ => b

def revoke (c : Context) (name : String) : Act Report := do
  let (revoked, ledger) ← Act.onLedger (← c.ledger) (Ledger.revoke c.now name)
  if !revoked then
    throw (.ofText ("'" ++ name ++ "' has no approved ledger entry to revoke"))
  let entries := (ledger.history name).filter (·.status == .revoked)
  let entry := entries.foldl (fun best e => some ((best.map (laterRevoked · e)).getD e)) none
  let plain := unlines ["revoked " ++ name]
  let text := c.text (.option LedgerEntry.toJson entry)
    ((entry.map fun e => unlines (entryLines c.screen "revoked" e)).getD plain)
    ((entry.map fun e => unlines [entryCompact "revoked" e]).getD plain)
  return { text }

def ledgerHeader : List String :=
  ["Date", "Name", "Version", "Status", "By", "Score", "Hash", "Purpose"]

def ledgerRow (s : Screen) (e : LedgerEntry) : List String :=
  [(e.date.map Instant.date).getD "", e.name, e.version.getD "",
    s.paint (.entryStatus e.status) e.status.word, e.approver.word, toString e.score.toNat,
    shortHash e.hash, e.purpose.getD ""]

def ledgerCompact (e : LedgerEntry) : String :=
  e.name ++ " " ++ e.status.word ++ " " ++ e.approver.word ++ " score=" ++ toString e.score.toNat ++
    " hash=" ++ shortHash e.hash

/-- Shows the entries, all or those of one package, or the Markdown table. -/
def showLedger (c : Context) (name : Option String) (markdown : Bool) : Act Report := do
  let ledger ← c.ledger
  if markdown then return { text := Ledger.markdown ledger.entries }
  else
    let entries := (name.map ledger.history).getD ledger.entries
    let s := ledger.stats
    let value : Json := .object
      [("entries", .list LedgerEntry.toJson entries), ("stats", s.toJson)]
    let pretty := [
      if entries.isEmpty then "The ledger is empty."
      else Table.text ledgerHeader (entries.map (ledgerRow c.screen)),
      toString s.total ++ " entries for " ++ toString s.packages ++ " packages: " ++
        toString s.approved ++ " approved, " ++ toString s.blocked ++ " blocked, " ++
        toString s.revoked ++ " revoked"]
    return { text := c.text value (unlines pretty) (unlines (entries.map ledgerCompact)) }

def verify (c : Context) (path : String) : Act Report := do
  let (gate, ledger) ← c.gate
  let (o, _) ← Act.onLedger ledger (gate.verify path)
  let isMatch := o.status == .matches
  let s := c.screen
  let label := o.status.label
  let pretty := [
    s.paint (.strongColoured (if isMatch then .green else .red)) label ++ " " ++ s.strong o.name,
    "  " ++ s.strong "Current hash:" ++ " " ++ o.hash,
    match o.approvedEntry with
      | some e => "  " ++ s.strong "Approved hash:" ++ " " ++ e.hash
      | none => "  No approved ledger entry."]
  let compact := o.name ++ " " ++ label ++ " hash=" ++ shortHash o.hash
  return { text := c.text o.toJson (unlines pretty) (unlines [compact]), failed := !isMatch }

end SkillAudit.Command
