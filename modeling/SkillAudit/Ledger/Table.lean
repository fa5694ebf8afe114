import SkillAudit.Ledger.Entry
import SkillAudit.Package.Fingerprint

/-! A ledger as a Markdown table. -/
namespace SkillAudit.Ledger

/-- A text inside a cell: bars are escaped and line ends are blanks. -/
def cell (text : String) : String :=
  String.ofList (text.toList.flatMap fun c =>
    if c == '|' then ['\\', '|'] else if c == '\r' || c == '\n' then [' '] else [c])

def tableHead : String :=
  "| Date | Name | Version | Status | Approver | Score | Risk | Hash | Source | Purpose |\n" ++
  "|------|------|---------|--------|----------|------:|------|------|--------|---------|\n"

def statusText (e : LedgerEntry) : String :=
  match e.revokedAt with
  | some t => e.status.word ++ " (" ++ t.date ++ ")"
  | none => e.status.word

def rowCells (e : LedgerEntry) : List String := [
  (e.date.map Instant.dateMinute).getD "",
  cell e.name,
  cell (e.version.getD "-"),
  statusText e,
  e.approver.word,
  toString e.score.toNat,
  e.risk.word,
  "`" ++ shortHash e.hash ++ "`",
  cell (e.source.getD "-"),
  cell (e.purpose.getD "")]

def row (e : LedgerEntry) : String :=
  "| " ++ String.intercalate " | " (rowCells e) ++ " |\n"

def markdown (entries : List LedgerEntry) : String :=
  let s := LedgerStats.ofEntries entries
  "# Skill Ledger\n\n" ++ toString s.total ++ " entries: " ++ toString s.approved ++
    " approved, " ++ toString s.blocked ++ " blocked, " ++ toString s.revoked ++ " revoked\n\n" ++
    (if entries.isEmpty then "_No entries._\n"
      else tableHead ++ String.join (entries.map row))

end SkillAudit.Ledger
