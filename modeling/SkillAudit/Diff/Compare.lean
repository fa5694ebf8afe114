import SkillAudit.Diff.Basic
import SkillAudit.Package.Fingerprint
import SkillAudit.Scan

/-! Comparing two versions of a package by their files, findings and signals. -/
namespace SkillAudit.Diff

def missingFrom (others findings : List Finding) : List Finding :=
  findings.filter fun f => !others.any (·.key == f.key)

/-- The text of a file of a package, by path; of two files with one path the later counts. -/
def textAt? (limit : Nat) (files : Listing) (path : String) : Option String :=
  (files.findRev? (·.path == path)).bind (·.text? limit)

/-- The number of the first line with a signal that `before` does not have on any line. -/
def firstNewLine (re : Regex) (before after : String) : Option Nat :=
  let known := ((Text.lines before).filter (re.isMatch ·.toList)).map Text.trim
  ((Text.lines after).findIdx? fun l =>
    re.isMatch l.toList && !known.contains (Text.trim l)).map (· + 1)

def fileChanges (limit : Nat) (old new : Listing) (path : String) : List SensitiveChange :=
  match textAt? limit new path with
  | none => []
  | some after =>
    let before := (textAt? limit old path).getD ""
    Signal.regexes.filterMap fun (signal, re) =>
      (firstNewLine re before after).map (⟨path, signal, ·⟩)

def ofListings (rules : RuleSet) (limit : Nat) (old new : Listing) : Diff :=
  let before := Fingerprint.fileHashes old
  let after := Fingerprint.fileHashes new
  let added := (after.filter fun (p, _) => (before.lookup p).isNone).map (·.1)
  let modified := (before.filter fun (p, h) =>
    match after.lookup p with
    | some h' => h != h'
    | none => false).map (·.1)
  let oldReport := Scan.files rules limit old
  let newReport := Scan.files rules limit new
  let diff : Diff := {
    added
    removed := (before.filter fun (p, _) => (after.lookup p).isNone).map (·.1)
    modified
    unchanged := (before.filter fun (p, h) => after.lookup p == some h).map (·.1)
    newFindings := missingFrom oldReport.findings newReport.findings
    removedFindings := missingFrom newReport.findings oldReport.findings
    riskDelta := (oldReport.score.toNat : Int) - newReport.score.toNat
    sensitiveChanges := (added ++ modified).flatMap (fileChanges limit old new)
    summary := "" }
  { diff with summary := diff.summarize }

def ofPaths (rules : RuleSet) (limit : Nat) (w : World) (old new : String) : Diff :=
  ofListings rules limit (Listing.ofPath w old) (Listing.ofPath w new)

end SkillAudit.Diff
