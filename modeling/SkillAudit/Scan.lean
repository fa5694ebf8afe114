import SkillAudit.Finding
import SkillAudit.Rule.Set
import SkillAudit.Text.Lines

/-! Looking for the rules in the files of a package. -/
namespace SkillAudit.Scan

def defaultSizeLimit : Nat := 1048576

def matchTextLimit : Nat := 120

/-- A match without blanks around it, cut when it is long. -/
def clip (text : String) : String :=
  let trimmed := (Text.trim text).toList
  if trimmed.length > matchTextLimit then String.ofList (trimmed.take matchTextLimit) ++ "..."
  else String.ofList trimmed

/-- The matches of one rule in a text; an empty match is none. -/
def ruleFindings (rule : Rule) (path text : String) (chars : List Char) (index : Text.LineIndex) :
    List Finding :=
  (rule.regex.findAll chars).filterMap fun m =>
    if m.start == m.stop then none
    else some {
      ruleId := rule.spec.id
      severity := rule.spec.severity
      category := rule.spec.category
      file := path
      line := index.lineOf m.start
      matchText := clip (m.text text)
      weight := rule.spec.weight }

def textFindings (rules : RuleSet) (path text : String) : List Finding :=
  let chars := text.toList
  let index := Text.LineIndex.ofChars chars
  (rules.applicable path).flatMap fun rule => ruleFindings rule path text chars index

def text (rules : RuleSet) (text label : String) : ScanReport :=
  .ofFindings (textFindings rules label text) 1 0

/-- The texts of a listing with their paths, for the files that are looked at. -/
def texts (limit : Nat) (files : Listing) : List (String × String) :=
  files.filterMap fun f => (f.text? limit).map (f.path, ·)

def files (rules : RuleSet) (limit : Nat) (files : Listing) : ScanReport :=
  let readable := texts limit files
  .ofFindings (readable.flatMap fun (path, text) => textFindings rules path text)
    readable.length (files.length - readable.length)

/-- The report when a scan is called off before its first file. -/
def cancelled (files : Listing) : ScanReport :=
  { ScanReport.ofFindings [] 0 0 with complete := files.isEmpty }

def path (rules : RuleSet) (limit : Nat) (w : World) (root : String) : ScanReport :=
  let report := files rules limit (Listing.ofPath w root)
  { report with filesSkipped := report.filesSkipped + (Listing.unread w root).length }

end SkillAudit.Scan
