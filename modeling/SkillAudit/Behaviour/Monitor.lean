import SkillAudit.Behaviour.Report
import SkillAudit.Behaviour.Sign

/-! Looking for signs of behaviours in the scripts of a package. Comments do not count. -/
namespace SkillAudit.Behaviour

/-- A script by its lines, where a comment has none of its text. -/
def codeLines (language : Language) (text : String) : List (Option String) :=
  (Text.lines text).map fun l => if language.isComment l then none else some l

/-- The lines of a script with their ends, the text of comments left out. -/
def codeText (lines : List (Option String)) : List Char :=
  lines.flatMap fun l => (l.getD "").toList ++ ['\n']

def lineFindings (language : Language) (path : String) (number : Nat) (line : String) :
    List BehaviourFinding :=
  let chars := line.toList
  (lineSigns.filter fun (s, _) => s.languages.contains language).filterMap fun (s, re) =>
    (re.find? chars).map fun m => {
      kind := s.kind
      severity := s.severity
      file := path
      line := number
      pattern := Text.trim (m.text line)
      description := s.description }

def fileFindings (language : Language) (path : String) (code : List Char) :
    List BehaviourFinding :=
  let text := String.ofList code
  (pairSigns.filter fun (s, _) => s.languages.contains language).filterMap fun (s, re, re') => do
    let first ← re.find? code
    let second ← re'.find? code
    return {
      kind := s.kind
      severity := s.severity
      file := path
      line := 0
      pattern := Text.trim (first.text text) ++ " + " ++ Text.trim (second.text text)
      description := s.description }

def linesFindings (language : Language) (path : String) (lines : List (Option String)) :
    List BehaviourFinding :=
  (lines.zipIdx 1).flatMap fun (line, number) =>
    match line with
    | some l => lineFindings language path number l
    | none => []

/-- The findings in a script: those on its lines, then those in the whole. -/
def textFindings (language : Language) (path text : String) : List BehaviourFinding :=
  let lines := codeLines language text
  linesFindings language path lines ++ fileFindings language path (codeText lines)

def scripts (limit : Nat) (files : Listing) : List (Language × String × String) :=
  files.filterMap fun f => do
    let text ← f.text? limit
    let language ← Language.ofFile? f.path text
    return (language, f.path, text)

def ofListing (limit : Nat) (files : Listing) : BehaviourReport :=
  let scripts := scripts limit files
  .ofFindings (scripts.flatMap fun (language, path, text) => textFindings language path text)
    scripts.length

def ofPath (limit : Nat) (w : World) (root : String) : BehaviourReport :=
  ofListing limit (Listing.ofPath w root)

end SkillAudit.Behaviour
