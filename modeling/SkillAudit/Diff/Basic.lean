import SkillAudit.Finding
import SkillAudit.Regex.Search

/-! The differences between two versions of a package. -/
namespace SkillAudit

inductive Signal where
  | networkCall
  | credentialAccess
  | exec
  | fileWrite
  | scheduling
  deriving DecidableEq, Repr

namespace Signal

def all : List Signal := [networkCall, credentialAccess, exec, fileWrite, scheduling]

def word : Signal → String
  | networkCall => "network-call"
  | credentialAccess => "credential-access"
  | exec => "exec"
  | fileWrite => "file-write"
  | scheduling => "scheduling"

def ofWord? : String → Option Signal
  | "network-call" => some networkCall
  | "credential-access" => some credentialAccess
  | "exec" => some exec
  | "file-write" => some fileWrite
  | "scheduling" => some scheduling
  | _ => none

def phrase : Signal → String
  | networkCall => "network call"
  | credentialAccess => "credential access"
  | exec => "code execution"
  | fileWrite => "file write"
  | scheduling => "scheduling"

def pattern : Signal → String
  | networkCall =>
    "\\bfetch\\s*\\(|\\baxios\\b|\\bhttps?\\.(?:get|request)\\s*\\(|XMLHttpRequest|\\bWebSocke" ++
    "t\\s*\\(|\\brequests\\.(?:get|post|put)\\s*\\(|\\burllib\\b|\\burlopen\\s*\\(|\\b(?:curl|" ++
    "wget)\\s"
  | credentialAccess =>
    "process\\.env\\b|os\\.environ|\\bgetenv\\s*\\(|\\.ssh/|\\.aws/|\\.npmrc|\\.netrc|(?i:keyc" ++
    "hain|keytar|wallet|credentials)"
  | exec =>
    "(?:^|[^.\\w$])(?:eval|exec|execSync|spawn|spawnSync|execFile)\\s*\\(|new\\s+Function\\s*" ++
    "\\(|child_process|\\bsubprocess\\.|\\bos\\.(?:system|popen)\\s*\\("
  | fileWrite =>
    "\\b(?:writeFile|writeFileSync|appendFile|appendFileSync|createWriteStream|copyFile|copyFi" ++
    "leSync)\\s*\\(|\\bopen\\s*\\([^)\\n]*['\"][wa]b?\\+?['\"]|\\bwrite_text\\s*\\("
  | scheduling =>
    "\\bsetInterval\\s*\\(|\\bcrontab\\b|\\bnode-cron\\b|\\bschedule\\.every\\b|LaunchAgents|s" ++
    "ystemctl\\s+(?:--user\\s+)?enable|\\bschtasks\\b"

def regexes : List (Signal × Regex) :=
  all.filterMap fun s => (Regex.compile {} s.pattern).toOption.map (s, ·)

def toJson (s : Signal) : Json := .text s.word

def ofJson : Json.Decoder Signal := Json.asWord ofWord?

end Signal

/-- A signal on a line that the version before did not have. -/
structure SensitiveChange where
  file : String
  signal : Signal
  line : Nat
  deriving DecidableEq, Repr

namespace SensitiveChange

def text (c : SensitiveChange) : String :=
  c.signal.phrase ++ " in " ++ c.file ++ ":" ++ toString c.line

def toJson (c : SensitiveChange) : Json := .object [
  ("file", .text c.file),
  ("signal", c.signal.toJson),
  ("line", .nat c.line)]

def ofJson : Json.Decoder SensitiveChange := fun j => do
  let r ← Json.asRecord ["file", "signal", "line"] j
  return {
    file := ← r.required "file" Json.asText
    signal := ← r.required "signal" Signal.ofJson
    line := ← r.required "line" Json.asNat }

end SensitiveChange

structure Diff where
  added : List String
  removed : List String
  modified : List String
  unchanged : List String
  newFindings : List Finding
  removedFindings : List Finding
  /-- The old score less the new one. -/
  riskDelta : Int
  sensitiveChanges : List SensitiveChange
  summary : String
  deriving DecidableEq, Repr

namespace Diff

def isIdentical (d : Diff) : Bool :=
  d.added.isEmpty && d.removed.isEmpty && d.modified.isEmpty

/-- A number with its sign, also when it is positive or zero. -/
def signed (n : Int) : String :=
  if n < 0 then "-" ++ toString n.natAbs else "+" ++ toString n.natAbs

def summarize (d : Diff) : String :=
  if d.isIdentical then "no changes"
  else
    toString d.added.length ++ " added, " ++ toString d.removed.length ++ " removed, " ++
      toString d.modified.length ++ " modified; " ++ toString d.newFindings.length ++
      " new findings, " ++ toString d.removedFindings.length ++ " resolved; risk delta " ++
      signed d.riskDelta ++
      (if d.sensitiveChanges.isEmpty then ""
        else "; new " ++ String.intercalate ", " (d.sensitiveChanges.map SensitiveChange.text))

def toJson (d : Diff) : Json := .object [
  ("added", .list .text d.added),
  ("removed", .list .text d.removed),
  ("modified", .list .text d.modified),
  ("unchanged", .list .text d.unchanged),
  ("newFindings", .list Finding.toJson d.newFindings),
  ("removedFindings", .list Finding.toJson d.removedFindings),
  ("riskDelta", .int d.riskDelta),
  ("sensitiveChanges", .list SensitiveChange.toJson d.sensitiveChanges),
  ("summary", .text d.summary)]

def ofJson : Json.Decoder Diff := fun j => do
  let r ← Json.asRecord ["added", "removed", "modified", "unchanged", "newFindings",
    "removedFindings", "riskDelta", "sensitiveChanges", "summary"] j
  return {
    added := ← r.required "added" (Json.asList Json.asText)
    removed := ← r.required "removed" (Json.asList Json.asText)
    modified := ← r.required "modified" (Json.asList Json.asText)
    unchanged := ← r.required "unchanged" (Json.asList Json.asText)
    newFindings := ← r.required "newFindings" (Json.asList Finding.ofJson)
    removedFindings := ← r.required "removedFindings" (Json.asList Finding.ofJson)
    riskDelta := ← r.required "riskDelta" Json.asInt
    sensitiveChanges := ← r.required "sensitiveChanges" (Json.asList SensitiveChange.ofJson)
    summary := ← r.required "summary" Json.asText }

end Diff
end SkillAudit
