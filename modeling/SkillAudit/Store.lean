import SkillAudit.AuditError
import SkillAudit.Json.Printer
import SkillAudit.Json.Reader
import SkillAudit.Json.Tree

/-!
Files that hold state. A file is read whole and written whole: whoever changes it holds its lock,
and the new content takes the place of the old in one step.
-/
namespace SkillAudit

/-- An action on the file tree. What it has done stays done when it fails. -/
abbrev Act := ExceptT AuditError (StateM World)

namespace Act

def change (path : String) (f : World → Except OsError World) : Act Unit := fun w =>
  match f w with
  | .ok w => (.ok (), w)
  | .error e => (.error (.file path e), w)

def makeDirs (path : String) : Act Unit := fun w =>
  match w.makeDirs path with
  | (.ok (), w) => (.ok (), w)
  | (.error e, w) => (.error (.file path e), w)

end Act

namespace Store

def lockPath (path : String) : String :=
  Path.withFileName path ((Path.fileName path).getD "" ++ ".lock")

/-- Takes the lock of a state file. Nobody else holds it, and it is free again after the action. -/
def lock (path : String) : Act Unit := do
  let path := lockPath path
  match Path.parent path with
  | some dir => Act.makeDirs dir
  | none => pure ()
  Act.change path (·.touch path)

def directoryOf (path : String) : String :=
  match Path.parent path with
  | some dir => if dir == "" then "." else dir
  | none => "."

def write (path : String) (bytes : ByteArray) : Act Unit := do
  Act.makeDirs (directoryOf path)
  Act.change path (·.replaceFile path bytes)

def jsonText (j : Json) : String := j.pretty ++ "\n"

def writeJson (path : String) (j : Json) : Act Unit := write path (jsonText j).toUTF8

def read? (w : World) (path : String) : Option String := (w.readText path).toOption

def readJson? {α : Type} (w : World) (path : String) (decode : Json.Decoder α) : Option α :=
  ((read? w path).bind Json.parse?).bind decode

end Store
end SkillAudit
