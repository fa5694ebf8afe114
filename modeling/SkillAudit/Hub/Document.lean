import SkillAudit.Hub.Error
import SkillAudit.Json.Reader
import SkillAudit.Json.Record
import SkillAudit.Text.Base64

/-! Packages as a hub serves them, and their files on disk. -/
namespace SkillAudit

inductive FileEncoding where
  | utf8
  | base64
deriving DecidableEq, Repr

structure RemoteFile where
  path : String
  content : String
  encoding : FileEncoding := .utf8
deriving DecidableEq, Repr

structure RemotePackage where
  id : String
  name : String
  version : Option String := none
  files : List RemoteFile := []
deriving DecidableEq, Repr

namespace FileEncoding

def word : FileEncoding → String
  | utf8 => "utf8"
  | base64 => "base64"

def ofWord? (s : String) : Option FileEncoding := [utf8, base64].find? (·.word == s)

end FileEncoding

namespace RemoteFile

def ofJson : Json.Decoder RemoteFile := fun j => do
  let r ← Json.asRecord ["path", "content", "encoding"] j
  return {
    path := ← r.required "path" Json.asText
    content := ← r.required "content" Json.asText
    encoding := ← r.withDefault "encoding" .utf8 (Json.asWord FileEncoding.ofWord?) }

def toJson (f : RemoteFile) : Json := .object [
  ("path", .text f.path), ("content", .text f.content), ("encoding", .text f.encoding.word)]

/-- The names along a path that stays below where it starts, if it is one and names something. -/
def safeNames? (f : RemoteFile) : Option (List String) :=
  if Path.isAbsolute f.path || f.path.toList.any (['\x00', '\\', ':'].contains ·) then
    none
  else
    let names := (Path.names f.path).filter (· != ".")
    if names.isEmpty || names.contains ".." then none else some names

/-- The bytes of a file. Blanks around a Base64 text do not count. -/
def bytes? (f : RemoteFile) : Option ByteArray :=
  match f.encoding with
  | .utf8 => some f.content.toUTF8
  | .base64 => Text.Base64.decode? (Text.trim f.content)

end RemoteFile

namespace RemotePackage

def ofJson : Json.Decoder RemotePackage := fun j => do
  let r ← Json.asRecord ["id", "name", "version", "files"] j
  return {
    id := ← r.required "id" Json.asText
    name := ← r.required "name" Json.asText
    version := ← r.optional "version" Json.asText
    files := ← r.withDefault "files" [] (Json.asList RemoteFile.ofJson) }

def toJson (p : RemotePackage) : Json := .object [
  ("id", .text p.id), ("name", .text p.name), ("version", .option .text p.version),
  ("files", .list RemoteFile.toJson p.files)]

def isPlainName (name : String) : Bool :=
  name != "" && name != "." && name != ".." &&
    !name.toList.any fun c => c == '/' || c == '\\' || c == '\x00'

def directory (p : RemotePackage) : String :=
  ([p.name, p.id].find? isPlainName).getD "skill"

/-- An action on the file tree. What it has done stays done when it fails. -/
abbrev Write := ExceptT HubError (StateM World)

def Write.makeDirs (path : String) : Write Unit := fun w =>
  match w.makeDirs path with
  | (.ok (), w) => (.ok (), w)
  | (.error e, w) => (.error (.file path e), w)

def plan (p : RemotePackage) : Except HubError (List (List String × RemoteFile)) :=
  p.files.mapM fun f =>
    match f.safeNames? with
    | some names => .ok (names, f)
    | none => .error (.unsafePath f.path)

def writeFile (root : String) (names : List String) (f : RemoteFile) : Write Unit := do
  let some bytes := f.bytes? | throw (.badContent f.path)
  let path := Path.join root (String.intercalate "/" names)
  match Path.parent path with
  | some dir => Write.makeDirs dir
  | none => pure ()
  match (← get).writeFile path bytes with
  | .ok w => set w
  | .error e => throw (.file path e)

/-- Writes every file below a directory. Nothing is written unless all paths are safe. -/
def writeTo (p : RemotePackage) (root : String) : Write Unit := do
  match p.plan with
  | .error e => throw e
  | .ok files =>
    Write.makeDirs root
    files.forM fun (names, f) => writeFile root names f

end RemotePackage
end SkillAudit
