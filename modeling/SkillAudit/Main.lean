import Std.Time.DateTime.Timestamp
import SkillAudit.Command.Run

/-!
The command line. It loads what a run may touch into a file tree, runs the program on it, and writes
back what has changed.
-/
namespace SkillAudit.Main

def present : IO Instant := do
  let nanos := (← Std.Time.Timestamp.now).toNanosecondsSinceUnixEpoch.val
  let seconds := nanos.fdiv 1000000000
  let (year, month, day) := Civil.ofDayNumber (seconds.fdiv 86400)
  let rest := (seconds.fmod 86400).toNat
  let civil : Civil :=
    ⟨year, month, day, rest / 3600, rest / 60 % 60, rest % 60, (nanos.fmod 1000000000).toNat⟩
  match Instant.ofCivil? civil with
  | some t => return t
  | none => throw (IO.userError "the clock is out of range")

def readVariables (names : List String) : IO (List (String × String)) :=
  names.filterMapM fun name => do return (← IO.getEnv name).map (name, ·)

def knownVariables : List String :=
  ["HOME", "XDG_CONFIG_HOME", "XDG_DATA_HOME", CommandLine.configVariable, "CLICOLOR",
    "CLICOLOR_FORCE", "NO_COLOR"]

def words (text : String) : List String :=
  ((Text.splitWhen (fun c => !Config.isNameChar c) text.toList).map String.ofList).eraseDups

def pathOf (place : Place) : String := "/" ++ String.intercalate "/" place

/-- The place a path names, dots being taken by their letter. -/
def placeOf (cwd : Place) (path : String) : Place :=
  (Path.names path).foldl (fun place name =>
    if name == ".." then place.dropLast else if name == "." then place else place ++ [name])
    (if Path.isAbsolute path then [] else cwd)

def stations (place : Place) : List Place := (List.range (place.length + 1)).map place.take

/-- Loads what stands at a place, and all below it if asked to. -/
partial def loadNode (deep : Bool) (w : World) (place : Place) : IO World := do
  let path := pathOf place
  try
    let real ← IO.FS.realPath path
    match (← real.metadata).type with
    | .dir =>
      let w := if place.isEmpty then w else w.put place .dir
      if deep then
        (← real.readDir).foldlM (fun w entry => do
          if (← entry.path.symlinkMetadata).type matches .symlink then
            let target := (← IO.FS.realPath entry.path).toString
            let w := w.put (place ++ [entry.fileName]) (.link target)
            (stations (placeOf [] target)).foldlM (loadNode false) w
          else loadNode true w (place ++ [entry.fileName])) w
      else return w
    | .file => return w.put place (.file (← IO.FS.readBinFile path))
    | _ => return w
  catch _ => return w

/-- Loads the directories on the way to a path, and what it leads to. -/
def loadPath (w : World) (path : String) : IO World := do
  let place := placeOf w.cwd path
  let w ← (stations place).dropLast.foldlM (loadNode false) w
  loadNode true w place

def store (before after : World) : IO Unit := do
  let gone := before.nodes.filter fun (place, _) => (after.at? place).isNone
  let deepestFirst := gone.mergeSort fun a b => b.1.length ≤ a.1.length
  deepestFirst.forM fun (place, node) =>
    match node with
    | .dir => IO.FS.removeDir (pathOf place)
    | _ => IO.FS.removeFile (pathOf place)
  let fresh := after.nodes.filter fun (place, node) => before.at? place != some node
  (fresh.mergeSort fun a b => a.1.length ≤ b.1.length).forM fun (place, node) =>
    match node with
    | .dir => IO.FS.createDirAll (pathOf place)
    | .file bytes => IO.FS.writeBinFile (pathOf place) bytes
    | .link _ => pure ()

/-- The lines of a stream up to its end, after a text. -/
partial def readAll (stream : IO.FS.Stream) (text : String) : IO String := do
  let line ← stream.getLine
  if line.isEmpty then return text else readAll stream (text ++ line)

def finish (out : Outcome) : IO UInt32 := do
  IO.print out.output
  IO.eprint out.errors
  return out.exit

def perform (environment : Environment) (request : CommandLine.Request) : IO UInt32 := do
  let cwd := placeOf [] (← IO.currentDir).toString
  let defaultConfig := environment.configDir?.map (Path.join · "config.toml")
  let configs := (request.config <|> defaultConfig).toList
  let w ← configs.foldlM loadPath ⟨[], cwd⟩
  let mentioned := configs.flatMap fun path => words ((w.readText path).toOption.getD "")
  let environment := environment.extend (← readVariables mentioned)
  let input ← if request.command == .check "-" then readAll (← IO.getStdin) "" else pure ""
  let terminal ← (← IO.getStdout).isTty
  let setting : Setting := { environment, now := ← present, input, terminal }
  match Program.contextOf setting w request with
  | .error f => finish (Program.failed f)
  | .ok c =>
    let before ← (Program.touchedPaths c request.command).foldlM loadPath w
    let (out, after) := Program.runRequest setting request before
    store before after
    finish out

end SkillAudit.Main

def main (args : List String) : IO UInt32 := do
  let known ← SkillAudit.Main.readVariables SkillAudit.Main.knownVariables
  let environment : SkillAudit.Environment := ⟨known⟩
  match SkillAudit.CommandLine.parse environment args with
  | .error stop => SkillAudit.Main.finish (SkillAudit.Program.stopped stop)
  | .ok request => SkillAudit.Main.perform environment request
