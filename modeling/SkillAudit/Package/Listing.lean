import SkillAudit.Text.Utf8
import SkillAudit.World.Basic

/-!
The files of a package: regular files below its root, without caches, version control and metadata
of operating systems, in the order of their paths. A file is read by the path of the root and its
own together, so one and the same file can be out of reach by one path and not by another: where the
path of its directory is too long it is not met at all, and where only its own path is, it is met and
cannot be read.
-/
namespace SkillAudit

structure PackageFile where
  path : String
  bytes : ByteArray
  deriving DecidableEq

namespace PackageFile

def size (f : PackageFile) : Nat := f.bytes.size

/-- The extension of the last name of a path, in lower case. A name that starts with its only dot
has none. -/
def extensionOf (path : String) : Option String :=
  let name := ((Path.pieces path).getLast?).getD path
  (Path.splitExtension name).2.map fun e => String.ofList (e.toList.map Char.toLower)

def extension (f : PackageFile) : Option String := extensionOf f.path

def sniffLength : Nat := 8000

/-- The text of a file, for files up to `limit` bytes without a zero byte among the first ones. -/
def text? (f : PackageFile) (limit : Nat) : Option String :=
  if f.size > limit then none
  else if (f.bytes.extract 0 sniffLength).toList.contains 0 then none
  else some (Text.Utf8.lossy f.bytes)

end PackageFile

abbrev Listing := List PackageFile

namespace Listing

def excludedDirs : List String :=
  [".git", ".hg", ".svn", "node_modules", "bower_components", "__pycache__", ".venv", "venv",
    ".tox", ".mypy_cache", ".pytest_cache"]

def excludedFiles : List String := [".DS_Store", "Thumbs.db", "desktop.ini"]

def excludedExtensions : List String := ["pyc", "pyo"]

def isExcludedFile (name : String) : Bool :=
  excludedFiles.contains name || "._".toList.isPrefixOf name.toList ||
    (match PackageFile.extensionOf name with
      | some e => excludedExtensions.contains e
      | none => false)

def isIncluded (names : Place) : Bool :=
  match names.getLast? with
  | none => false
  | some name =>
    names.dropLast.all (fun d => !excludedDirs.contains d) && !isExcludedFile name

/-- The file of the package at some names from its root, if it is one. -/
def select : Place × Node → Option PackageFile
  | (names, .file bytes) =>
    if isIncluded names then some ⟨String.intercalate "/" names, bytes⟩ else none
  | _ => none

def sorted (files : List PackageFile) : Listing :=
  files.mergeSort fun a b => decide (a.path ≤ b.path)

def ofPlace (w : World) (root : Place) : Listing :=
  sorted ((w.below root).filterMap select)

/-- Whether the directory of a file can be opened from a path to the root. -/
def isMet (root : String) (f : PackageFile) : Bool :=
  Path.isShort (Path.directory (Path.join root f.path))

/-- Whether a file can be opened from a path to the root. -/
def isOpen (root : String) (f : PackageFile) : Bool := Path.isShort (Path.join root f.path)

/-- The files that are met below the root at a path. Links are not followed. -/
def met (w : World) (root : String) : Listing :=
  match w.find root with
  | .ok (place, .dir) => (ofPlace w place).filter (isMet root)
  | _ => []

def ofPath (w : World) (root : String) : Listing := (met w root).filter (isOpen root)

def unread (w : World) (root : String) : List String :=
  ((met w root).filter fun f => !isOpen root f).map (·.path)

end Listing
end SkillAudit
