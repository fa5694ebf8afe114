import SkillAudit.World.Basic
import SkillAudit.Yaml.Value

/-! The manifest of a package: a text that may start with a block of YAML between two rules. -/
namespace SkillAudit

structure Manifest where
  name : Option String
  version : Option String
  description : Option String
  deriving DecidableEq, Repr

namespace Manifest

def empty : Manifest := ⟨none, none, none⟩

def defaultName : String := "SKILL.md"

/-- The lines of a text, each with its line feed. -/
def linesWithEnds (cs : List Char) : List (List Char) :=
  go cs [] []
where
  /-- `line` is the current line and `done` the finished ones, both backwards. -/
  go : List Char → List Char → List (List Char) → List (List Char)
    | [], [], done => done.reverse
    | [], line, done => (line.reverse :: done).reverse
    | c :: rest, line, done =>
      if c == '\n' then go rest [] ((c :: line).reverse :: done) else go rest (c :: line) done

/-- Whether a line ends the block: three dashes, and perhaps blanks. -/
def isRule (line : List Char) : Bool := Text.dropEndWhile Text.isBlank line == ['-', '-', '-']

/-- What follows the opening rule, before which a byte-order mark may stand. -/
def afterRule (cs : List Char) : Option (List Char) :=
  let cs := match cs with
    | '\ufeff' :: rest => rest
    | _ => cs
  match "---\n".toList.isPrefixOf? cs with
  | some rest => some rest
  | none => "---\r\n".toList.isPrefixOf? cs

/-- The byte offset of the first rule among some lines, the first of them standing at `offset`. -/
def ruleOffset? : List (List Char) → Nat → Option Nat
  | [], _ => none
  | line :: rest, offset =>
    if isRule line then some offset
    else ruleOffset? rest (offset + (String.ofList line).utf8ByteSize)

def frontMatter (text : String) : Option String :=
  (afterRule text.toList).bind fun rest =>
    (ruleOffset? (linesWithEnds rest) 0).map fun stop =>
      String.Pos.Raw.extract (String.ofList rest) 0 ⟨stop⟩

/-- The text of a scalar, without blanks around it; a text of blanks is none. -/
def scalarText? : Yaml.Value → Option String
  | .string s =>
    let t := Text.trim s
    if t.isEmpty then none else some t
  | .integer i => some (toString i)
  | .float f => some f.text
  | .boolean b => some (if b then "true" else "false")
  | _ => none

def ofValue (v : Yaml.Value) : Manifest where
  name := (v.get? "name").bind scalarText?
  version := (v.get? "version").bind scalarText?
  description := (v.get? "description").bind scalarText?

/-- What a text says; without a block that can be read, nothing. -/
def ofText (text : String) : Manifest :=
  match (frontMatter text).bind Yaml.Value.parse? with
  | some v => ofValue v
  | none => .empty

def read (w : World) (dir manifest : String) : Manifest :=
  match w.readText (Path.join dir manifest) with
  | .ok text => ofText text
  | .error _ => .empty

end Manifest

/-- Whether a name can be the name of a directory, of at most 128 bytes. -/
def isSafeName (name : String) : Bool :=
  name != "" && name != "." && name != ".." &&
    name.toList.all (fun c => c != '/' && c != '\\' && c != '\x00') && name.utf8ByteSize ≤ 128

structure Package where
  root : String
  name : String
  version : Option String
  description : Option String
  deriving DecidableEq, Repr

namespace Package

def directoryName (root : String) : String := (Path.fileName root).getD "unnamed"

/-- Describes the package at a path. Its name is that of the manifest if it can name a directory. -/
def describe (w : World) (root manifest : String) : Package :=
  let m := Manifest.read w root manifest
  { root
    name := (m.name.filter isSafeName).getD (directoryName root)
    version := m.version
    description := m.description }

def isPackage (w : World) (dir manifest : String) : Bool := w.isFile (Path.join dir manifest)

/-- The directories in a directory, without hidden ones and links, in the order of their names. -/
def subdirectories (w : World) (dir : String) : List String :=
  match w.readDir dir with
  | .error _ => []
  | .ok entries =>
    let names := entries.filterMap fun (name, node) =>
      if node = .dir && name.toList.head? != some '.' then some name else none
    (names.mergeSort fun a b => decide (a ≤ b)).map (Path.join dir)

/-- The root of the package at a path: the path itself, or the only package directly below it. -/
def locate? (w : World) (path manifest : String) : Option String :=
  if isPackage w path manifest then some path
  else
    match (subdirectories w path).filter (isPackage w · manifest) with
    | [only] => some only
    | _ => none

/-- The packages in a directory; where it holds none, a directory in it is looked into as well. -/
def discover (w : World) (root manifest : String) : List String :=
  (subdirectories w root).flatMap fun dir =>
    if isPackage w dir manifest then [dir]
    else (subdirectories w dir).filter (isPackage w · manifest)

end Package
end SkillAudit
