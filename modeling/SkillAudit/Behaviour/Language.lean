import SkillAudit.Package.Listing
import SkillAudit.Text.Lines

/-! The languages of the scripts of a package. -/
namespace SkillAudit

inductive Language where
  | javascript
  | python
  | shell
  deriving DecidableEq, Repr

namespace Language

def all : List Language := [javascript, python, shell]

def ofExtension? (extension : String) : Option Language :=
  if ["js", "mjs", "cjs", "ts", "tsx", "jsx", "mts", "cts"].contains extension then some javascript
  else if extension == "py" then some python
  else if ["sh", "bash", "zsh"].contains extension then some shell
  else none

/-- The language of the interpreter that a first line `#!` names. -/
def ofInterpreter? (line : String) : Option Language :=
  (Text.stripFront "#!" line).bind fun interpreter =>
    if Text.hasPart "python" interpreter then some python
    else if Text.hasPart "node" interpreter then some javascript
    else if Text.hasPart "sh" interpreter then some shell
    else none

/-- The language of a file: by its extension, or without one by its first line. -/
def ofFile? (path text : String) : Option Language :=
  match PackageFile.extensionOf path with
  | some e => ofExtension? e
  | none => (Text.lines text).head?.bind ofInterpreter?

def commentMarks : Language → List String
  | javascript => ["//", "/*", "*"]
  | python => ["#"]
  | shell => ["#"]

/-- Whether a line is a comment. The line that names an interpreter is none. -/
def isComment (l : Language) (line : String) : Bool :=
  let t := (Text.trimStart line).toList
  l.commentMarks.any (·.toList.isPrefixOf t) &&
    (l == javascript || !"#!".toList.isPrefixOf t)

end Language
end SkillAudit
