import SkillAudit.Text.Blank

/-! Finding the file of a package that a relative import names. -/
namespace SkillAudit.Specifier

/-- Extensions that may be left out, in the order in which they are tried. -/
def extensions : List String :=
  ["js", "mjs", "cjs", "ts", "tsx", "jsx", "mts", "cts", "json"]

def sourceSwaps : List (String × String) :=
  [(".js", ".ts"), (".js", ".tsx"), (".jsx", ".tsx"), (".mjs", ".mts"), (".cjs", ".cts")]

def isRelative (s : String) : Bool :=
  s == "." || s == ".." || "./".toList.isPrefixOf s.toList || "../".toList.isPrefixOf s.toList

/-- Follows segments from a directory. There is nothing above the root. -/
def walk : List String → List String → Option (List String)
  | dir, [] => some dir
  | dir, s :: rest =>
    if s == "" || s == "." then walk dir rest
    else if s == ".." then
      if dir.isEmpty then none else walk dir.dropLast rest
    else walk (dir ++ [s]) rest

def base? (importer specifier : String) : Option String :=
  (walk (Text.splitAt '/' importer).dropLast (Text.splitAt '/' specifier)).map
    (String.intercalate "/")

/-- The paths tried for a base: itself, with an extension, as a directory, and as a source. -/
def candidates (base : String) : List String :=
  (if base.isEmpty then [] else base :: extensions.map (base ++ "." ++ ·)) ++
    extensions.map ((if base.isEmpty then "" else base ++ "/") ++ "index." ++ ·) ++
    sourceSwaps.filterMap fun (emitted, source) =>
      (Text.stripBack emitted base).map (· ++ source)

def resolve (files : List String) (importer specifier : String) : Option String :=
  if isRelative specifier then
    (base? importer specifier).bind fun base => (candidates base).find? files.contains
  else none

end SkillAudit.Specifier
