import SkillAudit.Text.Blank

/-!
Paths as texts. A slash separates names; empty names, and dots after the first name, mean nothing.
-/
namespace SkillAudit.Path

def pieces (path : String) : List String := Text.splitAt '/' path

def isAbsolute (path : String) : Bool := path.toList.head? == some '/'

/-- Whether a piece after the first one means nothing. -/
def isIdle (piece : String) : Bool := piece == "" || piece == "."

/-- The pieces up to the last one that means something; the first one is always kept. -/
def meaningful (path : String) : List String :=
  match pieces path with
  | [] => []
  | first :: rest => first :: Text.dropEndWhile isIdle rest

def names (path : String) : List String :=
  match pieces path with
  | [] => []
  | first :: rest =>
    (if first == "" then [] else [first]) ++ rest.filter fun p => !isIdle p

def same (a b : String) : Bool := isAbsolute a == isAbsolute b && names a == names b

/-- A path followed by a further one; an absolute one replaces it. -/
def join (base path : String) : String :=
  if isAbsolute path then path
  else if base == "" then path
  else if base.toList.getLast? == some '/' then base ++ path
  else base ++ "/" ++ path

/-- The last name of a path, unless it is a dot or two dots or missing. -/
def fileName (path : String) : Option String :=
  match (meaningful path).getLast? with
  | none => none
  | some p => if p == "" || p == "." || p == ".." then none else some p

/-- The path without its last name; none for the root and the empty path. -/
def parent (path : String) : Option String :=
  match meaningful path with
  | [] => none
  | [first] => if first == "" then none else some ""
  | [first, _] => some (if first == "" then "/" else first)
  | first :: rest =>
    let kept := first :: Text.dropEndWhile isIdle rest.dropLast
    some (if kept == [""] then "/" else String.intercalate "/" kept)

def directory (path : String) : String := String.intercalate "/" (pieces path).dropLast

def isShort (path : String) : Bool := decide (path.utf8ByteSize < 4096)

def withFileName (path name : String) : String :=
  match fileName path with
  | none => join path name
  | some _ => join ((parent path).getD "") name

/-- A name up to its last dot, and what follows it; a dot that comes first does not count. -/
def splitExtension (name : String) : String × Option String :=
  let reversed := name.toList.reverse
  let extension := reversed.takeWhile (· != '.')
  match reversed.dropWhile (· != '.') with
  | [] => (name, none)
  | [_] => (name, none)
  | _ :: stem => (String.ofList stem.reverse, some (String.ofList extension.reverse))

def withExtension (path extension : String) : String :=
  match fileName path with
  | none => path
  | some name =>
    if name == ".." then path
    else
      let stem := (splitExtension name).1
      let front := (meaningful path).dropLast
      let text := String.intercalate "/" (front ++ [stem])
      if extension == "" then text else text ++ "." ++ extension

end SkillAudit.Path
