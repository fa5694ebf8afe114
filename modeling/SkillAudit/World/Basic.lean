import SkillAudit.World.Path

/-!
A tree of files, directories and symbolic links, and the faults of working with it. Names are texts:
one that is not UTF-8 does not occur. Everything may be read and written, so that what cannot be
opened is missing, of the wrong kind, or at a path that is too long.
-/
namespace SkillAudit

inductive OsError where
  | notFound
  | exists
  | notDirectory
  | isDirectory
  | notEmpty
  | busy
  | nameTooLong
  | tooManyLinks
  | invalidName
  | invalidText
  | other (text : String)
  deriving DecidableEq, Repr

def OsError.message : OsError → String
  | notFound => "No such file or directory (os error 2)"
  | .exists => "File exists (os error 17)"
  | notDirectory => "Not a directory (os error 20)"
  | isDirectory => "Is a directory (os error 21)"
  | notEmpty => "Directory not empty (os error 39)"
  | busy => "Device or resource busy (os error 16)"
  | nameTooLong => "File name too long (os error 36)"
  | tooManyLinks => "Too many levels of symbolic links (os error 40)"
  | invalidName => "file name contained an unexpected NUL byte"
  | invalidText => "stream did not contain valid UTF-8"
  | other text => text

instance (priority := 2000) decidableEqBytes : DecidableEq ByteArray := fun a b =>
  decidable_of_iff (a.data = b.data) ⟨ByteArray.ext, congrArg ByteArray.data⟩

inductive Node where
  | file (bytes : ByteArray)
  | dir
  | link (target : String)
  deriving DecidableEq

abbrev Place := List String

/-- A file tree: what stands at each place but the root, which is a directory, and the place where
relative paths begin. -/
structure World where
  nodes : List (Place × Node)
  cwd : Place

namespace World

def empty : World := ⟨[], []⟩

def at? (w : World) (p : Place) : Option Node :=
  if p.isEmpty then some .dir else w.nodes.lookup p

def put (w : World) (p : Place) (n : Node) : World :=
  { w with nodes := (p, n) :: w.nodes.filter (·.1 != p) }

def prune (w : World) (p : Place) : World :=
  { w with nodes := w.nodes.filter fun (q, _) => !p.isPrefixOf q }

/-- Everything below a place, by the names that lead there. -/
def below (w : World) (p : Place) : List (Place × Node) :=
  w.nodes.filterMap fun (q, n) =>
    match p.isPrefixOf? q with
    | some (name :: rest) => some (name :: rest, n)
    | _ => none

def children (w : World) (p : Place) : List (String × Node) :=
  (w.below p).filterMap fun
    | ([name], n) => some (name, n)
    | _ => none

/-- Where a path leads: to something, or to a free place in a directory. -/
inductive Spot where
  | taken (place : Place) (node : Node)
  | free (place : Place)
  deriving DecidableEq

def linkLimit : Nat := 40

/-- Follows names from a directory. The last one is followed, if it is a link, when `follow` says so
or a slash comes after it. -/
def walk (w : World) (follow slash : Bool) (links : Nat) (here : Place) (names : List String) :
    Except OsError Spot :=
  match names with
  | [] => .ok (.taken here .dir)
  | name :: rest =>
    if isIdle name then walk w follow slash links here rest
    else if name == ".." then walk w follow slash links here.dropLast rest
    else if name.utf8ByteSize > 255 then .error .nameTooLong
    else
      let place := here ++ [name]
      match w.at? place with
      | none => if rest.isEmpty then .ok (.free place) else .error .notFound
      | some .dir => walk w follow slash links place rest
      | some (.file bytes) =>
        if rest.isEmpty && !slash then .ok (.taken place (.file bytes)) else .error .notDirectory
      | some (.link target) =>
        if rest.isEmpty && !follow && !slash then .ok (.taken place (.link target))
        else
          match links with
          | 0 => .error .tooManyLinks
          | links + 1 =>
            if target == "" then .error .notFound
            else
              walk w follow slash links (if Path.isAbsolute target then [] else here)
                (Path.pieces target ++ rest)
termination_by (links, names.length)
where
  isIdle (name : String) : Bool := name == "" || name == "."

def resolve (w : World) (follow : Bool) (path : String) : Except OsError Spot :=
  if path == "" then .error .notFound
  else if path.toList.contains '\x00' then .error .invalidName
  else if path.utf8ByteSize ≥ 4096 then .error .nameTooLong
  else
    let names := Text.dropEndWhile (· == "") (Path.pieces path)
    let slash := path.toList.getLast? == some '/'
    walk w follow slash linkLimit (if Path.isAbsolute path then [] else w.cwd) names

/-- What a path leads to, links being followed. -/
def find (w : World) (path : String) : Except OsError (Place × Node) :=
  match w.resolve true path with
  | .error e => .error e
  | .ok (.free _) => .error .notFound
  | .ok (.taken place node) => .ok (place, node)

def isFile (w : World) (path : String) : Bool :=
  match w.find path with
  | .ok (_, .file _) => true
  | _ => false

def isDir (w : World) (path : String) : Bool :=
  match w.find path with
  | .ok (_, .dir) => true
  | _ => false

def pathExists (w : World) (path : String) : Bool :=
  match w.find path with
  | .ok _ => true
  | .error _ => false

def readFile (w : World) (path : String) : Except OsError ByteArray :=
  match w.find path with
  | .error e => .error e
  | .ok (_, .file bytes) => .ok bytes
  | .ok _ => .error .isDirectory

/-- The text of a file, which has to be UTF-8. -/
def readText (w : World) (path : String) : Except OsError String :=
  match w.readFile path with
  | .error e => .error e
  | .ok bytes =>
    match String.fromUTF8? bytes with
    | some s => .ok s
    | none => .error .invalidText

def readDir (w : World) (path : String) : Except OsError (List (String × Node)) :=
  match w.find path with
  | .error e => .error e
  | .ok (place, .dir) => .ok (w.children place)
  | .ok _ => .error .notDirectory

def makeDir (w : World) (path : String) : Except OsError World :=
  match w.resolve false (trimSlashes path) with
  | .error e => .error e
  | .ok (.taken _ _) => .error .exists
  | .ok (.free place) => .ok (w.put place .dir)
where
  trimSlashes (path : String) : String :=
    match Text.dropEndWhile (· == '/') path.toList with
    | [] => path
    | cs => String.ofList cs

/-- Makes a directory and those missing on the way to it, at most `fuel` of them. What has been made
before a fault stays. -/
def makeDirsWithin : Nat → World → String → Except OsError Unit × World
  | 0, w, _ => (.error .notFound, w)
  | fuel + 1, w, path =>
    if path == "" then (.ok (), w)
    else
      match w.makeDir path with
      | .ok w => (.ok (), w)
      | .error .notFound =>
        match Path.parent path with
        | none => (.error (.other "failed to create whole tree"), w)
        | some up =>
          match makeDirsWithin fuel w up with
          | (.error e, w) => (.error e, w)
          | (.ok (), w) =>
            match w.makeDir path with
            | .ok w => (.ok (), w)
            | .error e => if w.isDir path then (.ok (), w) else (.error e, w)
      | .error e => if w.isDir path then (.ok (), w) else (.error e, w)

def makeDirs (w : World) (path : String) : Except OsError Unit × World :=
  makeDirsWithin (path.length + 1) w path

/-- Writes a file, replacing what it held; a link is followed to where it leads. -/
def writeFile (w : World) (path : String) (bytes : ByteArray) : Except OsError World :=
  match w.resolve true path with
  | .error e => .error e
  | .ok (.taken place (.file _)) => .ok (w.put place (.file bytes))
  | .ok (.taken _ _) => .error .isDirectory
  | .ok (.free place) =>
    if path.toList.getLast? == some '/' then .error .isDirectory
    else .ok (w.put place (.file bytes))

/-- Opens a file for writing without changing what it holds, making it if it is missing. -/
def touch (w : World) (path : String) : Except OsError World :=
  match w.resolve true path with
  | .error e => .error e
  | .ok (.taken _ (.file _)) => .ok w
  | .ok (.taken _ _) => .error .isDirectory
  | .ok (.free place) =>
    if path.toList.getLast? == some '/' then .error .isDirectory
    else .ok (w.put place (.file .empty))

def removeFile (w : World) (path : String) : Except OsError World :=
  match w.resolve false path with
  | .error e => .error e
  | .ok (.free _) => .error .notFound
  | .ok (.taken _ .dir) => .error .isDirectory
  | .ok (.taken place _) => .ok (w.prune place)

/-- Removes a directory with all it holds; a link is removed, not followed. -/
def removeTree (w : World) (path : String) : Except OsError World :=
  match w.resolve false path with
  | .error e => .error e
  | .ok (.free _) => .error .notFound
  | .ok (.taken place .dir) => .ok (w.prune place)
  | .ok (.taken place (.link _)) => .ok (w.prune place)
  | .ok (.taken _ (.file _)) => .error .notDirectory

def move (w : World) (source target : Place) : World :=
  let moved := w.nodes.filterMap fun (q, n) =>
    (source.isPrefixOf? q).map fun rest => (target ++ rest, n)
  let w := (w.prune source).prune target
  { w with nodes := moved ++ w.nodes }

/-- Puts a file in the place of whatever file or link has a name, without following it. -/
def replaceFile (w : World) (path : String) (bytes : ByteArray) : Except OsError World :=
  if path == "" then .error .notFound
  else if (Path.pieces path).getLast?.any fun p => p == "." || p == ".." then .error .busy
  else if path.toList.all (· == '/') then .error .busy
  else if path.toList.getLast? == some '/' then .error .notDirectory
  else
    match w.resolve false path with
    | .error e => .error e
    | .ok (.taken _ .dir) => .error .isDirectory
    | .ok (.taken place _) => .ok (w.put place (.file bytes))
    | .ok (.free place) => .ok (w.put place (.file bytes))

/-- Renames a file, a link or a directory. A file replaces a file or a link, a directory an empty
directory. -/
def rename (w : World) (source target : String) : Except OsError World :=
  match w.resolve false source, w.resolve false target with
  | .error e, _ => .error e
  | .ok (.free _), _ => .error .notFound
  | _, .error e => .error e
  | .ok (.taken from_ node), .ok spot =>
    match node, spot with
    | .dir, .free to_ =>
      if from_.isPrefixOf to_ then .error (.other "Invalid argument (os error 22)")
      else .ok (w.move from_ to_)
    | .dir, .taken to_ .dir =>
      if from_ == to_ then .ok w
      else if from_.isPrefixOf to_ then .error (.other "Invalid argument (os error 22)")
      else if (w.below to_).isEmpty then .ok (w.move from_ to_)
      else .error .notEmpty
    | .dir, .taken _ _ => .error .notDirectory
    | _, .taken _ .dir => .error .isDirectory
    | _, .free to_ => .ok (w.move from_ to_)
    | _, .taken to_ _ => if from_ == to_ then .ok w else .ok (w.move from_ to_)

end World
end SkillAudit
