import SkillAudit.Url.Host

/-! Absolute URLs: their parts, their reading from text and their normal text. -/
namespace SkillAudit

inductive SchemeKind where
  | file
  | special
  | other
deriving DecidableEq

def SchemeKind.isSpecial (kind : SchemeKind) : Bool := kind != .other

structure Authority where
  user : String
  password : Option String
  host : String
  port : Option Nat
deriving DecidableEq

def Authority.text (a : Authority) : String :=
  let login :=
    match a.password with
    | none => if a.user == "" then "" else a.user ++ "@"
    | some password => a.user ++ ":" ++ password ++ "@"
  "//" ++ login ++ a.host ++ (a.port.map fun p => ":" ++ toString p).getD ""

/-- What a URL names there. A list of segments, or a text that is none. -/
inductive UrlPath where
  | segments (list : List String)
  | plain (text : String)
deriving DecidableEq

structure Url where
  scheme : String
  authority : Option Authority
  path : UrlPath
  query : Option String
  fragment : Option String
deriving DecidableEq

namespace Url

def schemeKind (scheme : String) : SchemeKind :=
  if scheme == "file" then .file
  else if ["http", "https", "ws", "wss", "ftp"].contains scheme then .special
  else .other

def defaultPort (scheme : String) : Option Nat :=
  match scheme with
  | "http" | "ws" => some 80
  | "https" | "wss" => some 443
  | "ftp" => some 21
  | _ => none

/-- Whether a character ends the host and the segments before it. -/
def isSlash (kind : SchemeKind) (c : Char) : Bool :=
  c == '/' || (c == '\\' && kind.isSpecial)

def endsPath (c : Char) : Bool := c == '?' || c == '#'

def isDrive (segment : List Char) : Bool :=
  match segment with
  | [a, b] => a.isAlpha && (b == ':' || b == '|')
  | _ => false

def isDot (segment : List Char) : Bool :=
  [".", "%2e"].contains (String.ofList (segment.map Char.toLower))

def isDoubleDot (segment : List Char) : Bool :=
  ["..", ".%2e", "%2e.", "%2e%2e"].contains (String.ofList (segment.map Char.toLower))

/-- The path without its last segment; a file keeps a drive. -/
def shorten (kind : SchemeKind) (path : List (List Char)) : List (List Char) :=
  match kind, path with
  | .file, [drive] => if isDrive drive then path else []
  | _, _ => path.dropLast

/-- A path with one more segment. One that is a dot leaves no trace but a slash at the end, and
one that is two dots takes the segment before with it. -/
def addSegment (kind : SchemeKind) (path : List (List Char)) (segment : List Char) (isLast : Bool) :
    List (List Char) :=
  if isDoubleDot segment then shorten kind path ++ (if isLast then [[]] else [])
  else if isDot segment then path ++ (if isLast then [[]] else [])
  else path ++ [segment]

def normalDrive (segment : List Char) : List Char :=
  match segment with
  | [a, '|'] => if a.isAlpha then [a, ':'] else segment
  | _ => segment

def addSegments (kind : SchemeKind) :
    List (List Char) → List (List Char) → List (List Char)
  | path, [] => path
  | path, segment :: rest =>
    let segment := if kind == .file && path.isEmpty then normalDrive segment else segment
    addSegments kind (addSegment kind path segment rest.isEmpty) rest

/-- A file's path does not start with an empty segment, unless it has no other. -/
def normalFilePath (path : List (List Char)) : List (List Char) :=
  match path.dropWhile List.isEmpty with
  | [] => [[]]
  | kept => kept

def readSegments (kind : SchemeKind) (cs : List Char) : List String :=
  let pieces := (Text.splitWhen (isSlash kind) cs).map (encode inPathSet)
  let pieces :=
    match cs with
    | [] => if kind.isSpecial then [[]] else []
    | c :: _ => if isSlash kind c then pieces.drop 1 else pieces
  let path := addSegments kind [] pieces
  (if kind == .file then normalFilePath path else path).map String.ofList

/-- The query and the fragment at the end of a text that starts with the mark of one or is empty. -/
def readTail (kind : SchemeKind) (cs : List Char) : Option String × Option String :=
  let set := if kind.isSpecial then inSpecialQuerySet else inQuerySet
  let query := cs.takeWhile (· != '#')
  let fragment := cs.dropWhile (· != '#')
  ((match query with
    | '?' :: q => some (String.ofList (encode set q))
    | _ => none),
   (match fragment with
    | '#' :: f => some (String.ofList (encode inFragmentSet f))
    | _ => none))

/-- The user's name and password before the last at sign of an authority. -/
def readUser (cs : List Char) : String × Option String :=
  let user := cs.takeWhile (· != ':')
  let text (part : List Char) : String := String.ofList (encode inUserSet part)
  match cs.dropWhile (· != ':') with
  | [] => (text user, none)
  | [_] => (text user, none)
  | _ :: password => (text user, some (text password))

/-- The port after the host of an authority; the default one is not kept. -/
def readPort? (scheme : String) (digits : List Char) : Option (Option Nat) :=
  if digits.isEmpty then some none
  else if !digits.all Char.isDigit then none
  else
    match number? 10 digits with
    | none => none
    | some n =>
      if n > 65535 then none
      else some (if some n == defaultPort scheme then none else some n)

/-- The host of an authority and what follows the colon after it; brackets hide colons. -/
def splitPort (cs : List Char) : List Char × Option (List Char) :=
  go cs false []
where
  go : List Char → Bool → List Char → List Char × Option (List Char)
    | [], _, host => (host.reverse, none)
    | c :: rest, hidden, host =>
      if c == ':' && !hidden then (host.reverse, some rest)
      else go rest (c == '[' || (hidden && c != ']')) (c :: host)

def splitUser (cs : List Char) : Option (List Char) × List Char :=
  let host := (cs.reverse.takeWhile (· != '@')).reverse
  if cs.contains '@' then (some (cs.take (cs.length - host.length - 1)), host) else (none, host)

/-- An authority. Only a scheme that is not special may have an empty host, and then nothing
else. -/
def readAuthority? (scheme : String) (kind : SchemeKind) (cs : List Char) : Option Authority := do
  let (login, place) := splitUser cs
  let (hostText, portText) := splitPort place
  let host ← if kind.isSpecial then specialHost? hostText else opaqueHost? hostText
  let (user, password) := (login.map readUser).getD ("", none)
  if hostText.isEmpty && (portText.isSome || (login.getD []) != []) then none
  else
    let port ← readPort? scheme (portText.getD [])
    some ⟨user, password, host, port⟩

def withAuthority (scheme : String) (kind : SchemeKind) (authority : Option Authority)
    (cs : List Char) : Url :=
  let (query, fragment) := readTail kind (cs.dropWhile fun c => !endsPath c)
  ⟨scheme, authority, .segments (readSegments kind (cs.takeWhile fun c => !endsPath c)), query,
    fragment⟩

/-- A file's URL. Its host is left out when it is this machine, or when a drive follows. -/
def readFile? (cs : List Char) : Option Url :=
  match cs with
  | a :: b :: rest =>
    if isSlash .file a && isSlash .file b then
      let host := rest.takeWhile fun c => !(isSlash .file c || endsPath c)
      if host.isEmpty || isDrive host then some (withAuthority "file" .file (some noHost) rest)
      else do
        let name ← specialHost? host
        let url := withAuthority "file" .file
          (some { noHost with host := if name == "localhost" then "" else name })
          (rest.drop host.length)
        match url.path with
        | .segments (first :: _) =>
          if isDrive first.toList then some { url with authority := some noHost } else some url
        | _ => some url
    else some (withAuthority "file" .file (some noHost) cs)
  | _ => some (withAuthority "file" .file (some noHost) cs)
where
  noHost : Authority := ⟨"", none, "", none⟩

def readPlace? (scheme : String) (kind : SchemeKind) (cs : List Char) : Option Url :=
  let place := cs.takeWhile fun c => !(isSlash kind c || endsPath c)
  (readAuthority? scheme kind place).map fun authority =>
    withAuthority scheme kind (some authority) (cs.drop place.length)

def readScheme? (cs : List Char) : Option (String × List Char) :=
  let name := cs.takeWhile fun c => c.isAlphanum || c == '+' || c == '-' || c == '.'
  match name, cs.drop name.length with
  | first :: _, ':' :: rest =>
    if first.isAlpha then some (String.ofList (name.map Char.toLower), rest) else none
  | _, _ => none

/-- Reads a URL. Controls and blanks around it, and tabs and line breaks in it, do not count. -/
def parse? (text : String) : Option Url := do
  let isOutside (c : Char) : Bool := c.toNat ≤ 0x20
  let cs := (Text.dropEndWhile isOutside (text.toList.dropWhile isOutside)).filter fun c =>
    !(c == '\t' || c == '\n' || c == '\r')
  let (scheme, rest) ← readScheme? cs
  match schemeKind scheme with
  | .file => readFile? rest
  | .special => readPlace? scheme .special (rest.dropWhile (isSlash .special))
  | .other =>
    match rest with
    | '/' :: '/' :: place => readPlace? scheme .other place
    | '/' :: _ => some (withAuthority scheme .other none rest)
    | _ =>
      let (query, fragment) := readTail .other (rest.dropWhile fun c => !endsPath c)
      let plain := encode isControl (rest.takeWhile fun c => !endsPath c)
      some ⟨scheme, none, .plain (String.ofList plain), query, fragment⟩

def canBeBase (u : Url) : Bool :=
  match u.path with
  | .segments _ => true
  | .plain _ => false

/-- The path's text. Without an authority two slashes at its start would read as one. -/
def pathText (u : Url) : String :=
  match u.path with
  | .plain text => text
  | .segments list =>
    let text := String.join (list.map ("/" ++ ·))
    if u.authority.isNone && list.length > 1 && list.head? == some "" then "/." ++ text else text

def text (u : Url) : String :=
  u.scheme ++ ":" ++ (u.authority.map Authority.text).getD "" ++ u.pathText ++
    (u.query.map ("?" ++ ·)).getD "" ++ (u.fragment.map ("#" ++ ·)).getD ""

/-- A path without an empty segment at its end, unless it is the only one. -/
def popEmpty (path : List String) : List String :=
  match path with
  | [_] => path
  | _ => if path.getLast? == some "" then path.dropLast else path

/-- A path with the text of one more segment, which is encoded. Tabs and line breaks are lost. -/
def pushSegment (kind : SchemeKind) (path : List String) (segment : String) : List String :=
  if segment == "." || segment == ".." then path
  else
    let set := if kind.isSpecial then inSpecialSegmentSet else inSegmentSet
    let kept := segment.toList.filter fun c => !(c == '\t' || c == '\n' || c == '\r')
    let path := if path == [""] then [] else path.map String.toList
    let path := addSegment kind path (encode set kept) true
    (if kind == .file then normalFilePath path else path).map String.ofList

def extend (u : Url) (segments : List String) : Url :=
  match u.path with
  | .plain _ => u
  | .segments list =>
    let push := pushSegment (schemeKind u.scheme)
    { u with path := .segments (segments.foldl push (popEmpty list)) }

end Url

end SkillAudit
