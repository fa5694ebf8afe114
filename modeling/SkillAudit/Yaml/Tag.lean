import SkillAudit.Text.Utf8
import SkillAudit.Yaml.Scalar

/-! Names of anchors, tags, and directives. -/
namespace SkillAudit.Yaml
open Read

def anchorName : Read String := do
  skip
  let name ← takeWhile isNameChar
  let next ← peek
  if !name.isEmpty && (isEnd next || next.any ("?:,]\x7d%@\x60".toList.contains ·)) then
    return String.ofList name
  else fail

/-- The handle of a tag: an exclamation mark, or two with a name between them. What is no handle is
the start of a local tag, which a directive cannot define. -/
def tagHandle (directive : Bool) : Read (List Char) := do
  if (← peek) != some '!' then fail
  skip
  let name ← takeWhile isNameChar
  if (← peek) == some '!' then
    skip
    return '!' :: name ++ ['!']
  else if directive && !name.isEmpty then fail
  else return '!' :: name

/-- The characters of a tag; a tag between angle brackets may also hold commas and brackets. -/
def isTagChar (verbatim : Bool) (c : Char) : Bool :=
  isNameChar c || ";/?:@&=+$.%!~*'()".toList.contains c ||
    (verbatim && (c == ',' || c == '[' || c == ']'))

def utf8Width? (byte : Nat) : Option Nat :=
  if byte < 0x80 then some 1
  else if 0xC0 ≤ byte && byte < 0xE0 then some 2
  else if 0xE0 ≤ byte && byte < 0xF0 then some 3
  else if 0xF0 ≤ byte && byte < 0xF8 then some 4
  else none

def percentByte : Read Nat := do
  match (← get).rest with
  | '%' :: a :: b :: _ =>
    match hexNumber? [a, b] with
    | some n => skipMany 3; return n
    | none => fail
  | _ => fail

def percentTail : Nat → Read (List Nat)
  | 0 => return []
  | n + 1 => do
    let byte ← percentByte
    if byte / 64 == 2 then return byte :: (← percentTail n) else fail

def percentChar : Read (List UInt8) := do
  let first ← percentByte
  match utf8Width? first with
  | some width => return (first :: (← percentTail (width - 1))).map UInt8.ofNat
  | none => fail

def tagBytes (verbatim : Bool) : Nat → List UInt8 → Read (List UInt8)
  | 0, _ => fail
  | fuel + 1, done => do
    match ← peek with
    | none => return done
    | some c =>
      if c == '%' then tagBytes verbatim fuel (done ++ (← percentChar))
      else if isTagChar verbatim c then
        skip
        tagBytes verbatim fuel (done ++ (String.singleton c).toUTF8.toList)
      else return done

/-- The text of a tag, which is not empty unless `mayBeEmpty`. -/
def tagText (verbatim mayBeEmpty : Bool) (fuel : Nat) : Read String := do
  let bytes ← tagBytes verbatim fuel []
  if bytes.isEmpty && !mayBeEmpty then fail
  else return Text.Utf8.lossy ⟨bytes.toArray⟩

/-- A tag as its handle and the rest. The handle is empty where no directive plays a part. -/
def tagParts (flow : Bool) (fuel : Nat) : Read (String × String) := do
  let parts ← if (← peekAt 1) == some '<' then do
      skipMany 2
      let text ← tagText true false fuel
      if (← peek) != some '>' then fail
      skip
      pure ("", text)
    else do
      let handle ← tagHandle false
      if handle.length > 1 && handle.getLast? == some '!' then
        pure (String.ofList handle, ← tagText false false fuel)
      else
        let text := String.ofList (handle.drop 1) ++ (← tagText false true fuel)
        pure (if text.isEmpty then ("", "!") else ("!", text))
  let next ← peek
  if isEnd next || (flow && next == some ',') then return parts else fail

inductive Directive where
  | version (major minor : Nat)
  | tag (handle meaning : String)
  deriving DecidableEq

def versionNumber : Read Nat := do
  let digits ← takeWhile Char.isDigit
  if digits.isEmpty || digits.length > 9 then fail
  else return digits.foldl (fun n c => 10 * n + (c.toNat - '0'.toNat)) 0

def readDirective (fuel : Nat) : Read Directive := do
  skip
  let name := String.ofList (← takeWhile isNameChar)
  if !isEnd (← peek) then fail
  skipBlanks
  let d ← if name == "YAML" then do
      let major ← versionNumber
      if (← peek) != some '.' then fail
      skip
      pure (Directive.version major (← versionNumber))
    else if name == "TAG" then do
      let handle ← tagHandle true
      if !(← peek).any isBlank then fail
      skipBlanks
      let meaning ← tagText true false fuel
      if !isEnd (← peek) then fail
      pure (Directive.tag (String.ofList handle) meaning)
    else fail
  endLine
  return d

end SkillAudit.Yaml
