import SkillAudit.Environment
import SkillAudit.Regex.CharSet

/-!
Variables and the home directory in path settings: `$NAME`, `${NAME}`, a default after `:-`, two
dollar signs for one, and a tilde in front.
-/
namespace SkillAudit.Config

/-- Letters, digits and underscores make up the name of a variable. -/
def isNameChar (c : Char) : Bool :=
  c == '_' || Regex.CharSet.alphabetic.contains c.toNat || Regex.CharSet.numeric.contains c.toNat

/-- A reference in braces: the name, and the default after `:-` if a name stands before it. -/
def splitDefault (inside : List Char) : List Char × Option (List Char) :=
  go inside []
where
  go : List Char → List Char → List Char × Option (List Char)
    | ':' :: '-' :: rest, [] => (':' :: '-' :: rest, none)
    | ':' :: '-' :: rest, name => (name.reverse, some rest)
    | c :: rest, name => go rest (c :: name)
    | [], name => (name.reverse, none)

/-- What the text after a dollar sign stands for, and how many of its characters that takes; the
error is a variable that is not set. -/
def reference (e : Environment) (cs : List Char) : Except String (List Char × Nat) :=
  match cs with
  | '\x7b' :: rest =>
    let inside := rest.takeWhile (· != '\x7d')
    if inside.length == rest.length then .ok (['$', '\x7b'], 1)
    else
      let (name, default) := splitDefault inside
      match e.get? (String.ofList name), default with
      | some value, _ => .ok (value.toList, inside.length + 2)
      | none, some text => .ok (text, inside.length + 2)
      | none, none => .error (String.ofList name)
  | '$' :: _ => .ok (['$'], 1)
  | _ =>
    let name := cs.takeWhile isNameChar
    if name.isEmpty then .ok (['$'], 0)
    else
      match e.get? (String.ofList name) with
      | some value => .ok (value.toList, name.length)
      | none => .error (String.ofList name)

def expandVariables (e : Environment) : List Char → Except String (List Char)
  | [] => .ok []
  | c :: rest =>
    if c == '$' then
      match reference e rest with
      | .error name => .error name
      | .ok (value, length) =>
        match expandVariables e (rest.drop length) with
        | .error name => .error name
        | .ok tail => .ok (value ++ tail)
    else
      match expandVariables e rest with
      | .error name => .error name
      | .ok tail => .ok (c :: tail)
termination_by cs => cs.length
decreasing_by
  · simp only [List.length_drop, List.length_cons]; omega
  · simp

/-- The text with a tilde in front replaced, if it stands for the home directory. -/
def expandHome (e : Environment) (cs : List Char) : List Char :=
  match cs, e.home? with
  | '~' :: rest, some home =>
    if rest.isEmpty || rest.head? == some '/' then home.toList ++ rest else cs
  | _, _ => cs

/-- The path a setting stands for. A tilde that a variable brings in is left alone. -/
def expand (e : Environment) (raw : String) : Except String String :=
  match expandVariables e raw.toList with
  | .error name => .error name
  | .ok cs =>
    .ok (String.ofList (if raw.toList.head? == some '~' then expandHome e cs else cs))

end SkillAudit.Config
