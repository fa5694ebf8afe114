import SkillAudit.Package.Listing
import SkillAudit.Regex.Search
import SkillAudit.Rule.Builtin

/-! Rules ready to be matched. -/
namespace SkillAudit

structure Rule where
  spec : Rule.Spec
  regex : Regex

def Rule.Spec.appliesTo (s : Rule.Spec) (path : String) : Bool :=
  if s.extensions.isEmpty then true
  else
    match PackageFile.extensionOf path with
    | none => false
    | some extension => s.extensions.any fun e =>
      (e.toList.dropWhile (· == '.')).map Char.toLower == extension.toList

/-- Rules with distinct names, and their version. -/
structure RuleSet where
  version : String
  rules : List Rule

namespace RuleSet

inductive Error where
  | document (cause : Toml.Error)
  | duplicateId (id : String)
  | pattern (id : String) (cause : Regex.Error)
  deriving DecidableEq, Repr

def Error.message : Error → String
  | document cause => cause.message
  | duplicateId id => "duplicate rule id '" ++ id ++ "'"
  | pattern id cause => "rule '" ++ id ++ "': " ++ cause.message

def sizeLimit : Nat := 1048576

def compileRule (s : Rule.Spec) : Except Error Rule :=
  let flags : Regex.Flags := { ignoreCase := s.ignoreCase, multiLine := true }
  match Regex.compile { flags, sizeLimit } s.pattern with
  | .ok regex => .ok ⟨s, regex⟩
  | .error e => .error (.pattern s.id e)

/-- Prepares rules in order; `seen` are the names met before. -/
def compileRules : List Rule.Spec → List String → List Rule → Except Error (List Rule)
  | [], _, done => .ok done.reverse
  | s :: rest, seen, done =>
    if seen.contains s.id then .error (.duplicateId s.id)
    else
      match compileRule s with
      | .error e => .error e
      | .ok rule => compileRules rest (s.id :: seen) (rule :: done)

def ofSpecs (version : String) (specs : List Rule.Spec) : Except Error RuleSet :=
  (compileRules specs [] []).map (⟨version, ·⟩)

def ofToml (text : String) : Except Error RuleSet :=
  match Rule.Document.parse text with
  | .error e => .error (.document e)
  | .ok doc => ofSpecs (doc.version.getD "unversioned") doc.rules

def builtin : Except Error RuleSet := ofSpecs Rule.builtinVersion Rule.builtinSpecs

def applicable (set : RuleSet) (path : String) : List Rule :=
  set.rules.filter (·.spec.appliesTo path)

end RuleSet
end SkillAudit
