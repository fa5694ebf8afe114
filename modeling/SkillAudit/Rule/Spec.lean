import SkillAudit.Severity
import SkillAudit.Toml.Reader

/-! Rules as they are written down. -/
namespace SkillAudit.Rule

structure Spec where
  id : String
  title : String
  category : String
  severity : Severity
  weight : UInt32
  pattern : String
  ignoreCase : Bool
  /-- Only files with these extensions are looked at; none means all files. -/
  extensions : List String
  deriving DecidableEq, Repr

namespace Spec

def defaultCategory : String := "general"

def toJson (s : Spec) : Json := .object [
  ("id", .text s.id),
  ("title", .text s.title),
  ("category", .text s.category),
  ("severity", s.severity.toJson),
  ("weight", .nat s.weight.toNat),
  ("pattern", .text s.pattern),
  ("case_insensitive", .bool s.ignoreCase),
  ("extensions", .list .text s.extensions)]

def fieldNames : List String :=
  ["id", "title", "category", "severity", "weight", "pattern", "case_insensitive", "extensions"]

def ofToml : Json.Decoder Spec := fun j => do
  let r ← Json.asOpenRecord fieldNames j
  return {
    id := ← r.required "id" Json.asText
    title := ← r.required "title" Json.asText
    category := ← r.withDefault "category" defaultCategory Json.asText
    severity := ← r.required "severity" Severity.ofJson
    weight := ← r.required "weight" Json.asUInt32
    pattern := ← r.required "pattern" Json.asText
    ignoreCase := ← r.withDefault "case_insensitive" false Json.asBool
    extensions := ← r.withDefault "extensions" [] (Json.asList Json.asText) }

end Spec

structure Document where
  version : Option String
  rules : List Spec

def Document.parse (text : String) : Except Toml.Error Document := do
  let doc ← Toml.parse text
  let decoded : Option Document := do
    let r ← Json.asOpenRecord ["version", "rule"] doc.toJson
    return {
      version := ← r.nullable "version" Json.asText
      rules := ← r.withDefault "rule" [] (Json.asList Spec.ofToml) }
  match decoded with
  | some d => return d
  | none => throw .malformed

end SkillAudit.Rule
