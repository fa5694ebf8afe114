import SkillAudit.Json.Printer
import SkillAudit.Yaml.Printer

/-! Formats of results. -/
namespace SkillAudit

inductive OutputFormat where
  | pretty
  | compact
  | json
  | yaml
  deriving DecidableEq, Repr

namespace OutputFormat

def word : OutputFormat → String
  | pretty => "pretty"
  | compact => "compact"
  | json => "json"
  | yaml => "yaml"

def all : List OutputFormat := [pretty, compact, json, yaml]

def ofWord? (s : String) : Option OutputFormat := all.find? (·.word == s)

def ofName? (s : String) : Option OutputFormat :=
  match String.ofList (s.toList.map Char.toLower) with
  | "text" => some pretty
  | "line" => some compact
  | "yml" => some yaml
  | name => ofWord? name

def unknownMessage (s : String) : String :=
  "Unknown output format: " ++ s ++ "\nValid formats: " ++
    String.intercalate ", " (all.map word)

def text (f : OutputFormat) (value : Json) (pretty compact : String) : String :=
  match f with
  | .json => value.pretty ++ "\n"
  | .yaml => Yaml.Printer.document value
  | .pretty => pretty
  | .compact => compact

def isStructured : OutputFormat → Bool
  | json | yaml => true
  | pretty | compact => false

/-- The text of a result that may have no value, which only a structured format needs. -/
def render (f : OutputFormat) (value : Except String Json) (pretty compact : String) :
    Except String String :=
  match value with
  | .ok value => .ok (f.text value pretty compact)
  | .error e => if f.isStructured then .error e else .ok (f.text .null pretty compact)

end OutputFormat
end SkillAudit
