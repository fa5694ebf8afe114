import SkillAudit.Text.Blank
import SkillAudit.Regex.CategoryTable
import SkillAudit.Regex.CharSet
import SkillAudit.Regex.PropertyTable
import SkillAudit.Regex.ScriptTable

/-! Sets of characters named by Unicode properties. -/
namespace SkillAudit.Regex

/-- How a property is named: by one word, or by a property and its value. -/
inductive PropertyQuery where
  | word (name : String)
  | value (name value : String)
  deriving DecidableEq, Repr

namespace PropertyQuery

def hexNumber (cs : List Char) : Nat :=
  cs.foldl (fun n c => n * 16 + (if c.isDigit then c.toNat - 48 else c.toNat - 55)) 0

def rangesSet (text : String) : CharSet :=
  CharSet.ofRanges ((Text.splitWhen Text.isBlank text.toList).filterMap fun piece =>
    match Text.splitWhen (· == '-') piece with
    | [[]] => none
    | [a] => some (hexNumber a, hexNumber a)
    | [a, b] => some (hexNumber a, hexNumber b)
    | _ => none)

/-- The categories that a name stands for, by their short names. -/
def categories? : String → Option (List String)
  | "lc" | "casedletter" => some ["lu", "ll", "lt"]
  | "l" | "letter" => some ["lu", "ll", "lt", "lm", "lo"]
  | "m" | "mark" | "combiningmark" => some ["mn", "mc", "me"]
  | "n" | "number" => some ["nd", "nl", "no"]
  | "p" | "punctuation" | "punct" => some ["pc", "pd", "ps", "pe", "pi", "pf", "po"]
  | "s" | "symbol" => some ["sm", "sc", "sk", "so"]
  | "z" | "separator" => some ["zs", "zl", "zp"]
  | "uppercaseletter" => some ["lu"]
  | "lowercaseletter" => some ["ll"]
  | "titlecaseletter" => some ["lt"]
  | "modifierletter" => some ["lm"]
  | "otherletter" => some ["lo"]
  | "nonspacingmark" => some ["mn"]
  | "spacingmark" => some ["mc"]
  | "enclosingmark" => some ["me"]
  | "decimalnumber" | "digit" => some ["nd"]
  | "letternumber" => some ["nl"]
  | "othernumber" => some ["no"]
  | "connectorpunctuation" => some ["pc"]
  | "dashpunctuation" => some ["pd"]
  | "openpunctuation" => some ["ps"]
  | "closepunctuation" => some ["pe"]
  | "initialpunctuation" => some ["pi"]
  | "finalpunctuation" => some ["pf"]
  | "otherpunctuation" => some ["po"]
  | "mathsymbol" => some ["sm"]
  | "currencysymbol" => some ["sc"]
  | "modifiersymbol" => some ["sk"]
  | "othersymbol" => some ["so"]
  | "spaceseparator" => some ["zs"]
  | "lineseparator" => some ["zl"]
  | "paragraphseparator" => some ["zp"]
  | "control" | "cntrl" => some ["cc"]
  | "format" => some ["cf"]
  | "privateuse" => some ["co"]
  | name => if categoryRanges.any (·.1 == name) then some [name] else none

def categoriesSet (names : List String) : CharSet :=
  rangesSet (String.intercalate " "
    ((categoryRanges.filter fun (name, _) => names.contains name).map (·.2)))

/-- The characters of all categories, and the surrogates. -/
def assigned : CharSet :=
  (categoriesSet (categoryRanges.map (·.1))).union (.range 0xD800 0xDFFF)

def unassigned : CharSet := assigned.complement CharSet.lastCode

def category? (name : String) : Option CharSet :=
  match name with
  | "any" => some .any
  | "ascii" => some (.range 0 0x7F)
  | "assigned" => some assigned
  | "cn" | "unassigned" => some unassigned
  | "c" | "other" => some ((categoriesSet ["cc", "cf", "co"]).union unassigned)
  | _ => (categories? name).map categoriesSet

def script? (name : String) : Option CharSet :=
  (scriptRanges.find? fun (names, _) => names.contains name).map fun (_, text) => rangesSet text

def property? (name : String) : Option CharSet :=
  if name == "alphabetic" || name == "alpha" then some .alphabetic
  else
    (propertyRules.find? fun r => r.names.contains name).map fun r =>
      ((categoriesSet r.categories).union (rangesSet r.more)).diff (rangesSet r.less)
        CharSet.lastCode

/-- A name in lower case, without blanks, hyphens, underscores and a leading `is`. -/
def loose (name : String) : String :=
  let cs := name.toList
  let hasIs := (cs.take 2).map Char.toLower == ['i', 's']
  let kept := ((if hasIs then cs.drop 2 else cs).filter fun c =>
    c.toNat < 0x80 && c != ' ' && c != '_' && c != '-').map Char.toLower
  if hasIs && kept == ['c'] then "isc" else String.ofList kept

/-- The set that a query names: a property, else a category, else a script. -/
def set? : PropertyQuery → Option CharSet
  | word name =>
    let name := loose name
    property? name <|> category? name <|> script? name
  | value name wanted =>
    match loose name with
    | "gc" | "generalcategory" => category? (loose wanted)
    | "sc" | "script" | "scx" | "scriptextensions" => script? (loose wanted)
    | _ => none

end PropertyQuery
end SkillAudit.Regex
