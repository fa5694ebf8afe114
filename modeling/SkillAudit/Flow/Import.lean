import SkillAudit.Flow.Resolve
import SkillAudit.Regex.Search
import SkillAudit.Text.Lines

/-! The import statements of a script. -/
namespace SkillAudit

structure Import where
  importer : String
  specifier : String
  /-- The names that are bound, as the imported script knows them. -/
  symbols : List String
  line : Nat
  deriving DecidableEq, Repr

namespace Import

def isRelative (i : Import) : Bool := Specifier.isRelative i.specifier

inductive Form where
  | declared
  | sideEffect
  | required
  | dynamic
  deriving DecidableEq, Repr

namespace Form

def all : List Form := [declared, sideEffect, required, dynamic]

/-- The group `spec` is the specifier, `clause` or `binding` the names. -/
def pattern : Form → String
  | declared =>
    "(?m)^\\s*(?:import|export)\\s+(?:type\\s+)?(?P<clause>[\\w$*\x7b\x7d\\s,]+?)\\s+from\\s*[" ++
    "'\"](?P<spec>[^'\"\\n]+)['\"]"
  | sideEffect =>
    "(?m)^\\s*import\\s*['\"](?P<spec>[^'\"\\n]+)['\"]"
  | required =>
    "(?:(?:const|let|var)\\s+(?P<binding>\\\x7b[^\x7d]*\\\x7d|[\\w$]+)\\s*=\\s*)?\\brequire\\s" ++
    "*\\(\\s*['\"](?P<spec>[^'\"\\n]+)['\"]\\s*\\)"
  | dynamic =>
    "\\bimport\\s*\\(\\s*['\"](?P<spec>[^'\"\\n]+)['\"]\\s*\\)"

def bindings? : Form → Option String
  | declared => some "clause"
  | required => some "binding"
  | _ => none

def regexes : List (Form × Regex) :=
  all.filterMap fun f => (Regex.compile { marks := true } f.pattern).toOption.map (f, ·)

end Form

/-- The name an item of a clause binds, if it does. -/
def symbolOf (item : String) : Option String :=
  match Text.stripFront "* as " item with
  | some given => some (Text.trim given)
  | none =>
    let name := String.ofList (item.toList.takeWhile fun c => !(Text.isBlank c || c == ':'))
    if name.isEmpty || name == "type" then none else some name

/-- The names in a clause such as `a, { b as c, d }`, here `a`, `b` and `d`. -/
def clauseSymbols (clause : String) : List String :=
  let pieces := Text.splitWhen (fun c => c == ',' || c == '\x7b' || c == '\x7d') clause.toList
  ((pieces.map fun p => Text.trim (String.ofList p)).filter (!·.isEmpty)).filterMap symbolOf

/-- The offset of the first character of a match that is not blank. -/
def contentStart (m : Regex.Match) (text : String) : Nat :=
  let s := m.text text
  m.start + (s.utf8ByteSize - (Text.trimStart s).utf8ByteSize)

def ofForm (importer text : String) (chars : List Char) (index : Text.LineIndex)
    (f : Form) (re : Regex) : List (Nat × Import) :=
  (re.findAll chars).map fun m =>
    let offset := contentStart m text
    let bound := (f.bindings?.bind fun group => m.named re text group).getD ""
    (offset, {
      importer
      specifier := (m.named re text "spec").getD ""
      symbols := clauseSymbols bound
      line := index.lineOf offset })

/-- The imports of a script in the order of the text; at one place in the order of the forms. -/
def ofText (importer text : String) : List Import :=
  let chars := text.toList
  let index := Text.LineIndex.ofChars chars
  let found := Form.regexes.flatMap fun (f, re) => ofForm importer text chars index f re
  (found.mergeSort fun a b => a.1 ≤ b.1).map (·.2)

end Import
end SkillAudit
