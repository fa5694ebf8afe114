import SkillAudit.OutputFormat

/-! What may stand on a command line. -/
namespace SkillAudit.CommandLine

inductive Switch where
  | config
  | output
  | strict
  | verbose
  | noColor
  | name
  | dryRun
  | markdown
  | help
  | version
  deriving DecidableEq, Repr

namespace Switch

def long : Switch → String
  | config => "config"
  | output => "output"
  | strict => "strict"
  | verbose => "verbose"
  | noColor => "no-color"
  | name => "name"
  | dryRun => "dry-run"
  | markdown => "markdown"
  | help => "help"
  | version => "version"

def short? : Switch → Option Char
  | config => some 'c'
  | output => some 'o'
  | verbose => some 'v'
  | help => some 'h'
  | version => some 'V'
  | _ => none

def takesValue : Switch → Bool
  | config => true
  | output => true
  | name => true
  | _ => false

def label (s : Switch) : String :=
  "--" ++ s.long ++
    (if s.takesValue then " <" ++ String.ofList (s.long.toList.map Char.toUpper) ++ ">" else "")

def everywhere : List Switch := [config, output, strict, verbose, noColor, help, version]

end Switch

structure Slot where
  name : String
  required : Bool
  /-- Whether it is a path, which is not empty. -/
  isPath : Bool
  deriving DecidableEq, Repr

def Slot.label (s : Slot) : String :=
  if s.required then "<" ++ s.name ++ ">" else "[" ++ s.name ++ "]"

inductive Verb where
  | scan
  | scanHub
  | check
  | batch
  | install
  | approve
  | revoke
  | ledger
  | verify
  | diff
  | policy
  | watch
  | runtime
  | status
  deriving DecidableEq, Repr

namespace Verb

def word : Verb → String
  | scan => "scan"
  | scanHub => "scan-hub"
  | check => "check"
  | batch => "batch"
  | install => "install"
  | approve => "approve"
  | revoke => "revoke"
  | ledger => "ledger"
  | verify => "verify"
  | diff => "diff"
  | policy => "policy"
  | watch => "watch"
  | runtime => "runtime"
  | status => "status"

def all : List Verb :=
  [scan, scanHub, check, batch, install, approve, revoke, ledger, verify, diff, policy, watch,
    runtime, status]

def ofWord? (s : String) : Option Verb := all.find? (·.word == s)

def slots : Verb → List Slot
  | scan => [⟨"PATH", true, true⟩]
  | scanHub => [⟨"ID", true, false⟩]
  | check => [⟨"TEXT", true, false⟩]
  | batch => [⟨"DIR", true, true⟩]
  | install => [⟨"TARGET", true, false⟩]
  | approve => [⟨"NAME", true, false⟩, ⟨"PURPOSE", false, false⟩]
  | revoke => [⟨"NAME", true, false⟩]
  | verify => [⟨"PATH", true, true⟩]
  | diff => [⟨"OLD", true, true⟩, ⟨"NEW", true, true⟩]
  | watch => [⟨"DIR", false, true⟩]
  | runtime => [⟨"PATH", true, true⟩]
  | _ => []

def switches : Verb → List Switch
  | install => [.name, .dryRun] ++ Switch.everywhere
  | ledger => [.name, .markdown] ++ Switch.everywhere
  | _ => Switch.everywhere

end Verb

inductive Command where
  | scan (path : String)
  | scanHub (id : String)
  | check (text : String)
  | batch (dir : String)
  | install (target : String) (name : Option String) (dryRun : Bool)
  | approve (name : String) (purpose : Option String)
  | revoke (name : String)
  | ledger (name : Option String) (markdown : Bool)
  | verify (path : String)
  | diff (old new : String)
  | policy
  | watch (dir : Option String)
  | runtime (path : String)
  | status
  deriving DecidableEq, Repr

structure Request where
  config : Option String
  output : Option OutputFormat
  strict : Bool
  verbose : Bool
  noColor : Bool
  command : Command
  deriving DecidableEq, Repr

inductive UsageError where
  | unknownCommand (word : String)
  | missingCommand
  | unexpectedArgument (text : String)
  | unexpectedValue (value label : String)
  | missingValue (label : String)
  | invalidValue (value label : String)
  | repeated (label : String)
  | conflict (label other : String)
  | missingArguments (labels : List String)
  deriving DecidableEq, Repr

namespace UsageError

def message : UsageError → String
  | unknownCommand word => "unrecognized subcommand '" ++ word ++ "'"
  | missingCommand => "'skillgate' requires a subcommand but one was not provided"
  | unexpectedArgument text => "unexpected argument '" ++ text ++ "' found"
  | unexpectedValue value label =>
    "unexpected value '" ++ value ++ "' for '" ++ label ++ "' found; no more were accepted"
  | missingValue label => "a value is required for '" ++ label ++ "' but none was supplied"
  | invalidValue value label => "invalid value '" ++ value ++ "' for '" ++ label ++ "'"
  | repeated label => "the argument '" ++ label ++ "' cannot be used multiple times"
  | conflict label other => "the argument '" ++ label ++ "' cannot be used with '" ++ other ++ "'"
  | missingArguments labels =>
    "the following required arguments were not provided:" ++
      String.join (labels.map ("\n  " ++ ·))

end UsageError

inductive Stop where
  | usage (error : UsageError)
  | noArguments
  | help (verb : Option Verb)
  | version (verb : Option Verb)
  deriving DecidableEq, Repr

end SkillAudit.CommandLine
