import SkillAudit.CommandLine.Option
import SkillAudit.Environment

/-!
Reading command lines. Arguments before the command and after it are two levels, each with its own
switches; a switch that every command knows may stand at either level, and the later one counts.
-/
namespace SkillAudit.CommandLine

/-- An argument whose value is not checked yet. It is checked when the next one comes. -/
inductive Pending where
  | switch (s : Switch) (value : Option String)
  | slot (s : Slot) (value : String)
  deriving DecidableEq, Repr

structure Level where
  verb : Option Verb
  /-- Switches in the order they came; those without a value have an empty one. -/
  given : List (Switch × String) := []
  filled : List String := []
  pending : Option Pending := none
  deriving DecidableEq, Repr

namespace Level

def switches (l : Level) : List Switch :=
  match l.verb with
  | some v => v.switches
  | none => Switch.everywhere

def slots (l : Level) : List Slot :=
  match l.verb with
  | some v => v.slots
  | none => []

def has (l : Level) (s : Switch) : Bool := l.given.any (·.1 == s)

def value? (l : Level) (s : Switch) : Option String := l.given.lookup s

def awaitsValue (l : Level) : Bool :=
  match l.pending with
  | some (.switch _ none) => true
  | _ => false

end Level

def valueFault? (s : Switch) (value : String) : Option UsageError :=
  match s with
  | .config => if value == "" then some (.missingValue s.label) else none
  | .output =>
    if (OutputFormat.ofWord? value).isSome then none
    else if value == "" then some (.missingValue s.label)
    else some (.invalidValue value s.label)
  | _ => none

def addSwitch (l : Level) (s : Switch) (value : String) : Except Stop Level :=
  if l.has s then .error (.usage (.repeated s.label))
  else
    match valueFault? s value with
    | some e => .error (.usage e)
    | none => .ok { l with given := l.given ++ [(s, value)] }

def settle (l : Level) : Except Stop Level :=
  let cleared := { l with pending := none }
  match l.pending with
  | none => .ok l
  | some (.switch s none) => .error (.usage (.missingValue s.label))
  | some (.switch s (some value)) => addSwitch cleared s value
  | some (.slot s value) =>
    if s.isPath && value == "" then .error (.usage (.missingValue s.label))
    else .ok { cleared with filled := l.filled ++ [value] }

def addFlag (l : Level) (s : Switch) : Except Stop Level := do
  let l ← settle l
  match s with
  | .help => throw (.help l.verb)
  | .version => throw (.version l.verb)
  | _ => addSwitch l s ""

/-- Takes a switch that has a value, or waits for it. -/
def addValued (l : Level) (s : Switch) (attached : Option String) : Except Stop Level := do
  let l ← settle l
  match attached with
  | some value => addSwitch l s value
  | none => return { l with pending := some (.switch s none) }

def longArgument (l : Level) (text : List Char) : Except Stop Level :=
  let name := String.ofList (text.takeWhile (· != '='))
  let attached := match text.dropWhile (· != '=') with
    | [] => none
    | _ :: value => some (String.ofList value)
  match l.switches.find? (·.long == name) with
  | none => .error (.usage (.unexpectedArgument ("--" ++ name)))
  | some s =>
    if s.takesValue then addValued l s attached
    else
      match attached with
      | some value => .error (.usage (.unexpectedValue value s.label))
      | none => addFlag l s

/-- Letters after one dash. A letter with a value takes the rest of them. -/
def shortArgument (l : Level) : List Char → Except Stop Level
  | [] => .ok l
  | c :: rest =>
    match l.switches.find? (·.short? == some c) with
    | none => .error (.usage (.unexpectedArgument ("-" ++ String.singleton c)))
    | some s =>
      if s.takesValue then
        addValued l s (match rest with
          | [] => none
          | '=' :: value => some (String.ofList value)
          | _ => some (String.ofList rest))
      else
        match addFlag l s with
        | .error e => .error e
        | .ok l => shortArgument l rest

def positional (l : Level) (trailing : Bool) (text : String) : Except Stop Level := do
  let taken := l.filled.length + (if l.pending matches some (.slot _ _) then 1 else 0)
  match l.slots[taken]?, l.verb with
  | some s, _ =>
    let l ← settle l
    return { l with pending := some (.slot s text) }
  | none, some _ => throw (.usage (.unexpectedArgument text))
  | none, none =>
    if trailing && (text == "help" || (Verb.ofWord? text).isSome) then
      throw (.usage (.unexpectedArgument text))
    else throw (.usage (.unknownCommand text))

def helpStop : List String → Stop
  | [] => .help none
  | word :: _ =>
    match Verb.ofWord? word with
    | some v => .help (some v)
    | none => if word == "help" then .help none else .usage (.unknownCommand word)

/-- Reads the arguments of a level, up to a command. After two dashes nothing has a name. -/
def readLevel (l : Level) (trailing : Bool) :
    List String → Except Stop (Level × Option (Verb × List String))
  | [] => .ok (l, none)
  | text :: rest =>
    let verb? := if l.verb.isNone && !trailing && !l.awaitsValue then Verb.ofWord? text else none
    match verb?, trailing, text.toList with
    | some verb, _, _ => .ok (l, some (verb, rest))
    | none, false, ['-', '-'] => readLevel l true rest
    | none, false, '-' :: '-' :: cs => do readLevel (← longArgument l cs) false rest
    | none, false, '-' :: c :: cs => do readLevel (← shortArgument l (c :: cs)) false rest
    | none, false, _ =>
      match l.pending with
      | some (.switch s none) =>
        readLevel { l with pending := some (.switch s (some text)) } false rest
      | _ =>
        if l.verb.isNone && text == "help" then .error (helpStop rest)
        else do readLevel (← positional l false text) false rest
    | none, true, _ => do readLevel (← positional l true text) true rest

/-- The variable that names the settings where the command line does not. -/
def configVariable : String := "SKILLGATE_CONFIG"

/-- Ends a level; the second value is the settings named by the environment. -/
def finishLevel (e : Environment) (l : Level) : Except Stop (Level × Option String) := do
  let l ← settle l
  let fromEnvironment := if l.has .config then none else e.get? configVariable
  match fromEnvironment with
  | some "" => throw (.usage (.missingValue (Switch.label .config)))
  | _ => return (l, fromEnvironment)

/-- Two switches that exclude each other, in the order they came. -/
def conflict? (l : Level) : Option UsageError :=
  match (l.given.map (·.1)).filter fun s => s == .name || s == .markdown with
  | [a, b] => if l.verb == some .ledger then some (.conflict a.label b.label) else none
  | _ => none

def missing (l : Level) : List String :=
  ((l.slots.drop l.filled.length).filter (·.required)).map Slot.label

def command? (v : Verb) (l : Level) : Option Command :=
  match v, l.filled with
  | .scan, [path] => some (.scan path)
  | .scanHub, [id] => some (.scanHub id)
  | .check, [text] => some (.check text)
  | .batch, [dir] => some (.batch dir)
  | .install, [target] => some (.install target (l.value? .name) (l.has .dryRun))
  | .approve, [name] => some (.approve name none)
  | .approve, [name, purpose] => some (.approve name (some purpose))
  | .revoke, [name] => some (.revoke name)
  | .ledger, [] => some (.ledger (l.value? .name) (l.has .markdown))
  | .verify, [path] => some (.verify path)
  | .diff, [old, new] => some (.diff old new)
  | .policy, [] => some .policy
  | .watch, [] => some (.watch none)
  | .watch, [dir] => some (.watch (some dir))
  | .runtime, [path] => some (.runtime path)
  | .status, [] => some .status
  | _, _ => none

def commandOf (v : Verb) (l : Level) : Except Stop Command :=
  match conflict? l, missing l, command? v l with
  | some e, _, _ => .error (.usage e)
  | none, [], some c => .ok c
  | none, labels, _ => .error (.usage (.missingArguments labels))

def parse (e : Environment) (args : List String) : Except Stop Request := do
  let (outer, found) ← readLevel { verb := none } false args
  match found with
  | none =>
    let (outer, setting) ← finishLevel e outer
    if outer.given.isEmpty && setting.isNone then throw .noArguments
    else throw (.usage .missingCommand)
  | some (verb, rest) =>
    let (inner, _) ← readLevel { verb := some verb } false rest
    let (inner, setting) ← finishLevel e inner
    let command ← commandOf verb inner
    let (outer, _) ← finishLevel e outer
    let flag (s : Switch) : Bool := inner.has s || outer.has s
    return {
      config := (inner.value? .config) <|> (outer.value? .config) <|> setting
      output := ((inner.value? .output) <|> (outer.value? .output)).bind OutputFormat.ofWord?
      strict := flag .strict
      verbose := flag .verbose
      noColor := flag .noColor
      command }

end SkillAudit.CommandLine
