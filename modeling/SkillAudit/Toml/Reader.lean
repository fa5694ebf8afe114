import SkillAudit.Toml.Table

/-! Reading TOML text. -/
namespace SkillAudit.Toml.Reader

abbrev Read := StateT (List Char) Option

def fail {α : Type} : Read α := fun _ => none

def rest : Read (List Char) := get

def peek : Read (Option Char) := return (← get).head?

def advance : Read Unit := modify (·.drop 1)

def accept (word : String) : Read Bool := do
  match word.toList.isPrefixOf? (← get) with
  | some cs => set cs; return true
  | none => return false

def expect (word : String) : Read Unit := do
  if ← accept word then return () else fail

def span (p : Char → Bool) : Read (List Char) := do
  let cs ← get
  set (cs.dropWhile p)
  return cs.takeWhile p

def skipBlank : Read Unit := discard (span fun c => c == ' ' || c == '\t')

/-- Printable characters of ASCII, tabs, and everything beyond ASCII. -/
def isPlain (c : Char) : Bool := c == '\t' || (0x20 ≤ c.toNat && c.toNat ≠ 0x7F)

def skipComment : Read Unit := do
  if (← peek) == some '#' then discard (span isPlain)

def newline : Read Bool := do
  if ← accept "\n" then return true else accept "\r\n"

def skipLines : Nat → Read Unit
  | 0 => return ()
  | fuel + 1 => do
    skipBlank
    skipComment
    if ← newline then skipLines fuel

def lineEnd : Read Unit := do
  skipBlank
  skipComment
  if (← peek).isNone then return ()
  else if ← newline then return ()
  else fail

def isHex (c : Char) : Bool :=
  c.isDigit || ('a' ≤ c && c ≤ 'f') || ('A' ≤ c && c ≤ 'F')

def digitValue (c : Char) : Nat :=
  if c.isDigit then c.toNat - 48 else if c.toNat ≥ 97 then c.toNat - 87 else c.toNat - 55

def valueInBase (base : Nat) (ds : List Char) : Nat :=
  ds.foldl (fun n c => n * base + digitValue c) 0

def hexChar (n : Nat) : Read Char := do
  let ds := (← get).take n
  if ds.length == n && ds.all isHex then
    let v := valueInBase 16 ds
    if h : v.isValidChar then
      modify (·.drop n)
      return Char.ofNatAux v h
    else fail
  else fail

def escape : Read Char := do
  let c ← peek
  advance
  match c with
  | some 'b' => return '\x08'
  | some 't' => return '\t'
  | some 'n' => return '\n'
  | some 'f' => return '\x0c'
  | some 'r' => return '\r'
  | some '"' => return '"'
  | some '\\' => return '\\'
  | some 'u' => hexChar 4
  | some 'U' => hexChar 8
  | _ => fail

/-- The rest of a basic string on one line; characters read are kept backwards. -/
def basicTail : Nat → List Char → Read String
  | 0, _ => fail
  | fuel + 1, done => do
    match ← peek with
    | none => fail
    | some '"' => advance; return String.ofList done.reverse
    | some '\\' => advance; basicTail fuel ((← escape) :: done)
    | some c => if isPlain c then do advance; basicTail fuel (c :: done) else fail

def countFront (c : Char) (cs : List Char) : Nat := (cs.takeWhile (· == c)).length

/-- Drops blanks and line ends after a backslash at a line's end; there has to be a line end. -/
def skipFolded : Nat → Read Unit
  | 0 => return ()
  | fuel + 1 => do
    skipBlank
    if ← newline then skipFolded fuel

/-- The rest of a string on several lines. Three quotes end it; up to two more belong to it. -/
def multiTail (quote : Char) (escapes : Bool) : Nat → List Char → Read String
  | 0, _ => fail
  | fuel + 1, done => do
    let cs ← get
    match cs with
    | [] => fail
    | c :: r =>
      if c == quote then
        let n := countFront quote cs
        if n ≥ 3 then
          if n > 5 then fail
          else
            set (cs.drop n)
            return String.ofList (done.reverse ++ List.replicate (n - 3) quote)
        else
          set (cs.drop n)
          multiTail quote escapes fuel (List.replicate n quote ++ done)
      else if c == '\\' && escapes then
        advance
        let after := (r.dropWhile fun d => d == ' ' || d == '\t')
        if after.head? == some '\n' || after.take 2 == ['\r', '\n'] then
          skipFolded (r.length + 1)
          multiTail quote escapes fuel done
        else multiTail quote escapes fuel ((← escape) :: done)
      else if ← newline then multiTail quote escapes fuel ('\n' :: done)
      else if isPlain c then do
        advance
        multiTail quote escapes fuel (c :: done)
      else fail

/-- A string of any of the four forms; the quote is the next character. -/
def string : Read String := do
  let fuel := (← get).length + 1
  if ← accept "\"\"\"" then
    discard newline
    multiTail '"' true fuel []
  else if ← accept "'''" then
    discard newline
    multiTail '\'' false fuel []
  else if ← accept "\"" then basicTail fuel []
  else if ← accept "'" then
    let cs ← span fun c => c != '\'' && isPlain c
    expect "'"
    return String.ofList cs
  else fail

/-- A key without dots. A string on several lines is no key. -/
def simpleKey : Read String := do
  match ← peek with
  | some '"' => do
    advance
    basicTail ((← get).length + 1) []
  | some '\'' => do
    advance
    let cs ← span fun c => c != '\'' && isPlain c
    expect "'"
    return String.ofList cs
  | _ =>
    let cs ← span fun c => c.isAlphanum || c == '_' || c == '-'
    if cs.isEmpty then fail else return String.ofList cs

def key : Nat → Read (List String × String)
  | 0 => fail
  | fuel + 1 => do
    skipBlank
    let k ← simpleKey
    skipBlank
    if ← accept "." then
      let (path, last) ← key fuel
      return (k :: path, last)
    else return ([], k)

def digits (p : Char → Bool) : Read (List Char) := do
  let cs ← span fun c => p c || c == '_'
  let parts := cs.splitOnP (· == '_')
  if parts.all fun d => !d.isEmpty then return parts.flatten else fail

def based (base : Nat) (p : Char → Bool) : Read Toml := do
  let v := valueInBase base (← digits p)
  if v < 0x8000000000000000 then return .integer v else fail

def number : Read Toml := do
  if ← accept "0x" then based 16 isHex
  else if ← accept "0o" then based 8 fun c => '0' ≤ c && c ≤ '7'
  else if ← accept "0b" then based 2 fun c => c == '0' || c == '1'
  else
    let negative ← accept "-"
    if !negative then discard (accept "+")
    if ← accept "inf" then return .float (.infinite negative)
    else if ← accept "nan" then return .float (.nan negative)
    else
      let whole ← digits Char.isDigit
      if whole.isEmpty || (whole.length > 1 && whole.head? == some '0') then fail
      let fraction ← if ← accept "." then some <$> digits Char.isDigit else pure none
      if fraction == some [] then fail
      let exponent ←
        if (← accept "e") || (← accept "E") then do
          let down ← accept "-"
          if !down then discard (accept "+")
          let ds ← digits Char.isDigit
          if ds.isEmpty then fail
          let n : Int := valueInBase 10 ds
          pure (some (if down then -n else n))
        else pure none
      match fraction, exponent with
      | none, none =>
        let v : Int := valueInBase 10 whole
        let v := if negative then -v else v
        if -0x8000000000000000 ≤ v && v < 0x8000000000000000 then return .integer v else fail
      | _, _ =>
        let fs := fraction.getD []
        let c := valueInBase 10 (whole ++ fs)
        let p : Int := exponent.getD 0 - fs.length
        if (Decimal.Binary64.ofDecimal c p).isSome then return .float (.finite negative c p)
        else fail

def fixed (n low high : Nat) : Read Nat := do
  let ds := (← get).take n
  if ds.length == n && ds.all Char.isDigit then
    let v := valueInBase 10 ds
    modify (·.drop n)
    if low ≤ v && v ≤ high then return v else fail
  else fail

def monthDays (year month : Nat) : Nat :=
  if month == 2 then
    (if year % 4 == 0 && (year % 100 != 0 || year % 400 == 0) then 29 else 28)
  else if month == 4 || month == 6 || month == 9 || month == 11 then 30
  else 31

def date : Read Unit := do
  let year ← fixed 4 0 9999
  expect "-"
  let month ← fixed 2 1 12
  expect "-"
  discard (fixed 2 1 (monthDays year month))

def time : Read Unit := do
  discard (fixed 2 0 23)
  expect ":"
  discard (fixed 2 0 59)
  expect ":"
  discard (fixed 2 0 60)
  if ← accept "." then
    if (← span Char.isDigit).isEmpty then fail

def offset : Read Unit := do
  if ← accept "Z" then return ()
  else if ← accept "z" then return ()
  else if (← accept "+") || (← accept "-") then
    discard (fixed 2 0 23)
    expect ":"
    discard (fixed 2 0 59)

/-- Whether the text starts like a date, or else like a time of day. -/
def looksLikeDate (cs : List Char) : Bool :=
  (cs.take 4).all Char.isDigit && cs[4]? == some '-' && (cs.take 4).length == 4

def looksLikeTime (cs : List Char) : Bool :=
  (cs.take 2).all Char.isDigit && cs[2]? == some ':' && (cs.take 2).length == 2

def datetime : Read Toml := do
  let before ← get
  if looksLikeDate before then
    date
    match ← get with
    | c :: r =>
      if c == 'T' || c == 't' || (c == ' ' && looksLikeTime r) then
        advance
        time
        offset
    | [] => pure ()
  else time
  let after ← get
  return .datetime (String.ofList (before.take (before.length - after.length)))

def nestLimit : Nat := 79

mutual

/-- A value, at most `depth` further levels deep. -/
def value : Nat → Nat → Read Toml
  | 0, _ => fail
  | fuel + 1, depth => do
    match ← peek with
    | none => fail
    | some c =>
      if c == '"' || c == '\'' then .string <$> string
      else if c == '[' then
        if depth == 0 then fail
        else
          advance
          items fuel (depth - 1) []
      else if c == '\x7b' then
        if depth == 0 then fail
        else
          advance
          skipBlank
          if ← accept "\x7d" then return .table []
          else entries fuel (depth - 1) Table.empty
      else if c == 't' then do expect "true"; return .boolean true
      else if c == 'f' then do expect "false"; return .boolean false
      else
        let cs ← get
        if looksLikeDate cs || looksLikeTime cs then datetime else number

/-- The items of an array up to its closing bracket, backwards in `done`. -/
def items : Nat → Nat → List Toml → Read Toml
  | 0, _, _ => fail
  | fuel + 1, depth, done => do
    skipLines (fuel + 1)
    if ← accept "]" then return .array done.reverse
    else
      let v ← value fuel depth
      skipLines (fuel + 1)
      if ← accept "," then items fuel depth (v :: done)
      else if ← accept "]" then return .array (v :: done).reverse
      else fail

def entries : Nat → Nat → Table → Read Toml
  | 0, _, _ => fail
  | fuel + 1, depth, t => do
    let (path, k) ← key (fuel + 1)
    expect "="
    skipBlank
    let v ← value fuel depth
    skipBlank
    match t.addValue path k v with
    | none => fail
    | some t =>
      if ← accept "," then entries fuel depth t
      else if ← accept "\x7d" then return t.toToml
      else fail

end

/-- The keys of the table that the next entries belong to, from the root. -/
abbrev Place := List String

/-- A header after its opening brackets: the path, and the last key. -/
def header (closing : String) : Read (List String × String) := do
  let (path, k) ← key ((← get).length + 1)
  expect closing
  lineEnd
  return (path, k)

def document : Nat → Table → Place → Read Table
  | 0, _, _ => fail
  | fuel + 1, t, place => do
    skipBlank
    skipComment
    match ← peek with
    | none => return t
    | some c =>
      if ← newline then document fuel t place
      else if c == '[' then
        if ← accept "[[" then
          let (path, k) ← header "]]"
          match t.appendTable path k with
          | none => fail
          | some t => document fuel t (path ++ [k])
        else
          advance
          let (path, k) ← header "]"
          match t.openTable path k with
          | none => fail
          | some t => document fuel t (path ++ [k])
      else
        let (path, k) ← key (fuel + 1)
        expect "="
        skipBlank
        let v ← value (2 * fuel + 2) nestLimit
        lineEnd
        match Table.modifyAt false (Table.addValue path k v) place t with
        | none => fail
        | some t => document fuel t place

end SkillAudit.Toml.Reader

namespace SkillAudit.Toml

/-- Why a document is not taken: its text is no TOML, or it does not hold what is asked for. -/
inductive Error where
  | malformed
  deriving DecidableEq, Repr

def Error.message : Error → String
  | .malformed => "TOML parse error"

def parse (s : String) : Except Error Toml :=
  let cs := match s.toList with
    | '\uFEFF' :: r => r
    | r => r
  match Reader.document (cs.length + 1) Table.empty [] cs with
  | some (t, _) => .ok t.toToml
  | none => .error .malformed

end SkillAudit.Toml
