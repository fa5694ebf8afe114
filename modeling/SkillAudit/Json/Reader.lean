import SkillAudit.Json.Basic

/-! Reading JSON text. -/
namespace SkillAudit.Json.Reader

def isSpace (c : Char) : Bool := c == ' ' || c == '\t' || c == '\n' || c == '\r'

def skipSpace (cs : List Char) : List Char := cs.dropWhile isSpace

def hexDigit? (c : Char) : Option Nat :=
  if '0' ≤ c && c ≤ '9' then some (c.toNat - 48)
  else if 'a' ≤ c && c ≤ 'f' then some (c.toNat - 87)
  else if 'A' ≤ c && c ≤ 'F' then some (c.toNat - 55)
  else none

def hex4? : List Char → Option (Nat × List Char)
  | a :: b :: c :: d :: rest => do
    let a ← hexDigit? a
    let b ← hexDigit? b
    let c ← hexDigit? c
    let d ← hexDigit? d
    return (((a * 16 + b) * 16 + c) * 16 + d, rest)
  | _ => none

def simpleEscape? : Char → Option Char
  | '"' => some '"'
  | '\\' => some '\\'
  | '/' => some '/'
  | 'b' => some '\x08'
  | 'f' => some '\x0c'
  | 'n' => some '\n'
  | 'r' => some '\r'
  | 't' => some '\t'
  | _ => none

/-- The rest of a string after its opening quote. The characters read are kept backwards; they are
`none` once a surrogate has stayed unpaired. -/
def stringTail : Nat → List Char → Option (List Char) → Option (Option String × List Char)
  | 0, _, _ => none
  | fuel + 1, cs, done =>
    match cs with
    | [] => none
    | '"' :: rest => some (done.map fun d => String.ofList d.reverse, rest)
    | '\\' :: 'u' :: rest =>
      match hex4? rest with
      | none => none
      | some (unit, rest) =>
        if 0xD800 ≤ unit && unit < 0xDC00 then
          match rest with
          | '\\' :: 'u' :: after =>
            match hex4? after with
            | none => none
            | some (low, after) =>
              if 0xDC00 ≤ low && low < 0xE000 then
                let code := 0x10000 + (unit - 0xD800) * 0x400 + (low - 0xDC00)
                stringTail fuel after (done.map (Char.ofNat code :: ·))
              else stringTail fuel after none
          | _ => stringTail fuel rest none
        else if 0xDC00 ≤ unit && unit < 0xE000 then stringTail fuel rest none
        else stringTail fuel rest (done.map (Char.ofNat unit :: ·))
    | '\\' :: e :: rest =>
      match simpleEscape? e with
      | none => none
      | some c => stringTail fuel rest (done.map (c :: ·))
    | c :: rest => if c.toNat < 0x20 then none else stringTail fuel rest (done.map (c :: ·))

def isDigit (c : Char) : Bool := '0' ≤ c && c ≤ '9'

def digitsValue (ds : List Char) : Nat := ds.foldl (fun n c => n * 10 + (c.toNat - 48)) 0

/-- The digits after a decimal point, none being an error. -/
def fraction? : List Char → Option (Option (List Char) × List Char)
  | '.' :: rest =>
    let ds := rest.takeWhile isDigit
    if ds.isEmpty then none else some (some ds, rest.dropWhile isDigit)
  | cs => some (none, cs)

/-- A signed exponent after `e`, a missing number being an error. -/
def exponent? : List Char → Option (Option Int × List Char)
  | c :: rest =>
    if c == 'e' || c == 'E' then
      let (negative, rest) := match rest with
        | '-' :: r => (true, r)
        | '+' :: r => (false, r)
        | r => (false, r)
      let ds := rest.takeWhile isDigit
      if ds.isEmpty then none
      else
        let n : Int := digitsValue ds
        some (some (if negative then -n else n), rest.dropWhile isDigit)
    else some (none, c :: rest)
  | [] => some (none, [])

def numberTail (negative : Bool) (cs : List Char) : Option (Number × List Char) := do
  let ds := cs.takeWhile isDigit
  if ds.isEmpty then none
  else if ds.length > 1 && ds.head? == some '0' then none
  else
    let (frac, rest) ← fraction? (cs.dropWhile isDigit)
    let (exp, rest) ← exponent? rest
    match frac, exp with
    | none, none => return (.int negative (digitsValue ds), rest)
    | _, _ =>
      let fs := frac.getD []
      return (.real negative (digitsValue (ds ++ fs)) (exp.getD 0 - fs.length), rest)

def keyword (word : String) (cs : List Char) : Option (List Char) :=
  word.toList.isPrefixOf? cs

mutual

def value : Nat → List Char → Option (Json × List Char)
  | 0, _ => none
  | fuel + 1, cs =>
    match skipSpace cs with
    | [] => none
    | '"' :: rest => (stringTail fuel rest (some [])).map fun (s, r) => (.str s, r)
    | '[' :: rest =>
      match skipSpace rest with
      | ']' :: r => some (.arr [], r)
      | r => items fuel r []
    | '\x7b' :: rest =>
      match skipSpace rest with
      | '\x7d' :: r => some (.obj [], r)
      | r => members fuel r []
    | '-' :: rest => (numberTail true rest).map fun (n, r) => (.num n, r)
    | 'n' :: rest => (keyword "ull" rest).map fun r => (.null, r)
    | 't' :: rest => (keyword "rue" rest).map fun r => (.bool true, r)
    | 'f' :: rest => (keyword "alse" rest).map fun r => (.bool false, r)
    | c :: rest => (numberTail false (c :: rest)).map fun (n, r) => (.num n, r)

/-- The items of an array up to its closing bracket, those read so far being kept backwards. -/
def items : Nat → List Char → List Json → Option (Json × List Char)
  | 0, _, _ => none
  | fuel + 1, cs, done =>
    match value fuel cs with
    | none => none
    | some (j, rest) =>
      match skipSpace rest with
      | ',' :: r => items fuel r (j :: done)
      | ']' :: r => some (.arr (j :: done).reverse, r)
      | _ => none

def members : Nat → List Char → List (Option String × Json) → Option (Json × List Char)
  | 0, _, _ => none
  | fuel + 1, cs, done =>
    match skipSpace cs with
    | '"' :: rest =>
      match stringTail fuel rest (some []) with
      | none => none
      | some (key, rest) =>
        match skipSpace rest with
        | ':' :: rest =>
          match value fuel rest with
          | none => none
          | some (j, rest) =>
            match skipSpace rest with
            | ',' :: r => members fuel r ((key, j) :: done)
            | '\x7d' :: r => some (.obj ((key, j) :: done).reverse, r)
            | _ => none
        | _ => none
    | _ => none

end

end SkillAudit.Json.Reader

/-- The value a JSON text holds; nothing but white space may surround it. -/
def SkillAudit.Json.parse? (s : String) : Option SkillAudit.Json :=
  let cs := s.toList
  match Json.Reader.value (2 * cs.length + 2) cs with
  | some (j, rest) => if (Json.Reader.skipSpace rest).isEmpty then some j else none
  | none => none
