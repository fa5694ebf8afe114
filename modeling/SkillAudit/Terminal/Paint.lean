import SkillAudit.Gate.Decision
import SkillAudit.Watch.Report

/-! Coloured texts. -/
namespace SkillAudit

inductive Colour where
  | red
  | green
  | yellow
  | cyan
  deriving DecidableEq, Repr

structure Paint where
  bold : Bool := false
  dimmed : Bool := false
  underline : Bool := false
  colour : Option Colour := none
  deriving DecidableEq, Repr

namespace Paint

def Colour.code : Colour → String
  | .red => "31"
  | .green => "32"
  | .yellow => "33"
  | .cyan => "36"

/-- The sequence that starts the look; the colour comes last. -/
def opening (p : Paint) : String :=
  "\x1b[" ++ String.intercalate ";" (
    (if p.bold then ["1"] else []) ++ (if p.dimmed then ["2"] else []) ++
    (if p.underline then ["4"] else []) ++ (p.colour.map Colour.code).toList) ++ "m"

def closing : String := "\x1b[0m"

def strong : Paint := { bold := true }
def dim : Paint := { dimmed := true }
def heading : Paint := { bold := true, underline := true }
def coloured (c : Colour) : Paint := { colour := some c }
def strongColoured (c : Colour) : Paint := { bold := true, colour := some c }

def risk : Risk → Paint
  | .low => coloured .green
  | .medium => coloured .yellow
  | .high => coloured .red
  | .critical => strongColoured .red

def verdict : Verdict → Paint
  | .allow => strongColoured .green
  | .review => strongColoured .yellow
  | .block => strongColoured .red

def severity : Severity → Paint
  | .low => dim
  | .medium => coloured .yellow
  | .high => coloured .red
  | .critical => strongColoured .red

def alert : AlertSeverity → Paint
  | .info => coloured .cyan
  | .medium => coloured .yellow
  | .high => coloured .red
  | .critical => strongColoured .red

def entryStatus : EntryStatus → Paint
  | .approved => coloured .green
  | .blocked => coloured .red
  | .revoked => coloured .yellow

end Paint

structure Screen where
  colours : Bool

namespace Screen

def padded (width : Nat) (text : String) : String :=
  text ++ String.ofList (List.replicate (width - text.length) ' ')

/-- The text, where the look starts again after every end of one. -/
def reopened (p : Paint) (text : String) : String :=
  String.ofList (go text.toList)
where
  go : List Char → List Char
    | [] => []
    | '\x1b' :: '[' :: '0' :: 'm' :: rest => (Paint.closing ++ p.opening).toList ++ go rest
    | c :: rest => c :: go rest

def paintTo (s : Screen) (p : Paint) (width : Nat) (text : String) : String :=
  if s.colours then p.opening ++ padded width (reopened p text) ++ Paint.closing
  else padded width text

def paint (s : Screen) (p : Paint) (text : String) : String := s.paintTo p 0 text

def strong (s : Screen) (text : String) : String := s.paint .strong text
def dim (s : Screen) (text : String) : String := s.paint .dim text
def heading (s : Screen) (text : String) : String := s.paint .heading text

def risk (s : Screen) (r : Risk) : String := s.paint (.risk r) r.word

def verdict (s : Screen) (v : Verdict) : String := s.paint (.verdict v) v.word

def upper (text : String) : String := String.ofList (text.toList.map Char.toUpper)

def severityTo (s : Screen) (width : Nat) (severity : Severity) : String :=
  s.paintTo (.severity severity) width (upper severity.word)

def severity (s : Screen) (severity : Severity) : String := s.severityTo 8 severity

def alertTo (s : Screen) (width : Nat) (severity : AlertSeverity) : String :=
  s.paintTo (.alert severity) width (upper severity.word)

def alert (s : Screen) (severity : AlertSeverity) : String := s.alertTo 8 severity

def pass (s : Screen) (passed : Bool) : String :=
  if passed then s.paint (.strongColoured .green) "PASS" else s.paint (.strongColoured .red) "FAIL"

end Screen
end SkillAudit
