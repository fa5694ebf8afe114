import SkillAudit.Json.Record

/-! How grave a finding is, and the band of risk of a score. -/
namespace SkillAudit

inductive Severity where
  | low
  | medium
  | high
  | critical
  deriving DecidableEq, Repr

namespace Severity

def word : Severity → String
  | low => "low"
  | medium => "medium"
  | high => "high"
  | critical => "critical"

def ofWord? : String → Option Severity
  | "low" => some low
  | "medium" => some medium
  | "high" => some high
  | "critical" => some critical
  | _ => none

/-- What a flow of this severity takes off the score of a package. -/
def flowWeight : Severity → UInt32
  | low => 0
  | medium => 10
  | high => 20
  | critical => 30

/-- What a behaviour of this severity adds to the risk of running a package. -/
def behaviourWeight : Severity → UInt32
  | low => 0
  | medium => 5
  | high => 15
  | critical => 30

def all : List Severity := [low, medium, high, critical]

def toJson (s : Severity) : Json := .text s.word

def ofJson : Json.Decoder Severity := Json.asWord ofWord?

end Severity

inductive Risk where
  | low
  | medium
  | high
  | critical
  deriving DecidableEq, Repr

namespace Risk

def word : Risk → String
  | low => "LOW"
  | medium => "MEDIUM"
  | high => "HIGH"
  | critical => "CRITICAL"

def ofWord? : String → Option Risk
  | "LOW" => some low
  | "MEDIUM" => some medium
  | "HIGH" => some high
  | "CRITICAL" => some critical
  | _ => none

/-- Scores from 80 are low, from 50 medium, from 20 high. -/
def ofScore (score : UInt32) : Risk :=
  if score ≥ 80 then low else if score ≥ 50 then medium else if score ≥ 20 then high else critical

def all : List Risk := [low, medium, high, critical]

def toJson (r : Risk) : Json := .text r.word

def ofJson : Json.Decoder Risk := Json.asWord ofWord?

end Risk
end SkillAudit
