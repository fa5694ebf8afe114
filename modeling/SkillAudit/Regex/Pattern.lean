import SkillAudit.Regex.CharSet

/-! Regular expressions as trees. -/
namespace SkillAudit.Regex

inductive WordEdge where
  | boundary
  | notBoundary
  | startOf
  | endOf
  | startHalf
  | endHalf
  deriving DecidableEq, Repr

inductive Look where
  | textStart
  | textEnd
  /-- The start of a line; `crlf` counts a carriage return as a line end too. -/
  | lineStart (crlf : Bool)
  | lineEnd (crlf : Bool)
  | word (edge : WordEdge) (unicode : Bool)
  deriving DecidableEq, Repr

/-- A regular expression. Of two alternatives the first is preferred; a greedy repetition prefers
to go on. -/
inductive Pattern where
  | empty
  | chars (set : CharSet)
  | look (condition : Look)
  | seq (first second : Pattern)
  | alt (first second : Pattern)
  | repeated (body : Pattern) (least : Nat) (most : Option Nat) (greedy : Bool)
  | group (index : Nat) (body : Pattern)
  deriving Repr, Inhabited

namespace Pattern

def sequence : List Pattern → Pattern
  | [] => .empty
  | [p] => p
  | p :: rest => .seq p (sequence rest)

/-- Patterns from which the first that matches is taken. -/
def choice : List Pattern → Pattern
  | [] => .empty
  | [p] => p
  | p :: rest => .alt p (choice rest)

def nullable : Pattern → Bool
  | .empty => true
  | .chars _ => false
  | .look _ => true
  | .seq a b => a.nullable && b.nullable
  | .alt a b => a.nullable || b.nullable
  | .repeated p least _ _ => least == 0 || p.nullable
  | .group _ p => p.nullable

/-- The characters with which a match that consumes something may begin. -/
def first : Pattern → CharSet
  | .empty => .empty
  | .chars set => set
  | .look _ => .empty
  | .seq a b => if a.nullable then a.first.union b.first else a.first
  | .alt a b => a.first.union b.first
  | .repeated p _ most _ => if most == some 0 then .empty else p.first
  | .group _ p => p.first

end Pattern
end SkillAudit.Regex
