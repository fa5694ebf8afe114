import SkillAudit.Regex.Pattern

/-! Patterns as programs of a machine that follows several threads at once. -/
namespace SkillAudit.Regex

/-- An instruction. After those that name no successor the next one follows. -/
inductive Inst where
  | char (test : CharTest)
  /-- Goes on at both places, the first being preferred. -/
  | split (first second : Nat)
  | jump (target : Nat)
  | save (slot : Nat)
  | look (condition : Look)
  | accept

abbrev Program := Array Inst

namespace Program

/-- A split that prefers to go on with a repetition when it is greedy. -/
def repeatSplit (greedy : Bool) (body exit : Nat) : Inst :=
  if greedy then .split body exit else .split exit body

def times (f : Program → Program) : Nat → Program → Program
  | 0, code => code
  | n + 1, code => times f n (f code)

/-- Up to `n` optional copies of a body, one within the other: the code and the places of the splits
that leave it. -/
def optionalCopies (f : Program → Program) : Nat → Program → List Nat → Program × List Nat
  | 0, code, splits => (code, splits)
  | n + 1, code, splits =>
    let i := code.size
    optionalCopies f n (f (code.push (.jump 0))) (i :: splits)

def emit (marks : Bool) : Pattern → Program → Program
  | .empty, code => code
  | .chars set, code => code.push (.char (CharTest.ofSet set))
  | .look l, code => code.push (.look l)
  | .seq a b, code => emit marks b (emit marks a code)
  | .alt a b, code =>
    let i := code.size
    let code := emit marks a (code.push (.jump 0))
    let j := code.size
    let code := emit marks b (code.push (.jump 0))
    (code.setIfInBounds i (.split (i + 1) (j + 1))).setIfInBounds j (.jump code.size)
  | .repeated p least most greedy, code =>
    let body := emit marks p
    match most with
    | some most =>
      let code := times body least code
      let (code, splits) := optionalCopies body (most - least) code []
      splits.foldl (fun c i => c.setIfInBounds i (repeatSplit greedy (i + 1) code.size)) code
    | none =>
      if least == 0 then
        if p.nullable then
          let i := code.size
          let code := body (code.push (.jump 0))
          let j := code.size
          let code := code.push (repeatSplit greedy (i + 1) (j + 1))
          code.setIfInBounds i (repeatSplit greedy (i + 1) (j + 1))
        else
          let i := code.size
          let code := body (code.push (.jump 0))
          let code := code.push (.jump i)
          code.setIfInBounds i (repeatSplit greedy (i + 1) code.size)
      else
        let code := times body (least - 1) code
        let i := code.size
        let code := body code
        let j := code.size
        code.push (repeatSplit greedy i (j + 1))
  | .group index p, code =>
    if marks then
      (emit marks p (code.push (.save (2 * index)))).push (.save (2 * index + 1))
    else emit marks p code

def ofPattern (marks : Bool) (p : Pattern) : Program := (emit marks p #[]).push .accept

end Program
end SkillAudit.Regex
