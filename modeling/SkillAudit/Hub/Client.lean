import SkillAudit.Hub.Document
import SkillAudit.Url.Basic

/-! Where a hub serves its packages, and how often it is asked. -/
namespace SkillAudit

structure Retry where
  limit : UInt32 := 2
  /-- Milliseconds before the first new try. -/
  initial : Nat := 250
  /-- Milliseconds before any new try. -/
  ceiling : Nat := 5000
deriving DecidableEq, Repr

namespace Retry

/-- Milliseconds to wait after a number of new tries. The wait doubles up to the ceiling. -/
def backoff (r : Retry) (attempt : UInt32) : Nat :=
  min (r.initial * min (1 <<< min attempt.toNat 32) (UInt32.size - 1)) r.ceiling

/-- Asks until an answer is not a failure worth trying again, or the limit is reached. The waits
between the tries come with the answer. -/
def run {α : Type} (r : Retry) (ask : Nat → Except HubError α) : Except HubError α × List Nat :=
  go r.limit.toNat 0
where
  go : Nat → Nat → Except HubError α × List Nat
    | 0, attempt => (ask attempt, [])
    | left + 1, attempt =>
      match ask attempt with
      | .ok a => (.ok a, [])
      | .error e =>
        if e.isRetryable then
          let (answer, waits) := go left (attempt + 1)
          (answer, r.backoff (UInt32.ofNat attempt) :: waits)
        else (.error e, [])

end Retry

structure Hub where
  base : Url
  retry : Retry := {}

namespace Hub

def defaultBase : String := "https://hub.skillgate.dev"

def ofBase (base : String) (retry : Retry) : Except HubError Hub :=
  match Url.parse? base with
  | none => .error (.invalidUrl base)
  | some url => if url.canBeBase then .ok ⟨url, retry⟩ else .error (.invalidUrl base)

def isId (id : String) : Bool :=
  id != "" && id != "." && id != ".." && !id.toList.any fun c => c == '/' || c == '\\'

def packageUrl (h : Hub) (id : String) : Except HubError Url :=
  if isId id then .ok (h.base.extend ["api", "v1", "skills", id]) else .error (.invalidId id)

/-- Gets a package through `send`, which answers a request for a URL. -/
def fetch (h : Hub) (send : Url → Except HubError RemotePackage) (id : String) :
    Except HubError RemotePackage :=
  match h.packageUrl id with
  | .error e => .error e
  | .ok url => (h.retry.run fun _ => send url).1

/-- Answers every request with a refusal, as when there is no connection. -/
def offline (url : Url) : Except HubError RemotePackage :=
  .error (.http ("error sending request for url (" ++ url.text ++ ")"))

end Hub
end SkillAudit
