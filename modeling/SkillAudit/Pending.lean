import SkillAudit.Gate.Decision
import SkillAudit.Store

/-! Decisions that wait for a reviewer, by the names of their packages. -/
namespace SkillAudit

structure PendingReview where
  decision : Decision
  /-- The root that was scanned. -/
  path : String
  source : Option String
  recordedAt : Instant
  deriving DecidableEq, Repr

namespace PendingReview

def toJson (r : PendingReview) : Json := .object [
  ("decision", r.decision.toJson),
  ("path", .text r.path),
  ("source", .option .text r.source),
  ("recordedAt", r.recordedAt.toJson)]

def ofJson : Json.Decoder PendingReview := fun j => do
  let r ← Json.asRecord ["decision", "path", "source", "recordedAt"] j
  return {
    decision := ← r.required "decision" Decision.ofJson
    path := ← r.required "path" Json.asText
    source := ← r.optional "source" Json.asText
    recordedAt := ← r.required "recordedAt" Instant.ofJson }

end PendingReview

namespace Pending

def documentJson (reviews : Dict PendingReview) : Json := .object [
  ("reviews", .object (reviews.map fun (k, r) => (k, r.toJson)))]

def reviews? : Json.Decoder (Dict PendingReview) := fun j => do
  let r ← Json.asRecord ["reviews"] j
  r.withDefault "reviews" [] (Json.asDict PendingReview.ofJson)

def load (w : World) (path : String) : Dict PendingReview :=
  (Store.readJson? w path reviews?).getD []

def record (path : String) (now : Instant) (d : Decision) (root : String)
    (source : Option String) : Act Unit := do
  Store.lock path
  let reviews := load (← get) path
  Store.writeJson path (documentJson (reviews.insert d.name ⟨d, root, source, now⟩))

def get? (w : World) (path name : String) : Option PendingReview := (load w path).get? name

def take (path name : String) : Act (Option PendingReview) := do
  Store.lock path
  let reviews := load (← get) path
  match reviews.get? name with
  | none => return none
  | some r =>
    Store.writeJson path (documentJson (reviews.erase name))
    return some r

def list (w : World) (path : String) : List PendingReview := (load w path).values

end Pending
end SkillAudit
