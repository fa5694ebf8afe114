import SkillAudit.World.Basic

/-! Why an operation on packages or on stored state fails. -/
namespace SkillAudit

inductive AuditError where
  | file (path : String) (cause : OsError)
  | notPackage (path manifest : String)
  | invalidRules (reason : String)
  | invalidPolicy (reason : String)
  | invalidManifest (path reason : String)
  | lock (path : String) (cause : OsError)
  | json (reason : String)
  /-- A file that a newer version wrote is not overwritten. -/
  | newerSchema (path : String) (found supported : UInt32)
  | noPendingReview (name : String)
  | cancelled
  deriving DecidableEq, Repr

namespace AuditError

def message : AuditError → String
  | file path cause => "I/O error on " ++ path ++ ": " ++ cause.message
  | notPackage path manifest => "not a package: " ++ path ++ " (no " ++ manifest ++ " found)"
  | invalidRules reason => "invalid rule set: " ++ reason
  | invalidPolicy reason => "invalid policy: " ++ reason
  | invalidManifest path reason => "invalid manifest " ++ path ++ ": " ++ reason
  | lock path cause => "could not lock " ++ path ++ ": " ++ cause.message
  | json reason => "JSON error: " ++ reason
  | newerSchema path found supported =>
    path ++ " has schema version " ++ toString found.toNat ++ ", this build writes " ++
      toString supported.toNat ++ "; refusing to overwrite it"
  | noPendingReview name => "no pending review for '" ++ name ++ "' (run install first)"
  | cancelled => "operation cancelled"

/-- The messages of an error and of what caused it, from the outermost on. -/
def causes (e : AuditError) : List String :=
  match e with
  | file _ cause => [e.message, cause.message]
  | lock _ cause => [e.message, cause.message]
  | json reason => [e.message, reason]
  | _ => [e.message]

def isInputError : AuditError → Bool
  | notPackage _ _ => true
  | invalidRules _ => true
  | invalidPolicy _ => true
  | invalidManifest _ _ => true
  | noPendingReview _ => true
  | _ => false

end AuditError
end SkillAudit
