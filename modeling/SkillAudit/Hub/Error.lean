import SkillAudit.World.Basic

/-! Why a package cannot be had from a hub. -/
namespace SkillAudit

inductive HubError where
  | notFound (id : String)
  | api (status : UInt16) (reason : String)
  | http (reason : String)
  | timeout (url : String)
  | json (reason : String)
  | unsafePath (path : String)
  | badContent (path : String)
  | invalidId (id : String)
  | invalidUrl (reason : String)
  | file (path : String) (cause : OsError)
  deriving DecidableEq, Repr

namespace HubError

def message : HubError → String
  | notFound id => "skill '" ++ id ++ "' not found on the hub"
  | api status reason => "hub returned HTTP " ++ toString status.toNat ++ ": " ++ reason
  | http reason => "HTTP error: " ++ reason
  | timeout url => "request to " ++ url ++ " timed out"
  | json reason => "malformed hub response: " ++ reason
  | unsafePath path => "unsafe path in remote skill: " ++ path
  | badContent path => "invalid base64 content for " ++ path
  | invalidId id => "invalid skill id '" ++ id ++ "'"
  | invalidUrl reason => "invalid hub URL: " ++ reason
  | file path cause => "I/O error on " ++ path ++ ": " ++ cause.message

/-- The messages of an error and of what caused it, from the outermost on. -/
def causes (e : HubError) : List String :=
  match e with
  | file _ cause => [e.message, cause.message]
  | json reason => [e.message, reason]
  | _ => [e.message]

def isRetryable : HubError → Bool
  | timeout _ => true
  | http _ => true
  | api status _ => status ≥ 500 || status == 429
  | _ => false

end HubError
end SkillAudit
