import SkillAudit.World.Path

/-! Variables of the environment, and the directories they name. -/
namespace SkillAudit

structure Environment where
  bindings : List (String × String)

namespace Environment

def get? (e : Environment) (name : String) : Option String := e.bindings.lookup name

def extend (e : Environment) (fresh : List (String × String)) : Environment :=
  ⟨fresh ++ e.bindings⟩

def home? (e : Environment) : Option String := (e.get? "HOME").filter (· != "")

/-- The directory in a variable that names an absolute one, or else one below the home directory. -/
def userDir? (e : Environment) (name fallback : String) : Option String :=
  match (e.get? name).filter Path.isAbsolute with
  | some dir => e.home?.map fun _ => Path.join dir "skillgate"
  | none => e.home?.map fun home => Path.join (Path.join home fallback) "skillgate"

def configDir? (e : Environment) : Option String := e.userDir? "XDG_CONFIG_HOME" ".config"

def dataDir? (e : Environment) : Option String := e.userDir? "XDG_DATA_HOME" ".local/share"

/-- Whether output has colours: where they are asked for, and else on a terminal unless refused. -/
def wantsColours (e : Environment) (terminal : Bool) : Bool :=
  if (e.get? "CLICOLOR_FORCE").any (· != "0") then true
  else if (e.get? "NO_COLOR").isSome then false
  else terminal && e.get? "CLICOLOR" != some "0"

end Environment
end SkillAudit
