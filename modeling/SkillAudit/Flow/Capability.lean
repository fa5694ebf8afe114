import SkillAudit.Regex.Search
import SkillAudit.Text.Lines

/-! What a script is able to do, as far as its text shows. -/
namespace SkillAudit

inductive Capability where
  | readsCredentials
  | makesNetworkCalls
  | encodesData
  | executesCode
  | writesFiles
  deriving DecidableEq, Repr

namespace Capability

def all : List Capability :=
  [readsCredentials, makesNetworkCalls, encodesData, executesCode, writesFiles]

def phrase : Capability → String
  | readsCredentials => "reads credentials"
  | makesNetworkCalls => "makes network calls"
  | encodesData => "encodes data"
  | executesCode => "executes code"
  | writesFiles => "writes files"

def pattern : Capability → String
  | readsCredentials =>
    "process\\.env(?:\\.|\\[\\s*['\"])[A-Za-z0-9_]*(?i:key|token|secret|passw|credential|auth)" ++
    "|\\.ssh/|\\.aws/|\\.npmrc|\\.netrc|\\.git-credentials|\\.docker/config|\\.kube/config|['" ++
    "\"/]\\.env['\"]|\\bid_(?:rsa|ed25519|ecdsa)\\b|(?i:keychain|keytar|wallet\\.dat|seed phra" ++
    "se|mnemonic)"
  | makesNetworkCalls =>
    "\\bfetch\\s*\\(|\\baxios\\b|\\bhttps?\\.(?:request|get)\\s*\\(|(?:require\\(\\s*|from\\s+" ++
    ")['\"](?:node:)?(?:https?|net|dgram|tls|node-fetch|undici|got|superagent)['\"]|XMLHttpReq" ++
    "uest|new\\s+WebSocket\\b|\\bnet\\.(?:connect|createConnection)\\s*\\(|navigator\\.sendBea" ++
    "con|dns\\.(?:resolve|lookup)\\w*\\s*\\("
  | encodesData =>
    "\\bbtoa\\s*\\(|\\.toString\\(\\s*['\"](?:base64|base64url|hex)['\"]\\s*\\)|encodeURICompo" ++
    "nent\\s*\\(|\\bcreateCipher(?:iv)?\\s*\\(|zlib\\.(?:gzip|deflate)\\w*\\s*\\(|\\bescape\\s" ++
    "*\\("
  | executesCode =>
    "(?:^|[^.\\w$])eval\\s*\\(|new\\s+Function\\s*\\(|child_process|(?:^|[^.\\w$])(?:exec|exec" ++
    "Sync|execFile|execFileSync|spawn|spawnSync)\\s*\\(|\\bvm\\.(?:runIn\\w+|Script)\\b"
  | writesFiles =>
    "\\b(?:writeFile|writeFileSync|appendFile|appendFileSync|createWriteStream|copyFile|copyFi" ++
    "leSync)\\s*\\(|fs\\.(?:promises\\.)?(?:writeFile|appendFile|rename|copyFile)\\b"

def regexes : List (Capability × Regex) :=
  all.filterMap fun c => (Regex.compile {} c.pattern).toOption.map (c, ·)

end Capability

structure Evidence where
  line : Nat
  text : String
  deriving DecidableEq, Repr

/-- The capabilities a script shows, in their order, with the evidence. -/
structure Capabilities where
  found : List (Capability × Evidence)
  deriving DecidableEq, Repr

namespace Capabilities

def none : Capabilities := ⟨[]⟩

def evidence? (cs : Capabilities) (c : Capability) : Option Evidence := cs.found.lookup c

def has (cs : Capabilities) (c : Capability) : Bool := (cs.evidence? c).isSome

def isEmpty (cs : Capabilities) : Bool := cs.found.isEmpty

def describe (cs : Capabilities) (file : String) (c : Capability) : String :=
  match cs.evidence? c with
  | some e => file ++ " " ++ c.phrase ++ ": `" ++ e.text ++ "` (line " ++ toString e.line ++ ")"
  | .none => file ++ " " ++ c.phrase

def ofText (text : String) : Capabilities :=
  let chars := text.toList
  let index := Text.LineIndex.ofChars chars
  ⟨Capability.regexes.filterMap fun (c, re) =>
    (re.find? chars).map fun m =>
      (c, { line := index.lineOf m.start, text := Text.trim (m.text text) })⟩

end Capabilities
end SkillAudit
