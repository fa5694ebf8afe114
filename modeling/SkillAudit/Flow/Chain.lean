import SkillAudit.Finding

/-! Flows from one file of a package to another, and the report on them. -/
namespace SkillAudit

inductive ChainKind where
  /-- Credentials read in one file, network calls in a file that imports it. -/
  | credentialExfiltration
  /-- Credentials read, encoded by an importer, sent by an importer of that. -/
  | encodedExfiltration
  /-- Code run in one file, network calls in a file that imports it. -/
  | execWithNetwork
  deriving DecidableEq, Repr

namespace ChainKind

def word : ChainKind → String
  | credentialExfiltration => "credential-exfiltration"
  | encodedExfiltration => "encoded-exfiltration"
  | execWithNetwork => "exec-with-network"

def ofWord? : String → Option ChainKind
  | "credential-exfiltration" => some credentialExfiltration
  | "encoded-exfiltration" => some encodedExfiltration
  | "exec-with-network" => some execWithNetwork
  | _ => none

def severity : ChainKind → Severity
  | credentialExfiltration => .critical
  | encodedExfiltration => .critical
  | execWithNetwork => .high

def ruleId : ChainKind → String
  | credentialExfiltration => "flow-credential-exfiltration"
  | encodedExfiltration => "flow-encoded-exfiltration"
  | execWithNetwork => "flow-exec-network"

def toJson (k : ChainKind) : Json := .text k.word

def ofJson : Json.Decoder ChainKind := Json.asWord ofWord?

end ChainKind

structure FlowChain where
  kind : ChainKind
  description : String
  severity : Severity
  /-- From the source on. -/
  files : List String
  steps : List String
  deriving DecidableEq, Repr

namespace FlowChain

def route (c : FlowChain) : String := String.intercalate "→" c.files

def signature (c : FlowChain) : String := c.kind.ruleId ++ ":" ++ c.route

def toFinding (c : FlowChain) : Finding where
  ruleId := c.kind.ruleId
  severity := c.severity
  category := "flow"
  file := c.route
  line := 0
  matchText := c.description
  weight := c.severity.flowWeight

def toJson (c : FlowChain) : Json := .object [
  ("kind", c.kind.toJson),
  ("description", .text c.description),
  ("severity", c.severity.toJson),
  ("files", .list .text c.files),
  ("steps", .list .text c.steps)]

def ofJson : Json.Decoder FlowChain := fun j => do
  let r ← Json.asRecord ["kind", "description", "severity", "files", "steps"] j
  return {
    kind := ← r.required "kind" ChainKind.ofJson
    description := ← r.required "description" Json.asText
    severity := ← r.required "severity" Severity.ofJson
    files := ← r.required "files" (Json.asList Json.asText)
    steps := ← r.required "steps" (Json.asList Json.asText) }

end FlowChain

structure FlowReport where
  chains : List FlowChain
  findings : List Finding
  filesAnalyzed : Nat
  edges : Nat
  deriving DecidableEq, Repr

namespace FlowReport

def empty : FlowReport := ⟨[], [], 0, 0⟩

def ofChains (chains : List FlowChain) (filesAnalyzed edges : Nat) : FlowReport :=
  { chains, findings := chains.map FlowChain.toFinding, filesAnalyzed, edges }

/-- What the flows take off a score, in 32 bits. -/
def penalty (r : FlowReport) : UInt32 := r.findings.foldl (fun sum f => sum + f.weight) 0

def toJson (r : FlowReport) : Json := .object [
  ("chains", .list FlowChain.toJson r.chains),
  ("findings", .list Finding.toJson r.findings),
  ("filesAnalyzed", .nat r.filesAnalyzed),
  ("edges", .nat r.edges)]

def ofJson : Json.Decoder FlowReport := fun j => do
  let r ← Json.asRecord ["chains", "findings", "filesAnalyzed", "edges"] j
  return {
    chains := ← r.required "chains" (Json.asList FlowChain.ofJson)
    findings := ← r.required "findings" (Json.asList Finding.ofJson)
    filesAnalyzed := ← r.required "filesAnalyzed" Json.asNat
    edges := ← r.required "edges" Json.asNat }

end FlowReport
end SkillAudit
