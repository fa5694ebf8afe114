import SkillAudit.Flow.Capability
import SkillAudit.Flow.Chain
import SkillAudit.Flow.Import
import SkillAudit.Package.Listing
import SkillAudit.Text.Dict

/-!
Flows between the scripts of a package. A file hands what it can do to the files that import it:
credentials that are read in a file and sent by an importer make a chain.
-/
namespace SkillAudit.Flow

def scriptExtensions : List String := ["js", "mjs", "cjs", "ts", "tsx", "jsx", "mts", "cts"]

structure Script where
  path : String
  text : String
  deriving DecidableEq, Repr

def scripts (limit : Nat) (files : Listing) : List Script :=
  files.filterMap fun f =>
    match f.extension with
    | none => none
    | some e => if scriptExtensions.contains e then (f.text? limit).map (⟨f.path, ·⟩) else none

structure Edge where
  target : String
  importer : String
  deriving DecidableEq, Repr

namespace Edge

def le (a b : Edge) : Bool :=
  if a.target = b.target then decide (a.importer ≤ b.importer) else decide (a.target ≤ b.target)

/-- The edges that the imports of one script make. A script that imports itself makes none. -/
def ofScript (known : List String) (s : Script) : List Edge :=
  (Import.ofText s.path s.text).filterMap fun i =>
    match Specifier.resolve known s.path i.specifier with
    | none => none
    | some target => if target = s.path then none else some ⟨target, s.path⟩

end Edge

structure Graph where
  capabilities : Dict Capabilities
  /-- Distinct, in ascending order. -/
  edges : List Edge

namespace Graph

/-- The graph of the files that can be read and the paths of those that cannot. -/
def ofListing (limit : Nat) (files : Listing) (unread : List String := []) : Graph :=
  let known := files.map (·.path) ++ unread
  let scripts := scripts limit files
  { capabilities := Dict.ofList (scripts.map fun s => (s.path, Capabilities.ofText s.text))
    edges := (scripts.flatMap (Edge.ofScript known)).eraseDups.mergeSort Edge.le }

def capabilitiesOf (g : Graph) (file : String) : Capabilities :=
  (g.capabilities.lookup file).getD .none

def can (g : Graph) (file : String) (c : Capability) : Bool := (g.capabilitiesOf file).has c

def step (g : Graph) (file : String) (c : Capability) : String :=
  (g.capabilitiesOf file).describe file c

def importersOf (g : Graph) (file : String) : List String :=
  (g.edges.filter (·.target = file)).map (·.importer)

def credentialChain (g : Graph) (source sender : String) : FlowChain where
  kind := .credentialExfiltration
  description := "credentials read in " ++ source ++ " reach network calls in " ++ sender
  severity := ChainKind.severity .credentialExfiltration
  files := [source, sender]
  steps := [g.step source .readsCredentials, g.step sender .makesNetworkCalls]

def encodedChain (g : Graph) (source encoder sender : String) : FlowChain where
  kind := .encodedExfiltration
  description :=
    "credentials read in " ++ source ++ " are encoded in " ++ encoder ++ " and sent by " ++ sender
  severity := ChainKind.severity .encodedExfiltration
  files := [source, encoder, sender]
  steps := [g.step source .readsCredentials, g.step encoder .encodesData,
    g.step sender .makesNetworkCalls]

def execChain (g : Graph) (source driver : String) : FlowChain where
  kind := .execWithNetwork
  description :=
    "code execution in " ++ source ++ " is driven by " ++ driver ++ ", which makes network calls"
  severity := ChainKind.severity .execWithNetwork
  files := [source, driver]
  steps := [g.step source .executesCode, g.step driver .makesNetworkCalls]

def edgeChains (g : Graph) (e : Edge) : List FlowChain :=
  (if g.can e.target .readsCredentials && g.can e.importer .makesNetworkCalls then
    [g.credentialChain e.target e.importer] else []) ++
  (if g.can e.target .readsCredentials && g.can e.importer .encodesData then
    ((g.importersOf e.importer).filter fun d =>
      d != e.target && d != e.importer && g.can d .makesNetworkCalls).map
        (g.encodedChain e.target e.importer ·) else []) ++
  (if g.can e.target .executesCode && g.can e.importer .makesNetworkCalls then
    [g.execChain e.target e.importer] else [])

/-- The chains of a package; of those with one signature only the first. -/
def chains (g : Graph) : List FlowChain :=
  (g.edges.flatMap g.edgeChains).eraseDupsBy fun a b => a.signature == b.signature

def report (g : Graph) : FlowReport :=
  .ofChains g.chains g.capabilities.length g.edges.length

end Graph

def ofListing (limit : Nat) (files : Listing) (unread : List String := []) : FlowReport :=
  (Graph.ofListing limit files unread).report

def ofPath (limit : Nat) (w : World) (root : String) : FlowReport :=
  ofListing limit (Listing.ofPath w root) (Listing.unread w root)

end SkillAudit.Flow
