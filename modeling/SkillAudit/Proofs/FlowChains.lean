import Mathlib
import SkillAudit.Flow.Graph
import SkillAudit.Proofs.FileTree

/-!
What the chains of a package are. A pattern is witnessed when the imports and the texts of the
scripts make it. Where no two files share a path, the report has a chain for each witnessed pattern,
one for a signature, and none besides, in whatever order the files and their imports are met.
-/
namespace SkillAudit

/-! Keeping the first of those with one key. -/

section Dedup
variable {α κ : Type} [BEq κ] [LawfulBEq κ] (key : α → κ)

theorem map_eraseDupsBy_key (l : List α) :
    (l.eraseDupsBy fun a b => key a == key b).map key = (l.map key).eraseDups := by
  cases l with
  | nil => rfl
  | cons a l =>
    have hkeep : (l.filter fun b => decide ((key b == key a) = false)).map key =
        (l.map key).filter fun k => !k == key a := by
      rw [List.filter_map]
      congr 2
      funext b
      by_cases h : key b = key a <;> simp [h]
    rw [List.eraseDupsBy_cons, List.map_cons, List.map_cons, List.eraseDups_cons,
      map_eraseDupsBy_key, hkeep]
termination_by l.length
decreasing_by simp [List.length_filter_le]

theorem nodup_eraseDups (l : List κ) : l.eraseDups.Nodup := by
  cases l with
  | nil => simp
  | cons a l =>
    rw [List.eraseDups_cons, List.nodup_cons]
    exact ⟨by simp, nodup_eraseDups _⟩
termination_by l.length
decreasing_by simp [List.length_filter_le]

theorem eraseDupsBy_subset (r : α → α → Bool) (l : List α) : l.eraseDupsBy r ⊆ l := by
  cases l with
  | nil => simp
  | cons a l =>
    rw [List.eraseDupsBy_cons]
    refine List.cons_subset_cons a ?_
    exact List.Subset.trans (eraseDupsBy_subset r _) (List.filter_subset_self _)
termination_by l.length
decreasing_by simp [List.length_filter_le]

end Dedup

namespace Flow

def IsScript (limit : Nat) (files : Listing) (path text : String) : Prop :=
  ∃ f ∈ files, f.path = path ∧ f.text? limit = some text ∧
    ∃ e ∈ scriptExtensions, f.extension = some e

/-- A script has a relative import of another file of its package, be that one read or not. -/
def Imports (limit : Nat) (files : Listing) (unread : List String) (importer target : String) :
    Prop :=
  importer ≠ target ∧ ∃ text, IsScript limit files importer text ∧
    ∃ i ∈ Import.ofText importer text, i.isRelative = true ∧
      Specifier.resolve (files.map (·.path) ++ unread) importer i.specifier = some target

def Shows (limit : Nat) (files : Listing) (path : String) (c : Capability) : Prop :=
  ∃ text, IsScript limit files path text ∧ (Capabilities.ofText text).has c = true

/-- What flows are looked for, by the files they lead through. -/
inductive Pattern where
  | credential (source sender : String)
  | encoded (source encoder sender : String)
  | exec (source driver : String)

namespace Pattern

def kind : Pattern → ChainKind
  | credential .. => .credentialExfiltration
  | encoded .. => .encodedExfiltration
  | exec .. => .execWithNetwork

def severity : Pattern → Severity
  | credential .. => .critical
  | encoded .. => .critical
  | exec .. => .high

def files : Pattern → List String
  | credential source sender => [source, sender]
  | encoded source encoder sender => [source, encoder, sender]
  | exec source driver => [source, driver]

def signature (p : Pattern) : String :=
  p.kind.ruleId ++ ":" ++ String.intercalate "→" p.files

def Witnessed (limit : Nat) (pkg : Listing) (unread : List String) : Pattern → Prop
  | credential t f =>
    Imports limit pkg unread f t ∧ Shows limit pkg t .readsCredentials ∧
      Shows limit pkg f .makesNetworkCalls
  | encoded t f d =>
    Imports limit pkg unread f t ∧ Imports limit pkg unread d f ∧ d ≠ t ∧ d ≠ f ∧
      Shows limit pkg t .readsCredentials ∧ Shows limit pkg f .encodesData ∧
      Shows limit pkg d .makesNetworkCalls
  | exec t f =>
    Imports limit pkg unread f t ∧ Shows limit pkg t .executesCode ∧
      Shows limit pkg f .makesNetworkCalls

end Pattern

/-! The edges of a graph. -/

theorem mem_scripts {limit : Nat} {files : Listing} {s : Script} :
    s ∈ scripts limit files ↔ IsScript limit files s.path s.text := by
  obtain ⟨path, text⟩ := s
  simp only [scripts, List.mem_filterMap, IsScript]
  refine exists_congr fun f => and_congr_right fun _ => ?_
  cases he : f.extension with
  | none => simp
  | some e =>
    by_cases hscript : e ∈ scriptExtensions
    · cases ht : f.text? limit <;> simp [hscript, and_comm]
    · simp [hscript]

theorem isRelative_of_resolve {known : List String} {importer specifier target : String}
    (h : Specifier.resolve known importer specifier = some target) :
    Specifier.isRelative specifier = true := by
  by_contra hrel
  simp [Specifier.resolve, hrel] at h

/-- The file that a specifier names depends on which files there are, not on their order. -/
theorem resolve_congr {known known' : List String} (h : ∀ path, path ∈ known ↔ path ∈ known')
    (importer specifier : String) :
    Specifier.resolve known importer specifier = Specifier.resolve known' importer specifier := by
  have hsame : known.contains = known'.contains := by
    funext path
    simp [h]
  rw [Specifier.resolve, Specifier.resolve, hsame]

namespace Edge

theorem mem_ofScript {known : List String} {s : Script} {e : Edge} :
    e ∈ ofScript known s ↔ e.importer = s.path ∧ e.importer ≠ e.target ∧
      ∃ i ∈ Import.ofText s.path s.text,
        Specifier.resolve known s.path i.specifier = some e.target := by
  obtain ⟨target, importer⟩ := e
  simp only [ofScript, List.mem_filterMap]
  constructor
  · rintro ⟨i, hi, hsel⟩
    cases hres : Specifier.resolve known s.path i.specifier with
    | none => simp [hres] at hsel
    | some t =>
      by_cases hself : t = s.path
      · simp [hres, hself] at hsel
      · simp only [hres, hself, if_false, Option.some.injEq, mk.injEq] at hsel
        obtain ⟨rfl, rfl⟩ := hsel
        exact ⟨rfl, Ne.symm hself, i, hi, hres⟩
  · rintro ⟨rfl, hne, i, hi, hres⟩
    exact ⟨i, hi, by simp [hres, Ne.symm hne]⟩

theorem le_iff {a b : Edge} :
    le a b = true ↔ a.target < b.target ∨ a.target = b.target ∧ a.importer ≤ b.importer := by
  by_cases h : a.target = b.target
  · simp [le, h]
  · simp [le, h, lt_iff_le_and_ne]

theorem le_or_le (a b : Edge) : (le a b || le b a) = true := by
  rw [Bool.or_eq_true, le_iff, le_iff]
  rcases lt_trichotomy a.target b.target with h | h | h
  · exact .inl (.inl h)
  · rcases le_total a.importer b.importer with h' | h'
    · exact .inl (.inr ⟨h, h'⟩)
    · exact .inr (.inr ⟨h.symm, h'⟩)
  · exact .inr (.inl h)

theorem le_of_le_of_le (a b c : Edge) (hab : le a b = true) (hbc : le b c = true) :
    le a c = true := by
  rw [le_iff] at hab hbc ⊢
  rcases hab with hab | ⟨hab, hab'⟩
  · rcases hbc with hbc | ⟨hbc, -⟩
    · exact .inl (hab.trans hbc)
    · exact .inl (hbc ▸ hab)
  · rcases hbc with hbc | ⟨hbc, hbc'⟩
    · exact .inl (hab ▸ hbc)
    · exact .inr ⟨hab.trans hbc, hab'.trans hbc'⟩

theorem eq_of_le_of_le {a b : Edge} (hab : le a b = true) (hba : le b a = true) : a = b := by
  obtain ⟨target, importer⟩ := a
  obtain ⟨target', importer'⟩ := b
  rw [le_iff] at hab hba
  rcases hab with hab | ⟨rfl, hab⟩
  · rcases hba with hba | ⟨hba, -⟩
    · exact absurd hba hab.asymm
    · exact absurd hba hab.ne'
  · rcases hba with hba | ⟨-, hba⟩
    · exact absurd hba (lt_irrefl _)
    · exact congrArg (mk target) (le_antisymm hab hba)

/-- Edges met in some order, sorted and each kept once. -/
def sorted (met : List Edge) : List Edge := met.eraseDups.mergeSort le

theorem mem_sorted {met : List Edge} {e : Edge} : e ∈ sorted met ↔ e ∈ met := by
  rw [sorted, List.mem_mergeSort, List.mem_eraseDups]

theorem sorted_nodup (met : List Edge) : (sorted met).Nodup :=
  (List.mergeSort_perm _ _).nodup_iff.mpr (nodup_eraseDups met)

theorem sorted_singleton (e : Edge) : sorted [e] = [e] := by
  have hkept : [e].eraseDups = [e] := by rw [List.eraseDups_cons]; simp
  rw [sorted, hkept, List.mergeSort_singleton]

/-- The order in which edges are met, and how often, is forgotten. -/
theorem sorted_congr {met met' : List Edge} (h : ∀ e, e ∈ met ↔ e ∈ met') :
    sorted met = sorted met' := by
  have hperm : (sorted met).Perm (sorted met') := by
    rw [List.perm_ext_iff_of_nodup (sorted_nodup met) (sorted_nodup met')]
    simpa only [mem_sorted] using h
  exact hperm.eq_of_pairwise (fun _ _ _ _ => eq_of_le_of_le)
    (List.pairwise_mergeSort le_of_le_of_le le_or_le _)
    (List.pairwise_mergeSort le_of_le_of_le le_or_le _)

end Edge

/-! The graph of a package. -/

namespace Graph

def ofMet (order : List Script) (met : List Edge) : Graph where
  capabilities := Dict.ofList (order.map fun s => (s.path, Capabilities.ofText s.text))
  edges := Edge.sorted met

theorem ofListing_eq (limit : Nat) (files : Listing) (unread : List String) :
    ofListing limit files unread = ofMet (scripts limit files)
      ((scripts limit files).flatMap (Edge.ofScript (files.map (·.path) ++ unread))) := rfl

theorem can_ofMet (before : List Script) (s : Script) (after : List Script)
    (hafter : ∀ s' ∈ after, s'.path ≠ s.path) (met : List Edge) (c : Capability) :
    (ofMet (before ++ s :: after) met).can s.path c = (Capabilities.ofText s.text).has c := by
  have hlast : (ofMet (before ++ s :: after) met).capabilities.lookup s.path =
      some (Capabilities.ofText s.text) := by
    refine (Dict.get?_ofList _ _).trans (List.lookup_eq_some_iff.mpr ?_)
    refine ⟨after.reverse.map fun s => (s.path, Capabilities.ofText s.text),
      before.reverse.map fun s => (s.path, Capabilities.ofText s.text), by simp, ?_⟩
    rintro ⟨path, cs⟩ hmem
    obtain ⟨s', hs', heq⟩ := List.mem_map.mp hmem
    obtain ⟨rfl, -⟩ := Prod.mk.inj heq
    simpa using (hafter s' (List.mem_reverse.mp hs')).symm
  rw [can, capabilitiesOf, hlast, Option.getD_some]

section Package
variable {limit : Nat} {files : Listing} {unread : List String}

theorem mem_edges {e : Edge} :
    e ∈ (ofListing limit files unread).edges ↔ Imports limit files unread e.importer e.target := by
  rw [ofListing_eq, ofMet, Edge.mem_sorted, List.mem_flatMap]
  constructor
  · rintro ⟨s, hs, he⟩
    obtain ⟨himporter, hne, i, hi, hres⟩ := Edge.mem_ofScript.mp he
    refine ⟨hne, s.text, himporter ▸ mem_scripts.mp hs, i, himporter ▸ hi, ?_, himporter ▸ hres⟩
    exact isRelative_of_resolve hres
  · rintro ⟨hne, text, hscript, i, hi, -, hres⟩
    exact ⟨⟨e.importer, text⟩, mem_scripts.mpr hscript, Edge.mem_ofScript.mpr ⟨rfl, hne, i, hi, hres⟩⟩

theorem mem_importersOf {g : Graph} {file importer : String} :
    importer ∈ g.importersOf file ↔ ⟨file, importer⟩ ∈ g.edges := by
  simp only [importersOf, List.mem_map, List.mem_filter, decide_eq_true_eq]
  constructor
  · rintro ⟨⟨target, importer⟩, ⟨he, rfl⟩, rfl⟩
    exact he
  · intro he
    exact ⟨_, ⟨he, rfl⟩, rfl⟩

theorem scripts_sublist (limit : Nat) (files : Listing) :
    ((scripts limit files).map (·.path)).Sublist (files.map (·.path)) := by
  rw [scripts]
  induction files with
  | nil => simp
  | cons f files ih =>
    rw [List.filterMap_cons]
    cases f.extension with
    | none => simpa using ih.cons _
    | some e =>
      by_cases hscript : e ∈ scriptExtensions
      · cases ht : f.text? limit with
        | none => simpa [hscript] using ih.cons _
        | some text => simpa [hscript] using ih
      · simpa [hscript] using ih.cons _

/-- What scripts show is known by their paths, and no two of these are the same. -/
theorem distinct_shown (hfiles : (files.map (·.path)).Nodup) :
    (((scripts limit files).map fun s => (s.path, Capabilities.ofText s.text)).map Prod.fst).Nodup := by
  simpa [Function.comp_def] using hfiles.sublist (scripts_sublist limit files)

theorem lookup_capabilities (hfiles : (files.map (·.path)).Nodup) {path : String}
    {cs : Capabilities} : (ofListing limit files unread).capabilities.lookup path = some cs ↔
      ∃ text, IsScript limit files path text ∧ Capabilities.ofText text = cs := by
  refine (Dict.get?_ofList_eq_some (distinct_shown hfiles)).trans ?_
  simp only [List.mem_map, Prod.mk.injEq, mem_scripts]
  constructor
  · rintro ⟨s, hs, rfl, rfl⟩
    exact ⟨s.text, hs, rfl⟩
  · rintro ⟨text, hs, rfl⟩
    exact ⟨⟨path, text⟩, hs, rfl, rfl⟩

theorem can_iff (hfiles : (files.map (·.path)).Nodup) {path : String} {c : Capability} :
    (ofListing limit files unread).can path c = true ↔ Shows limit files path c := by
  rw [can, capabilitiesOf]
  constructor
  · intro hhas
    cases hcs : (ofListing limit files unread).capabilities.lookup path with
    | none => simp [hcs, Capabilities.none, Capabilities.has, Capabilities.evidence?] at hhas
    | some cs =>
      obtain ⟨text, hscript, rfl⟩ := (lookup_capabilities hfiles).mp hcs
      exact ⟨text, hscript, by simpa [hcs] using hhas⟩
  · rintro ⟨text, hscript, hhas⟩
    rw [(lookup_capabilities hfiles).mpr ⟨text, hscript, rfl⟩]
    exact hhas

end Package

/-! Chains. -/

def Matches (g : Graph) : Pattern → Prop
  | .credential t f =>
    ⟨t, f⟩ ∈ g.edges ∧ g.can t .readsCredentials = true ∧ g.can f .makesNetworkCalls = true
  | .encoded t f d =>
    ⟨t, f⟩ ∈ g.edges ∧ ⟨f, d⟩ ∈ g.edges ∧ d ≠ t ∧ d ≠ f ∧ g.can t .readsCredentials = true ∧
      g.can f .encodesData = true ∧ g.can d .makesNetworkCalls = true
  | .exec t f =>
    ⟨t, f⟩ ∈ g.edges ∧ g.can t .executesCode = true ∧ g.can f .makesNetworkCalls = true

def chain (g : Graph) : Pattern → FlowChain
  | .credential source sender => g.credentialChain source sender
  | .encoded source encoder sender => g.encodedChain source encoder sender
  | .exec source driver => g.execChain source driver

theorem matches_iff {limit : Nat} {files : Listing} {unread : List String}
    (hfiles : (files.map (·.path)).Nodup) {p : Pattern} :
    (ofListing limit files unread).Matches p ↔ p.Witnessed limit files unread := by
  cases p with
  | credential t f | encoded t f d | exec t f =>
    simp only [Matches, Pattern.Witnessed, mem_edges, can_iff hfiles]

theorem chain_kind (g : Graph) (p : Pattern) : (g.chain p).kind = p.kind := by
  cases p <;> rfl

theorem chain_severity (g : Graph) (p : Pattern) : (g.chain p).severity = p.severity := by
  cases p <;> rfl

theorem chain_files (g : Graph) (p : Pattern) : (g.chain p).files = p.files := by
  cases p <;> rfl

theorem chain_signature (g : Graph) (p : Pattern) : (g.chain p).signature = p.signature := by
  rw [FlowChain.signature, FlowChain.route, chain_kind, chain_files, Pattern.signature]

/-- Before those with one signature are merged, the chains are those of the patterns. -/
theorem mem_edgeChains {g : Graph} {c : FlowChain} :
    c ∈ g.edges.flatMap g.edgeChains ↔ ∃ p, g.Matches p ∧ g.chain p = c := by
  simp only [List.mem_flatMap, edgeChains, List.mem_append, List.mem_ite_nil_right,
    List.mem_singleton, Bool.and_eq_true, List.mem_map, List.mem_filter, bne_iff_ne,
    mem_importersOf]
  constructor
  · rintro ⟨⟨t, f⟩, he, (⟨⟨ht, hf⟩, rfl⟩ | ⟨⟨ht, hf⟩, d, ⟨hd, ⟨hdt, hdf⟩, hsend⟩, rfl⟩) | ⟨⟨ht, hf⟩, rfl⟩⟩
    · exact ⟨.credential t f, ⟨he, ht, hf⟩, rfl⟩
    · exact ⟨.encoded t f d, ⟨he, hd, hdt, hdf, ht, hf, hsend⟩, rfl⟩
    · exact ⟨.exec t f, ⟨he, ht, hf⟩, rfl⟩
  · rintro ⟨p, hp, rfl⟩
    cases p with
    | credential t f =>
      obtain ⟨he, ht, hf⟩ := hp
      exact ⟨_, he, .inl (.inl ⟨⟨ht, hf⟩, rfl⟩)⟩
    | encoded t f d =>
      obtain ⟨he, hd, hdt, hdf, ht, hf, hsend⟩ := hp
      exact ⟨_, he, .inl (.inr ⟨⟨ht, hf⟩, d, ⟨hd, ⟨hdt, hdf⟩, hsend⟩, rfl⟩)⟩
    | exec t f =>
      obtain ⟨he, ht, hf⟩ := hp
      exact ⟨_, he, .inr ⟨⟨ht, hf⟩, rfl⟩⟩

theorem chains_sound {g : Graph} {c : FlowChain} (h : c ∈ g.chains) :
    ∃ p, g.Matches p ∧ g.chain p = c :=
  mem_edgeChains.mp (eraseDupsBy_subset _ _ h)

theorem map_signature_chains (g : Graph) :
    g.chains.map FlowChain.signature =
      ((g.edges.flatMap g.edgeChains).map FlowChain.signature).eraseDups :=
  map_eraseDupsBy_key FlowChain.signature _

theorem chains_complete {g : Graph} {p : Pattern} (h : g.Matches p) :
    ∃ c ∈ g.chains, c.signature = p.signature := by
  have hmem : p.signature ∈ g.chains.map FlowChain.signature := by
    rw [map_signature_chains, List.mem_eraseDups, ← chain_signature g p]
    exact List.mem_map_of_mem (mem_edgeChains.mpr ⟨p, h, rfl⟩)
  exact List.mem_map.mp hmem

theorem chains_distinct (g : Graph) : (g.chains.map FlowChain.signature).Nodup := by
  rw [map_signature_chains]
  exact nodup_eraseDups _

end Graph

/-- What the report on the flows of a package says of its files. -/
structure IsReport (limit : Nat) (files : Listing) (unread : List String) (r : FlowReport) :
    Prop where
  /-- Every chain is a pattern that the package has. -/
  sound : ∀ c ∈ r.chains, ∃ p : Pattern, p.Witnessed limit files unread ∧ c.kind = p.kind ∧
    c.severity = p.severity ∧ c.files = p.files
  /-- Every pattern that the package has is a chain, up to its signature. -/
  complete : ∀ p : Pattern, p.Witnessed limit files unread →
    ∃ c ∈ r.chains, c.signature = p.signature
  distinct : (r.chains.map FlowChain.signature).Nodup
  findings : r.findings = r.chains.map FlowChain.toFinding
  edges : {e : String × String | Imports limit files unread e.1 e.2}.encard = r.edges
  /-- The files may come in any order. -/
  orderless : ∀ files' unread', files'.Perm files → unread'.Perm unread →
    ofListing limit files' unread' = r
  /-- The scripts and their imports may be met in any order, and an import more than once. -/
  met : ∀ (order : List Script) (met : List Edge),
    (∀ s, s ∈ order ↔ IsScript limit files s.path s.text) → order.Nodup →
    (∀ e, e ∈ met ↔ Imports limit files unread e.importer e.target) →
    (Graph.ofMet order met).report = r

section Report
variable {limit : Nat} {files : Listing} {unread : List String}

theorem encard_imports (limit : Nat) (files : Listing) (unread : List String) :
    {e : String × String | Imports limit files unread e.1 e.2}.encard =
      (Graph.ofListing limit files unread).edges.length := by
  let pair : Edge → String × String := fun e => (e.importer, e.target)
  have hinj : Function.Injective pair := by
    rintro ⟨target, importer⟩ ⟨target', importer'⟩ h
    obtain ⟨rfl, rfl⟩ := Prod.mk.inj h
    rfl
  have hset : {e : String × String | Imports limit files unread e.1 e.2} =
      (((Graph.ofListing limit files unread).edges.map pair).toFinset : Set (String × String)) := by
    ext ⟨importer, target⟩
    simp only [Set.mem_ofPred_eq, List.coe_toFinset, List.mem_map]
    constructor
    · intro h
      exact ⟨⟨target, importer⟩, Graph.mem_edges.mpr h, rfl⟩
    · rintro ⟨e, he, hpair⟩
      obtain ⟨rfl, rfl⟩ := Prod.mk.inj hpair
      exact Graph.mem_edges.mp he
  have hnodup : ((Graph.ofListing limit files unread).edges.map pair).Nodup :=
    (Edge.sorted_nodup _).map hinj
  rw [hset, Set.encard_coe_eq_coe_finsetCard, List.toFinset_card_of_nodup hnodup, List.length_map]

/-- A graph does not depend on the order in which the scripts and their imports are met. -/
theorem Graph.ofMet_eq (hfiles : (files.map (·.path)).Nodup) {order : List Script}
    {met : List Edge} (horder : order.Perm (scripts limit files))
    (hmet : ∀ e, e ∈ met ↔ Imports limit files unread e.importer e.target) :
    ofMet order met = ofListing limit files unread := by
  have hshown := Dict.ofList_perm (distinct_shown hfiles)
    (horder.map fun s => (s.path, Capabilities.ofText s.text))
  have hedges : Edge.sorted met = (ofListing limit files unread).edges :=
    Edge.sorted_congr fun e => by
      rw [hmet, ← mem_edges, ofListing_eq, ofMet, Edge.mem_sorted]
  rw [ofMet, hshown, hedges]
  rfl

theorem isScript_perm {files' : Listing} (h : files'.Perm files) {path text : String} :
    IsScript limit files' path text ↔ IsScript limit files path text := by
  simp only [IsScript, h.mem_iff]

theorem imports_perm {files' : Listing} {unread' : List String} (h : files'.Perm files)
    (h' : unread'.Perm unread) {importer target : String} :
    Imports limit files' unread' importer target ↔ Imports limit files unread importer target := by
  have hresolve := resolve_congr fun path => ((h.map (·.path)).append h').mem_iff (a := path)
  simp only [Imports, isScript_perm h, hresolve]

theorem ofListing_perm (hfiles : (files.map (·.path)).Nodup) {files' : Listing}
    {unread' : List String} (h : files'.Perm files) (h' : unread'.Perm unread) :
    ofListing limit files' unread' = ofListing limit files unread := by
  rw [ofListing, ofListing, Graph.ofListing_eq limit files' unread']
  congr 1
  refine Graph.ofMet_eq hfiles (h.filterMap _) fun e => ?_
  rw [← imports_perm h h', ← Graph.mem_edges, Graph.ofListing_eq, Graph.ofMet, Edge.mem_sorted]

theorem isReport_ofListing (hfiles : (files.map (·.path)).Nodup) :
    IsReport limit files unread (ofListing limit files unread) where
  sound c hc := by
    obtain ⟨p, hp, rfl⟩ := Graph.chains_sound hc
    exact ⟨p, (Graph.matches_iff hfiles).mp hp, Graph.chain_kind _ p, Graph.chain_severity _ p,
      Graph.chain_files _ p⟩
  complete p hp := Graph.chains_complete ((Graph.matches_iff hfiles).mpr hp)
  distinct := Graph.chains_distinct _
  findings := rfl
  edges := encard_imports limit files unread
  orderless files' unread' h h' := ofListing_perm hfiles h h'
  met order met horder hnodup hmet := by
    have hscripts : (scripts limit files).Nodup :=
      (hfiles.sublist (Graph.scripts_sublist limit files)).of_map
    have hperm : order.Perm (scripts limit files) := by
      rw [List.perm_ext_iff_of_nodup hnodup hscripts]
      exact fun s => (horder s).trans mem_scripts.symm
    rw [Graph.ofMet_eq hfiles hperm hmet, ofListing]

end Report

/-- Where no two files share a path, as in any file tree, the flows reported for a package are the
patterns that its scripts make, each signature once, in whatever order files and imports are met. -/
theorem chains_are_witnessed_patterns (limit : Nat) :
    (∀ (files : Listing) (unread : List String), (files.map (·.path)).Nodup →
      IsReport limit files unread (ofListing limit files unread)) ∧
    ∀ (w : World) (root : String), w.IsTree →
      IsReport limit (Listing.ofPath w root) (Listing.unread w root) (ofPath limit w root) :=
  ⟨fun _ _ hfiles => isReport_ofListing hfiles,
    fun _ root hw => isReport_ofListing (Listing.distinct_ofPath hw root)⟩

def pair : World where
  nodes := [(["pkg"], .dir),
    (["pkg", "a.js"], .file "import './b.js';\nconst k = process.env.API_KEY;\n".toUTF8),
    (["pkg", "b.js"], .file "import './a.js';\nfetch('https://example.org/');\n".toUTF8)]
  cwd := []

theorem chains_are_witnessed_patterns_pair :
    pair.IsTree ∧ (Listing.ofPath pair "pkg").map (·.path) = ["a.js", "b.js"] ∧
      IsReport 1000 (Listing.ofPath pair "pkg") (Listing.unread pair "pkg")
        (ofPath 1000 pair "pkg") := by
  have hpair : pair.IsTree := by decide +kernel
  have hfiles : (Listing.ofPath pair "pkg").map (·.path) = ["a.js", "b.js"] := by cbv
  exact ⟨hpair, hfiles, (chains_are_witnessed_patterns 1000).2 pair "pkg" hpair⟩

theorem Pattern.Witnessed.two_scripts {limit : Nat} {pkg : Listing} {unread : List String}
    {p : Pattern} (h : p.Witnessed limit pkg unread) :
    ∃ t f, f ≠ t ∧ (∃ text, IsScript limit pkg t text) ∧ ∃ text, IsScript limit pkg f text := by
  cases p with
  | credential t f | exec t f =>
    obtain ⟨⟨hne, text, hf, -⟩, ⟨text', ht, -⟩, -⟩ := h
    exact ⟨t, f, hne, ⟨text', ht⟩, text, hf⟩
  | encoded t f d =>
    obtain ⟨⟨hne, text, hf, -⟩, -, -, -, ⟨text', ht, -⟩, -⟩ := h
    exact ⟨t, f, hne, ⟨text', ht⟩, text, hf⟩

/-- With one edge there is a flow only if the importer makes network calls. -/
theorem Graph.chains_of_single {g : Graph} {target importer : String} (hne : importer ≠ target)
    (hedges : g.edges = [⟨target, importer⟩])
    (hsilent : g.can importer .makesNetworkCalls = false) : g.chains = [] := by
  have honly : ∀ {t f}, ⟨t, f⟩ ∈ g.edges → t = target ∧ f = importer := fun he =>
    Edge.mk.inj (List.mem_singleton.mp (hedges ▸ he))
  refine List.eq_nil_iff_forall_not_mem.mpr fun c hc => ?_
  obtain ⟨p, hp, -⟩ := chains_sound hc
  cases p with
  | credential t f | exec t f =>
    obtain ⟨he, -, hsends⟩ := hp
    obtain ⟨rfl, rfl⟩ := honly he
    exact Bool.noConfusion (hsilent.symm.trans hsends)
  | encoded t f d =>
    obtain ⟨he, he', -⟩ := hp
    exact hne ((honly he).2.symm.trans (honly he').1)

/-- A script that imports `a`, reads credentials and makes network calls. -/
def stray : ByteArray := "import './a';\naxios(k, '.npmrc');\n".toUTF8

/-- A file that is no script has no part in a flow, although a script imports it and both read
credentials and make network calls. Of two scripts that are listed by one path the later one counts,
so that a flow is there or not by their order. -/
theorem flows_missed :
    (ofListing 1000 [⟨"a", stray⟩, ⟨"f.js", stray⟩]).chains = [] ∧
    ∀ reads plain sends : String, (Capabilities.ofText reads).has .readsCredentials = true →
      (Capabilities.ofText plain).has .makesNetworkCalls = false →
      (Capabilities.ofText sends).has .makesNetworkCalls = true →
      (∃ c ∈ (Graph.ofMet [⟨"t.js", reads⟩, ⟨"x.js", plain⟩, ⟨"x.js", sends⟩]
          [⟨"t.js", "x.js"⟩]).report.chains,
        c.signature = (Pattern.credential "t.js" "x.js").signature) ∧
      (Graph.ofMet [⟨"t.js", reads⟩, ⟨"x.js", sends⟩, ⟨"x.js", plain⟩]
          [⟨"t.js", "x.js"⟩]).report.chains = [] := by
  refine ⟨List.eq_nil_iff_forall_not_mem.mpr fun c hc => ?_,
    fun reads plain sends hreads hplain hsends => ⟨Graph.chains_complete ⟨?_, ?_, ?_⟩, ?_⟩⟩
  · obtain ⟨p, hp, -⟩ := (isReport_ofListing (by decide)).sound c hc
    obtain ⟨t, f, hne, ⟨text, ht⟩, text', hf⟩ := hp.two_scripts
    have honly : ∀ path text, IsScript 1000 [⟨"a", stray⟩, ⟨"f.js", stray⟩] path text →
        path = "f.js" := by
      rintro path text ⟨file, hfile, rfl, -, e, -, hextension⟩
      rcases List.mem_pair.mp hfile with rfl | rfl
      · have hnone : PackageFile.extensionOf "a" = none := by decide
        cases hnone.symm.trans hextension
      · rfl
    exact hne ((honly f text' hf).trans (honly t text ht).symm)
  · exact Edge.mem_sorted.mpr (by simp)
  · exact (Graph.can_ofMet [] ⟨"t.js", reads⟩ [⟨"x.js", plain⟩, ⟨"x.js", sends⟩] (by simp) _ _).trans
      hreads
  · exact (Graph.can_ofMet [⟨"t.js", reads⟩, ⟨"x.js", plain⟩] ⟨"x.js", sends⟩ [] (by simp) _ _).trans
      hsends
  · refine Graph.chains_of_single (by decide : "x.js" ≠ "t.js") (Edge.sorted_singleton _) ?_
    exact (Graph.can_ofMet [⟨"t.js", reads⟩, ⟨"x.js", sends⟩] ⟨"x.js", plain⟩ [] (by simp) _ _).trans
      hplain

end Flow
end SkillAudit
