import Mathlib
import SkillAudit.Proofs.FlowChains
import SkillAudit.Proofs.PenaltySum

/-!
How many of its flows a report counts. A chain is known by its kind and by the names of its files
with arrows between them. Flows of different kinds are always told apart; flows of one kind are each
counted exactly where no two of them are written the same, as in a package whose file names have no
arrows.
-/
namespace SkillAudit

namespace ChainKind

theorem colon_not_mem_ruleId (k : ChainKind) : ':' ∉ k.ruleId.toList := by
  cases k <;> decide

theorem ruleId_injective : Function.Injective ruleId := by
  intro j k h
  cases j <;> cases k <;> first | rfl | exact absurd h (by decide)

end ChainKind

namespace Flow
namespace Pattern

def route (p : Pattern) : String := String.intercalate "→" p.files

def weight (p : Pattern) : UInt32 := p.severity.flowWeight

theorem eq_of_files {p q : Pattern} (hkind : p.kind = q.kind) (hfiles : p.files = q.files) :
    p = q := by
  cases p <;> cases q <;> simp_all [kind, files]

theorem toList_signature (p : Pattern) :
    p.signature.toList = p.kind.ruleId.toList ++ ':' :: p.route.toList := by
  simp [signature, route]

/-- A signature tells the kind, up to its first colon, and the route after it. -/
theorem signature_eq_iff {p q : Pattern} :
    p.signature = q.signature ↔ p.kind = q.kind ∧ p.route = q.route := by
  constructor
  · intro h
    have hword : ∀ k : ChainKind, ∀ c ∈ k.ruleId.toList, (c != ':') = true := by
      intro k c hc
      rw [bne_iff_ne]
      rintro rfl
      exact k.colon_not_mem_ruleId hc
    have hstop : ∀ r : Pattern, ∀ c ∈ (':' :: r.route.toList).head?, (c != ':') = false := by simp
    have hkind : p.kind = q.kind := by
      apply ChainKind.ruleId_injective
      apply String.toList_injective
      rw [← Digits.takeWhile_append (hword p.kind) (hstop p), ← toList_signature, h, toList_signature,
        Digits.takeWhile_append (hword q.kind) (hstop q)]
    have hroute : ':' :: p.route.toList = ':' :: q.route.toList := by
      rw [← Digits.dropWhile_append (hword p.kind) (hstop p), ← toList_signature, h, toList_signature,
        Digits.dropWhile_append (hword q.kind) (hstop q)]
    exact ⟨hkind, String.toList_injective (List.cons.inj hroute).2⟩
  · rintro ⟨hkind, hroute⟩
    rw [signature, signature, hkind, ← route, ← route, hroute]

variable {limit : Nat} {pkg : Listing} {unread : List String} {p q : Pattern}

theorem Witnessed.mem_files (h : p.Witnessed limit pkg unread) :
    ∀ name ∈ p.files, name ∈ pkg.map (·.path) := by
  have hshows : ∀ name c, Shows limit pkg name c → name ∈ pkg.map (·.path) := by
    rintro name c ⟨text, ⟨f, hf, rfl, -⟩, -⟩
    exact List.mem_map_of_mem hf
  intro name hname
  cases p with
  | credential t f =>
    obtain ⟨-, ht, hf⟩ := h
    rcases List.mem_pair.mp hname with rfl | rfl
    · exact hshows _ _ ht
    · exact hshows _ _ hf
  | encoded t f d =>
    obtain ⟨-, -, -, -, ht, hf, hd⟩ := h
    simp only [files, List.mem_cons, List.not_mem_nil, or_false] at hname
    rcases hname with rfl | rfl | rfl
    · exact hshows _ _ ht
    · exact hshows _ _ hf
    · exact hshows _ _ hd
  | exec t f =>
    obtain ⟨-, ht, hf⟩ := h
    rcases List.mem_pair.mp hname with rfl | rfl
    · exact hshows _ _ ht
    · exact hshows _ _ hf

theorem files_ne_nil (p : Pattern) : p.files ≠ [] := by
  cases p <;> simp [files]

/-- Names without arrows can be read off the route. -/
theorem files_of_route (hp : ∀ name ∈ p.files, '→' ∉ name.toList)
    (hq : ∀ name ∈ q.files, '→' ∉ name.toList) (h : p.route = q.route) : p.files = q.files := by
  have hsplit : ∀ r : Pattern, (∀ name ∈ r.files, '→' ∉ name.toList) →
      r.route.toList.splitOn '→' = r.files.map String.toList := by
    intro r hr
    rw [route, String.toList_intercalate]
    apply List.splitOn_intercalate
    · simpa using hr
    · simpa using r.files_ne_nil
  have hnames : p.files.map String.toList = q.files.map String.toList := by
    rw [← hsplit p hp, ← hsplit q hq, h]
  exact List.map_injective_iff.mpr (fun _ _ => String.toList_injective) hnames

end Pattern

/-- A report counts the patterns of a list, in its order: it has a chain, a finding and a deduction
for each. -/
structure Counts (r : FlowReport) (ps : List Pattern) : Prop where
  distinct : ps.Nodup
  chains : r.chains.map (fun c => (c.kind, c.severity, c.files)) =
    ps.map fun p => (p.kind, p.severity, p.files)
  findings : r.findings.map (fun f => (f.ruleId, f.severity, f.file, f.weight)) =
    ps.map fun p => (p.kind.ruleId, p.severity, p.route, p.weight)
  penalty : r.penalty.toNat = (ps.map (·.weight.toNat)).sum % 2 ^ 32

theorem Graph.exists_patterns (g : Graph) : ∃ ps : List Pattern, g.chains = ps.map g.chain ∧
    (∀ p ∈ ps, g.Matches p) ∧ (ps.map Pattern.signature).Nodup := by
  have hrange : g.chains ∈ Set.range (List.map fun p : {p // g.Matches p} => g.chain p) := by
    rw [Set.range_list_map]
    intro c hc
    obtain ⟨p, hp, rfl⟩ := chains_sound hc
    exact ⟨⟨p, hp⟩, rfl⟩
  obtain ⟨ps, hps⟩ := hrange
  refine ⟨ps.map (·.val), ?_, ?_, ?_⟩
  · rw [← hps, List.map_map]
    rfl
  · intro p hp
    obtain ⟨⟨q, hq⟩, -, rfl⟩ := List.mem_map.mp hp
    exact hq
  · have hdistinct := g.chains_distinct
    rw [← hps, List.map_map] at hdistinct
    simpa only [List.map_map, Function.comp_def, chain_signature] using hdistinct

theorem Graph.counts_report {g : Graph} {ps : List Pattern} (hchains : g.chains = ps.map g.chain)
    (hdistinct : (ps.map Pattern.signature).Nodup) : Counts g.report ps := by
  have hfindings : g.report.findings = ps.map fun p => (g.chain p).toFinding := by
    rw [report, FlowReport.ofChains, hchains, List.map_map]
    rfl
  constructor
  case distinct => exact hdistinct.of_map
  case chains =>
    change g.chains.map _ = _
    rw [hchains, List.map_map]
    apply List.map_congr_left
    intro p _
    simp only [Function.comp_apply, chain_kind, chain_severity, chain_files]
  case findings =>
    rw [hfindings, List.map_map]
    apply List.map_congr_left
    intro p _
    simp only [Function.comp_apply, FlowChain.toFinding, FlowChain.route, chain_kind, chain_severity,
      chain_files, Pattern.route, Pattern.weight]
  case penalty =>
    rw [FlowReport.toNat_penalty, Finding.total, hfindings, List.map_map]
    congr 2
    apply List.map_congr_left
    intro p _
    simp only [Function.comp_apply, FlowChain.toFinding, chain_severity, Pattern.weight]

/-- No two flows of one kind in a package are written the same. -/
def RoutesDiffer (limit : Nat) (pkg : Listing) (unread : List String) : Prop :=
  ∀ p q : Pattern, p.Witnessed limit pkg unread → q.Witnessed limit pkg unread → p.kind = q.kind →
    p.route = q.route → p.files = q.files

theorem routesDiffer_of_arrowless {limit : Nat} {pkg : Listing} {unread : List String}
    (h : ∀ f ∈ pkg, '→' ∉ f.path.toList) : RoutesDiffer limit pkg unread := by
  have hfiles : ∀ p : Pattern, p.Witnessed limit pkg unread →
      ∀ name ∈ p.files, '→' ∉ name.toList := by
    intro p hp name hname
    obtain ⟨f, hf, rfl⟩ := List.mem_map.mp (hp.mem_files name hname)
    exact h f hf
  intro p q hp hq _ hroute
  exact Pattern.files_of_route (hfiles p hp) (hfiles q hq) hroute

/-- A report counts flows that the package has, one for each signature among them. It counts all of
them exactly where no two flows of one kind are written the same. -/
theorem flows_counted_iff (limit : Nat) {w : World} (hw : w.IsTree) (root : String) :
    ∃ ps, Counts (ofPath limit w root) ps ∧
      (∀ p ∈ ps, p.Witnessed limit (Listing.ofPath w root) (Listing.unread w root)) ∧
      (∀ p : Pattern, p.Witnessed limit (Listing.ofPath w root) (Listing.unread w root) →
        ∃ q ∈ ps, q.kind = p.kind ∧ q.route = p.route) ∧
      ((∀ p : Pattern, p.Witnessed limit (Listing.ofPath w root) (Listing.unread w root) → p ∈ ps) ↔
        RoutesDiffer limit (Listing.ofPath w root) (Listing.unread w root)) ∧
      ((∀ f ∈ Listing.ofPath w root, '→' ∉ f.path.toList) →
        RoutesDiffer limit (Listing.ofPath w root) (Listing.unread w root)) := by
  have hfiles := Listing.distinct_ofPath hw root
  obtain ⟨ps, hchains, hmatches, hdistinct⟩ :=
    (Graph.ofListing limit (Listing.ofPath w root) (Listing.unread w root)).exists_patterns
  have hcovered : ∀ p : Pattern, p.Witnessed limit (Listing.ofPath w root) (Listing.unread w root) →
      ∃ q ∈ ps, q.kind = p.kind ∧ q.route = p.route := by
    intro p hp
    obtain ⟨c, hc, hsignature⟩ := Graph.chains_complete ((Graph.matches_iff hfiles).mpr hp)
    rw [hchains] at hc
    obtain ⟨q, hq, rfl⟩ := List.mem_map.mp hc
    rw [Graph.chain_signature] at hsignature
    exact ⟨q, hq, Pattern.signature_eq_iff.mp hsignature⟩
  have hwitnessed : ∀ p ∈ ps, p.Witnessed limit (Listing.ofPath w root) (Listing.unread w root) :=
    fun p hp => (Graph.matches_iff hfiles).mp (hmatches p hp)
  refine ⟨ps, Graph.counts_report hchains hdistinct, hwitnessed, hcovered, ⟨?_, ?_⟩,
    routesDiffer_of_arrowless⟩
  · intro hall p q hp hq hkind hroute
    have hsame := Pattern.signature_eq_iff.mpr ⟨hkind, hroute⟩
    rw [List.inj_on_of_nodup_map hdistinct (hall p hp) (hall q hq) hsame]
  · intro hdiffer p hp
    obtain ⟨q, hq, hkind, hroute⟩ := hcovered p hp
    have hfile := hdiffer q p (hwitnessed q hq) hp hkind hroute
    rwa [Pattern.eq_of_files hkind hfile] at hq

theorem flows_counted_iff_pair : pair.IsTree ∧
    (∀ f ∈ Listing.ofPath pair "pkg", '→' ∉ f.path.toList) ∧
    ∃ ps, Counts (ofPath 1000 pair "pkg") ps ∧
      ∀ p : Pattern, p ∈ ps ↔
        p.Witnessed 1000 (Listing.ofPath pair "pkg") (Listing.unread pair "pkg") := by
  have hpair : pair.IsTree := by decide +kernel
  have hpaths : (Listing.ofPath pair "pkg").map (·.path) = ["a.js", "b.js"] := by cbv
  have harrowless : ∀ f ∈ Listing.ofPath pair "pkg", '→' ∉ f.path.toList := by
    intro f hf
    have hpath : f.path ∈ ["a.js", "b.js"] := hpaths ▸ List.mem_map_of_mem hf
    rcases List.mem_pair.mp hpath with h | h <;> rw [h] <;> decide
  obtain ⟨ps, hcounts, hwitnessed, -, hall, hdiffer⟩ := flows_counted_iff 1000 hpair "pkg"
  exact ⟨hpair, harrowless, ps, hcounts, fun p => ⟨hwitnessed p, hall.mpr (hdiffer harrowless) p⟩⟩

/-- Of two flows that are written the same at most one is reported. -/
theorem Graph.reported_once {g : Graph} {p q : Pattern} (h : p.signature = q.signature)
    (hp : (p.kind, p.files) ∈ g.chains.map fun c => (c.kind, c.files))
    (hq : (q.kind, q.files) ∈ g.chains.map fun c => (c.kind, c.files)) : p.files = q.files := by
  have hsignature : ∀ {c : FlowChain} {r : Pattern}, (c.kind, c.files) = (r.kind, r.files) →
      c.signature = r.signature := by
    intro c r hc
    obtain ⟨hkind, hfiles⟩ := Prod.mk.inj hc
    rw [FlowChain.signature, FlowChain.route, hkind, hfiles, Pattern.signature]
  obtain ⟨c, hc, hcp⟩ := List.mem_map.mp hp
  obtain ⟨d, hd, hdq⟩ := List.mem_map.mp hq
  obtain rfl : c = d := List.inj_on_of_nodup_map g.chains_distinct hc hd
    ((hsignature hcp).trans (h.trans (hsignature hdq).symm))
  exact (Prod.mk.inj hcp).2.symm.trans (Prod.mk.inj hdq).2

/-- Two files that import each other, read credentials and make network calls. The name of one is
the name of the other written twice. -/
def echo : World where
  nodes := [(["p"], .dir),
    (["p", "a.js"], .file "import './a.js→a.js';\naxios(k, '.npmrc');\n".toUTF8),
    (["p", "a.js→a.js"], .file "import './a.js';\naxios(k, '.npmrc');\n".toUTF8)]
  cwd := []

def echoGraph : Graph :=
  let shown : Capabilities :=
    ⟨[(.readsCredentials, ⟨2, ".npmrc"⟩), (.makesNetworkCalls, ⟨2, "axios"⟩)]⟩
  { capabilities := [("a.js", shown), ("a.js→a.js", shown)]
    edges := [⟨"a.js", "a.js→a.js"⟩, ⟨"a.js→a.js", "a.js"⟩] }

theorem echo_paths : (Listing.ofPath echo "p").map (·.path) = ["a.js", "a.js→a.js"] := by
  have hplace : (Listing.ofPlace echo ["p"]).map (·.path) = ["a.js", "a.js→a.js"] := by cbv
  have hshort : ∀ path ∈ ["a.js", "a.js→a.js"], Path.isShort (Path.join "p" path) = true := by decide
  have hleads : World.Leads echo true (World.endsInSlash "p") World.linkLimit (echo.start "p")
      (World.namesOf "p") [] (.taken ["p"] .dir) :=
    .down ⟨by decide, by decide⟩ (by decide) rfl .here
  have hpath : World.IsPath "p" := by decide
  rw [Listing.ofPath_eq_ofPlace (hpath.find hleads), hplace]
  exact fun f hf => hshort f.path (hplace ▸ List.mem_map_of_mem hf)

/-- There is a flow each way; one of them is reported, at the price of one. Whatever the texts of two
such files are, the report on the package never has both. -/
theorem flow_lost_behind_arrow :
    echoGraph.Matches (.credential "a.js" "a.js→a.js") ∧
    echoGraph.Matches (.credential "a.js→a.js" "a.js") ∧
    echoGraph.report.chains.map (·.files) = [["a.js", "a.js→a.js"]] ∧
    echoGraph.report.penalty = 30 ∧
    echo.IsTree ∧ (Listing.ofPath echo "p").map (·.path) = ["a.js", "a.js→a.js"] ∧
    ∀ limit, ¬ ∀ p ∈ [Pattern.credential "a.js" "a.js→a.js", .credential "a.js→a.js" "a.js"],
      (p.kind, p.files) ∈ (ofPath limit echo "p").chains.map fun c => (c.kind, c.files) := by
  refine ⟨⟨?_, ?_, ?_⟩, ⟨?_, ?_, ?_⟩, ?_, ?_, ?_, ?_, fun limit hall => ?_⟩
  case refine_11 =>
    have hsame : (Pattern.credential "a.js" "a.js→a.js").files =
        (Pattern.credential "a.js→a.js" "a.js").files :=
      Graph.reported_once (by decide) (hall _ (by simp)) (hall _ (by simp))
    exact absurd hsame (by decide)
  case refine_10 => exact echo_paths
  all_goals decide +kernel

end Flow
end SkillAudit
