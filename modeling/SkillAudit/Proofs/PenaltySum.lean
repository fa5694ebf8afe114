import Mathlib
import SkillAudit.Command.Scan
import SkillAudit.Proofs.FingerprintFraming
import SkillAudit.Proofs.GateCheck
import SkillAudit.Proofs.ShownPaths

/-!
What findings take off a score. The weights of flows and behaviours are added in 32 bits: a score is
exact as long as they stay below `2 ^ 32` together, and from there on a further finding may improve it.
Those of rules need 64 bits, which hold any `2 ^ 32` of them.
-/
namespace SkillAudit

theorem toNat_foldl_add {α : Type} (f : α → UInt32) (xs : List α) (start : UInt32) :
    (xs.foldl (fun sum x => sum + f x) start).toNat =
      (start.toNat + (xs.map fun x => (f x).toNat).sum) % 2 ^ 32 := by
  induction xs generalizing start with
  | nil => simp [Nat.mod_eq_of_lt start.toNat_lt]
  | cons x xs ih =>
    rw [List.foldl_cons, ih, UInt32.toNat_add, List.map_cons, List.sum_cons, Nat.mod_add_mod,
      Nat.add_assoc]

theorem foldl_toNat_eq_sum (xs : List UInt32) (n : Nat) :
    xs.foldl (fun n x => n + x.toNat) n = n + (xs.map (·.toNat)).sum := by
  induction xs generalizing n with
  | nil => rfl
  | cons x xs ih => rw [List.foldl_cons, ih, List.map_cons, List.sum_cons, Nat.add_assoc]

/-- 64 bits hold `2 ^ 32` weights, and the score is the one that they give. -/
theorem scoreOfWeights_eq_of_length_le {weights : List UInt32} (h : weights.length ≤ 2 ^ 32) :
    scoreOfWeights weights =
      let sum := weights.foldl (fun sum (w : UInt32) => sum + w.toUInt64) 0
      if sum ≤ 100 then (100 - sum).toUInt32 else 0 := by
  have hsum : (weights.map (·.toNat)).sum < 2 ^ 64 := by
    have hle := List.sum_le_card_nsmul (weights.map (·.toNat)) (2 ^ 32 - 1) fun n hn => by
      obtain ⟨w, -, rfl⟩ := List.mem_map.mp hn
      exact Nat.le_sub_one_of_lt w.toNat_lt
    rw [List.length_map, smul_eq_mul] at hle
    omega
  have hword : (weights.foldl (fun sum (w : UInt32) => sum + w.toUInt64) 0).toNat =
      (weights.map (·.toNat)).sum := by
    rw [toNat_foldl_add_word]
    simpa using Nat.mod_eq_of_lt hsum
  simp only [scoreOfWeights, foldl_toNat_eq_sum, ← hword, Nat.zero_add]
  generalize weights.foldl (fun sum (w : UInt32) => sum + w.toUInt64) 0 = sum
  have hhundred : (100 : UInt64).toNat = 100 := rfl
  refine UInt32.toNat_inj.mp ?_
  split
  next hle =>
    have hle' : sum.toNat ≤ 100 := UInt64.le_iff_toNat_le.mp hle
    rw [UInt64.toNat_toUInt32, UInt64.toNat_sub_of_le _ _ hle, UInt32.toNat_ofNat', hhundred]
  next hgt =>
    have hgt' : ¬ sum.toNat ≤ 100 := fun hle => hgt (UInt64.le_iff_toNat_le.mpr hle)
    rw [Nat.sub_eq_zero_of_le (by omega)]
    rfl

def Finding.total (findings : List Finding) : Nat := (findings.map (·.weight.toNat)).sum

def BehaviourFinding.total (findings : List BehaviourFinding) : Nat :=
  (findings.map (·.severity.behaviourWeight.toNat)).sum

theorem Finding.total_le {few many : List Finding} (h : few.Sublist many) :
    total few ≤ total many :=
  (h.map _).sum_le_sum fun _ _ => Nat.zero_le _

theorem BehaviourFinding.total_le {few many : List BehaviourFinding} (h : few.Sublist many) :
    total few ≤ total many :=
  (h.map _).sum_le_sum fun _ _ => Nat.zero_le _

theorem FlowReport.toNat_penalty (r : FlowReport) :
    r.penalty.toNat = Finding.total r.findings % 2 ^ 32 := by
  rw [penalty, toNat_foldl_add]
  simp [Finding.total]

theorem ScanReport.toNat_score (findings : List Finding) (scanned skipped : Nat) :
    (ofFindings findings scanned skipped).score.toNat = 100 - Finding.total findings := by
  simp only [ofFindings, scoreOfWeights, foldl_toNat_eq_sum, List.map_map, Nat.zero_add]
  exact UInt32.toNat_ofNat_of_lt' (by unfold UInt32.size; omega)

theorem Assessment.toNat_adjust (score penalty : UInt32) :
    (adjust score penalty).toNat = score.toNat - penalty.toNat := by
  have hscore := score.toNat_lt
  exact UInt32.toNat_ofNat_of_lt' (by unfold UInt32.size; omega)

theorem BehaviourReport.toNat_riskScore (findings : List BehaviourFinding) (files : Nat) :
    (ofFindings findings files).riskScore.toNat =
      min 100 (BehaviourFinding.total findings % 2 ^ 32) := by
  have hweight : (weight findings).toNat = BehaviourFinding.total findings % 2 ^ 32 := by
    rw [weight, toNat_foldl_add]
    simp [BehaviourFinding.total]
  rw [← hweight]
  simp only [ofFindings]
  split
  next hle =>
    have : (weight findings).toNat ≤ 100 := UInt32.le_iff_toNat_le.mp hle
    omega
  next hgt =>
    have : ¬ (weight findings).toNat ≤ 100 := fun h => hgt (UInt32.le_iff_toNat_le.mpr h)
    have : (100 : UInt32).toNat = 100 := rfl
    omega

/-- The finding of a flow weighs at most 30. -/
theorem Flow.weight_ofPath_le (limit : Nat) (w : World) (root : String) :
    ∀ f ∈ (Flow.ofPath limit w root).findings, f.weight.toNat ≤ 30 := by
  have hweight : ∀ s : Severity, s.flowWeight.toNat ≤ 30 := by
    intro s
    cases s <;> decide
  intro f hf
  obtain ⟨chain, -, rfl⟩ := List.mem_map.mp hf
  exact hweight chain.severity

/-- So many flows weigh less than `2 ^ 32`, and one more may not. -/
def flowLimit : Nat := 143165576

theorem Finding.total_lt {findings : List Finding} (hlight : ∀ f ∈ findings, f.weight.toNat ≤ 30)
    (hfew : findings.length ≤ flowLimit) : total findings < 2 ^ 32 := by
  have hsum := List.sum_le_card_nsmul (findings.map (·.weight.toNat)) 30 (by simpa using hlight)
  rw [List.length_map, smul_eq_mul] at hsum
  change total findings ≤ findings.length * 30 at hsum
  unfold flowLimit at hfew
  omega

/-- What a score says about the findings of rules and flows that are reported with it. -/
structure Tallies (score : UInt32) (rules flows : List Finding) : Prop where
  /-- The flows count as far as 32 bits keep their weight. -/
  wraps : score.toNat = 100 - Finding.total rules - Finding.total flows % 2 ^ 32
  exact : Finding.total flows < 2 ^ 32 →
    score.toNat = 100 - (Finding.total rules + Finding.total flows)
  few : flows.length ≤ flowLimit → Finding.total flows < 2 ^ 32

theorem tallies_adjust {findings : List Finding} {scanned skipped : Nat} {r : FlowReport}
    (hlight : ∀ f ∈ r.findings, f.weight.toNat ≤ 30) :
    Tallies (Assessment.adjust (ScanReport.ofFindings findings scanned skipped).score r.penalty)
      findings r.findings := by
  have hscore : (Assessment.adjust (ScanReport.ofFindings findings scanned skipped).score
      r.penalty).toNat = 100 - Finding.total findings - Finding.total r.findings % 2 ^ 32 := by
    rw [Assessment.toNat_adjust, ScanReport.toNat_score, FlowReport.toNat_penalty]
  refine ⟨hscore, fun hsum => ?_, Finding.total_lt hlight⟩
  rw [hscore, Nat.mod_eq_of_lt hsum]
  omega

/-- The flows of a package, or none where they are not looked for. -/
theorem weight_flow_le (policy : Policy) (w : World) (root : String) :
    ∀ f ∈ (if policy.enableFlowAnalysis then Flow.ofPath policy.maxFileSize w root
      else .empty).findings, f.weight.toNat ≤ 30 := by
  split
  · exact Flow.weight_ofPath_le _ w root
  · simp [FlowReport.empty]

/-- A package that does not pass as approved is decided on from a scan. -/
theorem Gate.check_scanned {g : Gate} {now : Instant} {path : String} {options : Options}
    {l : Ledger} {w : World} {d : Decision} {s : Ledger × World}
    (h : g.check now path options (l, w) = (.ok d, s))
    (hscan : (Ledger.load w l.path l.tablePath).approvedHash? d.name ≠ some d.hash) :
    ∃ root approval, Package.locate? w path g.policy.manifestFile = some root ∧
      d = g.scanned w root d.name d.version d.hash approval options.installed := by
  obtain ⟨root, hroot, rfl, -⟩ := check_ok_iff.mp h
  rw [decision_name, decision_hash] at hscan
  rcases decision_cases g w (.load w l.path l.tablePath) root options with
    ⟨e, hhash, -⟩ | ⟨-, hd⟩
  · exact absurd hhash hscan
  · rw [hd]
    exact ⟨root, _, hroot, rfl⟩

theorem Gate.tallies_check {g : Gate} {now : Instant} {path : String} {options : Options}
    {l : Ledger} {w : World} {d : Decision} {s : Ledger × World}
    (h : g.check now path options (l, w) = (.ok d, s))
    (hscan : (Ledger.load w l.path l.tablePath).approvedHash? d.name ≠ some d.hash) :
    Tallies d.score d.findings d.flowFindings := by
  obtain ⟨root, approval, -, hd⟩ := check_scanned h hscan
  rw [hd]
  exact tallies_adjust (weight_flow_le g.policy w root)

theorem Command.scan_ok {c : Context} {path : String} {w w' : World} {r : Report}
    (h : scan c path w = (.ok r, w')) :
    ∃ root rules, Package.locate? w path c.policy.manifestFile = some root ∧
      Assessed.report c (.ofPath c.policy rules w root none) = .ok r := by
  obtain ⟨root, u, hlocate, hrest⟩ := Act.bind_ok h
  obtain ⟨hroot, hu⟩ := Context.locate_ok hlocate
  obtain ⟨rules, v, hrules, hreport⟩ := Act.bind_ok hrest
  have hv : v = u := Context.rules_ok hrules
  subst hv hu
  obtain ⟨_, _, hget, hreport⟩ := Act.bind_ok hreport
  cases hget
  rw [liftExcept_eq] at hreport
  exact ⟨root, rules, hroot, (Prod.mk.inj hreport).1⟩

/-- As long as 32 bits hold what flows and behaviours weigh, every finding counts in full: a penalty
is the sum of its weights, the gate and the scan command report 100 less all weights, the risk of
running a package is their sum up to 100, and no further finding improves any of them. -/
theorem score_exact_below_wrap (r : FlowReport) :
    (r.penalty.toNat = Finding.total r.findings ↔ Finding.total r.findings < 2 ^ 32) ∧
    (∀ (g : Gate) (now : Instant) (path : String) (options : Gate.Options) (l : Ledger) (w : World)
      (d : Decision) (s : Ledger × World), g.check now path options (l, w) = (.ok d, s) →
      (Ledger.load w l.path l.tablePath).approvedHash? d.name ≠ some d.hash →
      Tallies d.score d.findings d.flowFindings) ∧
    (∀ (c : Command.Context) (path : String) (w w' : World) (r : Report),
      Command.scan c path w = (.ok r, w') →
      ∃ a : Assessment, Command.Assessed.report c a = .ok r ∧
        Tallies a.score a.findings a.flow.findings) ∧
    (∀ (findings : List BehaviourFinding) (files : Nat),
      BehaviourFinding.total findings < 2 ^ 32 →
      (BehaviourReport.ofFindings findings files).riskScore.toNat =
        min 100 (BehaviourFinding.total findings)) ∧
    (∀ (few many : List Finding) (r r' : FlowReport) (scanned skipped : Nat), few.Sublist many →
      r.findings.Sublist r'.findings → Finding.total r'.findings < 2 ^ 32 →
      Assessment.adjust (ScanReport.ofFindings many scanned skipped).score r'.penalty ≤
        Assessment.adjust (ScanReport.ofFindings few scanned skipped).score r.penalty) ∧
    (∀ (few many : List BehaviourFinding) (files : Nat), few.Sublist many →
      BehaviourFinding.total many < 2 ^ 32 →
      (BehaviourReport.ofFindings few files).riskScore ≤
        (BehaviourReport.ofFindings many files).riskScore) := by
  refine ⟨?_, ?_, ?_, ?_, ?_, ?_⟩
  · have hpenalty := r.toNat_penalty
    omega
  · intro g now path options l w d s h hscan
    exact Gate.tallies_check h hscan
  · intro c path w w' r h
    obtain ⟨root, rules, -, hreport⟩ := Command.scan_ok h
    exact ⟨_, hreport, tallies_adjust (weight_flow_le c.policy w root)⟩
  · intro findings files hsum
    rw [BehaviourReport.toNat_riskScore, Nat.mod_eq_of_lt hsum]
  · intro few many r r' scanned skipped hrules hflows hsum
    have hfew := Finding.total_le hrules
    have hless := Finding.total_le hflows
    rw [UInt32.le_iff_toNat_le, Assessment.toNat_adjust, Assessment.toNat_adjust,
      ScanReport.toNat_score, ScanReport.toNat_score, FlowReport.toNat_penalty,
      FlowReport.toNat_penalty]
    omega
  · intro few many files hmore hsum
    have hless := BehaviourFinding.total_le hmore
    rw [UInt32.le_iff_toNat_le, BehaviourReport.toNat_riskScore, BehaviourReport.toNat_riskScore]
    omega

def graveSign : BehaviourFinding := ⟨"remote-eval", .critical, "a.js", 1, "eval", "runs what it loads"⟩

theorem bench_flow (limit : Nat) : (Flow.ofPath limit Gate.bench "p").findings = [] := by
  have hscripts : Flow.scripts limit [⟨"SKILL.md", ⟨#[120]⟩⟩] = [] := by cbv
  rw [Flow.ofPath, Gate.bench_ofPath, Flow.ofListing, Flow.Graph.ofListing, hscripts]
  generalize Listing.unread Gate.bench "p" = unread
  cbv

/-- A blocked package has lost every point to its rule, and two signs of behaviours add up. -/
theorem score_exact_below_wrap_blocked :
    (∃ d s, Gate.markGate.check Instant.newYear "p" {}
        (.load Gate.bench "ledger.json" (some "LEDGER.md"), Gate.bench) = (.ok d, s) ∧
      d.flowFindings.length ≤ flowLimit ∧
      d.score.toNat = 100 - (Finding.total d.findings + Finding.total d.flowFindings)) ∧
    BehaviourFinding.total [graveSign, graveSign] < 2 ^ 32 ∧
    (BehaviourReport.ofFindings [graveSign, graveSign] 1).riskScore.toNat = 60 := by
  obtain ⟨-, hcheck, -, hrisk, -⟩ := score_exact_below_wrap .empty
  refine ⟨?_, by decide, hrisk [graveSign, graveSign] 1 (by decide)⟩
  obtain ⟨d, l', w', hok, hblock⟩ :=
    Gate.markGate_check (some "LEDGER.md") Ledger.table_plain
  obtain ⟨_, -, hdecision, -⟩ := Gate.check_ok_iff.mp hok
  have hscan : (Ledger.load Gate.bench "ledger.json" (some "LEDGER.md")).approvedHash? d.name ≠
      some d.hash := by
    have hnone := ((Gate.check_block_iff hdecision).mp hblock).1
    simp only [Ledger.load] at hnone ⊢
    simp [hnone]
  obtain ⟨root, approval, hroot, hd⟩ := Gate.check_scanned hok hscan
  obtain rfl : "p" = root := Option.some.inj (Gate.bench_hasPackage.locate?.symm.trans hroot)
  have hflow : d.flowFindings = (Flow.ofPath 1048576 Gate.bench "p").findings := by
    rw [hd]
    rfl
  have hfew : d.flowFindings.length ≤ flowLimit := by
    rw [hflow, bench_flow]
    decide
  have htallies := hcheck Gate.markGate Instant.newYear "p" {} _ Gate.bench d (l', w') hok hscan
  exact ⟨d, (l', w'), hok, hfew, htallies.exact (htallies.few hfew)⟩

/-- A finding of rule weight, as a report on flows may hold it. -/
def weighing (weight : UInt32) : Finding := ⟨"flow", .critical, "flow", "a.js", 0, "", weight⟩

/-- A further finding takes a penalty beyond `2 ^ 32`: nothing is left of it, and a package without a
point has all of them again. So many signs of behaviours leave a small risk. -/
theorem score_restored_by_further_finding :
    Assessment.adjust 100 (FlowReport.penalty ⟨[], [weighing 4294967295], 0, 0⟩) = 0 ∧
    Assessment.adjust 100 (FlowReport.penalty ⟨[], [weighing 4294967295, weighing 1], 0, 0⟩) = 100 ∧
    FlowReport.penalty ⟨[], [weighing 4294967295, weighing 1], 0, 0⟩ = 0 ∧
    Finding.total [weighing 4294967295, weighing 1] = 2 ^ 32 ∧
    (BehaviourReport.ofFindings (List.replicate (flowLimit + 1) graveSign) 1).riskScore.toNat = 14 ∧
    min 100 (BehaviourFinding.total (List.replicate (flowLimit + 1) graveSign)) = 100 := by
  have htotal : BehaviourFinding.total (List.replicate (flowLimit + 1) graveSign) = 4294967310 := by
    rw [BehaviourFinding.total, List.map_replicate, List.sum_replicate]
    rfl
  refine ⟨by decide, by decide, by decide, by decide, ?_, ?_⟩
  · rw [BehaviourReport.toNat_riskScore, htotal]
    rfl
  · rw [htotal]
    rfl

end SkillAudit
