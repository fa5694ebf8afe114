import Mathlib
import SkillAudit.Command.Run
import SkillAudit.Proofs.PenaltySum

/-!
Scores and the threshold for scans. A scan, a check of a text, a batch and a look at behaviours compare
scores with it, and their exit code tells whether one of them is below.
-/
namespace SkillAudit

namespace Policy

/-- What a policy without a fault is. -/
structure IsSound (p : Policy) : Prop where
  allow_le : p.autoAllowThreshold ≤ 100
  review_le : p.reviewThreshold ≤ 100
  block_le : p.blockThreshold ≤ 100
  ordered : p.reviewThreshold ≤ p.autoAllowThreshold
  size : p.maxFileSize ≠ 0
  manifest : isSafeName p.manifestFile = true

theorem fault?_eq_none_iff {p : Policy} : p.fault? = none ↔ p.IsSound := by
  by_cases hallow : 100 < p.autoAllowThreshold
  · have hnot : ¬ p.IsSound := fun h => UInt32.not_lt.mpr h.allow_le hallow
    simp [fault?, hallow, hnot]
  by_cases hreview : 100 < p.reviewThreshold
  · have hnot : ¬ p.IsSound := fun h => UInt32.not_lt.mpr h.review_le hreview
    simp [fault?, hallow, hreview, hnot]
  by_cases hblock : 100 < p.blockThreshold
  · have hnot : ¬ p.IsSound := fun h => UInt32.not_lt.mpr h.block_le hblock
    simp [fault?, hallow, hreview, hblock, hnot]
  have hrest : p.fault? = none ↔ p.reviewThreshold ≤ p.autoAllowThreshold ∧ p.maxFileSize ≠ 0 ∧
      isSafeName p.manifestFile = true := by
    have hifs : p.fault? = if p.autoAllowThreshold < p.reviewThreshold then
          some (.reviewAboveAllow p.reviewThreshold p.autoAllowThreshold)
        else if p.maxFileSize = 0 then some .noFileSize
        else if isSafeName p.manifestFile = false then some (.manifestName p.manifestFile)
        else none := by
      simp [fault?, hallow, hreview, hblock]
    rw [hifs, ← UInt32.not_lt]
    split_ifs with hordered hsize hmanifest
    · simp [hordered]
    · simp [hsize]
    · simp [hmanifest]
    · simpa [hordered, hsize] using hmanifest
  rw [hrest]
  constructor
  · rintro ⟨hordered, hsize, hmanifest⟩
    exact ⟨UInt32.not_lt.mp hallow, UInt32.not_lt.mp hreview, UInt32.not_lt.mp hblock, hordered,
      hsize, hmanifest⟩
  · intro h
    exact ⟨h.ordered, h.size, h.manifest⟩

theorem validate_ok_iff {p : Policy} : p.validate = .ok () ↔ p.IsSound := by
  rw [← fault?_eq_none_iff, validate]
  cases p.fault? <;> simp

end Policy

namespace Command
def isScoring : CommandLine.Command → Bool
  | .scan _ => true
  | .check _ => true
  | .batch _ => true
  | .runtime _ => true
  | _ => false

/-- The scores that a command compares with the threshold for scans, where it comes so far. For behaviours
it is what their risk leaves of 100. -/
def heldScores (c : Context) (w : World) : CommandLine.Command → Option (List Nat)
  | .scan path =>
    (Package.locate? w path c.policy.manifestFile).bind fun root =>
      (c.rules w).1.toOption.map fun rules =>
        [(Assessment.ofPath c.policy rules w root none).score.toNat]
  | .check text =>
    (c.rules w).1.toOption.map fun rules =>
      [(Scan.text rules (if text == "-" then c.input else text) "<input>").score.toNat]
  | .batch dir =>
    if w.isDir dir then
      (c.rules w).1.toOption.map fun rules =>
        (Package.subdirectories w dir).map fun root =>
          (Assessment.ofPath c.policy rules w root none).score.toNat
    else none
  | .runtime path =>
    if w.isDir path then some [100 - (Behaviour.ofPath c.policy.maxFileSize w path).riskScore.toNat]
    else none
  | _ => none

/-- How a command ends that compares scores with a threshold: with a report that fails where one of them is
below it, or with an error before it has any. -/
inductive EndsBy (threshold : Nat) : Except Failure Report → Option (List Nat) → Prop where
  | error (f : Failure) : EndsBy threshold (.error f) none
  | report {r : Report} {scores : List Nat} (h : r.failed = true ↔ ∃ n ∈ scores, n < threshold) :
    EndsBy threshold (.ok r) (some scores)

section Scoring
variable (c : Context) (w : World)

theorem rules_cases :
    (∃ f, c.rules w = (.error f, w)) ∨ ∃ rules, c.rules w = (.ok rules, w) := by
  have hworld := c.rules_world w
  cases hrules : c.rules w with
  | mk result v =>
    rw [hrules] at hworld
    obtain rfl : v = w := hworld
    cases result with
    | error f => exact .inl ⟨f, rfl⟩
    | ok rules => exact .inr ⟨rules, rfl⟩

theorem failed_assessed {policy : Policy} {rules : RuleSet} {root : String} {source : Option String} :
    (Assessment.ofPath policy rules w root source).passed = false ↔
      (Assessment.ofPath policy rules w root source).score.toNat < policy.blockThreshold.toNat := by
  simp [Assessment.ofPath, UInt32.lt_iff_toNat_lt]

theorem ends_scan (path : String) :
    EndsBy c.policy.blockThreshold.toNat (scan c path w).1 (heldScores c w (.scan path)) := by
  have hlocate := c.locate_eq path w
  simp only [heldScores]
  cases hroot : Package.locate? w path c.policy.manifestFile with
  | none =>
    simp only [hroot] at hlocate
    rw [scan, Act.bind_of_error hlocate]
    exact .error _
  | some root =>
    simp only [hroot] at hlocate
    rw [scan, Act.bind_of_ok hlocate]
    rcases rules_cases c w with ⟨f, hrules⟩ | ⟨rules, hrules⟩
    · rw [Act.bind_of_error hrules, hrules]
      exact .error f
    · obtain ⟨text, hreport⟩ := @Assessed.report_shown c _ fun _ =>
        Assessment.isText_ofPath c.policy rules w root none
      rw [Act.bind_of_ok hrules, Act.bind_of_ok (x := get) rfl, hrules, liftExcept_eq, hreport]
      refine .report ?_
      simp [failed_assessed]

theorem ends_check (text : String) :
    EndsBy c.policy.blockThreshold.toNat (check c text w).1 (heldScores c w (.check text)) := by
  simp only [heldScores]
  rw [check]
  rcases rules_cases c w with ⟨f, hrules⟩ | ⟨rules, hrules⟩
  · rw [Act.bind_of_error hrules, hrules]
    exact .error f
  · rw [Act.bind_of_ok hrules, hrules]
    refine .report ?_
    simp [UInt32.lt_iff_toNat_lt]

theorem ends_batch (dir : String) :
    EndsBy c.policy.blockThreshold.toNat (batch c dir w).1 (heldScores c w (.batch dir)) := by
  simp only [heldScores]
  rw [batch, Act.bind_of_ok (x := get) rfl]
  by_cases hdir : w.isDir dir = true
  swap
  · rw [if_neg hdir, if_pos (by simpa using hdir)]
    exact .error _
  rw [if_pos hdir, if_neg (by simpa using hdir)]
  beta_reduce
  rcases rules_cases c w with ⟨f, hrules⟩ | ⟨rules, hrules⟩
  · rw [Act.bind_of_error hrules, hrules]
    exact .error f
  · obtain ⟨text, hreport⟩ := @batchReport_shown c _ fun _ =>
      Assessment.isText_map_ofPath c.policy rules w (Package.subdirectories w dir)
    rw [Act.bind_of_ok hrules, Act.bind_of_ok (x := get) rfl, hrules, liftExcept_eq, hreport]
    refine .report ?_
    simp [failed_assessed]

theorem ends_runtime (hsound : c.policy.IsSound) (path : String) :
    EndsBy c.policy.blockThreshold.toNat (runtime c path w).1 (heldScores c w (.runtime path)) := by
  simp only [heldScores]
  rw [runtime, Act.bind_of_ok (x := get) rfl]
  by_cases hdir : w.isDir path = true
  swap
  · rw [if_neg hdir, if_pos (by simpa using hdir)]
    exact .error _
  rw [if_pos hdir, if_neg (by simpa using hdir)]
  beta_reduce
  rw [Act.bind_of_ok (x := get) rfl]
  refine .report ?_
  have hrisk : (Behaviour.ofPath c.policy.maxFileSize w path).riskScore.toNat ≤ 100 := by
    rw [Behaviour.ofPath, Behaviour.ofListing, BehaviourReport.toNat_riskScore]
    exact min_le_left _ _
  have hblock : c.policy.blockThreshold.toNat ≤ 100 := UInt32.le_iff_toNat_le.mp hsound.block_le
  simp only [decide_eq_true_eq, List.mem_singleton, exists_eq_left]
  omega

end Scoring

theorem ends_perform {c : Context} (hsound : c.policy.IsSound) {command : CommandLine.Command}
    (hscoring : isScoring command = true) (w : World) :
    EndsBy c.policy.blockThreshold.toNat (Program.perform c command w).1 (heldScores c w command) := by
  cases command with
  | scan path => exact ends_scan c w path
  | check text => exact ends_check c w text
  | batch dir => exact ends_batch c w dir
  | runtime path => exact ends_runtime c w hsound path
  | _ => cases hscoring

/-- A command exits with 1 where its report fails, with 2 where it has none, and else with 0. -/
theorem exit_of_ends {s : Setting} {w : World} {r : CommandLine.Request} {c : Context}
    (hc : Program.contextOf s w r = .ok c) {threshold : Nat} {held : Option (List Nat)}
    (h : EndsBy threshold (Program.perform c r.command w).1 held) :
    ((Program.runRequest s r w).1.exit = 1 ↔
      ∃ scores, held = some scores ∧ ∃ n ∈ scores, n < threshold) ∧
    ((Program.runRequest s r w).1.exit = 0 ↔
      ∃ scores, held = some scores ∧ ∀ n ∈ scores, threshold ≤ n) := by
  cases hperform : Program.perform c r.command w with
  | mk result v =>
    rw [hperform] at h
    cases h with
    | error f =>
      have hexit : (Program.runRequest s r w).1.exit = 2 := by
        simp only [Program.runRequest, hc, hperform]
        rfl
      simp [hexit]
    | @report report scores hfailed =>
      have hexit : (Program.runRequest s r w).1.exit = if report.failed then 1 else 0 := by
        simp only [Program.runRequest, hc, hperform]
      have hall : report.failed = false ↔ ∀ n ∈ scores, threshold ≤ n := by
        rw [← Bool.not_eq_true, hfailed]
        simp
      simp only [hexit, Option.some_inj, exists_eq_left', ← hfailed, ← hall]
      cases report.failed <;> simp

end Command
end SkillAudit
