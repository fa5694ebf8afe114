import Mathlib
import SkillAudit.Proofs.Installation
import SkillAudit.Proofs.RiskDelta
import SkillAudit.Proofs.ScoreThreshold

/-!
The strict policy in the place of the configured one. It keeps the settings of a scan, so what is scored
has the same score under both, and only the thresholds decide. They are put in the place of the configured
ones and are not the higher of both, so a policy with a threshold above theirs is loosened.
-/
namespace SkillAudit

theorem Policy.IsSound.strictened {p : Policy} (h : p.IsSound) : (Program.strictened p).IsSound where
  allow_le := show (90 : UInt32) ≤ 100 by decide
  review_le := show (70 : UInt32) ≤ 100 by decide
  block_le := show (70 : UInt32) ≤ 100 by decide
  ordered := show (70 : UInt32) ≤ 90 by decide
  size := h.size
  manifest := h.manifest

namespace Command
open CommandLine (Request)

def Context.strict (c : Context) : Context :=
  { c with config := { c.config with policy := Program.strictened c.config.policy } }

theorem heldScores_strict (c : Context) (w : World) (command : CommandLine.Command) :
    heldScores c.strict w command = heldScores c w command := by
  cases command <;> rfl

/-! Both policies in one run. -/

section Contexts
variable {s : Setting} {w : World} {r : Request}

theorem isSound_of_parse {text : String} {config : Config} (h : Config.parse text = .ok config) :
    config.policy.IsSound := by
  unfold Config.parse at h
  split at h
  next => cases h
  next =>
    split at h
    next => cases h
    next =>
      split at h
      next => cases h
      next hvalid =>
        obtain rfl := Except.ok.inj h
        exact Policy.validate_ok_iff.mp hvalid

/-- The policy of the settings has no fault, be it read or the default one. -/
theorem isSound_of_loadConfig {named : Option String} {config : Config}
    (h : Program.loadConfig s.environment w named = .ok config) : config.policy.IsSound := by
  unfold Program.loadConfig at h
  split at h
  next =>
    obtain rfl := Except.ok.inj h
    exact Policy.validate_ok_iff.mp rfl
  next =>
    split at h
    next => cases h
    next =>
      split at h
      next => cases h
      next hparse =>
        obtain rfl := Except.ok.inj h
        exact isSound_of_parse hparse

theorem contextOf_strict (s : Setting) (w : World) (r : Request) :
    Program.contextOf s w { r with strict := true } =
      (Program.contextOf s w { r with strict := false }).map Context.strict := by
  simp only [Program.contextOf]
  cases Program.loadConfig s.environment w r.config with
  | error f => rfl
  | ok config =>
    have hpaths : ({ config with policy := Program.strictened config.policy } : Config).resolvePaths
        s.environment = config.resolvePaths s.environment := rfl
    simp only [bind, Except.bind, if_true, Bool.false_eq_true, if_false, hpaths]
    cases config.resolvePaths s.environment with
    | error e => rfl
    | ok paths => rfl

theorem isSound_of_contextOf {c : Context}
    (h : Program.contextOf s w { r with strict := false } = .ok c) : c.policy.IsSound := by
  simp only [Program.contextOf] at h
  cases hload : Program.loadConfig s.environment w r.config with
  | error f =>
    rw [hload] at h
    cases h
  | ok config =>
    rw [hload] at h
    simp only [bind, Except.bind, Bool.false_eq_true, if_false] at h
    split at h
    next => cases h
    next =>
      obtain rfl := Except.ok.inj h
      exact isSound_of_loadConfig hload

section Both
variable {c : Context} (hc : Program.contextOf s w { r with strict := false } = .ok c)
include hc

theorem contextOf_strict_ok : Program.contextOf s w { r with strict := true } = .ok c.strict := by
  rw [contextOf_strict, hc]
  rfl

variable (hscoring : isScoring r.command = true)
include hscoring

theorem exits_scoring :
    ((Program.runRequest s { r with strict := false } w).1.exit = 1 ↔
      ∃ scores, heldScores c w r.command = some scores ∧
        ∃ n ∈ scores, n < c.policy.blockThreshold.toNat) ∧
    ((Program.runRequest s { r with strict := true } w).1.exit = 1 ↔
      ∃ scores, heldScores c w r.command = some scores ∧ ∃ n ∈ scores, n < 70) ∧
    ((Program.runRequest s { r with strict := true } w).1.exit = 0 ↔
      ∃ scores, heldScores c w r.command = some scores ∧ ∀ n ∈ scores, 70 ≤ n) := by
  have hsound := isSound_of_contextOf hc
  have hstrictSound : c.strict.policy.IsSound := hsound.strictened
  have hends := ends_perform hstrictSound hscoring w
  rw [heldScores_strict] at hends
  exact ⟨(exit_of_ends hc (ends_perform hsound hscoring w)).1,
    exit_of_ends (contextOf_strict_ok hc) hends⟩

/-- Under the strict policy a command that compares scores exits with 0 instead of 1 where all of them
reach the strict threshold and not all the configured one. -/
theorem exit_loosened_iff :
    (Program.runRequest s { r with strict := false } w).1.exit = 1 ∧
      (Program.runRequest s { r with strict := true } w).1.exit = 0 ↔
    ∃ scores, heldScores c w r.command = some scores ∧
      (∃ n ∈ scores, n < c.policy.blockThreshold.toNat) ∧ ∀ n ∈ scores, 70 ≤ n := by
  obtain ⟨hlax, -, hstrict⟩ := exits_scoring hc hscoring
  rw [hlax, hstrict]
  constructor
  · rintro ⟨⟨scores, hheld, hbelow⟩, ⟨scores', hheld', habove⟩⟩
    obtain rfl := Option.some_inj.mp (hheld.symm.trans hheld')
    exact ⟨scores, hheld, hbelow, habove⟩
  · rintro ⟨scores, hheld, hbelow, habove⟩
    exact ⟨⟨scores, hheld, hbelow⟩, ⟨scores, hheld, habove⟩⟩

/-- With a threshold up to the strict one, what fails without the strict policy fails with it. -/
theorem exit_tightened (hle : c.policy.blockThreshold ≤ 70)
    (hexit : (Program.runRequest s { r with strict := false } w).1.exit = 1) :
    (Program.runRequest s { r with strict := true } w).1.exit = 1 := by
  obtain ⟨hlax, hstrict, -⟩ := exits_scoring hc hscoring
  have hle : c.policy.blockThreshold.toNat ≤ 70 := UInt32.le_iff_toNat_le.mp hle
  obtain ⟨scores, hheld, n, hn, hlt⟩ := hlax.mp hexit
  exact hstrict.mpr ⟨scores, hheld, n, hn, hlt.trans_le hle⟩

end Both
end Contexts

/-! Decisions. -/

/-- The decision of the gate on a target, before anything is written for it. -/
def Decides (c : Context) (target : String) (name : Option String) (w : World) (d : Decision) : Prop :=
  ∃ path source v root g l, candidate c target w = (.ok (path, source), v) ∧
    Package.locate? v path c.policy.manifestFile = some root ∧
    isSafeName (packageName c v root name) = true ∧ c.gate v = (.ok (g, l), v) ∧
    d = g.decision v l root (options c v source root name)

theorem decides_of_installation {c : Context} {target : String} {name : Option String} {dryRun : Bool}
    {w v : World} {i : Installation} (h : installation c target name dryRun w = (.ok i, v)) :
    Decides c target name w i.decision := by
  obtain ⟨⟨path, source⟩, u, hcandidate, h⟩ := Act.bind_ok h
  obtain ⟨j, u', hjudge, h⟩ := Act.bind_ok h
  obtain ⟨⟨action, place⟩, u'', -, h⟩ := Act.bind_ok h
  obtain ⟨rfl, -⟩ := Act.pure_ok h
  obtain ⟨g, l, -, hroot, hsafe, hgate, -, -, hdecision, -⟩ := judge_inv hjudge
  exact ⟨path, source, u, j.root, g, l, hcandidate, hroot, hsafe, hgate, hdecision⟩

theorem Decides.unique {c : Context} {target : String} {name : Option String} {w : World}
    {d d' : Decision} (h : Decides c target name w d) (h' : Decides c target name w d') : d = d' := by
  obtain ⟨path, source, v, root, g, l, hcandidate, hroot, -, hgate, rfl⟩ := h
  obtain ⟨path', source', v', root', g', l', hcandidate', hroot', -, hgate', rfl⟩ := h'
  cases hcandidate.symm.trans hcandidate'
  cases hroot.symm.trans hroot'
  cases hgate.symm.trans hgate'
  rfl

/-- The gate of the settings has their rules and a policy without a fault. -/
theorem Context.gate_ok_iff {c : Context} {g : Gate} {l : Ledger} {w : World} :
    c.gate w = (.ok (g, l), w) ↔ ∃ rules, c.rules w = (.ok rules, w) ∧ c.policy.IsSound ∧
      g = ⟨c.policy, rules⟩ ∧ l = Ledger.load w c.paths.ledger c.paths.ledgerMarkdown := by
  rw [Context.gate]
  rcases rules_cases c w with ⟨f, hrules⟩ | ⟨rules, hrules⟩
  · rw [Act.bind_of_error hrules, hrules]
    constructor
    · intro h
      cases h
    · rintro ⟨rules', hrules', -⟩
      cases hrules'
  · rw [Act.bind_of_ok hrules, Act.bind_of_ok (x := c.ledger) rfl, hrules, ← Policy.validate_ok_iff,
      Gate.ofPolicy]
    cases c.policy.validate with
    | error e =>
      constructor
      · intro h
        cases h
      · rintro ⟨rules', -, hvalid, -⟩
        cases hvalid
    | ok =>
      constructor
      · intro h
        cases h
        exact ⟨rules, rfl, rfl, rfl, rfl⟩
      · rintro ⟨rules', hrules', -, rfl, rfl⟩
        cases hrules'
        rfl

end Command

def Verdict.rank : Verdict → Nat
  | allow => 0
  | review => 1
  | block => 2

namespace Gate

def strict (g : Gate) : Gate := ⟨Program.strictened g.policy, g.rules⟩

section Strict
variable (g : Gate) (w : World) (l : Ledger) (root : String) (options : Options)

theorem judgeScore_strictened (p : Policy) (score : UInt32) :
    (judgeScore (Program.strictened p) score).1 = if score < 70 then .block else .review := by
  have hreview : (Program.strictened p).reviewThreshold = 70 := rfl
  have hall : (Program.strictened p).requireApprovalForAll = true := rfl
  by_cases hlow : score < 70
  · simp [judgeScore, hreview, hlow]
  · simp [judgeScore, hreview, hall, hlow]

theorem decision_block (h : (g.decision w l root options).verdict = .block) :
    l.approvedHash? (g.nameOf w root options) = none ∧
      (g.decision w l root options).score = g.scoreOf w root ∧
      (g.decision w l root options).score < g.policy.reviewThreshold := by
  have hverdict := decision_verdict g w l root options
  rcases decision_cases g w l root options with ⟨e, -, hd⟩ | ⟨-, hd⟩
  · rw [hd] at h
    cases h
  · have hscore : (g.decision w l root options).score = g.scoreOf w root := by
      rw [hd]
      rfl
    rw [h] at hverdict
    cases happroved : l.approvedHash? (g.nameOf w root options) with
    | none =>
      rw [happroved] at hverdict
      rw [hscore]
      exact ⟨rfl, rfl, (judgeScore_block_iff _ _).mp hverdict.symm⟩
    | some hash =>
      rw [happroved] at hverdict
      simp only at hverdict
      split_ifs at hverdict

/-- A package that is blocked is for review under the strict policy where its score reaches the strict
threshold. -/
theorem decision_strict_of_block (h : (g.decision w l root options).verdict = .block)
    (hle : 70 ≤ (g.decision w l root options).score) :
    (g.strict.decision w l root options).verdict = .review := by
  obtain ⟨happroved, hscore, -⟩ := decision_block g w l root options h
  have hname : g.strict.nameOf w root options = g.nameOf w root options := rfl
  have hstrict := decision_verdict g.strict w l root options
  rw [hname, happroved] at hstrict
  rw [hscore] at hle
  rw [hstrict]
  exact (judgeScore_strictened g.policy (g.scoreOf w root)).trans (if_neg (UInt32.not_lt.mpr hle))

/-- The strict policy decides less restrictively only on a package that is blocked and whose score reaches
the strict threshold. -/
theorem rank_strict_lt_iff :
    (g.strict.decision w l root options).verdict.rank < (g.decision w l root options).verdict.rank ↔
      (g.decision w l root options).verdict = .block ∧
        70 ≤ (g.decision w l root options).score := by
  have hverdict := decision_verdict g w l root options
  have hstrict := decision_verdict g.strict w l root options
  have hname : g.strict.nameOf w root options = g.nameOf w root options := rfl
  have hscore : g.strict.scoreOf w root = g.scoreOf w root := rfl
  have hpolicy : g.strict.policy = Program.strictened g.policy := rfl
  rw [hname, hscore, hpolicy] at hstrict
  cases happroved : l.approvedHash? (g.nameOf w root options) with
  | some hash =>
    rw [happroved] at hverdict hstrict
    have hsame := hstrict.trans hverdict.symm
    have hother : (g.decision w l root options).verdict ≠ .block := by
      rw [hverdict]
      simp only
      split_ifs <;> simp
    simp [hsame, hother]
  | none =>
    rw [happroved, judgeScore_strictened] at hstrict
    have hblocked := decision_block g w l root options
    by_cases hlow : g.scoreOf w root < 70
    · rw [if_pos hlow] at hstrict
      have hleast : ¬ Verdict.rank .block < (g.decision w l root options).verdict.rank := by
        cases (g.decision w l root options).verdict <;> decide
      have hnot : ¬ ((g.decision w l root options).verdict = .block ∧
          70 ≤ (g.decision w l root options).score) := by
        rintro ⟨hblock, hle⟩
        rw [(hblocked hblock).2.1] at hle
        exact absurd hlow (UInt32.not_lt.mpr hle)
      rw [hstrict]
      exact iff_of_false hleast hnot
    · rw [if_neg hlow] at hstrict
      have hrank : Verdict.rank .review < (g.decision w l root options).verdict.rank ↔
          (g.decision w l root options).verdict = .block := by
        cases (g.decision w l root options).verdict <;> decide
      rw [hstrict, hrank]
      refine ⟨fun hblock => ⟨hblock, ?_⟩, fun h => h.1⟩
      rw [(hblocked hblock).2.1]
      exact UInt32.not_lt.mp hlow

end Strict
end Gate

namespace Command

/-- Where the gate decides, it decides under the strict policy too, with the same rules and ledger. -/
theorem Decides.strict {c : Context} {target : String} {name : Option String} {w : World} {d : Decision}
    (h : Decides c target name w d) :
    ∃ (g : Gate) (v : World) (l : Ledger) (root : String) (options : Gate.Options),
      g.policy = c.policy ∧ d = g.decision v l root options ∧
      Decides c.strict target name w (g.strict.decision v l root options) := by
  obtain ⟨path, source, v, root, g, l, hcandidate, hroot, hsafe, hgate, hd⟩ := h
  obtain ⟨rules, hrules, hsound, rfl, hl⟩ := Context.gate_ok_iff.mp hgate
  refine ⟨_, v, l, root, options c v source root name, rfl, hd,
    path, source, v, root, _, l, hcandidate, hroot, hsafe, ?_, rfl⟩
  exact Context.gate_ok_iff.mpr ⟨rules, hrules, hsound.strictened, rfl, hl⟩

section Strict
variable {s : Setting} {r : CommandLine.Request} {w : World} {c : Context}

/-- The strict thresholds take the place of the configured ones. A scan, a check, a batch or a look at
behaviours exits with 1 without them and with 0 under them exactly if all scores that are compared reach
70 and one is below the configured threshold. An installation is decided less restrictively exactly if
the package is blocked with a score from 70 on, which is below the configured threshold for review, and
it is then for review. With configured thresholds up to 70, nothing becomes less restrictive. -/
theorem strict_loosens_iff (hc : Program.contextOf s w { r with strict := false } = .ok c) :
    Program.contextOf s w { r with strict := true } = .ok c.strict ∧
    (isScoring r.command = true →
      ((Program.runRequest s { r with strict := false } w).1.exit = 1 ∧
          (Program.runRequest s { r with strict := true } w).1.exit = 0 ↔
        ∃ scores, heldScores c w r.command = some scores ∧
          (∃ n ∈ scores, n < c.policy.blockThreshold.toNat) ∧ ∀ n ∈ scores, 70 ≤ n) ∧
      (c.policy.blockThreshold ≤ 70 →
        (Program.runRequest s { r with strict := false } w).1.exit = 1 →
        (Program.runRequest s { r with strict := true } w).1.exit = 1)) ∧
    ∀ target name d, Decides c target name w d → ∃ d', Decides c.strict target name w d' ∧
      (d'.verdict.rank < d.verdict.rank ↔ d.verdict = .block ∧ 70 ≤ d.score) ∧
      (d.verdict = .block → d.score < c.policy.reviewThreshold) ∧
      (d'.verdict.rank < d.verdict.rank → d'.verdict = .review) ∧
      (c.policy.reviewThreshold ≤ 70 → d.verdict.rank ≤ d'.verdict.rank) ∧
      ∀ dryRun i v,
        (installation c target name dryRun w = (.ok i, v) → i.decision = d) ∧
        (installation c.strict target name dryRun w = (.ok i, v) → i.decision = d') := by
  refine ⟨contextOf_strict_ok hc,
    fun hscoring => ⟨exit_loosened_iff hc hscoring, exit_tightened hc hscoring⟩, ?_⟩
  intro target name d hdecides
  obtain ⟨g, v, l, root, options, hpolicy, rfl, hstrict⟩ := hdecides.strict
  have hiff := Gate.rank_strict_lt_iff g v l root options
  have hblocked : (g.decision v l root options).verdict = .block →
      (g.decision v l root options).score < c.policy.reviewThreshold := by
    intro hblock
    rw [← hpolicy]
    exact (Gate.decision_block g v l root options hblock).2.2
  refine ⟨_, hstrict, hiff, hblocked, ?_, ?_, ?_⟩
  · intro hlt
    obtain ⟨hblock, hle⟩ := hiff.mp hlt
    exact Gate.decision_strict_of_block g v l root options hblock hle
  · intro hle
    by_contra hlt
    obtain ⟨hblock, hge⟩ := hiff.mp (not_le.mp hlt)
    have hlow := hblocked hblock
    rw [UInt32.lt_iff_toNat_lt] at hlow
    rw [UInt32.le_iff_toNat_le] at hle hge
    omega
  · intro dryRun i u
    exact ⟨fun h => (decides_of_installation h).unique hdecides,
      fun h => (decides_of_installation h).unique hstrict⟩

end Strict

/-! A policy that is stricter than the strict one. -/

def highConfig : String :=
  "[policy]\nauto_allow_threshold = 100\nreview_threshold = 95\nblock_threshold = 95\n" ++
    "manifest_file = 'm'\n[paths]\nrules = 'r'\n"

def oneBlank : World where
  nodes := [
    (["c"], .file highConfig.toUTF8), (["r"], .file Diff.blankText.toUTF8),
    (["p"], .dir), (["p", "m"], .file ⟨#[10]⟩)]
  cwd := []

def highPolicy : Policy :=
  { autoAllowThreshold := 100, reviewThreshold := 95, blockThreshold := 95, manifestFile := "m" }

def highContext : Context :=
  { Diff.editedContext with config := { policy := highPolicy, paths := { rules := some "r" } } }

def scanRequest : CommandLine.Request := ⟨some "c", none, false, false, false, .scan "p"⟩

theorem contextOf_high : Program.contextOf Diff.editedSetting oneBlank
    { scanRequest with strict := false } = .ok highContext := by
  have hread : oneBlank.readText "c" = .ok highConfig :=
    LocalPath.readText (show LocalPath "c" "c" by decide) oneBlank rfl
  have hparse : Config.parse highConfig = .ok highContext.config :=
    Diff.eq_ok_of_toOption (by decide +kernel)
  have hconfig : Program.loadConfig Diff.editedSetting.environment oneBlank (some "c") =
      .ok highContext.config := by
    have hpath : Program.configPath? Diff.editedSetting.environment oneBlank (some "c") = some "c" := rfl
    simp only [Program.loadConfig, hpath, hread, hparse]
  have hpaths : highContext.config.resolvePaths Diff.editedSetting.environment =
      .ok highContext.paths := Diff.resolvePaths_edited
  simp only [Program.contextOf, scanRequest, hconfig]
  simp only [bind, Except.bind, Bool.false_eq_true, if_false, hpaths]
  rfl

theorem high_rules : highContext.rules oneBlank = (.ok Diff.blankRules, oneBlank) :=
  Context.rules_of_text rfl (LocalPath.readText (show LocalPath "r" "r" by decide) oneBlank rfl)
    Diff.ofToml_blank

theorem oneBlank_locate? : Package.locate? oneBlank "p" "m" = some "p" := by
  have hmanifest : Package.isPackage oneBlank "p" "m" = true := by
    simp only [Package.isPackage, World.isFile, World.find, World.resolve_eq_reaches]
    decide
  rw [Package.locate?, if_pos hmanifest]

theorem oneBlank_listing : Listing.ofPath oneBlank "p" = [⟨"m", ⟨#[10]⟩⟩] :=
  Listing.ofPath_of_single (p := ["p"]) (by decide) rfl (by decide) (by decide)

def highGate : Gate := ⟨highPolicy, Diff.blankRules⟩

theorem highGate_scoreOf : highGate.scoreOf oneBlank "p" = 90 := by
  have hlimit : highGate.policy.maxFileSize = 1048576 := rfl
  have hfound := Diff.edited_first.findings
  rw [Scan.path, Diff.edited_first.listing] at hfound
  have hscore : (Scan.path highGate.rules highGate.policy.maxFileSize oneBlank "p").score = 90 := by
    rw [Scan.path, oneBlank_listing, hlimit, ← UInt32.toNat_inj, Scan.score_files]
    exact congrArg (fun found => 100 - Finding.total found) hfound
  -- the package has no scripts
  have hscripts : Flow.scripts 1048576 [⟨"m", ⟨#[10]⟩⟩] = [] := by cbv
  have hflow : (Flow.ofPath highGate.policy.maxFileSize oneBlank "p").penalty = 0 := by
    rw [Flow.ofPath, oneBlank_listing, hlimit, Flow.ofListing, Flow.Graph.ofListing, hscripts,
      List.map_nil, List.flatMap_nil, List.eraseDups_nil, List.mergeSort_nil]
    rfl
  have henabled : highGate.policy.enableFlowAnalysis = true := rfl
  simp only [Gate.scoreOf, Assessment.ofPath, hscore, henabled, if_true, hflow]
  rfl

theorem high_heldScores : heldScores highContext oneBlank scanRequest.command = some [90] := by
  have hroot : Package.locate? oneBlank "p" highContext.policy.manifestFile = some "p" :=
    oneBlank_locate?
  have hscore : (Assessment.ofPath highContext.policy Diff.blankRules oneBlank "p" none).score = 90 :=
    highGate_scoreOf
  simp only [heldScores, scanRequest, hroot, high_rules, Option.bind_some, Except.toOption,
    Option.map_some, hscore]
  rfl

/-- The package is not in the ledger, and blocked for its score. -/
theorem high_decides : ∃ d, Decides highContext "p" (some "p") oneBlank d ∧ d.verdict = .block ∧
    d.score = 90 := by
  have hexists : oneBlank.pathExists "p" = true := by
    simp only [World.pathExists, World.find, World.resolve_eq_reaches]
    decide
  have hmissing : oneBlank.pathExists highContext.paths.ledger = false := by
    simp only [World.pathExists, World.find, World.resolve_eq_reaches]
    decide
  have hsound : highContext.policy.IsSound := isSound_of_contextOf contextOf_high
  have hgate := Context.gate_ok_iff.mpr ⟨Diff.blankRules, high_rules, hsound, rfl, rfl⟩
  have hblock : (highGate.decision oneBlank
      (.load oneBlank highContext.paths.ledger highContext.paths.ledgerMarkdown) "p"
      (options highContext oneBlank "p" "p" (some "p"))).verdict = .block := by
    have happroved : ∀ n, (Ledger.load oneBlank highContext.paths.ledger
        highContext.paths.ledgerMarkdown).approvedHash? n = none := by
      intro n
      simp [Ledger.load, Ledger.load_of_missing hmissing, Ledger.approvedHash?_eq, Ledger.entries,
        Ledger.approvedIn, Ledger.Content.current]
    rw [Gate.decision_verdict, happroved, highGate_scoreOf]
    exact (Gate.judgeScore_block_iff _ _).mpr (by decide)
  refine ⟨_, ⟨"p", "p", oneBlank, "p", _, _, candidate_local hexists, oneBlank_locate?,
    by decide, hgate, rfl⟩, hblock, ?_⟩
  exact (Gate.decision_block _ _ _ _ _ hblock).2.1.trans highGate_scoreOf

/-- Under thresholds above the strict ones a scan fails and an installation is blocked; under the strict
policy the scan passes and the package is for review. -/
theorem strict_less_restrictive :
    Program.contextOf Diff.editedSetting oneBlank { scanRequest with strict := false } = .ok highContext ∧
    highContext.policy.validate = .ok () ∧
    (Program.runRequest Diff.editedSetting { scanRequest with strict := false } oneBlank).1.exit = 1 ∧
    (Program.runRequest Diff.editedSetting { scanRequest with strict := true } oneBlank).1.exit = 0 ∧
    ∃ d d', Decides highContext "p" (some "p") oneBlank d ∧
      Decides highContext.strict "p" (some "p") oneBlank d' ∧
      d.verdict = .block ∧ d'.verdict = .review ∧ d'.verdict.rank < d.verdict.rank := by
  have hexits := (exit_loosened_iff contextOf_high rfl).mpr
    ⟨[90], high_heldScores, ⟨90, by simp, by decide⟩, by simp⟩
  obtain ⟨d, hdecides, hblock, hscore⟩ := high_decides
  obtain ⟨g, v, l, root, options, -, rfl, hstrict⟩ := hdecides.strict
  have hreview := Gate.decision_strict_of_block g v l root options hblock (by rw [hscore]; decide)
  refine ⟨contextOf_high, Policy.validate_ok_iff.mpr (isSound_of_contextOf contextOf_high), hexits.1,
    hexits.2, _, _, hdecides, hstrict, hblock, hreview, ?_⟩
  rw [hblock, hreview]
  decide

theorem strict_loosens_iff_one_blank :
    Program.contextOf Diff.editedSetting oneBlank { scanRequest with strict := false } = .ok highContext ∧
    (Program.runRequest Diff.editedSetting { scanRequest with strict := false } oneBlank).1.exit = 1 ∧
    (Program.runRequest Diff.editedSetting { scanRequest with strict := true } oneBlank).1.exit = 0 ∧
    ∃ d d', Decides highContext "p" (some "p") oneBlank d ∧
      Decides highContext.strict "p" (some "p") oneBlank d' ∧
      d'.verdict.rank < d.verdict.rank ∧ d'.verdict = .review := by
  obtain ⟨-, hexits, hdecisions⟩ := strict_loosens_iff contextOf_high
  obtain ⟨hlax, hstrict⟩ := (hexits rfl).1.mpr
    ⟨[90], high_heldScores, ⟨90, by simp, by decide⟩, by simp⟩
  obtain ⟨d, hdecides, hblock, hscore⟩ := high_decides
  obtain ⟨d', hdecides', hiff, -, hreview, -⟩ := hdecisions "p" (some "p") d hdecides
  have hlt := hiff.mpr ⟨hblock, by rw [hscore]; decide⟩
  exact ⟨contextOf_high, hlax, hstrict, d, d', hdecides, hdecides', hlt, hreview hlt⟩

end Command
end SkillAudit
