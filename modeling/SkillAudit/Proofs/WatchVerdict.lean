import Mathlib
import SkillAudit.Command.Run
import SkillAudit.Proofs.ApprovalAgreement
import SkillAudit.Proofs.LedgerMirror

/-!
When a watch cycle finds nothing amiss. The count of clean packages, the alerts and the exit of the
command say the same: that every package found is the one remembered, or is new, approved as it is
and not scored too low. What a report says of a changed package is read off its scores and its flows.
-/
namespace SkillAudit

/-! The gravest alert. -/

theorem AlertSeverity.rank_max (a b : AlertSeverity) : (a.max b).rank = Nat.max a.rank b.rank := by
  cases a <;> cases b <;> rfl

theorem WatchReport.any_worst? (r : WatchReport) (bound : Nat) :
    (r.worst?.any fun worst => decide (bound ≤ worst.rank)) =
      r.alerts.any fun a => decide (bound ≤ a.severity.rank) := by
  have hfold : ∀ (alerts : List WatchAlert) (start : Option AlertSeverity),
      ((alerts.foldl (fun worst a => some ((worst.map (·.max a.severity)).getD a.severity)) start).any
        fun worst => decide (bound ≤ worst.rank)) =
        ((start.any fun worst => decide (bound ≤ worst.rank)) ||
          alerts.any fun a => decide (bound ≤ a.severity.rank)) := by
    intro alerts
    induction alerts with
    | nil => simp
    | cons a alerts ih =>
      intro start
      rw [List.foldl_cons, ih, List.any_cons, ← Bool.or_assoc]
      congr 1
      cases start with
      | none => simp
      | some worst => simp [AlertSeverity.rank_max, Bool.decide_or]
  rw [worst?, hfold]
  simp

namespace Watcher
variable {watcher : Watcher} {w : World} {l : Ledger} {now : Instant} {s : WatchState}
  {root name : String} {prev current : WatchedPackage} {a : WatchAlert}

/-! The alerts on one package. -/

theorem toNat_drop (prev current : WatchedPackage) :
    (UInt32.ofNat (prev.score.toNat - current.score.toNat)).toNat =
      prev.score.toNat - current.score.toNat := by
  apply UInt32.toNat_ofNat_of_lt'
  have hscore := prev.score.toNat_lt
  unfold UInt32.size
  omega

/-- A score alert is raised when the score has fallen by more than 10. -/
theorem isSome_scoreAlert? : (scoreAlert? name prev current).isSome = true ↔
    current.score.toNat + 10 < prev.score.toNat := by
  have hdrop : UInt32.ofNat (prev.score.toNat - current.score.toNat) > dropAlert ↔
      10 < prev.score.toNat - current.score.toNat := by
    rw [gt_iff_lt, UInt32.lt_iff_toNat_lt, toNat_drop]
    rfl
  simp only [scoreAlert?]
  split
  next h =>
    have := hdrop.mp h
    simp
    omega
  next h =>
    have := mt hdrop.mpr h
    simp
    omega

theorem severity_scoreAlert? (h : scoreAlert? name prev current = some a) :
    a.severity = if current.score.toNat + 30 < prev.score.toNat then .critical else .high := by
  have hdrop : UInt32.ofNat (prev.score.toNat - current.score.toNat) > dropCritical ↔
      current.score.toNat + 30 < prev.score.toNat := by
    rw [gt_iff_lt, UInt32.lt_iff_toNat_lt, toNat_drop]
    change 30 < _ ↔ _
    omega
  simp only [scoreAlert?] at h
  split at h
  · cases h
    simp only [hdrop]
  · cases h

/-- A flow alert is raised when there is a flow that was not remembered. -/
theorem isSome_chainAlert? : (chainAlert? name prev current).isSome = true ↔
    ∃ c ∈ current.flowChains, c ∉ prev.flowChains := by
  simp only [chainAlert?]
  split
  next h =>
    simpa [List.filter_eq_nil_iff] using h
  next h =>
    simpa [List.filter_eq_nil_iff] using h

theorem details_chainAlert? (h : chainAlert? name prev current = some a) :
    a.severity = .critical ∧ a.details = some (.object [("chains", .list .text
      (current.flowChains.filter fun c => c ∉ prev.flowChains))]) := by
  simp only [chainAlert?] at h
  split at h
  · cases h
  · cases h
    simp

theorem severity_unapprovedAlert? {hash : String} (h : unapprovedAlert? l name hash = some a) :
    a.severity = .high := by
  simp only [unapprovedAlert?] at h
  split at h
  · cases h
  · cases h
    rfl

def scoreOf (watcher : Watcher) (w : World) (root : String) : UInt32 :=
  (Scan.path watcher.rules watcher.policy.maxFileSize w root).score

def flowsOf (watcher : Watcher) (w : World) (root : String) : List String :=
  (Flow.ofPath watcher.policy.maxFileSize w root).chains.map FlowChain.signature

/-- A package is the one remembered, or it is new, approved as it is and has a score of at least 50. -/
def Settled (watcher : Watcher) (w : World) (l : Ledger) (s : WatchState) (root : String) : Prop :=
  before s (watcher.nameOf w root) = some (hashOf w root) ∨
    before s (watcher.nameOf w root) = none ∧
      l.approvedHash? (watcher.nameOf w root) = some (hashOf w root) ∧
      50 ≤ (watcher.scoreOf w root).toNat

theorem newAlerts_info_iff : (∀ a ∈ newAlerts l name root current, a.severity = .info) ↔
    l.approvedHash? name = some current.hash ∧ 50 ≤ current.score.toNat := by
  have hscore : current.score < newSkillMinScore ↔ ¬ 50 ≤ current.score.toNat := by
    rw [UInt32.lt_iff_toNat_lt, Nat.not_le]
    rfl
  rw [newAlerts]
  simp only [beq_iff_eq, l.approval_matches_iff, hscore]
  split <;> split <;> simp_all

theorem alertsOn_info_iff : (∀ a ∈ watcher.alertsOn w l now s root, a.severity = .info) ↔
    watcher.Settled w l s root := by
  cases hget : s.skills.get? (watcher.nameOf w root) with
  | none =>
    rw [alertsOn_new hget, newAlerts_info_iff]
    simp [Settled, before, hget, scan, scoreOf]
  | some prev =>
    by_cases hsame : prev.hash = hashOf w root
    · rw [alertsOn_same hget hsame]
      simp [Settled, before, hget, hsame]
    · rw [alertsOn_changed hget hsame]
      constructor
      · intro hinfo
        have hmodified := hinfo _ (mem_changeAlerts.mpr (.inl rfl))
        cases hmodified
      · rintro (h | ⟨h, -⟩)
        · simp [before, hget, hsame] at h
        · simp [before, hget] at h

/-- An alert that is more than information is at least high. -/
theorem severity_of_mem_alertsOn (h : a ∈ watcher.alertsOn w l now s root) :
    a.severity = .info ∨ AlertSeverity.rank .high ≤ a.severity.rank := by
  rcases of_mem_alertsOn h with hnew | ⟨prev, hchange⟩
  · exact (of_mem_newAlerts hnew).2
  · rcases mem_changeAlerts.mp hchange with rfl | h | h | h
    · exact .inr le_rfl
    · rw [severity_scoreAlert? h]
      split
      · exact .inr (by decide)
      · exact .inr le_rfl
    · rw [(details_chainAlert? h).1]
      exact .inr (by decide)
    · rw [severity_unapprovedAlert? h]
      exact .inr (by decide)

/-! All packages. -/

/-- The alerts of a cycle are those on the first package of each name. -/
theorem mem_alerts_foldl (hs : s.skills.Sorted) (found : List String) :
    a ∈ (found.foldl (watcher.visit w l now) ⟨s.skills, [], [], 0⟩).alerts ↔
      ∃ name root, watcher.firstOf w found name = some root ∧
        a ∈ watcher.alertsOn w l now s root := by
  refine foldl_visit (P := fun found p => a ∈ p.alerts ↔ ∃ name root,
    watcher.firstOf w found name = some root ∧ a ∈ watcher.alertsOn w l now s root) hs
    (by simp [firstOf]) (fun found p root hp ih => ?_) found
  by_cases hseen : watcher.nameOf w root ∈ p.seen
  · rw [visit_seen hseen]
    simp only [hp.firstOf_seen hseen]
    exact ih
  · obtain ⟨skills, hvisit, -, -⟩ := visit_new hp hseen
    simp only [hvisit, hp.firstOf_new hseen]
    rw [List.mem_append, ih]
    constructor
    · rintro (⟨name, first, hfirst, ha⟩ | ha)
      · refine ⟨name, first, ?_, ha⟩
        rw [if_neg, hfirst]
        rintro rfl
        rw [hp.firstOf_none hseen] at hfirst
        cases hfirst
      · exact ⟨watcher.nameOf w root, root, if_pos rfl, ha⟩
    · rintro ⟨name, first, hfirst, ha⟩
      split at hfirst
      next =>
        cases hfirst
        exact .inr ha
      next => exact .inl ⟨name, first, hfirst, ha⟩

/-- All packages are clean when all alerts are information. -/
theorem clean_foldl (hs : s.skills.Sorted) (found : List String) :
    let p := found.foldl (watcher.visit w l now) ⟨s.skills, [], [], 0⟩
    p.clean ≤ p.seen.length ∧ (p.clean = p.seen.length ↔ ∀ a ∈ p.alerts, a.severity = .info) := by
  refine foldl_visit (P := fun _ p => p.clean ≤ p.seen.length ∧
    (p.clean = p.seen.length ↔ ∀ a ∈ p.alerts, a.severity = .info)) hs (by simp)
    (fun found p root hp ih => ?_) found
  obtain ⟨hle, hclean⟩ := ih
  by_cases hseen : watcher.nameOf w root ∈ p.seen
  · rw [visit_seen hseen]
    exact ⟨hle, hclean⟩
  · obtain ⟨skills, hvisit, -, -⟩ := visit_new hp hseen
    have hinfo : (watcher.alertsOn w l now s root).all (·.severity == .info) = true ↔
        ∀ a ∈ watcher.alertsOn w l now s root, a.severity = .info := by simp
    simp only [hvisit, List.length_cons]
    rw [List.forall_mem_append, ← hclean, ← hinfo]
    split
    next hall =>
      simp only [hall, and_true]
      omega
    next hall =>
      simp only [hall, Bool.false_eq_true, and_false, iff_false]
      omega

/-- What a report says of a package whose content has changed. -/
structure Compared (report : WatchReport) (name : String) (prev : WatchedPackage) (score : UInt32)
    (flows : List String) : Prop where
  dropped : (∃ a ∈ report.alerts, a.kind = .scoreDrop ∧ a.skill = name) ↔
    score.toNat + 10 < prev.score.toNat
  critical : ∀ a ∈ report.alerts, a.kind = .scoreDrop → a.skill = name →
    (a.severity = .critical ↔ score.toNat + 30 < prev.score.toNat)
  flowing : (∃ a ∈ report.alerts, a.kind = .newFindings ∧ a.skill = name) ↔
    ∃ c ∈ flows, c ∉ prev.flowChains
  listed : ∀ a ∈ report.alerts, a.kind = .newFindings → a.skill = name → a.details =
    some (.object [("chains", .list .text (flows.filter fun c => c ∉ prev.flowChains))])

/-- What a report says of the packages that are found, given what is remembered of them. -/
structure Judges (watcher : Watcher) (w : World) (l : Ledger) (s : WatchState)
    (report : WatchReport) : Prop where
  clean : report.clean = report.scanned ↔ ∀ a ∈ report.alerts, a.severity = .info
  settled : (∀ a ∈ report.alerts, a.severity = .info) ↔
    ∀ name root, watcher.firstOf w (watcher.roots w) name = some root → watcher.Settled w l s root
  grave : ∀ a ∈ report.alerts, a.severity = .info ∨ AlertSeverity.rank .high ≤ a.severity.rank
  changed : ∀ name root prev, watcher.firstOf w (watcher.roots w) name = some root →
    s.skills.get? name = some prev → prev.hash ≠ hashOf w root →
      Compared report name prev (watcher.scoreOf w root) (watcher.flowsOf w root)

theorem scoreAlert?_of_mem (h : a ∈ changeAlerts l name prev current) (hkind : a.kind = .scoreDrop) :
    scoreAlert? name prev current = some a := by
  rcases mem_changeAlerts.mp h with rfl | h | h | h
  · cases hkind
  · exact h
  · rw [(of_chainAlert? h).1] at hkind
    cases hkind
  · rw [(of_unapprovedAlert? h).1] at hkind
    cases hkind

theorem chainAlert?_of_mem (h : a ∈ changeAlerts l name prev current) (hkind : a.kind = .newFindings) :
    chainAlert? name prev current = some a := by
  rcases mem_changeAlerts.mp h with rfl | h | h | h
  · cases hkind
  · rw [(of_scoreAlert? h).1] at hkind
    cases hkind
  · exact h
  · rw [(of_unapprovedAlert? h).1] at hkind
    cases hkind

section Survey
variable (watcher w l now) (hs : s.skills.Sorted)
include hs

theorem mem_alerts_survey : a ∈ (watcher.survey w l now s).1.alerts ↔
    (∃ name root, watcher.firstOf w (watcher.roots w) name = some root ∧
      a ∈ watcher.alertsOn w l now s root) ∨
    ∃ name, watcher.view w name = none ∧ (before s name).isSome = true ∧ a = removedAlert name := by
  have hp := visited_foldl watcher w l now hs (watcher.roots w)
  rw [survey_eq, finish, List.mem_append, mem_alerts_foldl hs, List.mem_map]
  simp only [hp.mem_gone, and_assoc, eq_comm]

/-- The alerts about a name that is found are those on the first package of that name. -/
theorem mem_alerts_about (hfirst : watcher.firstOf w (watcher.roots w) name = some root) :
    a ∈ (watcher.survey w l now s).1.alerts ∧ a.skill = name ↔
      a ∈ watcher.alertsOn w l now s root := by
  rw [mem_alerts_survey watcher w l now hs]
  constructor
  · rintro ⟨⟨other, root', hother, ha⟩ | ⟨other, hgone, -, rfl⟩, rfl⟩
    · rw [skill_of_mem_alertsOn ha, nameOf_firstOf hother, hother] at hfirst
      rwa [← Option.some.inj hfirst]
    · have hother : watcher.firstOf w (watcher.roots w) other = some root := hfirst
      rw [view, hother] at hgone
      cases hgone
  · intro ha
    exact ⟨.inl ⟨name, root, hfirst, ha⟩,
      (skill_of_mem_alertsOn ha).trans (nameOf_firstOf hfirst)⟩

theorem compared_survey (hfirst : watcher.firstOf w (watcher.roots w) name = some root)
    (hget : s.skills.get? name = some prev) (hchanged : prev.hash ≠ hashOf w root) :
    Compared (watcher.survey w l now s).1 name prev (watcher.scoreOf w root)
      (watcher.flowsOf w root) := by
  obtain rfl := nameOf_firstOf hfirst
  have hmem : ∀ a, a ∈ (watcher.survey w l now s).1.alerts ∧ a.skill = watcher.nameOf w root ↔
      a ∈ changeAlerts l (watcher.nameOf w root) prev (watcher.scan w now root (hashOf w root)) := by
    intro a
    rw [mem_alerts_about watcher w l now hs hfirst, alertsOn_changed hget hchanged]
  constructor
  case dropped =>
    rw [show watcher.scoreOf w root = (watcher.scan w now root (hashOf w root)).score from rfl,
      ← isSome_scoreAlert?, Option.isSome_iff_exists]
    constructor
    · rintro ⟨a, ha, hkind, hskill⟩
      exact ⟨a, scoreAlert?_of_mem ((hmem a).mp ⟨ha, hskill⟩) hkind⟩
    · rintro ⟨a, ha⟩
      obtain ⟨hreport, hskill⟩ := (hmem a).mpr (mem_changeAlerts.mpr (.inr (.inl ha)))
      exact ⟨a, hreport, (of_scoreAlert? ha).1, hskill⟩
  case critical =>
    intro a ha hkind hskill
    rw [severity_scoreAlert? (scoreAlert?_of_mem ((hmem a).mp ⟨ha, hskill⟩) hkind)]
    change _ ↔ (watcher.scan w now root (hashOf w root)).score.toNat + 30 < _
    split <;> simp_all
  case flowing =>
    rw [show watcher.flowsOf w root = (watcher.scan w now root (hashOf w root)).flowChains from rfl,
      ← isSome_chainAlert?, Option.isSome_iff_exists]
    constructor
    · rintro ⟨a, ha, hkind, hskill⟩
      exact ⟨a, chainAlert?_of_mem ((hmem a).mp ⟨ha, hskill⟩) hkind⟩
    · rintro ⟨a, ha⟩
      obtain ⟨hreport, hskill⟩ := (hmem a).mpr (mem_changeAlerts.mpr (.inr (.inr (.inl ha))))
      exact ⟨a, hreport, (of_chainAlert? ha).1, hskill⟩
  case listed =>
    intro a ha hkind hskill
    exact (details_chainAlert? (chainAlert?_of_mem ((hmem a).mp ⟨ha, hskill⟩) hkind)).2

theorem judges_survey : Judges watcher w l s (watcher.survey w l now s).1 := by
  have hmem := fun a => @mem_alerts_survey watcher w l now s a hs
  constructor
  case clean =>
    have hgone : ∀ names : List String, ∀ a ∈ names.map removedAlert, a.severity = .info := by
      intro names a ha
      obtain ⟨name, -, rfl⟩ := List.mem_map.mp ha
      rfl
    rw [survey_eq, finish, List.forall_mem_append, and_iff_left (hgone _)]
    exact (clean_foldl hs (watcher.roots w)).2
  case settled =>
    constructor
    · intro hall name root hfirst
      apply (@alertsOn_info_iff watcher w l now s root).mp
      intro a ha
      exact hall a ((hmem a).mpr (.inl ⟨name, root, hfirst, ha⟩))
    · intro hall a ha
      rcases (hmem a).mp ha with ⟨name, root, hfirst, ha⟩ | ⟨name, -, -, rfl⟩
      · exact alertsOn_info_iff.mpr (hall name root hfirst) a ha
      · rfl
  case grave =>
    intro a ha
    rcases (hmem a).mp ha with ⟨name, root, -, ha⟩ | ⟨name, -, -, rfl⟩
    · exact severity_of_mem_alertsOn ha
    · exact .inl rfl
  case changed =>
    intro name root prev hfirst hget hchanged
    exact compared_survey watcher w l now hs hfirst hget hchanged

end Survey

end Watcher

/-! The exit of the command. -/

namespace Command

/-- A watch command runs a cycle to its end. -/
structure Cycle (c : Context) (dir : Option String) (w : World) (watcher : Watcher)
    (report : WatchReport) : Prop where
  watched : watcher.skillsDir = dir.getD c.paths.skillsDir ∧ watcher.statePath = c.paths.watchState ∧
    watcher.policy = c.policy
  directory : w.isDir watcher.skillsDir = true
  rules : c.rules w = (.ok watcher.rules, w)
  run : ∃ l' w', watcher.run c.now (.load w c.paths.ledger c.paths.ledgerMarkdown, w) =
    (.ok report, (l', w'))

variable {c : Context} {dir : Option String} {w : World}

theorem watch_ok_iff {failed : Bool} :
    (∃ r w', watch c dir w = (.ok r, w') ∧ r.failed = failed) ↔
      ∃ watcher report, Cycle c dir w watcher report ∧
        (report.alerts.any fun a => decide (AlertSeverity.rank .high ≤ a.severity.rank)) = failed := by
  constructor
  · rintro ⟨r, w', hwatch, hfailed⟩
    rw [watch, Act.bind_of_ok (x := get) rfl] at hwatch
    split at hwatch
    next => cases hwatch
    next hdir =>
      obtain ⟨rules, u, hrules, hrest⟩ := Act.bind_ok hwatch
      obtain rfl := Context.rules_ok hrules
      rw [Act.bind_of_ok (x := c.ledger) rfl] at hrest
      obtain ⟨⟨report, l'⟩, v, hrun, hreturn⟩ := Act.bind_ok hrest
      obtain ⟨rfl, -⟩ := Act.pure_ok hreturn
      refine ⟨_, report, ⟨⟨rfl, rfl, rfl⟩, by simpa using hdir, hrules, l', v,
        Act.of_onLedger_ok hrun⟩, ?_⟩
      rw [← hfailed, ← WatchReport.any_worst?]
  · rintro ⟨⟨skillsDir, statePath, policy, rules⟩, report, hcycle, hfailed⟩
    obtain ⟨⟨rfl, rfl, rfl⟩, hdir, hrules, l', w', hrun⟩ := hcycle
    have hstands : (!w.isDir (dir.getD c.paths.skillsDir)) = false := by simpa using hdir
    have hledger := onLedger_ok hrun
    rw [watch, Act.bind_of_ok (x := get) rfl]
    simp only [hstands]
    rw [if_neg (by simp), Act.bind_of_ok hrules, Act.bind_of_ok (x := c.ledger) rfl,
      Act.bind_of_ok hledger]
    refine ⟨_, w', rfl, ?_⟩
    rw [← hfailed, ← WatchReport.any_worst?]

section Exit
variable {s : Setting} {r : CommandLine.Request} (hcommand : r.command = .watch dir)
  (hcontext : Program.contextOf s w r = .ok c)
include hcommand hcontext

theorem exit_of_error {e : Failure} {w' : World} (h : watch c dir w = (.error e, w')) :
    (Program.runRequest s r w).1.exit = 2 := by
  simp only [Program.runRequest, hcontext, hcommand, Program.perform, h]
  rfl

theorem exit_of_report {out : Report} {w' : World} (h : watch c dir w = (.ok out, w')) :
    (Program.runRequest s r w).1.exit = if out.failed then 1 else 0 := by
  simp only [Program.runRequest, hcontext, hcommand, Program.perform, h]

/-- A watch command that runs no cycle to its end exits with 2, and one that does exits with 0 when
no alert is high or critical. -/
theorem exit_watch :
    ((∃ watcher report, Cycle c dir w watcher report) ∨ (Program.runRequest s r w).1.exit = 2) ∧
    ∀ watcher report, Cycle c dir w watcher report → ((Program.runRequest s r w).1.exit = 0 ↔
      (report.alerts.any fun a => decide (AlertSeverity.rank .high ≤ a.severity.rank)) = false) := by
  constructor
  · cases hwatch : watch c dir w with
    | mk result w' =>
      cases result with
      | error e => exact .inr (exit_of_error hcommand hcontext hwatch)
      | ok out =>
        obtain ⟨watcher, report, hcycle, -⟩ := watch_ok_iff.mp ⟨out, w', hwatch, rfl⟩
        exact .inl ⟨watcher, report, hcycle⟩
  · intro watcher report hcycle
    obtain ⟨out, w', hwatch, hfailed⟩ := watch_ok_iff.mpr ⟨watcher, report, hcycle, rfl⟩
    rw [exit_of_report hcommand hcontext hwatch, ← hfailed]
    cases out.failed <;> simp

end Exit

end Command

/-- A watch cycle counts every package as clean when it raises no alert above information, and that
is when every package found is settled. The command exits with 0 just then, and with 2 if it has no
report. -/
theorem Watcher.clean_iff_settled {watcher : Watcher} {now : Instant} {l l' : Ledger}
    {w w' : World} {report : WatchReport}
    (hrun : watcher.run now (l, w) = (.ok report, (l', w'))) :
    watcher.Judges (watcher.surveyedTree w) (.load (watcher.surveyedTree w) l.path l.tablePath)
      (watcher.state (watcher.surveyedTree w)) report ∧
    ∀ (s : Setting) (r : CommandLine.Request) (c : Command.Context) (dir : Option String),
      r.command = .watch dir → Program.contextOf s w r = .ok c →
        ((∃ watcher report, Command.Cycle c dir w watcher report) ∨
          (Program.runRequest s r w).1.exit = 2) ∧
        ∀ watcher report, Command.Cycle c dir w watcher report →
          ((Program.runRequest s r w).1.exit = 0 ↔ report.clean = report.scanned) := by
  have hjudges : ∀ (watcher : Watcher) (now : Instant) (l l' : Ledger) (w' : World)
      (report : WatchReport), watcher.run now (l, w) = (.ok report, (l', w')) →
        watcher.Judges (watcher.surveyedTree w) (.load (watcher.surveyedTree w) l.path l.tablePath)
          (watcher.state (watcher.surveyedTree w)) report := by
    intro watcher now l l' w' report hrun
    rw [(run_ok hrun).1]
    exact judges_survey watcher _ _ now (sorted_state watcher _)
  refine ⟨hjudges _ _ _ _ _ _ hrun, fun s r c dir hcommand hcontext => ?_⟩
  obtain ⟨hends, hexit⟩ := Command.exit_watch hcommand hcontext
  refine ⟨hends, fun watcher report hcycle => ?_⟩
  obtain ⟨l', w', hcycleRun⟩ := hcycle.run
  have hreport := hjudges _ _ _ _ _ _ hcycleRun
  rw [hexit watcher report hcycle, hreport.clean, List.any_eq_false]
  refine forall₂_congr fun a ha => ?_
  rcases hreport.grave a ha with hinfo | hgrave
  · simp [hinfo, AlertSeverity.rank]
  · have hsevere : a.severity ≠ .info := by
      intro hinfo
      rw [hinfo] at hgrave
      exact absurd hgrave (by decide)
    simp [hgrave, hsevere]

/-- A package that is new and not approved is not clean. -/
theorem Watcher.clean_iff_settled_shelf : ∃ report l' w',
    shelfWatcher.run .newYear (.load shelf "ledger.json" none, shelf) = (.ok report, (l', w')) ∧
    report.clean ≠ report.scanned ∧ ∃ a ∈ report.alerts, a.severity ≠ .info := by
  obtain ⟨report, l', w', hrun⟩ := shelf_run (.load shelf "ledger.json" none)
  obtain ⟨hjudges, -⟩ := clean_iff_settled hrun
  have htree : shelfWatcher.surveyedTree shelf = lockedShelf := congrArg Prod.snd shelf_lock
  have hstate : shelfWatcher.state lockedShelf = .empty :=
    (Stands.missing (shelf_fresh.grows (Store.lock_grows shelf_lock))).state
  have hledger : Ledger.Content.load lockedShelf "ledger.json" = .current [] :=
    Ledger.load_of_missing (Ledger.store_local.missing lockedShelf (by decide))
  have halert : ¬ ∀ a ∈ report.alerts, a.severity = .info := by
    rw [hjudges.settled, htree, hstate]
    intro hall
    rcases hall "p" "skills/p" shelf_first with hsame | ⟨-, happroved, -⟩
    · simp [before, WatchState.empty, Dict.get?] at hsame
    · simp [Ledger.load, hledger, Ledger.approvedHash?_eq, Ledger.entries, Ledger.approvedIn,
        Ledger.Content.current] at happroved
  refine ⟨report, l', w', hrun, fun hclean => halert (hjudges.clean.mp hclean), ?_⟩
  simpa using halert

end SkillAudit
