import Mathlib
import SkillAudit.Proofs.Discovery
import SkillAudit.Proofs.StandingFile

/-!
Where approvals are asked for. The gate that decides on a package, the gate that compares it with its
approval, and the watcher that meets it in the skills directory each look it up in the ledger on
their own; they agree on whether it is approved with its present content.
-/
namespace SkillAudit

theorem head?_toList_append {s t : String} {c : Char} (h : s.toList.head? = some c) :
    (s ++ t).toList.head? = some c := by
  rw [String.toList_append, List.head?_append, h, Option.some_or]

namespace Gate

/-! What a comparison answers. -/

def compared (g : Gate) (w : World) (l : Ledger) (root : String) : VerifyOutcome :=
  let hash := (Fingerprint.ofPath w root).hash
  let name := (Package.describe w root g.policy.manifestFile).name
  let approval := l.approval name (some hash)
  { name
    hash
    status := match approval.hashMatch with
      | some true => .matches
      | some false => .mismatch
      | none => .notApproved
    approvedEntry := approval.entry.filter (·.status == .approved) }

theorem verify_eq (g : Gate) (path : String) (l : Ledger) (w : World) :
    g.verify path (l, w) =
      match Package.locate? w path g.policy.manifestFile with
      | none => (.error (.notPackage path g.policy.manifestFile), (l, w))
      | some root =>
        (.ok (g.compared w (.load w l.path l.tablePath) root), (.load w l.path l.tablePath, w)) := by
  have hlocate := locate_eq g path l w
  cases hroot : Package.locate? w path g.policy.manifestFile with
  | none =>
    rw [hroot] at hlocate
    exact Act.bind_of_error hlocate
  | some root =>
    rw [hroot] at hlocate
    rw [verify, Act.bind_of_ok hlocate, Act.bind_of_ok (x := get) rfl,
      Act.bind_of_ok (x := Ledger.reload) rfl, Act.bind_of_ok (x := get) rfl]
    rfl

theorem compared_status (g : Gate) (w : World) (l : Ledger) (root : String) :
    (g.compared w l root).status =
      match l.approvedHash? (g.compared w l root).name with
      | some hash => if hash = (g.compared w l root).hash then .matches else .mismatch
      | none => .notApproved := by
  simp only [compared, Ledger.approval_hashMatch]
  cases l.approvedHash? (Package.describe w root g.policy.manifestFile).name with
  | none => rfl
  | some hash =>
    by_cases heq : hash = (Fingerprint.ofPath w root).hash
    · simp [heq]
    · simp [heq, beq_eq_false_iff_ne.mpr heq]

theorem matches_iff_approved {g : Gate} {w : World} {l : Ledger} {root : String} :
    (g.compared w l root).status = .matches ↔
      l.approvedHash? (g.compared w l root).name = some (g.compared w l root).hash := by
  rw [compared_status]
  cases l.approvedHash? (g.compared w l root).name with
  | none => simp
  | some hash =>
    simp only [Option.some.injEq]
    split <;> simp_all

/-! What a decision says of itself. -/

/-- The package passed on its approval; nothing was scanned. -/
def Unscanned (d : Decision) : Prop := ∃ e, d = passed d.name d.version d.hash e

/-- The package is for review since its content is not what was approved. -/
def Changed (d : Decision) : Prop :=
  d.verdict = .review ∧ ∃ old, d.reason = "content changed since approval (approved " ++
    shortHash old ++ ", now " ++ shortHash d.hash ++ ")"

def Scored (p : Policy) (d : Decision) : Prop := (d.verdict, d.reason) = judgeScore p d.score

/-- The reasons that the policy gives begin with letters of their own, those for a review apart. -/
theorem judgeScore_reason (p : Policy) (score : UInt32) :
    (judgeScore p score).2.toList.head? = some 'a' ∨
      ((judgeScore p score).2.toList.head? = some 'p' ∧ (judgeScore p score).1 = .review) ∨
      (judgeScore p score).2.toList.head? = some 's' := by
  unfold judgeScore
  split
  · exact .inl (head?_toList_append (head?_toList_append (head?_toList_append (by decide))))
  split
  · exact .inr (.inl ⟨head?_toList_append (head?_toList_append (by decide)), rfl⟩)
  split
  · exact .inr (.inr (head?_toList_append (head?_toList_append (head?_toList_append (by decide)))))
  · exact .inr (.inr (head?_toList_append (head?_toList_append (head?_toList_append (by decide)))))

theorem Unscanned.not_changed {d : Decision} (h : Unscanned d) : ¬ Changed d := by
  rintro ⟨hverdict, -⟩
  obtain ⟨e, hd⟩ := h
  rw [hd] at hverdict
  cases hverdict

theorem Unscanned.not_scored {p : Policy} {d : Decision} (h : Unscanned d) : ¬ Scored p d := by
  intro hscored
  obtain ⟨e, hd⟩ := h
  have hverdict : d.verdict = .allow := by rw [hd]; rfl
  have hreason : d.reason.toList.head? = some 'p' := by
    rw [hd]
    exact head?_toList_append (head?_toList_append (by decide))
  have hv : d.verdict = (judgeScore p d.score).1 := congrArg Prod.fst hscored
  have hr : d.reason = (judgeScore p d.score).2 := congrArg Prod.snd hscored
  rw [hv] at hverdict
  rw [hr] at hreason
  rcases judgeScore_reason p d.score with hhead | ⟨-, hreview⟩ | hhead
  · simp [hhead] at hreason
  · simp [hverdict] at hreview
  · simp [hhead] at hreason

theorem Changed.not_scored {p : Policy} {d : Decision} (h : Changed d) : ¬ Scored p d := by
  intro hscored
  obtain ⟨-, old, hreason⟩ := h
  have hhead : d.reason.toList.head? = some 'c' := by
    rw [hreason]
    exact head?_toList_append (head?_toList_append (head?_toList_append (head?_toList_append
      (by decide))))
  have hr : d.reason = (judgeScore p d.score).2 := congrArg Prod.snd hscored
  rw [hr] at hhead
  rcases judgeScore_reason p d.score with hother | ⟨hother, -⟩ | hother <;> simp [hother] at hhead

/-! The two of them. -/

/-- A comparison tells how a decision came about. -/
structure Agrees (p : Policy) (d : Decision) (o : VerifyOutcome) : Prop where
  name : o.name = d.name
  hash : o.hash = d.hash
  passed : o.status = .matches ↔ Unscanned d
  changed : o.status = .mismatch ↔ Changed d
  scored : o.status = .notApproved ↔ Scored p d

theorem Agrees.of_cases {p : Policy} {d : Decision} {o : VerifyOutcome} (hname : o.name = d.name)
    (hhash : o.hash = d.hash)
    (h : (o.status = .matches ∧ Unscanned d) ∨ (o.status = .mismatch ∧ Changed d) ∨
      (o.status = .notApproved ∧ Scored p d)) : Agrees p d o := by
  rcases h with ⟨hstatus, hd⟩ | ⟨hstatus, hd⟩ | ⟨hstatus, hd⟩
  · exact ⟨hname, hhash, by simp [hstatus, hd], by simp [hstatus, hd.not_changed],
      by simp [hstatus, hd.not_scored]⟩
  · have hscanned : ¬ Unscanned d := fun h => h.not_changed hd
    exact ⟨hname, hhash, by simp [hstatus, hscanned], by simp [hstatus, hd],
      by simp [hstatus, hd.not_scored]⟩
  · have hscanned : ¬ Unscanned d := fun h => h.not_scored hd
    have hsame : ¬ Changed d := fun h => h.not_scored hd
    exact ⟨hname, hhash, by simp [hstatus, hscanned], by simp [hstatus, hsame],
      by simp [hstatus, hd]⟩

theorem compared_agrees (g : Gate) (w : World) (l : Ledger) (root : String) {options : Options}
    (hnone : options.name = none) :
    Agrees g.policy (g.decision w l root options) (g.compared w l root) := by
  have hsame : g.nameOf w root options = (g.compared w l root).name := by
    rw [nameOf, hnone]
    rfl
  have hname : (g.compared w l root).name = (g.decision w l root options).name := by
    rw [decision_name, hsame]
  have hhash : (g.compared w l root).hash = (g.decision w l root options).hash :=
    (decision_hash g w l root options).symm
  refine .of_cases hname hhash ?_
  rcases decision_cases g w l root options with ⟨e, happroved, hd⟩ | ⟨hother, hd⟩
  · rw [hsame] at happroved
    refine .inl ⟨matches_iff_approved.mpr happroved, e, ?_⟩
    rw [hd]
    rfl
  · rw [hsame] at hother
    have hjudged : ((g.decision w l root options).verdict, (g.decision w l root options).reason) =
        judge g.policy (l.approval (g.compared w l root).name (some (g.compared w l root).hash))
          (g.decision w l root options).hash (g.decision w l root options).score := by
      rw [hd, hsame]
      rfl
    rw [judge, Ledger.approval_hashMatch] at hjudged
    have hstatus := compared_status g w l root
    cases happroved : l.approvedHash? (g.compared w l root).name with
    | none =>
      rw [happroved] at hstatus hjudged
      exact .inr (.inr ⟨hstatus, hjudged⟩)
    | some hash =>
      have hne : hash ≠ (g.compared w l root).hash := by
        rintro rfl
        exact hother happroved
      rw [happroved] at hstatus hjudged
      simp only [hne, if_false] at hstatus
      simp only [Option.map_some, beq_eq_false_iff_ne.mpr hne, beq_self_eq_true, if_true,
        Prod.mk.injEq] at hjudged
      exact .inr (.inl ⟨hstatus, hjudged.1, _, hjudged.2⟩)

end Gate

/-! The alerts on unapproved content. -/

namespace Package

theorem locate?_of_mem_discover {w : World} {dir manifest root : String}
    (h : root ∈ discover w dir manifest) : locate? w root manifest = some root := by
  obtain ⟨sub, -, hmem⟩ := List.mem_flatMap.mp h
  have hpackage : isPackage w root manifest = true := by
    split at hmem
    next hsub => rwa [List.mem_singleton.mp hmem]
    next => exact (List.mem_filter.mp hmem).2
  rw [locate?, if_pos hpackage]

end Package

namespace Watcher
open WatchAlert
variable {watcher : Watcher} {w : World} {l : Ledger} {now : Instant} {s : WatchState}
  {root name : String} {kind : AlertKind}

section Change
variable {prev current : WatchedPackage} {a : WatchAlert} {hash : String}

theorem unapprovedAlert?_eq_none_iff :
    unapprovedAlert? l name hash = none ↔ l.approvedHash? name = some hash := by
  rw [← l.approval_matches_iff, unapprovedAlert?]
  split
  next hmatch => simpa using hmatch
  next hmatch => simpa using hmatch

theorem count_unapproved_changeAlerts :
    count .unapproved name (changeAlerts l name prev current) =
      if l.approvedHash? name = some current.hash then 0 else 1 := by
  have hmodified : count .unapproved name [modifiedAlert name prev current] = 0 :=
    count_singleton _ _ _
  have hscore : count .unapproved name (scoreAlert? name prev current).toList = 0 := by
    cases halert : scoreAlert? name prev current with
    | none => rfl
    | some a => simp [count_singleton, (of_scoreAlert? halert).1]
  have hchain : count .unapproved name (chainAlert? name prev current).toList = 0 := by
    cases halert : chainAlert? name prev current with
    | none => rfl
    | some a => simp [count_singleton, (of_chainAlert? halert).1]
  have hunapproved : count .unapproved name (unapprovedAlert? l name current.hash).toList =
      if l.approvedHash? name = some current.hash then 0 else 1 := by
    cases halert : unapprovedAlert? l name current.hash with
    | none =>
      rw [if_pos (unapprovedAlert?_eq_none_iff.mp halert)]
      rfl
    | some a =>
      have hnot : l.approvedHash? name ≠ some current.hash := fun happroved => by
        rw [unapprovedAlert?_eq_none_iff.mpr happroved] at halert
        cases halert
      simp [count_singleton, of_unapprovedAlert? halert, hnot]
  have hlist : changeAlerts l name prev current = [modifiedAlert name prev current] ++
      ((scoreAlert? name prev current).toList ++ ((chainAlert? name prev current).toList ++
        (unapprovedAlert? l name current.hash).toList)) := by
    unfold changeAlerts
    cases scoreAlert? name prev current <;> cases chainAlert? name prev current <;>
      cases unapprovedAlert? l name current.hash <;> rfl
  rw [hlist, count_append, count_append, count_append, hmodified, hscore, hchain, hunapproved]
  omega

theorem count_unapproved_newAlerts :
    count .unapproved name (newAlerts l name root current) =
      if l.approvedHash? name = some current.hash then 0 else 1 := by
  unfold newAlerts
  rw [count_append, count_append]
  simp only [beq_iff_eq, l.approval_matches_iff]
  split <;> split <;> simp [count]

end Change

/-- Content that is not what is remembered has one alert, unless it is approved. -/
theorem count_unapproved_alertsOn
    (hchanged : before s (watcher.nameOf w root) ≠ some (hashOf w root)) :
    count .unapproved (watcher.nameOf w root) (watcher.alertsOn w l now s root) =
      if l.approvedHash? (watcher.nameOf w root) = some (hashOf w root) then 0 else 1 := by
  cases hget : s.skills.get? (watcher.nameOf w root) with
  | none => exact (congrArg _ (alertsOn_new hget)).trans count_unapproved_newAlerts
  | some prev =>
    have hother : prev.hash ≠ hashOf w root := by simpa [before, hget] using hchanged
    exact (congrArg _ (alertsOn_changed hget hother)).trans count_unapproved_changeAlerts

theorem count_alertsOn_ne (hne : watcher.nameOf w root ≠ name) :
    count kind name (watcher.alertsOn w l now s root) = 0 := by
  refine List.countP_eq_zero.mpr fun a ha hcounted => ?_
  exact hne ((skill_of_mem_alertsOn ha).symm.trans (of_decide_eq_true hcounted).2)

/-- The alerts about a name are those on the first package of that name. -/
theorem count_foldl (hs : s.skills.Sorted) (kind : AlertKind) (name : String)
    (found : List String) :
    count kind name (found.foldl (watcher.visit w l now) ⟨s.skills, [], [], 0⟩).alerts =
      (watcher.firstOf w found name).elim 0
        fun root => count kind name (watcher.alertsOn w l now s root) := by
  refine foldl_visit (P := fun found p => count kind name p.alerts =
    (watcher.firstOf w found name).elim 0
      fun root => count kind name (watcher.alertsOn w l now s root)) hs rfl
    (fun found p root hp ih => ?_) found
  by_cases hseen : watcher.nameOf w root ∈ p.seen
  · rw [visit_seen hseen, ih, hp.firstOf_seen hseen]
  · obtain ⟨skills, hvisit, -, -⟩ := visit_new hp hseen
    rw [hvisit, count_append, ih, hp.firstOf_new hseen]
    by_cases hname : watcher.nameOf w root = name
    · subst hname
      simp [hp.firstOf_none hseen]
    · simp [hname, count_alertsOn_ne hname]

/-- A report treats the package at a root as new or as modified. -/
structure Handles (watcher : Watcher) (v : World) (report : WatchReport) (root : String) : Prop where
  found : root ∈ watcher.roots v
  /-- Of several packages with one name the first is looked at. -/
  first : watcher.firstOf v (watcher.roots v) (watcher.nameOf v root) = some root
  drift : 0 < count .newSkill (watcher.nameOf v root) report.alerts +
    count .modified (watcher.nameOf v root) report.alerts

theorem Handles.changed {v : World}
    (h : Handles watcher v (watcher.outcome now l v).1 root) :
    before (watcher.state v) (watcher.nameOf v root) ≠ some (hashOf v root) := by
  intro hsame
  have hcounts := (surveyed watcher v { l with content := .load v l.path } now
    (sorted_state watcher v)).alerts
  have hview : watcher.view v (watcher.nameOf v root) = some (hashOf v root) := by
    rw [view, h.first, Option.map_some]
  have hdrift := h.drift
  rw [outcome, hcounts .newSkill (.inl rfl), hcounts .modified (.inr (.inl rfl)), hview, hsame]
    at hdrift
  simp [AlertKind.due] at hdrift

/-- A package that is new or modified has one alert on unapproved content, unless it is approved. -/
theorem Handles.count_unapproved {v : World}
    (h : Handles watcher v (watcher.outcome now l v).1 root) :
    count .unapproved (watcher.nameOf v root) (watcher.outcome now l v).1.alerts =
      if (Ledger.load v l.path l.tablePath).approvedHash? (watcher.nameOf v root) =
        some (hashOf v root) then 0 else 1 := by
  have hremoved : ∀ names : List String,
      count .unapproved (watcher.nameOf v root) (names.map removedAlert) = 0 := by
    intro names
    simp [count, removedAlert, List.countP_map]
  rw [outcome, survey_eq, finish, count_append, hremoved, Nat.add_zero,
    count_foldl (sorted_state watcher v), h.first]
  exact count_unapproved_alertsOn h.changed

/-- The lock of a state file that was locked before leaves no trace. -/
theorem surveyedTree_of_find {p : Place} {old : ByteArray}
    (h : w.find (Store.lockPath watcher.statePath) = .ok (p, .file old)) :
    watcher.surveyedTree w = w := by
  rw [surveyedTree, Store.lock_of_find h]

end Watcher

/-- A check without another name and a comparison agree: the content is as approved when the package
passes unscanned, it is other than approved when the package is for review as changed, and the
package is not approved when its score decides. A watch cycle reports a package that is new or
modified as unapproved unless a comparison in the tree that it surveys finds the content as approved;
that tree is the one it starts from, but for the lock of its state. -/
theorem Gate.approval_agreed (g : Gate) :
    (∀ (now : Instant) (path : String) (options : Gate.Options) (l : Ledger) (w : World)
        (d : Decision) (s : Ledger × World), options.name = none →
      g.check now path options (l, w) = (.ok d, s) →
        ∃ o, g.verify path (l, w) = (.ok o, (.load w l.path l.tablePath, w)) ∧
          Agrees g.policy d o) ∧
    (∀ (watcher : Watcher) (now : Instant) (l l' m : Ledger) (w w' : World) (report : WatchReport)
        (root : String), watcher.policy.manifestFile = g.policy.manifestFile → m.path = l.path →
      watcher.run now (l, w) = (.ok report, (l', w')) →
      watcher.Handles (watcher.surveyedTree w) report root →
        ∃ o s, g.verify root (m, watcher.surveyedTree w) = (.ok o, s) ∧
          WatchAlert.count .unapproved o.name report.alerts =
            if o.status = .matches then 0 else 1) ∧
    ∀ (watcher : Watcher) (w : World) (p : Place) (old : ByteArray),
      w.find (Store.lockPath watcher.statePath) = .ok (p, .file old) →
        watcher.surveyedTree w = w := by
  refine ⟨?_, ?_, fun _ _ _ _ => Watcher.surveyedTree_of_find⟩
  · intro now path options l w d s hname hcheck
    obtain ⟨root, hroot, rfl, -⟩ := check_ok_iff.mp hcheck
    have hverify := verify_eq g path l w
    rw [hroot] at hverify
    exact ⟨_, hverify, compared_agrees g w _ root hname⟩
  · intro watcher now l l' m w w' report root hmanifest hpath hrun hhandles
    obtain ⟨rfl, -⟩ := Watcher.run_ok hrun
    have hroot := Package.locate?_of_mem_discover hhandles.found
    rw [hmanifest] at hroot
    have hverify := verify_eq g root m (watcher.surveyedTree w)
    rw [hroot] at hverify
    refine ⟨_, _, hverify, ?_⟩
    have hname : (g.compared (watcher.surveyedTree w)
        (.load (watcher.surveyedTree w) m.path m.tablePath) root).name =
          watcher.nameOf (watcher.surveyedTree w) root := by
      rw [Watcher.nameOf, hmanifest]
      rfl
    have happroved : (Ledger.load (watcher.surveyedTree w) m.path m.tablePath).approvedHash? =
        (Ledger.load (watcher.surveyedTree w) l.path l.tablePath).approvedHash? := by
      funext name
      rw [Ledger.approvedHash?_eq, Ledger.approvedHash?_eq, hpath]
      rfl
    simp only [matches_iff_approved, hname, happroved]
    exact hhandles.count_unapproved

/-- On the shelf, the package is found at once and reported as new. -/
theorem Watcher.shelf_handles {report : WatchReport} {l l' : Ledger} {w' : World}
    (hrun : shelfWatcher.run .newYear (l, shelf) = (.ok report, (l', w'))) :
    shelfWatcher.Handles (shelfWatcher.surveyedTree shelf) report "skills/p" := by
  have htree : shelfWatcher.surveyedTree shelf = lockedShelf := congrArg Prod.snd shelf_lock
  have hreport := (run_ok hrun).1
  rw [htree] at hreport ⊢
  have hname := nameOf_firstOf shelf_first
  have hstate : shelfWatcher.state lockedShelf = .empty :=
    (Stands.missing (shelf_fresh.grows (Store.lock_grows shelf_lock))).state
  have hcount := (surveyed shelfWatcher lockedShelf { l with content := .load lockedShelf l.path }
    .newYear (sorted_state shelfWatcher lockedShelf)).alerts .newSkill (.inl rfl) "p"
  rw [hstate, view, shelf_first] at hcount
  refine ⟨List.mem_of_find?_eq_some shelf_first, by rw [hname, shelf_first], ?_⟩
  rw [hname, hreport, outcome, hstate, hcount]
  exact Nat.add_pos_left Nat.one_pos _

/-- A package that is blocked is not approved, and neither is one that is new to the watcher of an
empty ledger. -/
theorem Gate.approval_agreed_unapproved :
    (∃ o s, markGate.verify "p" (.load bench "ledger.json" none, bench) = (.ok o, s) ∧
      o.status = .notApproved) ∧
    ∃ report l' w' o s,
      Watcher.shelfWatcher.run .newYear (.load Watcher.shelf "ledger.json" none, Watcher.shelf) =
        (.ok report, (l', w')) ∧
      markGate.verify "skills/p" (.load Watcher.shelf "ledger.json" none,
        Watcher.shelfWatcher.surveyedTree Watcher.shelf) = (.ok o, s) ∧
      WatchAlert.count .unapproved o.name report.alerts = if o.status = .matches then 0 else 1 := by
  constructor
  · obtain ⟨d, l', w', hcheck, hblock⟩ := markGate_check none (by simp)
    obtain ⟨o, hverify, hagrees⟩ := (approval_agreed markGate).1 _ _ _ _ _ _ _ rfl hcheck
    refine ⟨o, _, hverify, ?_⟩
    cases hstatus : o.status with
    | notApproved => rfl
    | «matches» =>
      obtain ⟨e, hd⟩ := hagrees.passed.mp hstatus
      rw [hd] at hblock
      cases hblock
    | mismatch =>
      have hreview := (hagrees.changed.mp hstatus).1
      rw [hblock] at hreview
      cases hreview
  · obtain ⟨report, l', w', hrun⟩ := Watcher.shelf_run (.load Watcher.shelf "ledger.json" none)
    obtain ⟨o, s, hverify, hcount⟩ := (approval_agreed markGate).2.1 _ _ _ _
      (.load Watcher.shelf "ledger.json" none) _ _ _ _ rfl rfl hrun (Watcher.shelf_handles hrun)
    exact ⟨report, l', w', o, s, hrun, hverify, hcount⟩

end SkillAudit
