import Mathlib
import SkillAudit.Proofs.WatchDocument
import SkillAudit.Watch.Cycle

/-!
What one watch cycle says about the packages it finds. A view maps the name of each package to the
hash of the first one found with that name; the alerts tell the view of the cycle from what the
state remembers, and the next state remembers the view.
-/
namespace SkillAudit

def WatchAlert.count (kind : AlertKind) (name : String) (alerts : List WatchAlert) : Nat :=
  alerts.countP fun a => decide (a.kind = kind ∧ a.skill = name)

theorem WatchAlert.count_append (kind : AlertKind) (name : String) (xs ys : List WatchAlert) :
    count kind name (xs ++ ys) = count kind name xs + count kind name ys :=
  List.countP_append

theorem WatchAlert.count_singleton (kind : AlertKind) (name : String) (a : WatchAlert) :
    count kind name [a] = if a.kind = kind ∧ a.skill = name then 1 else 0 := by
  simp [count, List.countP_cons]

/-- How many alerts of a kind are due when the hash under a name changes: one for a name that is
new, for another hash, for a name that is gone. -/
def AlertKind.due : AlertKind → Option String → Option String → Nat
  | .newSkill, none, some _ => 1
  | .modified, some before, some now => if before = now then 0 else 1
  | .removed, some _, none => 1
  | _, _, _ => 0

namespace Watcher
variable (watcher : Watcher) (w : World) (l : Ledger) (now : Instant) (s : WatchState)

def nameOf (root : String) : String :=
  (Package.describe w root watcher.policy.manifestFile).name

def hashOf (root : String) : String := (Fingerprint.ofPath w root).hash

def roots : List String := Package.discover w watcher.skillsDir watcher.policy.manifestFile

/-- The first of some packages with a name. -/
def firstOf (found : List String) (name : String) : Option String :=
  found.find? fun root => watcher.nameOf w root == name

/-- The hash of the first package found with a name. -/
def view (name : String) : Option String :=
  (watcher.firstOf w (watcher.roots w) name).map (hashOf w)

def before (name : String) : Option String := (s.skills.get? name).map (·.hash)

def alertsOn (root : String) : List WatchAlert :=
  let name := watcher.nameOf w root
  let current := watcher.scan w now root (hashOf w root)
  match s.skills.get? name with
  | some prev => if prev.hash == hashOf w root then [] else changeAlerts l name prev current
  | none => newAlerts l name root current

def entryOf (root : String) : WatchedPackage :=
  let current := watcher.scan w now root (hashOf w root)
  match s.skills.get? (watcher.nameOf w root) with
  | some prev => if prev.hash == hashOf w root then prev else current
  | none => current

variable {watcher w l now s} {root name : String} {prev : WatchedPackage}

theorem alertsOn_new (h : s.skills.get? (watcher.nameOf w root) = none) :
    watcher.alertsOn w l now s root = newAlerts l (watcher.nameOf w root) root
      (watcher.scan w now root (hashOf w root)) := by
  simp only [alertsOn, h]

theorem alertsOn_same (h : s.skills.get? (watcher.nameOf w root) = some prev)
    (hsame : prev.hash = hashOf w root) : watcher.alertsOn w l now s root = [] := by
  simp [alertsOn, h, hsame]

theorem alertsOn_changed (h : s.skills.get? (watcher.nameOf w root) = some prev)
    (hchanged : prev.hash ≠ hashOf w root) :
    watcher.alertsOn w l now s root = changeAlerts l (watcher.nameOf w root) prev
      (watcher.scan w now root (hashOf w root)) := by
  simp [alertsOn, h, hchanged]

theorem entryOf_same (h : s.skills.get? (watcher.nameOf w root) = some prev)
    (hsame : prev.hash = hashOf w root) : watcher.entryOf w now s root = prev := by
  simp [entryOf, h, hsame]

/-- Whatever is not remembered with the same hash is scanned. -/
theorem entryOf_scan (h : before s (watcher.nameOf w root) ≠ some (hashOf w root)) :
    watcher.entryOf w now s root = watcher.scan w now root (hashOf w root) := by
  unfold entryOf
  cases hget : s.skills.get? (watcher.nameOf w root) with
  | none => rfl
  | some prev =>
    have hchanged : prev.hash ≠ hashOf w root := by simpa [before, hget] using h
    simp [hchanged]

theorem hash_entryOf : (watcher.entryOf w now s root).hash = hashOf w root := by
  by_cases h : before s (watcher.nameOf w root) = some (hashOf w root)
  · obtain ⟨prev, hget, hhash⟩ := Option.map_eq_some_iff.mp h
    rw [entryOf_same hget hhash, hhash]
  · rw [entryOf_scan h, scan]

/-! The alerts on one package. -/

section Alerts
variable {current : WatchedPackage} {a : WatchAlert} {hash : String}

theorem of_scoreAlert? (h : scoreAlert? name prev current = some a) :
    a.kind = .scoreDrop ∧ a.skill = name := by
  simp only [scoreAlert?] at h
  split at h
  · cases h
    exact ⟨rfl, rfl⟩
  · cases h

theorem of_chainAlert? (h : chainAlert? name prev current = some a) :
    a.kind = .newFindings ∧ a.skill = name := by
  simp only [chainAlert?] at h
  split at h
  · cases h
  · cases h
    exact ⟨rfl, rfl⟩

theorem of_unapprovedAlert? (h : unapprovedAlert? l name hash = some a) :
    a.kind = .unapproved ∧ a.skill = name := by
  simp only [unapprovedAlert?] at h
  split at h
  · cases h
  · cases h
    exact ⟨rfl, rfl⟩

theorem mem_changeAlerts : a ∈ changeAlerts l name prev current ↔
    a = modifiedAlert name prev current ∨ scoreAlert? name prev current = some a ∨
      chainAlert? name prev current = some a ∨ unapprovedAlert? l name current.hash = some a := by
  simp [changeAlerts, List.mem_filterMap, eq_comm]

/-- An alert on a new package is about its name, and is information or at least high. -/
theorem of_mem_newAlerts (h : a ∈ newAlerts l name root current) :
    a.skill = name ∧ (a.severity = .info ∨ AlertSeverity.rank .high ≤ a.severity.rank) := by
  rw [newAlerts, List.mem_append, List.mem_append, List.mem_singleton] at h
  rcases h with (rfl | h) | h
  · exact ⟨rfl, .inl rfl⟩
  · split at h
    · cases h
    · rw [List.mem_singleton.mp h]
      exact ⟨rfl, .inr le_rfl⟩
  · split at h
    · rw [List.mem_singleton.mp h]
      exact ⟨rfl, .inr (Nat.le_succ _)⟩
    · cases h

/-- An alert is raised on a package that is new, or on one that has changed. -/
theorem of_mem_alertsOn (h : a ∈ watcher.alertsOn w l now s root) :
    a ∈ newAlerts l (watcher.nameOf w root) root (watcher.scan w now root (hashOf w root)) ∨
      ∃ prev, a ∈ changeAlerts l (watcher.nameOf w root) prev
        (watcher.scan w now root (hashOf w root)) := by
  cases hget : s.skills.get? (watcher.nameOf w root) with
  | none => exact .inl (alertsOn_new hget ▸ h)
  | some prev =>
    by_cases hsame : prev.hash = hashOf w root
    · rw [alertsOn_same hget hsame] at h
      cases h
    · exact .inr ⟨prev, alertsOn_changed hget hsame ▸ h⟩

theorem skill_of_mem_alertsOn (h : a ∈ watcher.alertsOn w l now s root) :
    a.skill = watcher.nameOf w root := by
  rcases of_mem_alertsOn h with hnew | ⟨prev, hchange⟩
  · exact (of_mem_newAlerts hnew).1
  · rcases mem_changeAlerts.mp hchange with rfl | halert | halert | halert
    · rfl
    · exact (of_scoreAlert? halert).2
    · exact (of_chainAlert? halert).2
    · exact (of_unapprovedAlert? halert).2

end Alerts

def IsDrift (kind : AlertKind) : Prop := kind = .newSkill ∨ kind = .modified ∨ kind = .removed

section Counts
open WatchAlert
variable {kind : AlertKind}

theorem count_changeAlerts (hkind : IsDrift kind) (current : WatchedPackage) (k : String) :
    count kind k (changeAlerts l name prev current) = if .modified = kind ∧ name = k then 1 else 0 := by
  have hother : ∀ a ∈ [scoreAlert? name prev current, chainAlert? name prev current,
      unapprovedAlert? l name current.hash].filterMap id,
      a.kind = .scoreDrop ∨ a.kind = .newFindings ∨ a.kind = .unapproved := by
    intro a ha
    simp only [List.mem_filterMap, List.mem_cons, List.not_mem_nil, or_false, id_eq] at ha
    obtain ⟨o, hmem, rfl⟩ := ha
    rcases hmem with h | h | h
    · exact .inl (of_scoreAlert? h.symm).1
    · exact .inr (.inl (of_chainAlert? h.symm).1)
    · exact .inr (.inr (of_unapprovedAlert? h.symm).1)
  have hzero : count kind k ([scoreAlert? name prev current, chainAlert? name prev current,
      unapprovedAlert? l name current.hash].filterMap id) = 0 := by
    refine List.countP_eq_zero.mpr fun a ha hcounted => ?_
    obtain ⟨rfl, -⟩ := of_decide_eq_true hcounted
    rcases hother a ha with h | h | h <;> rw [h] at hkind <;> simp [IsDrift] at hkind
  have hhead : count kind k [modifiedAlert name prev current] =
      if .modified = kind ∧ name = k then 1 else 0 := count_singleton _ _ _
  rw [changeAlerts, ← List.singleton_append, count_append, hzero, hhead, Nat.add_zero]

theorem count_newAlerts (hkind : IsDrift kind) (current : WatchedPackage) (k : String) :
    count kind k (newAlerts l name root current) = if .newSkill = kind ∧ name = k then 1 else 0 := by
  rw [newAlerts, count_append, count_append]
  rcases hkind with rfl | rfl | rfl <;> (repeat' split) <;> simp_all [count]

/-- The alerts on a package are about its name, and are those that are due. -/
theorem count_alertsOn (hkind : IsDrift kind) (k : String) :
    count kind k (watcher.alertsOn w l now s root) =
      if watcher.nameOf w root = k then kind.due (before s k) (some (hashOf w root)) else 0 := by
  cases hget : s.skills.get? (watcher.nameOf w root) with
  | none =>
    rw [alertsOn_new hget, count_newAlerts hkind]
    by_cases hname : watcher.nameOf w root = k
    · subst hname
      rcases hkind with rfl | rfl | rfl <;> simp [before, hget, AlertKind.due]
    · simp [hname]
  | some prev =>
    by_cases hsame : prev.hash = hashOf w root
    · rw [alertsOn_same hget hsame]
      by_cases hname : watcher.nameOf w root = k
      · subst hname
        rcases hkind with rfl | rfl | rfl <;> simp [before, hget, AlertKind.due, hsame, count]
      · simp [hname, count]
    · rw [alertsOn_changed hget hsame, count_changeAlerts hkind]
      by_cases hname : watcher.nameOf w root = k
      · subst hname
        rcases hkind with rfl | rfl | rfl <;> simp [before, hget, AlertKind.due, hsame]
      · simp [hname]

end Counts

/-! The packages one after the other. -/

theorem firstOf_append (found : List String) (root name : String) :
    watcher.firstOf w (found ++ [root]) name =
      (watcher.firstOf w found name).or
        (if watcher.nameOf w root = name then some root else none) := by
  simp only [firstOf, List.find?_append, List.find?_singleton, beq_iff_eq]

theorem nameOf_firstOf {found : List String} (h : watcher.firstOf w found name = some root) :
    watcher.nameOf w root = name := by
  simpa using List.find?_some h

/-- Where a cycle stands when it has looked at some of the packages. -/
structure Visited (watcher : Watcher) (w : World) (l : Ledger) (now : Instant) (s : WatchState)
    (found : List String) (p : Progress) : Prop where
  sorted : p.skills.Sorted
  seen : ∀ name, name ∈ p.seen ↔ (watcher.firstOf w found name).isSome = true
  skills : ∀ name, p.skills.get? name =
    match watcher.firstOf w found name with
    | some root => some (watcher.entryOf w now s root)
    | none => s.skills.get? name
  alerts : ∀ kind, IsDrift kind → ∀ name, WatchAlert.count kind name p.alerts =
    match watcher.firstOf w found name with
    | some root => kind.due (before s name) (some (hashOf w root))
    | none => 0
  quiet : (∀ name root, watcher.firstOf w found name = some root →
    before s name = some (hashOf w root)) → p.alerts = [] ∧ p.clean = p.seen.length

theorem visited_start (hs : s.skills.Sorted) :
    Visited watcher w l now s [] ⟨s.skills, [], [], 0⟩ where
  sorted := hs
  seen name := by simp [firstOf]
  skills name := rfl
  alerts kind _ name := rfl
  quiet _ := ⟨rfl, rfl⟩

/-- A package with a name not met before has none of its name before it. -/
theorem Visited.firstOf_none {found : List String} {p : Progress}
    (hp : Visited watcher w l now s found p) (hnew : watcher.nameOf w root ∉ p.seen) :
    watcher.firstOf w found (watcher.nameOf w root) = none := by
  simpa using fun h => hnew ((hp.seen _).mpr h)

/-- What looking at a package with a name not met before does. -/
theorem visit_new {found : List String} {p : Progress} (hp : Visited watcher w l now s found p)
    (hnew : watcher.nameOf w root ∉ p.seen) :
    ∃ skills, watcher.visit w l now p root = {
        skills
        seen := watcher.nameOf w root :: p.seen
        alerts := p.alerts ++ watcher.alertsOn w l now s root
        clean := p.clean +
          if (watcher.alertsOn w l now s root).all (·.severity == .info) then 1 else 0 } ∧
      skills.Sorted ∧ ∀ k, skills.get? k =
        if k = watcher.nameOf w root then some (watcher.entryOf w now s root)
        else p.skills.get? k := by
  have hget : p.skills.get? (watcher.nameOf w root) = s.skills.get? (watcher.nameOf w root) := by
    simpa [hp.firstOf_none hnew] using hp.skills (watcher.nameOf w root)
  unfold visit
  have hseen : p.seen.contains (watcher.nameOf w root) = false := by simpa using hnew
  have hname : (Package.describe w root watcher.policy.manifestFile).name =
    watcher.nameOf w root := rfl
  have hhash : (Fingerprint.ofPath w root).hash = hashOf w root := rfl
  simp only [hname, hhash, hseen, Bool.false_eq_true, if_false, hget]
  cases hs : s.skills.get? (watcher.nameOf w root) with
  | none =>
    refine ⟨p.skills.insert (watcher.nameOf w root) (watcher.scan w now root (hashOf w root)), ?_,
      hp.sorted.insert _ _, fun k => ?_⟩
    · simp only [alertsOn_new hs]
    · rw [Dict.get?_insert, entryOf_scan (by simp [before, hs])]
  | some prev =>
    by_cases hsame : prev.hash = hashOf w root
    · refine ⟨p.skills, by simp [alertsOn_same hs hsame, hsame], hp.sorted, fun k => ?_⟩
      rw [entryOf_same hs hsame, ← hs, ← hget]
      split
      next h => rw [h]
      next => rfl
    · refine ⟨p.skills.insert (watcher.nameOf w root) (watcher.scan w now root (hashOf w root)), ?_,
        hp.sorted.insert _ _, fun k => ?_⟩
      · simp only [beq_eq_false_iff_ne.mpr hsame, Bool.false_eq_true, if_false,
          alertsOn_changed hs hsame]
      · rw [Dict.get?_insert, entryOf_scan (by simpa [before, hs] using hsame)]

/-- A package with a name met before is passed over. -/
theorem visit_seen {p : Progress} (hseen : watcher.nameOf w root ∈ p.seen) :
    watcher.visit w l now p root = p := by
  have hcontains : p.seen.contains (watcher.nameOf w root) = true := by simpa using hseen
  unfold visit
  exact if_pos hcontains

/-- A package with a name met before is the first of no name. -/
theorem Visited.firstOf_seen {found : List String} {p : Progress}
    (hp : Visited watcher w l now s found p) (hseen : watcher.nameOf w root ∈ p.seen)
    (name : String) :
    watcher.firstOf w (found ++ [root]) name = watcher.firstOf w found name := by
  rw [firstOf_append]
  by_cases hname : watcher.nameOf w root = name
  · subst hname
    obtain ⟨first, hfirst⟩ := Option.isSome_iff_exists.mp ((hp.seen _).mp hseen)
    simp [hfirst]
  · simp [hname]

/-- A package with a name not met before is the first of its name. -/
theorem Visited.firstOf_new {found : List String} {p : Progress}
    (hp : Visited watcher w l now s found p) (hnew : watcher.nameOf w root ∉ p.seen)
    (name : String) : watcher.firstOf w (found ++ [root]) name =
      if watcher.nameOf w root = name then some root else watcher.firstOf w found name := by
  rw [firstOf_append]
  by_cases hname : watcher.nameOf w root = name
  · subst hname
    simp [hp.firstOf_none hnew]
  · simp [hname]

theorem Visited.visit {found : List String} {p : Progress}
    (hp : Visited watcher w l now s found p) (root : String) :
    Visited watcher w l now s (found ++ [root]) (watcher.visit w l now p root) := by
  by_cases hseen : watcher.nameOf w root ∈ p.seen
  · have hfirst := hp.firstOf_seen hseen
    rw [visit_seen hseen]
    constructor
    · exact hp.sorted
    · simpa only [hfirst] using hp.seen
    · simpa only [hfirst] using hp.skills
    · simpa only [hfirst] using hp.alerts
    · simpa only [hfirst] using hp.quiet
  · obtain ⟨skills, hvisit, hsorted, hskills⟩ := visit_new hp hseen
    have hnone := hp.firstOf_none hseen
    have hfirst := hp.firstOf_new hseen
    rw [hvisit]
    constructor
    · exact hsorted
    · intro name
      rw [hfirst, List.mem_cons, hp.seen name]
      by_cases hname : watcher.nameOf w root = name
      · simp [hname]
      · simp [hname, Ne.symm hname]
    · intro name
      rw [hfirst, hskills, hp.skills name]
      by_cases hname : watcher.nameOf w root = name
      · simp [hname]
      · simp [hname, Ne.symm hname]
    · intro kind hkind name
      rw [hfirst, WatchAlert.count_append, hp.alerts kind hkind name, count_alertsOn hkind]
      by_cases hname : watcher.nameOf w root = name
      · subst hname
        simp [hnone]
      · simp [hname]
    · intro hsame
      have hroot : before s (watcher.nameOf w root) = some (hashOf w root) :=
        hsame _ _ (by simp [hfirst])
      obtain ⟨prev, hget, hhash⟩ := Option.map_eq_some_iff.mp hroot
      obtain ⟨halerts, hclean⟩ := hp.quiet fun name first hname => by
        refine hsame name first ?_
        have hne : watcher.nameOf w root ≠ name := by
          rintro rfl
          rw [hnone] at hname
          cases hname
        rw [hfirst, if_neg hne, hname]
      simp [alertsOn_same hget hhash, halerts, hclean]

theorem visited_foldl (watcher : Watcher) (w : World) (l : Ledger) (now : Instant)
    (hs : s.skills.Sorted) (found : List String) :
    Visited watcher w l now s found (found.foldl (watcher.visit w l now) ⟨s.skills, [], [], 0⟩) := by
  induction found using List.reverseRecOn with
  | nil => exact visited_start hs
  | append_singleton found root ih =>
    rw [List.foldl_append]
    exact ih.visit root

/-- What holds before a cycle looks at a package, and stays so with each package, holds after all. -/
theorem foldl_visit {P : List String → Progress → Prop} (hs : s.skills.Sorted)
    (hstart : P [] ⟨s.skills, [], [], 0⟩)
    (hvisit : ∀ found p root, Visited watcher w l now s found p → P found p →
      P (found ++ [root]) (watcher.visit w l now p root)) (found : List String) :
    P found (found.foldl (watcher.visit w l now) ⟨s.skills, [], [], 0⟩) := by
  induction found using List.reverseRecOn with
  | nil => exact hstart
  | append_singleton found root ih =>
    rw [List.foldl_append]
    exact hvisit found _ root (visited_foldl watcher w l now hs found) ih

/-! The whole cycle. -/

theorem mem_keys_iff {α : Type} {d : Dict α} {name : String} :
    name ∈ d.keys ↔ (d.get? name).isSome = true := by
  rw [Dict.get?, List.lookup_isSome_iff]
  simp [Dict.keys]

/-- What a cycle reports, and what it remembers. -/
structure Surveyed (watcher : Watcher) (w : World) (now : Instant) (s : WatchState)
    (report : WatchReport) (next : WatchState) : Prop where
  alerts : ∀ kind, IsDrift kind → ∀ name,
    WatchAlert.count kind name report.alerts = kind.due (before s name) (watcher.view w name)
  quiet : (∀ name, watcher.view w name = before s name) →
    report.alerts = [] ∧ report.clean = report.scanned
  sorted : next.skills.Sorted
  schema : next.schemaVersion = watchSchema
  skills : ∀ name, next.skills.get? name =
    (watcher.firstOf w (watcher.roots w) name).map (watcher.entryOf w now s)

theorem count_gone (kind : AlertKind) {names : List String} (hnodup : names.Nodup)
    (name : String) :
    WatchAlert.count kind name (names.map removedAlert) =
      if kind = .removed ∧ name ∈ names then 1 else 0 := by
  rw [WatchAlert.count, List.countP_map]
  have hcount : names.countP (fun n => decide (AlertKind.removed = kind ∧ n = name)) =
      if kind = .removed then names.count name else 0 := by
    by_cases h : kind = .removed
    · subst h
      simp [List.count, beq_eq_decide]
    · simp [h, Ne.symm h]
  refine hcount.trans ?_
  by_cases h : kind = .removed
  · by_cases hmem : name ∈ names
    · simp [h, hmem, List.count_eq_one_of_mem hnodup hmem]
    · simp [h, hmem, List.count_eq_zero_of_not_mem hmem]
  · simp [h]

/-- The names that are remembered and were not met. -/
def gone (p : Progress) : List String := p.skills.keys.filter fun name => !p.seen.contains name

/-- What a cycle reports and remembers when it has looked at all packages. -/
def finish (now : Instant) (p : Progress) : WatchReport × WatchState :=
  ({ alerts := p.alerts ++ (gone p).map removedAlert
     scanned := p.seen.length
     clean := p.clean
     timestamp := now },
   { schemaVersion := watchSchema
     lastRunAt := some now
     skills := p.skills.filter fun (name, _) => p.seen.contains name })

theorem survey_eq (watcher : Watcher) (w : World) (l : Ledger) (now : Instant) (s : WatchState) :
    watcher.survey w l now s =
      finish now ((watcher.roots w).foldl (watcher.visit w l now) ⟨s.skills, [], [], 0⟩) := rfl

section Finish
variable {p : Progress} (hp : Visited watcher w l now s (watcher.roots w) p)
include hp

theorem Visited.mem_gone : name ∈ gone p ↔ watcher.view w name = none ∧ (before s name).isSome := by
  have hskills := hp.skills name
  have hseen := hp.seen name
  rw [gone, List.mem_filter, mem_keys_iff, Bool.not_eq_true', view, before]
  cases hfirst : watcher.firstOf w (watcher.roots w) name with
  | some root =>
    rw [hfirst] at hseen
    simp [hseen]
  | none =>
    rw [hfirst] at hskills hseen
    simp [hskills, hseen]

theorem Visited.count_alerts {kind : AlertKind} (hkind : IsDrift kind) (name : String) :
    WatchAlert.count kind name (finish now p).1.alerts =
      kind.due (before s name) (watcher.view w name) := by
  have hgone : (gone p).Nodup := hp.sorted.nodup.filter _
  have hsum : WatchAlert.count kind name (finish now p).1.alerts =
      WatchAlert.count kind name p.alerts +
        WatchAlert.count kind name ((gone p).map removedAlert) := WatchAlert.count_append _ _ _ _
  rw [hsum, hp.alerts kind hkind name, count_gone kind hgone]
  simp only [hp.mem_gone, view]
  cases watcher.firstOf w (watcher.roots w) name with
  | some root => simp
  | none =>
    cases hbefore : before s name with
    | none => rcases hkind with rfl | rfl | rfl <;> simp [AlertKind.due]
    | some hash => rcases hkind with rfl | rfl | rfl <;> simp [AlertKind.due]

theorem Visited.quiet_finish (hsame : ∀ name, watcher.view w name = before s name) :
    (finish now p).1.alerts = [] ∧ (finish now p).1.clean = (finish now p).1.scanned := by
  have hgone : gone p = [] := by
    refine List.eq_nil_iff_forall_not_mem.mpr fun name hmem => ?_
    obtain ⟨hview, hbefore⟩ := hp.mem_gone.mp hmem
    rw [← hsame, hview] at hbefore
    cases hbefore
  obtain ⟨halerts, hclean⟩ := hp.quiet fun name root hfirst => by
    rw [← hsame, view, hfirst, Option.map_some]
  simp [finish, halerts, hgone, hclean]

theorem Visited.get?_finish (name : String) : (finish now p).2.skills.get? name =
    (watcher.firstOf w (watcher.roots w) name).map (watcher.entryOf w now s) := by
  have hseen := hp.seen name
  have hskills := hp.skills name
  have hfilter : (finish now p).2.skills.get? name =
      if p.seen.contains name then p.skills.get? name else none := Dict.get?_filter_keys _ _ _
  rw [hfilter]
  cases hfirst : watcher.firstOf w (watcher.roots w) name with
  | some root =>
    rw [hfirst] at hseen hskills
    simp [hseen, hskills]
  | none =>
    rw [hfirst] at hseen
    simp [hseen]

end Finish

theorem surveyed (watcher : Watcher) (w : World) (l : Ledger) (now : Instant)
    (hs : s.skills.Sorted) :
    Surveyed watcher w now s (watcher.survey w l now s).1 (watcher.survey w l now s).2 := by
  have hp := visited_foldl watcher w l now hs (watcher.roots w)
  rw [survey_eq]
  exact ⟨fun _ hkind => hp.count_alerts hkind, hp.quiet_finish, hp.sorted.filter _, rfl,
    hp.get?_finish⟩

end Watcher
end SkillAudit
