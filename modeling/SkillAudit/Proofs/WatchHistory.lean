import Mathlib
import SkillAudit.Proofs.FileTree
import SkillAudit.Proofs.LocalLedger
import SkillAudit.Proofs.PathEvaluation
import SkillAudit.Proofs.StandingFile
import SkillAudit.Proofs.WatchSurvey

/-!
Watch cycles that follow one another on one state file. Drift from one successful cycle to the next
is reported once, and the file remembers what the last one saw, whatever happens to the packages and
the ledger between the cycles and whichever cycles fail.
-/
namespace SkillAudit

namespace Store

/-- No state has been written at a path, and its name is not on its own way. -/
structure Fresh (w : World) (path : String) : Prop where
  own : ∀ r, w.route? path = some r → r.place ∉ r.links
  blank : ∀ g, w.goal? path = some g → Blank w g.place

theorem Fresh.grows {w w' : World} {path : String} (h : Fresh w path) (hw : w.Grows w') :
    Fresh w' path where
  own r hr := h.own r (by rwa [← route?_of_grows hw])
  blank := blank_of_grows hw h.blank

theorem Fresh.readJson? {α : Type} {w : World} {path : String} (h : Fresh w path)
    (decode : Json.Decoder α) : Store.readJson? w path decode = none := by
  have hempty := read?_of_blank h.blank
  have hparse : Json.parse? "" = none := by decide
  unfold Store.readJson?
  cases hread : read? w path with
  | none => rfl
  | some text =>
    rw [hread, Option.getD_some] at hempty
    rw [hempty, Option.bind_some, hparse]
    rfl

/-- A change of the tree that is not made by writing at a path: the file there keeps its content,
and where there is none it stays so. -/
structure Undisturbed (path : String) (w w' : World) : Prop where
  holds : ∀ r bytes, w.Holds path r bytes → ∃ r', w'.Holds path r' bytes
  fresh : Fresh w path → Fresh w' path

end Store

namespace World

/-- A directory that is missing with the way to it, and stands as soon as the way is made. -/
theorem makeDirsWithin_up {fuel : Nat} {w v : World} {path up : String} {p q : Place} {n : Node}
    (hslash : endsInSlash path = false) (hmissing : w.reaches false path = .error .notFound)
    (hup : Path.parent path = some up) (hmade : makeDirsWithin fuel w up = (.ok (), v))
    (hstands : v.reaches false path = .ok (.taken q n))
    (hdir : v.reaches true path = .ok (.taken p .dir)) :
    makeDirsWithin (fuel + 1) w path = (.ok (), v) := by
  have hfirst : w.makeDir path = .error .notFound := by
    rw [makeDir, trimSlashes_eq_self hslash, resolve_eq_reaches, hmissing]
  have hagain : v.makeDir path = .error .exists := by
    rw [makeDir, trimSlashes_eq_self hslash, resolve_eq_reaches, hstands]
  have hisDir : v.isDir path = true := by
    simp only [isDir, find, resolve_eq_reaches, hdir]
  rw [makeDirsWithin]
  split
  next hempty =>
    rw [beq_iff_eq.mp hempty] at hup
    cases hup
  next => simp only [hfirst, hup, hmade, hagain, hisDir, if_true]

end World

/-! A file on its own way. -/

namespace Store

/-- A link to a directory that is missing, and a package in another one. -/
def bridge : World where
  nodes := [(["p"], .link "d"), (["skills"], .dir), (["skills", "p"], .dir),
    (["skills", "p", "SKILL.md"], .file ⟨#[120]⟩)]
  cwd := []

def crossing : World := bridge.put ["d"] .dir

def crossed : World := crossing.put ["p.lock"] (.file .empty)

theorem bridge_makeDirs : bridge.makeDirs "d/../p/.." = (.ok (), crossing) := by
  have hmade : bridge.makeDir "d" = .ok crossing := by
    rw [World.makeDir, World.trimSlashes_eq_self (by decide), World.resolve_eq_reaches]
    rfl
  have hfirst : World.makeDirsWithin 7 bridge "d" = (.ok (), crossing) := by
    rw [World.makeDirsWithin, hmade]
    rfl
  have hback : World.makeDirsWithin 8 bridge "d/.." = (.ok (), crossing) :=
    World.makeDirsWithin_up (p := []) (q := []) (n := .dir) (by decide) (by decide) (by decide)
      hfirst (by decide +kernel) (by decide +kernel)
  have hlink : World.makeDirsWithin 9 bridge "d/../p" = (.ok (), crossing) :=
    World.makeDirsWithin_up (p := ["d"]) (q := ["p"]) (n := .link "d") (by decide) (by decide)
      (by decide) hback (by decide +kernel) (by decide +kernel)
  have hlength : "d/../p/..".length + 1 = 10 := by decide
  rw [World.makeDirs, hlength]
  exact World.makeDirsWithin_up (p := []) (q := []) (n := .dir) (by decide) (by decide) (by decide)
    hlink (by decide +kernel) (by decide +kernel)

theorem bridge_lock : lock "d/../p/../p" bridge = (.ok (), crossed) := by
  have hpath : lockPath "d/../p/../p" = "d/../p/../p.lock" := by decide
  have hparent : Path.parent "d/../p/../p.lock" = some "d/../p/.." := by decide
  have hspot : crossing.reaches true "d/../p/../p.lock" = .ok (.free ["p.lock"]) := by
    decide +kernel
  have hdirs : Act.makeDirs "d/../p/.." bridge = (.ok (), crossing) := by
    rw [Act.makeDirs, bridge_makeDirs]
  unfold lock
  simp only [hpath, hparent]
  rw [Act.bind_of_ok hdirs]
  simp only [Act.change, World.touch, World.resolve_eq_reaches, hspot]
  rfl

theorem crossed_resolve : crossed.resolve false "d/../p/../p" = .ok (.taken ["p"] (.link "d")) := by
  rw [World.resolve_eq_reaches]
  decide +kernel

/-- The file takes the place of the link, and the path leads over the file. -/
theorem crossed_write (new : ByteArray) :
    write "d/../p/../p" new crossed = (.ok (), crossed.put ["p"] (.file new)) ∧
      read? (crossed.put ["p"] (.file new)) "d/../p/../p" = none := by
  have hstopped : (crossed.put ["p"] (.file new)).reaches true "d/../p/../p" =
    .error .notDirectory := rfl
  refine ⟨write_of_resolve (by decide) crossed_resolve (by simp) new, ?_⟩
  rw [read?, World.readText, World.readFile, World.find, World.resolve_eq_reaches, hstopped]
  rfl

end Store

namespace Watcher

/-- The file tree as a cycle surveys it: its lock has been taken. -/
def surveyedTree (watcher : Watcher) (w : World) : World := (Store.lock watcher.statePath w).2

/-- What a cycle reports and remembers, with the ledger as it reads it. -/
def outcome (watcher : Watcher) (now : Instant) (l : Ledger) (v : World) :
    WatchReport × WatchState :=
  watcher.survey v { l with content := .load v l.path } now (watcher.state v)

section Run
variable {watcher : Watcher} {now : Instant} {l l' : Ledger} {w w' : World} {report : WatchReport}

/-- Where the lock is taken, what is left is to write the next state. -/
theorem run_of_lock {v : World} (h : Store.lock watcher.statePath w = (.ok (), v)) :
    watcher.run now (l, w) =
      match Store.writeJson watcher.statePath (watcher.outcome now l v).2.toJson v with
      | (.ok (), w') =>
        (.ok (watcher.outcome now l v).1, ({ l with content := .load v l.path }, w'))
      | (.error e, w') => (.error e, ({ l with content := .load v l.path }, w')) := by
  have hlock : Ledger.onWorld (Store.lock watcher.statePath) (l, w) = (.ok (), (l, v)) :=
    Ledger.onWorld_ok_iff.mpr ⟨v, h, rfl⟩
  rw [run, Act.bind_of_ok hlock]
  change (Ledger.onWorld (Store.writeJson watcher.statePath (watcher.outcome now l v).2.toJson) >>=
    fun _ => pure (watcher.outcome now l v).1) ({ l with content := .load v l.path }, v) = _
  cases hwrite : Store.writeJson watcher.statePath (watcher.outcome now l v).2.toJson v with
  | mk result w' =>
    cases result with
    | ok => rw [Act.bind_of_ok (Ledger.onWorld_ok_iff.mpr ⟨w', hwrite, rfl⟩)]; rfl
    | error e =>
      refine Act.bind_of_error ?_
      simp only [Ledger.onWorld, hwrite]

theorem run_ok (h : watcher.run now (l, w) = (.ok report, (l', w'))) :
    report = (watcher.outcome now l (watcher.surveyedTree w)).1 ∧
      Store.writeJson watcher.statePath
        (watcher.outcome now l (watcher.surveyedTree w)).2.toJson (watcher.surveyedTree w) =
          (.ok (), w') := by
  obtain ⟨_, _, hlock, -⟩ := Act.bind_ok h
  obtain ⟨v, hv, rfl⟩ := Ledger.onWorld_ok_iff.mp hlock
  have hsurveyed : watcher.surveyedTree w = v := by rw [surveyedTree, hv]
  rw [run_of_lock hv] at h
  rw [hsurveyed]
  cases hwrite : Store.writeJson watcher.statePath (watcher.outcome now l v).2.toJson v with
  | mk result u =>
    rw [hwrite] at h
    cases result with
    | ok =>
      cases h
      exact ⟨rfl, rfl⟩
    | error e => cases h

/-- A cycle that fails has made its lock and directories at most. -/
theorem run_error {e : AuditError} (h : watcher.run now (l, w) = (.error e, (l', w'))) :
    w.Grows w' := by
  have hgrows := Store.lock_grows_always watcher.statePath w
  cases hlock : Store.lock watcher.statePath w with
  | mk result v =>
    rw [hlock] at hgrows
    cases result with
    | error e' =>
      have hfailed : Ledger.onWorld (Store.lock watcher.statePath) (l, w) = (.error e', (l, v)) := by
        simp only [Ledger.onWorld, hlock]
      rw [run, Act.bind_of_error hfailed] at h
      cases h
      exact hgrows
    | ok =>
      rw [run_of_lock hlock] at h
      cases hwrite : Store.writeJson watcher.statePath (watcher.outcome now l v).2.toJson v with
      | mk result u =>
        rw [hwrite] at h
        cases result with
        | ok => cases h
        | error e' =>
          cases h
          exact hgrows.trans (Store.grows_of_write_error hwrite)

end Run

/-! What the state file holds. -/

/-- The state at a path: the one written there, or the empty one where nothing was written. -/
inductive Stands (watcher : Watcher) (w : World) : WatchState → Prop
  | missing (h : Store.Fresh w watcher.statePath) : Stands watcher w .empty
  | written {s : WatchState} {r : Route} (hsorted : s.skills.Sorted)
      (hschema : s.schemaVersion = watchSchema)
      (h : w.Holds watcher.statePath r (Store.jsonText s.toJson).toUTF8) : Stands watcher w s

section Stands
variable {watcher : Watcher} {w w' : World} {s : WatchState}

theorem Stands.sorted (h : Stands watcher w s) : s.skills.Sorted := by
  cases h with
  | missing => exact List.Pairwise.nil
  | written hsorted => exact hsorted

theorem Stands.state (h : Stands watcher w s) : watcher.state w = s := by
  cases h with
  | missing h => rw [Watcher.state, h.readJson?]
  | written hsorted hschema h =>
    have hread : Store.readJson? w watcher.statePath WatchState.ofJson = some s := by
      rw [Store.readJson?, Store.read?_of_holds h, Option.bind_some,
        Json.parse?_jsonText s.toJson_plain, Option.bind_some, WatchState.ofJson_toJson hsorted]
    have holder : ¬ s.schemaVersion > watchSchema := by
      rw [hschema]
      decide
    rw [Watcher.state, hread]
    simp only [holder, if_false]

theorem Stands.grows (h : Stands watcher w s) (hw : w.Grows w') : Stands watcher w' s := by
  cases h with
  | missing h => exact .missing (h.grows hw)
  | written hsorted hschema h =>
    exact .written hsorted hschema (h.evolves hw.evolves (by simp) (by simp))

theorem Stands.undisturbed (h : Stands watcher w s)
    (hw : Store.Undisturbed watcher.statePath w w') : Stands watcher w' s := by
  cases h with
  | missing h => exact .missing (hw.fresh h)
  | written hsorted hschema h =>
    obtain ⟨r, h⟩ := hw.holds _ _ h
    exact .written hsorted hschema h

theorem stands_of_write {next : WatchState}
    (hown : ∀ r, w.route? watcher.statePath = some r → r.place ∉ r.links)
    (hwrite : Store.writeJson watcher.statePath next.toJson w = (.ok (), w'))
    (hsorted : next.skills.Sorted) (hschema : next.schemaVersion = watchSchema) :
    Stands watcher w' next := by
  obtain ⟨r, hr⟩ := Store.route_of_write hwrite
  exact .written hsorted hschema (Store.write_ok hwrite hr (hown r hr)).2

theorem Stands.write {next : WatchState} (h : Stands watcher w s)
    (hwrite : Store.writeJson watcher.statePath next.toJson w = (.ok (), w'))
    (hsorted : next.skills.Sorted) (hschema : next.schemaVersion = watchSchema) :
    Stands watcher w' next := by
  refine stands_of_write (fun r hr => ?_) hwrite hsorted hschema
  cases h with
  | missing h => exact h.own r hr
  | written _ _ h =>
    obtain rfl := Option.some.inj (hr.symm.trans h.route)
    exact h.own

end Stands

/-! Cycles that follow one another. -/

/-- A successful cycle: the tree it surveyed, when, and what it reported. -/
structure Cycle where
  tree : World
  now : Instant
  report : WatchReport

def Cycle.Raised (c : Cycle) (name : String) : Prop :=
  ∃ a ∈ c.report.alerts, a.skill = name ∧ (a.kind = .newSkill ∨ a.kind = .modified)

/-- Runs of a watcher and what happens between them, from a tree on: the successful cycles, the
latest first, and the tree they lead to. Every run may have a ledger of its own. -/
inductive History (watcher : Watcher) (u : World) : List Cycle → World → Prop
  | start : History watcher u [] u
  | cycle {past : List Cycle} {w w' : World} {l l' : Ledger} {now : Instant} {report : WatchReport}
      (h : History watcher u past w)
      (hrun : watcher.run now (l, w) = (.ok report, (l', w'))) :
      History watcher u (⟨watcher.surveyedTree w, now, report⟩ :: past) w'
  | failed {past : List Cycle} {w w' : World} {l l' : Ledger} {now : Instant} {e : AuditError}
      (h : History watcher u past w) (hrun : watcher.run now (l, w) = (.error e, (l', w'))) :
      History watcher u past w'
  | elsewhere {past : List Cycle} {w w' : World} (h : History watcher u past w)
      (hchange : Store.Undisturbed watcher.statePath w w') : History watcher u past w'

/-- The view of the latest cycle; nothing before the first one. -/
def lastView (watcher : Watcher) : List Cycle → String → Option String
  | [], _ => none
  | c :: _, name => watcher.view c.tree name

/-- What a cycle reports after some others. -/
structure Drift (watcher : Watcher) (earlier : List Cycle) (c : Cycle) : Prop where
  /-- A name has an alert that it is new, modified or removed when it is, and then only one. -/
  alerts : ∀ kind, IsDrift kind → ∀ name, WatchAlert.count kind name c.report.alerts =
    kind.due (watcher.lastView earlier name) (watcher.view c.tree name)
  quiet : watcher.view c.tree = watcher.lastView earlier →
    c.report.alerts = [] ∧ c.report.clean = c.report.scanned

/-- What is remembered after some cycles. -/
structure Remembers (watcher : Watcher) (past : List Cycle) (skills : Dict WatchedPackage) :
    Prop where
  once : skills.keys.Nodup
  view : ∀ name, (skills.get? name).map (·.hash) = watcher.lastView past name
  /-- An entry is from the latest cycle that found its package new or modified. -/
  scan : ∀ name p, skills.get? name = some p → ∃ newer c older root, past = newer ++ c :: older ∧
    c.Raised name ∧ (∀ c' ∈ newer, ¬ c'.Raised name) ∧
    watcher.firstOf c.tree (watcher.roots c.tree) name = some root ∧
    p = watcher.scan c.tree c.now root p.hash

theorem raised_iff {watcher : Watcher} {earlier : List Cycle} {c : Cycle}
    (h : Drift watcher earlier c) {name hash : String} (hview : watcher.view c.tree name = some hash) :
    c.Raised name ↔ watcher.lastView earlier name ≠ some hash := by
  have hcount : ∀ kind, (∃ a ∈ c.report.alerts, a.kind = kind ∧ a.skill = name) ↔
      0 < WatchAlert.count kind name c.report.alerts := by
    intro kind
    simp [WatchAlert.count, List.countP_pos_iff]
  have hnew := h.alerts .newSkill (.inl rfl) name
  have hmodified := h.alerts .modified (.inr (.inl rfl)) name
  rw [hview] at hnew hmodified
  have hraised : c.Raised name ↔ (∃ a ∈ c.report.alerts, a.kind = .newSkill ∧ a.skill = name) ∨
      ∃ a ∈ c.report.alerts, a.kind = .modified ∧ a.skill = name := by
    unfold Cycle.Raised
    grind
  rw [hraised, hcount, hcount, hnew, hmodified]
  cases watcher.lastView earlier name with
  | none => simp [AlertKind.due]
  | some before => by_cases hsame : before = hash <;> simp [AlertKind.due, hsame]

section Step
variable {watcher : Watcher} {past : List Cycle} {s : WatchState}

theorem Remembers.drift (h : Remembers watcher past s.skills) (hs : s.skills.Sorted) (v : World)
    (l : Ledger) (now : Instant) :
    Drift watcher past ⟨v, now, (watcher.survey v l now s).1⟩ := by
  have hsurveyed := surveyed watcher v l now hs
  have hbefore : ∀ name, before s name = watcher.lastView past name := h.view
  refine ⟨fun kind hkind name => ?_, fun hsame => hsurveyed.quiet fun name => ?_⟩
  · rw [← hbefore]
    exact hsurveyed.alerts kind hkind name
  · rw [hbefore, ← hsame]

/-- What a cycle remembers is what its view shows, with the entries of the packages that have not
changed kept. -/
theorem Remembers.step (h : Remembers watcher past s.skills) (hs : s.skills.Sorted) (v : World)
    (l : Ledger) (now : Instant) :
    Remembers watcher (⟨v, now, (watcher.survey v l now s).1⟩ :: past)
      (watcher.survey v l now s).2.skills := by
  have hsurveyed := surveyed watcher v l now hs
  have hdrift := h.drift hs v l now
  refine ⟨hsurveyed.sorted.nodup, fun name => ?_, fun name p hp => ?_⟩
  · rw [hsurveyed.skills, Option.map_map]
    exact congrArg (fun f => Option.map f _) (funext fun root => hash_entryOf)
  · rw [hsurveyed.skills] at hp
    obtain ⟨root, hroot, rfl⟩ := Option.map_eq_some_iff.mp hp
    obtain rfl := nameOf_firstOf hroot
    have hview : watcher.view v (watcher.nameOf v root) = some (hashOf v root) := by
      rw [Watcher.view, hroot, Option.map_some]
    have hbefore : before s (watcher.nameOf v root) = watcher.lastView past _ := h.view _
    have hraised := raised_iff hdrift hview
    by_cases hsame : watcher.lastView past (watcher.nameOf v root) = some (hashOf v root)
    · obtain ⟨prev, hget, hhash⟩ := Option.map_eq_some_iff.mp (hbefore.trans hsame)
      obtain ⟨newer, c, older, first, hpast, hc, hnewer, hfirst, hscan⟩ := h.scan _ prev hget
      refine ⟨_ :: newer, c, older, first, by rw [hpast, List.cons_append], hc, ?_, hfirst, ?_⟩
      · intro c' hc'
        rcases List.mem_cons.mp hc' with rfl | hc'
        · exact fun hnow => hraised.mp hnow hsame
        · exact hnewer c' hc'
      · rw [entryOf_same hget hhash]
        exact hscan
    · refine ⟨[], _, past, root, rfl, hraised.mpr hsame, by simp, hroot, ?_⟩
      rw [hash_entryOf]
      exact entryOf_scan (hbefore ▸ hsame)

end Step

theorem History.invariant {watcher : Watcher} {u w : World} {past : List Cycle}
    (h : History watcher u past w) (hfresh : Store.Fresh u watcher.statePath) :
    ∃ s, Stands watcher w s ∧ Remembers watcher past s.skills ∧
      ∀ later c earlier, past = later ++ c :: earlier → Drift watcher earlier c := by
  induction h with
  | start =>
    refine ⟨.empty, .missing hfresh, ⟨.nil, fun _ => rfl, fun _ _ hp => ?_⟩, ?_⟩
    · cases hp
    · simp
  | @cycle past w w' l l' now report h hrun ih =>
    obtain ⟨s, hstands, hremembers, hdrifts⟩ := ih
    obtain ⟨rfl, hwrite⟩ := run_ok hrun
    have hsurveyed : Stands watcher (watcher.surveyedTree w) s :=
      hstands.grows (Store.lock_grows_always _ w)
    rw [outcome, hsurveyed.state] at hwrite ⊢
    have hs := hstands.sorted
    have hnext := surveyed watcher (watcher.surveyedTree w)
      { l with content := .load (watcher.surveyedTree w) l.path } now hs
    refine ⟨_, hsurveyed.write hwrite hnext.sorted hnext.schema, hremembers.step hs _ _ _, ?_⟩
    intro later c earlier hsplit
    cases later with
    | nil =>
      obtain ⟨rfl, rfl⟩ := List.cons.inj hsplit
      exact hremembers.drift hs _ _ _
    | cons _ later => exact hdrifts later c earlier (List.cons.inj hsplit).2
  | failed h hrun ih =>
    obtain ⟨s, hstands, hrest⟩ := ih
    exact ⟨s, hstands.grows (run_error hrun), hrest⟩
  | elsewhere h hchange ih =>
    obtain ⟨s, hstands, hrest⟩ := ih
    exact ⟨s, hstands.undisturbed hchange, hrest⟩

/-- From a missing state file on, each successful cycle reports once what has changed since the one
before it; the file remembers the packages of the latest one with their last scans; and a cycle that
fails leaves what is remembered as it is. -/
theorem drift_reported_once (watcher : Watcher) {u w : World} {past : List Cycle}
    (hfresh : Store.Fresh u watcher.statePath) (h : History watcher u past w) :
    (∀ later c earlier, past = later ++ c :: earlier → Drift watcher earlier c) ∧
      Remembers watcher past (watcher.state w).skills ∧
      ∀ now l e l' w', watcher.run now (l, w) = (.error e, (l', w')) →
        watcher.state w' = watcher.state w := by
  obtain ⟨s, hstands, hremembers, hdrifts⟩ := h.invariant hfresh
  refine ⟨hdrifts, hstands.state ▸ hremembers, fun now l e l' w' hrun => ?_⟩
  rw [hstands.state, (hstands.grows (run_error hrun)).state]

def shelf : World where
  nodes := [(["skills"], .dir), (["skills", "p"], .dir), (["skills", "p", "SKILL.md"], .file ⟨#[120]⟩)]
  cwd := []

def shelfWatcher : Watcher := ⟨"skills", "watch.json", {}, ⟨"1", []⟩⟩

def lockedShelf : World := shelf.put ["watch.json.lock"] (.file .empty)

theorem shelf_state : LocalPath "watch.json" "watch.json" := by decide

theorem shelf_lock : Store.lock "watch.json" shelf = (.ok (), lockedShelf) := by
  have hlock : LocalPath (Store.lockPath "watch.json") "watch.json.lock" := by decide
  exact Store.lock_local_free hlock (by decide) (by decide)

theorem shelf_fresh : Store.Fresh shelf "watch.json" := by
  have hfree : shelf.at? (shelf.cwd ++ ["watch.json"]) = none := by decide
  refine ⟨fun r hr => ?_, fun g hg => ?_⟩
  · rw [shelf_state.route] at hr
    obtain rfl := Option.some.inj hr
    simp
  · rw [shelf_state.goal shelf (by rw [hfree]; simp)] at hg
    obtain rfl := Option.some.inj hg
    exact .inl hfree

theorem shelf_run (l : Ledger) : ∃ report l' w',
    shelfWatcher.run Instant.newYear (l, shelf) = (.ok report, (l', w')) := by
  have hwrite := shelf_state.write lockedShelf (.inl (by decide))
    (Store.jsonText (shelfWatcher.outcome Instant.newYear l lockedShelf).2.toJson).toUTF8
  have hrun : shelfWatcher.run Instant.newYear (l, shelf) = _ := run_of_lock shelf_lock
  rw [Store.writeJson, show shelfWatcher.statePath = "watch.json" from rfl, hwrite] at hrun
  exact ⟨_, _, _, hrun⟩

theorem first_of_children {v : World} (hcwd : v.cwd = [])
    (hchildren : v.children ["skills"] = [("p", .dir)]) (hskills : v.at? ["skills"] = some .dir)
    (hp : v.at? ["skills", "p"] = some .dir)
    (hmanifest : v.at? ["skills", "p", "SKILL.md"] = some (.file ⟨#[120]⟩)) (state : String) :
    let watcher := { shelfWatcher with statePath := state }
    watcher.firstOf v (watcher.roots v) "p" = some "skills/p" := by
  have hpath : Path.join "skills/p" "SKILL.md" = "skills/p/SKILL.md" := by decide
  have hdir : v.find "skills" = .ok (["skills"], .dir) := by
    apply World.IsPath.find (by decide)
    rw [World.start, hcwd]
    exact .down ⟨by decide, by decide⟩ (by decide) hskills .here
  have hfile : v.find "skills/p/SKILL.md" =
      .ok (["skills", "p", "SKILL.md"], .file ⟨#[120]⟩) := by
    apply World.IsPath.find (by decide)
    rw [World.start, hcwd]
    exact .down ⟨by decide, by decide⟩ (by decide) hskills (.down ⟨by decide, by decide⟩ (by decide)
      hp (.file ⟨by decide, by decide⟩ (by decide) hmanifest (by decide)))
  have hsub : Package.subdirectories v "skills" = ["skills/p"] := by
    simp only [Package.subdirectories, World.readDir, hdir, hchildren]
    decide +kernel
  have hpackage : Package.isPackage v "skills/p" "SKILL.md" = true := by
    simp only [Package.isPackage, hpath, World.isFile, hfile]
  have hname : (Package.describe v "skills/p" "SKILL.md").name = "p" := by
    have hread : Manifest.read v "skills/p" "SKILL.md" = .empty := by
      simp only [Manifest.read, hpath, World.readText, World.readFile, hfile]
      cbv
    simp only [Package.describe, hread]
    decide
  have hroots : Package.discover v "skills" "SKILL.md" = ["skills/p"] := by
    simp [Package.discover, hsub, hpackage]
  have hfirst : (Package.discover v "skills" "SKILL.md").find?
      (fun root => (Package.describe v root "SKILL.md").name == "p") = some "skills/p" := by
    simp [hroots, hname]
  exact hfirst

theorem shelf_first : shelfWatcher.firstOf lockedShelf (shelfWatcher.roots lockedShelf) "p" =
    some "skills/p" :=
  first_of_children rfl (by decide) (by decide) (by decide) (by decide) "watch.json"

theorem drift_reported_once_shelf : ∃ c w, Store.Fresh shelf shelfWatcher.statePath ∧
    History shelfWatcher shelf [c] w ∧ WatchAlert.count .newSkill "p" c.report.alerts = 1 ∧
    Remembers shelfWatcher [c] (shelfWatcher.state w).skills := by
  obtain ⟨report, l', w', hrun⟩ := shelf_run (.load shelf "ledger.json" none)
  have hhistory := History.start.cycle hrun
  obtain ⟨hdrift, hremembers, -⟩ := drift_reported_once shelfWatcher shelf_fresh hhistory
  have htree : shelfWatcher.surveyedTree shelf = lockedShelf := congrArg Prod.snd shelf_lock
  refine ⟨_, w', shelf_fresh, hhistory, ?_, hremembers⟩
  rw [(hdrift [] _ [] rfl).alerts .newSkill (.inl rfl) "p", htree, Watcher.view, shelf_first]
  rfl

def bridgeWatcher : Watcher := { shelfWatcher with statePath := "d/../p/../p" }

/-- A cycle succeeds from a missing state file on, and nothing is remembered of the package it saw. -/
theorem view_not_remembered : Store.bridge.pathExists bridgeWatcher.statePath = false ∧
    ∃ c w, History bridgeWatcher Store.bridge [c] w ∧
      (bridgeWatcher.view c.tree "p").isSome = true ∧ (bridgeWatcher.state w).skills = [] := by
  have hmissing : Store.bridge.pathExists "d/../p/../p" = false := by
    rw [World.pathExists, World.find, World.resolve_eq_reaches]
    decide
  let l := Ledger.load Store.bridge "ledger.json" none
  obtain ⟨hwrite, hread⟩ := Store.crossed_write (Store.jsonText
    (bridgeWatcher.outcome Instant.newYear l Store.crossed).2.toJson).toUTF8
  have hrun : bridgeWatcher.run Instant.newYear (l, Store.bridge) = _ := run_of_lock Store.bridge_lock
  rw [Store.writeJson, show bridgeWatcher.statePath = "d/../p/../p" from rfl, hwrite] at hrun
  have htree : bridgeWatcher.surveyedTree Store.bridge = Store.crossed :=
    congrArg Prod.snd Store.bridge_lock
  have hfirst : bridgeWatcher.firstOf Store.crossed (bridgeWatcher.roots Store.crossed) "p" =
      some "skills/p" :=
    first_of_children rfl (by decide) (by decide) (by decide) (by decide) "d/../p/../p"
  refine ⟨hmissing, _, _, History.start.cycle hrun, ?_, ?_⟩
  · rw [htree, Watcher.view, hfirst]
    rfl
  · rw [Watcher.state, Store.readJson?, show bridgeWatcher.statePath = "d/../p/../p" from rfl, hread]
    rfl

end Watcher
end SkillAudit
