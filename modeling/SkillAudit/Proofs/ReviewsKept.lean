import Mathlib
import SkillAudit.Command.Run
import SkillAudit.Proofs.HubFetch
import SkillAudit.Proofs.Installation
import SkillAudit.Proofs.PendingReviews
import SkillAudit.Proofs.ShownPaths
import SkillAudit.Proofs.WatchHistory

/-!
Reviews that wait. A command writes other state files, packages and other reviews, but nothing that
says where the reviews are kept; so a review waits until a command concerns its name.
-/
namespace SkillAudit

namespace Paths

def records (paths : Paths) : List String :=
  paths.ledger :: paths.watchState :: paths.ledgerMarkdown.toList

def stateFiles (paths : Paths) : List String := paths.pending :: paths.records

/-- What has to be found again before a review can be acted on, besides the reviews. -/
def consulted (paths : Paths) : List String := Store.lockPath paths.pending :: paths.rules.toList

def followed (paths : Paths) : List String :=
  paths.skillsDir :: paths.consulted ++ paths.stateFiles ++ paths.stateFiles.map Store.lockPath

theorem stateFile_followed {paths : Paths} {path : String} (h : path ∈ paths.stateFiles) :
    path ∈ paths.followed ∧ Store.lockPath path ∈ paths.followed := by
  have hlock : Store.lockPath path ∈ paths.stateFiles.map Store.lockPath := List.mem_map_of_mem h
  exact ⟨by simp [followed, h], List.mem_append_right _ hlock⟩

theorem mem_stateFiles {paths : Paths} {path : String} (h : path ∈ paths.records) :
    path ∈ paths.stateFiles := List.mem_cons_of_mem _ h

end Paths

theorem Act.discard_world {σ ε α : Type} (x : ExceptT ε (StateM σ) α) (s : σ) :
    (discard x s).2 = (x s).2 := by
  rw [Act.discard_eq]
  split
  next heq => rw [heq]
  next heq => rw [heq]

/-- A cycle writes the state of the watcher, and nothing else. -/
theorem Watcher.run_confined {P : World → Prop} (watcher : Watcher)
    (hP : Store.Keeps P watcher.statePath) (now : Instant) (s : Ledger × World) :
    Ledger.Confined P s (watcher.run now s).2 := by
  obtain ⟨l, w⟩ := s
  have hlocked : P w → P (Store.lock watcher.statePath w).2 := Store.lock_keeps hP
  rcases hlock : Store.lock watcher.statePath w with ⟨e | _, v⟩
  · rw [hlock] at hlocked
    have hfailed : Ledger.onWorld (Store.lock watcher.statePath) (l, w) = (.error e, (l, v)) := by
      simp only [Ledger.onWorld, hlock]
    rw [run, Act.bind_of_error hfailed]
    exact ⟨rfl, rfl, hlocked⟩
  · rw [hlock] at hlocked
    rw [run_of_lock hlock]
    -- What is found does not matter, only where it is written.
    generalize watcher.outcome now l v = outcome
    have hwritten : P v → P (Store.writeJson watcher.statePath outcome.2.toJson v).2 :=
      fun h => Store.write_keeps hP h _
    split
    next heq => exact ⟨rfl, rfl, fun h => by simpa only [heq] using hwritten (hlocked h)⟩
    next heq => exact ⟨rfl, rfl, fun h => by simpa only [heq] using hwritten (hlocked h)⟩

namespace Command
open World

/-- The places where a file of state or its lock is put. -/
def Ends (paths : Paths) (w : World) (q : Place) : Prop :=
  ∃ path ∈ paths.stateFiles, (∃ r, w.route? path = some r ∧ r.place = q) ∨
    ∃ r, w.goal? (Store.lockPath path) = some r ∧ r.place = q

/-- The places that say where state is kept and where packages are put. -/
def Bears (paths : Paths) (w : World) (q : Place) : Prop :=
  (∃ path ∈ paths.followed, q ∈ w.onWay path) ∨ Ends paths w q

/-- The state files stand apart from one another, from the rules and from the packages. -/
structure Layout (paths : Paths) (g : Route) (w : World) : Prop where
  real : w.IsReal
  directory : w.goal? paths.skillsDir = some g
  /-- If the reviews are kept in a link, it is not on its own way, nor on that to another lock. -/
  own : ∀ r, w.route? paths.pending = some r → ∀ t, w.at? r.place = some (.link t) →
    r.place ∉ r.links ∧ ∀ path ∈ paths.records, r.place ∉ w.onWay (Store.lockPath path)
  /-- No other state file is where the reviews, their lock or the rules are reached. -/
  records : ∀ path ∈ paths.records, ∀ r, w.route? path = some r →
    ∀ other ∈ paths.pending :: paths.consulted, r.place ∉ w.onWay other
  /-- The reviews are not where their lock, the rules or another state file is reached. -/
  reviews : ∀ r, w.route? paths.pending = some r →
    ∀ other ∈ paths.consulted ++ paths.records, r.place ∉ w.onWay other
  table : ∀ path ∈ paths.ledgerMarkdown, ∀ r t, w.route? paths.ledger = some r →
    w.route? path = some t → t.place ≠ r.place
  /-- The directory for packages is not below a state file or a lock. -/
  shelf : ∀ q, Ends paths w q → q ∉ w.onWay paths.skillsDir
  /-- None of this is in a package. -/
  packages : ∀ q, q = w.cwd ∨ Bears paths w q → ∀ n, ¬ g.place ++ [n] <+: q

/-- A change of the tree after which all these paths lead where they led. -/
structure Steers (paths : Paths) (w v : World) : Prop where
  cwd : v.cwd = w.cwd
  real : v.IsReal
  link : ∀ q, Bears paths w q → ∀ t, v.at? q = some (.link t) ↔ w.at? q = some (.link t)

/-- One that also leaves the reviews, their lock and the rules as they are, and every state file in a
place for a file. -/
structure Preserves (paths : Paths) (w v : World) : Prop extends Steers paths w v where
  keeps : ∀ path ∈ paths.pending :: paths.consulted, ∀ q ∈ w.onWay path, ∀ n,
    w.at? q = some n → v.at? q = some n
  stays : ∀ q, Bears paths w q → w.Stays v q
  ends : ∀ q, Ends paths w q → w.at? q = none → v.Admits q

section Layout
variable {paths : Paths} {g : Route} {w u v : World} {q : Place} {path : String}

theorem Steers.way (h : Steers paths w v) (hpath : path ∈ paths.followed) :
    v.goal? path = w.goal? path ∧ v.onWay path = w.onWay path ∧ v.route? path = w.route? path :=
  way_of_links h.cwd fun q hq => h.link q (.inl ⟨path, hpath, hq⟩)

theorem mem_followed (hpath : path ∈ paths.pending :: paths.consulted) : path ∈ paths.followed := by
  rcases List.mem_cons.mp hpath with rfl | hpath
  · simp [Paths.followed, Paths.stateFiles]
  · simp [Paths.followed, hpath]

/-- What the layout says holds on where the paths of state and packages lead as before, none of them
passes anything new, and the reviews are in no new link. -/
theorem Layout.of_ways (hw : Layout paths g w) (hcwd : v.cwd = w.cwd) (hreal : v.IsReal)
    (hroute : ∀ path ∈ paths.stateFiles, v.route? path = w.route? path)
    (hgoal : ∀ path ∈ paths.skillsDir :: paths.stateFiles.map Store.lockPath,
      v.goal? path = w.goal? path)
    (hsub : ∀ path ∈ paths.followed, v.onWay path ⊆ w.onWay path)
    (hlink : ∀ r t, w.route? paths.pending = some r → v.at? r.place = some (.link t) →
      w.at? r.place = some (.link t)) : Layout paths g v := by
  have hstateFile : ∀ {path}, path ∈ paths.stateFiles → path ∈ paths.followed := fun hpath =>
    (Paths.stateFile_followed hpath).1
  have hends : ∀ q, Ends paths v q → Ends paths w q := by
    rintro q ⟨path, hpath, hplace⟩
    rw [hroute path hpath, hgoal _ (List.mem_cons_of_mem _ (List.mem_map_of_mem hpath))] at hplace
    exact ⟨path, hpath, hplace⟩
  constructor
  case real => exact hreal
  case directory => exact (hgoal _ List.mem_cons_self).trans hw.directory
  case own =>
    intro r hr t ht
    rw [hroute _ List.mem_cons_self] at hr
    obtain ⟨hown, hlocks⟩ := hw.own r hr t (hlink r t hr ht)
    refine ⟨hown, fun path hpath hpassed => hlocks path hpath ?_⟩
    exact hsub _ (Paths.stateFile_followed (Paths.mem_stateFiles hpath)).2 hpassed
  case records =>
    intro path hpath r hr other hother hpassed
    rw [hroute _ (Paths.mem_stateFiles hpath)] at hr
    exact hw.records path hpath r hr other hother (hsub _ (mem_followed hother) hpassed)
  case reviews =>
    intro r hr other hother hpassed
    have hfollowed : other ∈ paths.followed := by
      rcases List.mem_append.mp hother with hother | hother
      · exact mem_followed (List.mem_cons_of_mem _ hother)
      · exact hstateFile (Paths.mem_stateFiles hother)
    rw [hroute _ List.mem_cons_self] at hr
    exact hw.reviews r hr other hother (hsub _ hfollowed hpassed)
  case table =>
    intro path hpath r t hr ht
    rw [hroute _ (by simp [Paths.stateFiles, Paths.records])] at hr
    rw [hroute _ (by simp [Paths.stateFiles, Paths.records, Option.mem_def.mp hpath])] at ht
    exact hw.table path hpath r t hr ht
  case shelf =>
    intro q hq hpassed
    exact hw.shelf q (hends q hq) (hsub _ (by simp [Paths.followed]) hpassed)
  case packages =>
    intro q hq
    rw [hcwd] at hq
    refine hw.packages q (hq.imp_right (Or.imp ?_ (hends q)))
    rintro ⟨path, hpath, hpassed⟩
    exact ⟨path, hpath, hsub path hpath hpassed⟩

theorem Steers.layout (h : Steers paths w v) (hw : Layout paths g w) : Layout paths g v := by
  refine hw.of_ways h.cwd h.real (fun path hpath => ?_) (fun path hpath => ?_) (fun path hpath => ?_)
    fun r t hr => (h.link _ (.inr ⟨_, List.mem_cons_self, .inl ⟨r, hr, rfl⟩⟩) t).mp
  · exact (h.way (Paths.stateFile_followed hpath).1).2.2
  · have hfollowed : path ∈ paths.followed := by
      rcases List.mem_cons.mp hpath with rfl | hpath
      · simp [Paths.followed]
      · exact List.mem_append_right _ hpath
    exact (h.way hfollowed).1
  · rw [(h.way hpath).2.1]
    exact List.Subset.refl _

theorem Preserves.refl (hw : w.IsReal) (paths : Paths) : Preserves paths w w :=
  ⟨⟨rfl, hw, fun _ _ _ => .rfl⟩, fun _ _ _ _ _ => id, fun _ _ _ => .inl, fun _ _ => .inl⟩

theorem Steers.makeDirs (hw : w.IsReal) (paths : Paths) (up : String) :
    Steers paths w (w.makeDirs up).2 := by
  have hbuilds := (Advances.refl w).makeDirs up
  refine ⟨hbuilds.cwd, hw.makeDirs up, fun q _ t => ?_⟩
  rcases hbuilds.made q with hsame | ⟨hfree, hdir, -⟩
  · rw [hsame]
  · simp [hfree, hdir]

theorem Preserves.touch (hw : w.IsReal) (paths : Paths) (hok : w.touch path = .ok v) :
    Preserves paths w v := by
  have hreal := hw.touch hok
  rcases touch_ok hok with rfl | ⟨p, hp, rfl⟩
  · exact .refl hw paths
  obtain ⟨hfree, hne⟩ := resolve_free hp
  have hkeeps : ∀ q n, w.at? q = some n → (w.put p (.file .empty)).at? q = some n := by
    intro q n hat
    rwa [at?_put_ne w]
    rintro rfl
    simp [hfree] at hat
  constructor
  case toSteers =>
    refine ⟨rfl, hreal, fun q _ t => ?_⟩
    by_cases hq : q = p
    · simp [hq, hfree, at?_put_self w hne]
    · rw [at?_put_ne w hq]
  case keeps => exact fun _ _ q _ => hkeeps q
  case stays => exact fun q _ n hat => .inl (hkeeps q n hat)
  case ends =>
    intro q _ hat
    by_cases hq : q = p
    · exact .inr ⟨.empty, by rw [hq, at?_put_self w hne]⟩
    · exact .inl (by rwa [at?_put_ne w hq])

/-- A file that is replaced is put where the last name of its path is. -/
theorem replaceFile_route {bytes : ByteArray} (hok : w.replaceFile path bytes = .ok v) :
    ∃ r, w.route? path = some r ∧ r.place ≠ [] ∧ w.at? r.place ≠ some .dir ∧
      v = w.put r.place (.file bytes) := by
  obtain ⟨hslash, spot, hspot, hdir, rfl⟩ := replaceFile_ok hok
  obtain ⟨trail, hleads⟩ := leads_of_resolve hspot
  rw [hslash] at hleads
  obtain ⟨hne, hnotDir⟩ := leads_place_free hleads hdir
  exact ⟨⟨trail, spot.place⟩, course_of_leads hleads, hne, hnotDir, rfl⟩

/-- A state file that is replaced stays where it is, unless it is a link. -/
theorem Steers.replaceFile (hw : w.IsReal) (paths : Paths) {bytes : ByteArray}
    (hok : w.replaceFile path bytes = .ok v)
    (hplain : ∀ r, w.route? path = some r → ∀ t, w.at? r.place ≠ some (.link t)) :
    Steers paths w v ∧ ∀ q, w.Stays v q ∧ (w.at? q = none → v.Admits q) := by
  have hreal := hw.replaceFile hok
  obtain ⟨r, hroute, hne, hnotDir, rfl⟩ := replaceFile_route hok
  have hlink := hplain r hroute
  refine ⟨⟨rfl, hreal, fun q _ t => ?_⟩, fun q => ⟨fun n hat => ?_, fun hat => ?_⟩⟩
  · by_cases hq : q = r.place
    · simp [hq, at?_put_self w hne, hlink t]
    · rw [at?_put_ne w hq]
  · by_cases hq : q = r.place
    · subst hq
      cases n with
      | dir => exact absurd hat hnotDir
      | link t => exact absurd hat (hlink t)
      | file old => exact .inr ⟨old, bytes, rfl, at?_put_self w hne _⟩
    · exact .inl (by rwa [at?_put_ne w hq])
  · by_cases hq : q = r.place
    · exact .inr ⟨bytes, by rw [hq, at?_put_self w hne]⟩
    · exact .inl (by rwa [at?_put_ne w hq])

theorem Layout.replaceRecord (hw : Layout paths g w) (hpath : path ∈ paths.records)
    (hready : Store.Ready w path) {bytes : ByteArray} (hok : w.replaceFile path bytes = .ok v) :
    Preserves paths w v := by
  obtain ⟨hsteers, hstays⟩ := Steers.replaceFile hw.real paths hok fun r hr t =>
    hready.not_link hr
  obtain ⟨r, hr, -, -, rfl⟩ := replaceFile_route hok
  refine ⟨hsteers, fun other hother q hq n hat => ?_, fun q _ => (hstays q).1,
    fun q _ => (hstays q).2⟩
  rwa [at?_put_ne w]
  rintro rfl
  exact hw.records path hpath r hr other hother hq

/-- Where the reviews are kept in a link, a file may take its place. -/
theorem Layout.replaceLink (hw : Layout paths g w) {r : Route} {t : String} {bytes : ByteArray}
    (hroute : w.route? paths.pending = some r) (hlink : w.at? r.place = some (.link t))
    (hne : r.place ≠ []) (hreal : (w.put r.place (.file bytes)).IsReal) :
    Layout paths g (w.put r.place (.file bytes)) := by
  obtain ⟨hown, hlocks⟩ := hw.own r hroute t hlink
  have hshelf := hw.shelf r.place ⟨_, List.mem_cons_self, .inl ⟨r, hroute, rfl⟩⟩
  have hends : ∀ q t, (w.put r.place (.file bytes)).at? q = some (.link t) →
      q ≠ r.place ∧ w.at? q = some (.link t) := by
    intro q t hat
    by_cases hq : q = r.place
    · simp [hq, at?_put_self w hne] at hat
    · exact ⟨hq, by rwa [at?_put_ne w hq] at hat⟩
  obtain ⟨hsame, hway⟩ := @way_of_end w (w.put r.place (.file bytes)) _ rfl r hroute
    (fun q hq t hat => by rwa [at?_put_ne w (ne_of_mem_of_not_mem hq hown)])
    (fun q t hat => (hends q t hat).2) fun t hat => (hends _ t hat).1 rfl
  -- Every other path leads as before, since none of them passes the link.
  have hother : ∀ {path}, r.place ∉ w.onWay path →
      (w.put r.place (.file bytes)).goal? path = w.goal? path ∧
      (w.put r.place (.file bytes)).onWay path = w.onWay path ∧
      (w.put r.place (.file bytes)).route? path = w.route? path := fun hpath =>
    way_of_links rfl fun q hq t => by rw [at?_put_ne w (ne_of_mem_of_not_mem hq hpath)]
  have hconsulted := hw.reviews r hroute
  have hlock : ∀ path ∈ paths.stateFiles, r.place ∉ w.onWay (Store.lockPath path) := by
    intro path hpath
    rcases List.mem_cons.mp hpath with rfl | hpath
    · exact hconsulted _ (by simp [Paths.consulted])
    · exact hlocks path hpath
  have hroutes : ∀ path ∈ paths.stateFiles,
      (w.put r.place (.file bytes)).route? path = w.route? path := by
    intro path hpath
    rcases List.mem_cons.mp hpath with rfl | hpath
    · rw [hsame, hroute]
    · exact (hother (hconsulted path (List.mem_append_right _ hpath))).2.2
  have hsub : ∀ path ∈ paths.followed,
      (w.put r.place (.file bytes)).onWay path ⊆ w.onWay path := by
    intro path hpath
    by_cases hpending : path = paths.pending
    · rwa [hpending]
    have hnot : r.place ∉ w.onWay path := by
      simp only [Paths.followed, List.mem_cons, List.mem_append, Paths.stateFiles] at hpath
      rcases hpath with ((rfl | hpath) | rfl | hpath) | hpath
      · exact hshelf
      · exact hconsulted path (List.mem_append_left _ hpath)
      · exact absurd rfl hpending
      · exact hconsulted path (List.mem_append_right _ hpath)
      · obtain ⟨file, hfile, rfl⟩ := List.mem_map.mp hpath
        exact hlock file hfile
    rw [(hother hnot).2.1]
    exact List.Subset.refl _
  refine hw.of_ways rfl hreal hroutes (fun path hpath => ?_) hsub
    fun r' t' hr' hat => (hends _ t' hat).2
  rcases List.mem_cons.mp hpath with rfl | hpath
  · exact (hother hshelf).1
  · obtain ⟨file, hfile, rfl⟩ := List.mem_map.mp hpath
    exact (hother (hlock file hfile)).1

theorem keeps_layout : Store.Keeps (Layout paths g) paths.pending where
  directory _ up _ h := (Steers.makeDirs h.real paths up).layout h
  lock _ _ hok h := (Preserves.touch h.real paths hok).layout h
  file w _ _ hok h := by
    have hreal := h.real.replaceFile hok
    obtain ⟨r, hroute, hne, -, rfl⟩ := replaceFile_route hok
    by_cases hlink : ∃ t, w.at? r.place = some (.link t)
    · obtain ⟨t, hat⟩ := hlink
      exact h.replaceLink hroute hat hne hreal
    · refine (Steers.replaceFile h.real paths hok fun r' hr' t hat => hlink ⟨t, ?_⟩).1.layout h
      obtain rfl := Option.some.inj (hroute.symm.trans hr')
      exact hat

/-- A change that leaves alone whatever stands where paths lead, and that only makes directories where
nothing stands, and none in the place of a file. -/
theorem Preserves.of_frame (hcwd : v.cwd = w.cwd) (hreal : v.IsReal)
    (hframe : ∀ q, Bears paths w q → v.at? q = w.at? q ∨
      w.at? q = none ∧ (∀ t, v.at? q ≠ some (.link t)) ∧ ¬ Ends paths w q) : Preserves paths w v := by
  have hkeeps : ∀ q, Bears paths w q → ∀ n, w.at? q = some n → v.at? q = some n := by
    intro q hq n hat
    rcases hframe q hq with hsame | ⟨hfree, -⟩
    · rw [hsame, hat]
    · simp [hfree] at hat
  constructor
  case toSteers =>
    refine ⟨hcwd, hreal, fun q hq t => ?_⟩
    rcases hframe q hq with hsame | ⟨hfree, hplain, -⟩
    · rw [hsame]
    · simp [hfree, hplain t]
  case keeps => exact fun path hpath q hq => hkeeps q (.inl ⟨path, mem_followed hpath, hq⟩)
  case stays => exact fun q hq n hat => .inl (hkeeps q hq n hat)
  case ends =>
    intro q hq hat
    rcases hframe q (.inr hq) with hsame | ⟨-, -, hnot⟩
    · exact .inl (hsame.trans hat)
    · exact absurd hq hnot

theorem Preserves.filled {base : String} {p : Place} (h : w.Filled base p v)
    (hbase : ∀ q, Bears paths w q → ¬ p <+: q) (hends : ∀ q, Ends paths w q → q ∉ w.onWay base) :
    Preserves paths w v := by
  refine .of_frame h.changes.advances.cwd h.real fun q hq => ?_
  by_cases hsame : v.at? q = w.at? q
  · exact .inl hsame
  · rcases h.changes.only q hsame with ⟨hfree, hway⟩ | hbelow
    · refine .inr ⟨hfree, fun t hlink => ?_, fun hq => hends q hq hway⟩
      simpa [hfree] using h.changes.advances.link q t hlink
    · exact absurd hbelow (hbase q hq)

/-- A package may be copied into the directory. -/
theorem Layout.copyPackage (hw : Layout paths g w) {name : String} (hsafe : isSafeName name = true)
    (root : String) :
    Preserves paths w (copyPackage root (Path.join paths.skillsDir name) w).2 := by
  have hname := isName_of_isSafeName hsafe
  have hstaged := isName_stagingName hsafe
  have hgoal : ∀ g', w.goal? paths.skillsDir = some g' → g' = g := fun g' hg =>
    Option.some.inj (hg.symm.trans hw.directory)
  have hstaging : ∀ g', w.goal? paths.skillsDir = some g' → ∀ q ∈ w.onWay paths.skillsDir,
      ¬ g'.place ++ [stagingName name] <+: q := fun g' hg q hq =>
    hgoal g' hg ▸ hw.packages q (.inr (.inl ⟨_, by simp [Paths.followed], hq⟩)) _
  obtain ⟨hreal, hcwd⟩ := copyPackage_real hw.real.toIsTree hname hstaged hstaging hw.real
    (fun g' hg => hgoal g' hg ▸ hw.packages _ (.inl rfl)) root
  refine .of_frame hcwd hreal fun q hq => ?_
  rcases copyPackage_frame hw.real.toIsTree hname hstaged hstaging root q with
    hsame | ⟨hway, hfree, hdir⟩ | ⟨g', hg, hswap⟩
  · exact .inl hsame
  · exact .inr ⟨hfree, by simp [hdir], fun hq => hw.shelf q hq hway⟩
  · obtain rfl := hgoal g' hg
    exact absurd hswap (not_or.mpr ⟨hw.packages q (.inr hq) _, hw.packages q (.inr hq) _⟩)

end Layout

/-! Commands that read. -/

section Read
variable (c : Context) (w : World)

theorem Context.locate_world (path : String) : (c.locate path w).2 = w := by
  rw [c.locate_eq]
  split <;> rfl

theorem Context.gate_world : (c.gate w).2 = w := by
  rcases c.gate_cases w with ⟨e, he⟩ | ⟨g, l, hgate, -⟩
  · rw [he]
  · rw [hgate]

theorem onState_world {α : Type} (act : SkillAudit.Act α) : (Act.onState act w).2 = (act w).2 := by
  unfold Act.onState
  split
  next heq => rw [heq]
  next heq => rw [heq]

theorem onLedger_world {α : Type} (l : Ledger) (act : Ledger.Act α) :
    (Act.onLedger l act w).2 = (act (l, w)).2.2 := by
  unfold Act.onLedger
  split
  next heq => rw [heq]
  next heq => rw [heq]

variable {c w}

/-- An action that begins by reading leaves the tree as it is, if what follows does. -/
theorem bind_world {α β : Type} {x : Act α} {f : α → Act β} (hx : (x w).2 = w)
    (hf : ∀ a, (f a w).2 = w) : ((x >>= f) w).2 = w :=
  Act.bind_holds (P := (· = w)) hx fun a t _ ht => by rw [ht, hf a]

def Reads : CommandLine.Command → Prop
  | .scanHub _ | .install .. | .approve .. | .revoke _ | .watch _ => False
  | _ => True

theorem perform_reads {command : CommandLine.Command} (h : Reads command) (c : Context) (w : World) :
    (Program.perform c command w).2 = w := by
  -- What is left after the rules, the ledger and the gate have been read is a result.
  cases command with
  | scanHub | install | approve | revoke | watch => exact h.elim
  | scan path =>
    exact bind_world (c.locate_world w path) fun _ => bind_world (c.rules_world w) fun _ =>
      bind_world rfl fun _ => liftExcept_world _ w
  | check | policy => exact bind_world (c.rules_world w) fun _ => rfl
  | batch dir =>
    refine bind_world rfl fun v => ?_
    split
    · rfl
    · exact bind_world (c.rules_world w) fun _ => bind_world rfl fun _ => liftExcept_world _ w
  | ledger name markdown =>
    refine bind_world rfl fun l => ?_
    split <;> rfl
  | verify path =>
    refine bind_world (c.gate_world w) fun ⟨gate, l⟩ => bind_world ?_ fun _ => rfl
    rw [onLedger_world, gate.verify_untouched]
  | diff old new =>
    refine bind_world rfl fun v => ?_
    cases [old, new].find? fun dir => !v.isDir dir with
    | some dir => rfl
    | none => exact bind_world (c.rules_world w) fun _ => rfl
  | runtime path =>
    refine bind_world rfl fun v => ?_
    split <;> rfl
  | status => exact bind_world rfl fun _ => bind_world (c.rules_world w) fun _ => rfl

end Read

/-! Commands that write. -/

/-- A review that waits for a name: the rules are still those by which it was left, and what has to
be written when it is acted on can be written. -/
structure Awaits (paths : Paths) (g r : Route) (rules : String) (name : String)
    (review : PendingReview) (w : World) : Prop where
  layout : Layout paths g w
  stored : ∃ reviews : Dict PendingReview,
    Pending.Stored w paths.pending r reviews ∧ reviews.get? name = some review
  rules : ∀ path ∈ paths.rules, w.readText path = .ok rules
  ready : ∀ path ∈ paths.records, Store.Ready w path

section Awaits
variable {paths : Paths} {g r : Route} {rules name : String} {review : PendingReview} {w v : World}

theorem readText_of_read? {path text : String} (h : Store.read? w path = some text) :
    w.readText path = .ok text := by
  unfold Store.read? at h
  cases hread : w.readText path with
  | error e => simp [hread, Except.toOption] at h
  | ok found => simpa [hread, Except.toOption] using h

theorem readText_keeps {path text : String} (hcwd : v.cwd = w.cwd)
    (hkeeps : ∀ q ∈ w.onWay path, ∀ n, w.at? q = some n → v.at? q = some n)
    (h : w.readText path = .ok text) : v.readText path = .ok text := by
  unfold readText readFile at h ⊢
  cases hfind : w.find path with
  | error e =>
    rw [hfind] at h
    cases h
  | ok found =>
    rw [hfind] at h
    rw [find_keeps_passed hcwd hkeeps hfind]
    exact h

theorem ready_keeps (hready : ∀ path ∈ paths.records, Store.Ready w path) (hcwd : v.cwd = w.cwd)
    (hstays : ∀ q, Bears paths w q → w.Stays v q)
    (hends : ∀ q, Ends paths w q → w.at? q = none → v.Admits q) :
    ∀ path ∈ paths.records, Store.Ready v path := by
  intro path hpath
  have hmem := Paths.mem_stateFiles hpath
  obtain ⟨hfile, hlock⟩ := Paths.stateFile_followed hmem
  refine (hready path hpath).keeps hcwd (fun p hp => hstays p (.inl ?_)) fun q husable =>
    hends q ⟨path, hmem, ?_⟩
  · rcases hp with hp | hp
    · exact ⟨path, hfile, hp⟩
    · exact ⟨_, hlock, hp⟩
  · rcases husable with husable | husable
    · obtain ⟨links, hcourse⟩ := husable.course
      exact .inl ⟨⟨links, q⟩, hcourse, rfl⟩
    · obtain ⟨links, hcourse⟩ := husable.course
      exact .inr ⟨⟨links, q⟩, hcourse, rfl⟩

theorem Awaits.preserved (h : Awaits paths g r rules name review w) (hv : Preserves paths w v) :
    Awaits paths g r rules name review v := by
  obtain ⟨reviews, ⟨hstanding, hstorable⟩, hget⟩ := h.stored
  constructor
  case layout => exact hv.layout h.layout
  case stored =>
    exact ⟨reviews, ⟨hstanding.keeps hv.cwd (hv.keeps _ (by simp))
      (hv.keeps _ (by simp [Paths.consulted])), hstorable⟩, hget⟩
  case rules =>
    exact fun path hpath => readText_keeps hv.cwd
      (hv.keeps path (by simp [Paths.consulted, Option.mem_def.mp hpath])) (h.rules path hpath)
  case ready => exact ready_keeps h.ready hv.cwd hv.stays hv.ends

theorem keeps_awaits {path : String} (hpath : path ∈ paths.records) :
    Store.Keeps (Awaits paths g r rules name review) path where
  directory _ _ hup h := by rwa [(h.ready path hpath).directory hup]
  lock _ _ hok h := h.preserved (.touch h.layout.real paths hok)
  file _ _ _ hok h := h.preserved (h.layout.replaceRecord hpath (h.ready path hpath) hok)

/-- Other reviews may be stored beside it. -/
theorem Awaits.put (h : Awaits paths g r rules name review w) {new : Dict PendingReview}
    (hnew : Pending.Storable new) (hget : new.get? name = some review) :
    Awaits paths g r rules name review (w.put r.place (.file (Pending.bytes new))) := by
  obtain ⟨reviews, hstored, -⟩ := h.stored
  have hholds := hstored.standing.holds
  have hapart := h.layout.reviews r hholds.route
  obtain ⟨hsteers, hstays⟩ := Steers.replaceFile h.layout.real paths
    (hholds.replaceFile (Pending.bytes new)) fun r' hr' t hat => by
      obtain rfl := Option.some.inj (hholds.route.symm.trans hr')
      simp [hholds.at?] at hat
  constructor
  case layout => exact hsteers.layout h.layout
  case stored => exact ⟨new, hstored.put (hapart _ (by simp [Paths.consulted])) hnew, hget⟩
  case rules =>
    intro path hpath
    refine readText_keeps hsteers.cwd (fun q hq n hat => ?_) (h.rules path hpath)
    rwa [at?_put_ne w]
    rintro rfl
    exact hapart path (by simp [Paths.consulted, Option.mem_def.mp hpath]) hq
  case ready => exact ready_keeps h.ready hsteers.cwd (fun q _ => (hstays q).1) fun q _ => (hstays q).2

theorem Awaits.record (h : Awaits paths g r rules name review w) {d : Decision}
    (hother : d.name ≠ name) (hfits : d.Fits) (now : Instant) (root : String)
    (source : Option String) :
    Awaits paths g r rules name review (Pending.record paths.pending now d root source w).2 := by
  obtain ⟨reviews, hstored, hget⟩ := h.stored
  rw [hstored.record_eq]
  refine h.put (hstored.storable.insert d.name hfits) ?_
  rw [Dict.get?_insert, if_neg hother.symm, hget]

theorem Awaits.take (h : Awaits paths g r rules name review w) {other : String}
    (hother : other ≠ name) :
    Awaits paths g r rules name review (Pending.take paths.pending other w).2 := by
  obtain ⟨reviews, hstored, hget⟩ := h.stored
  cases htaken : reviews.get? other with
  | none => rwa [hstored.take_none htaken]
  | some taken =>
    rw [hstored.take_eq htaken]
    refine h.put (hstored.storable.erase other) ?_
    rw [Dict.get?_erase, if_neg hother.symm, hget]

end Awaits

/-! What each command leaves. -/

section Perform
variable {c : Context} {g r : Route} {rules n : String} {review : PendingReview} {w : World}

theorem keeps_ledger : Store.Keeps (Awaits c.paths g r rules n review) c.paths.ledger ∧
    ∀ path ∈ c.paths.ledgerMarkdown, Store.Keeps (Awaits c.paths g r rules n review) path :=
  ⟨keeps_awaits (by simp [Paths.records]), fun _ hpath =>
    keeps_awaits (by simp [Paths.records, Option.mem_def.mp hpath])⟩

/-- Whatever is done with the ledger, the review waits. -/
theorem Awaits.onLedger (h : Awaits c.paths g r rules n review w) {α : Type} (l : Ledger)
    {act : Ledger.Act α}
    (hact : Ledger.Confined (Awaits c.paths g r rules n review) (l, w) (act (l, w)).2) :
    Awaits c.paths g r rules n review (Act.onLedger l act w).2 := by
  rw [onLedger_world]
  exact hact.world h

theorem Awaits.installFrom (h : Awaits c.paths g r rules n review w) {path source : String}
    {name : Option String} {dryRun : Bool}
    (hother : ∀ i v, installFrom c path source name dryRun w = (.ok i, v) →
      i.decision.name ≠ n ∧ i.decision.Fits) :
    Awaits c.paths g r rules n review (installFrom c path source name dryRun w).2 := by
  have hjudge := judge_keeps keeps_ledger.1 keeps_ledger.2 path source name h
  rcases hj : judge c path source name w with ⟨e | j, v⟩
  · rw [hj] at hjudge
    rwa [Command.installFrom, Act.bind_of_error hj]
  rw [hj] at hjudge
  by_cases hcopied : j.IsCopied dryRun v
  · obtain ⟨-, hsafe, hplace, -, -, hsame⟩ := judge_ok hj
    obtain rfl := hsame (by simp [hcopied.1])
    have hcopy := h.preserved (h.layout.copyPackage hsafe j.root)
    rw [← hplace] at hcopy
    rcases hrun : Command.installFrom c path source name dryRun v with ⟨result, v'⟩
    rcases installFrom_copied hj hcopied hrun with ⟨e, -, hdone⟩ | ⟨hdone, -⟩
    · rwa [hdone] at hcopy
    · rwa [hdone] at hcopy
  · rcases carryOut_cases (c := c) hcopied with ⟨result, -, heq⟩ | ⟨-, heq⟩
    · rw [Command.installFrom, Act.bind_of_ok hj, Act.bind_of_ok heq]
      exact hjudge
    · -- The review of another package is stored beside this one.
      obtain ⟨reviews, hstored, -⟩ := hjudge.stored
      obtain ⟨u, hrecord⟩ : ∃ u, Pending.record c.paths.pending c.now j.decision j.root
          (some j.source) v = (.ok (), u) := ⟨_, hstored.record_eq _ _ _ _⟩
      have hstate : Act.onState (Pending.record c.paths.pending c.now j.decision j.root
          (some j.source)) v = (.ok (), u) := by rw [Act.onState, hrecord]
      rw [Act.bind_of_ok hstate] at heq
      have hrun : Command.installFrom c path source name dryRun w =
          (.ok ⟨j.decision, .pendingReview, none, j.source⟩, u) := by
        rw [Command.installFrom, Act.bind_of_ok hj, Act.bind_of_ok heq]
        rfl
      obtain ⟨hname, hfits⟩ := hother _ _ hrun
      have hkept := hjudge.record hname hfits c.now j.root (some j.source)
      rw [hrecord] at hkept
      rwa [hrun]

/-- Packages from a hub are written apart from what the state files and the packages are reached by,
and not below a state file or a lock. -/
def Aside (c : Context) (w : World) : Prop :=
  ∃ p, w.Scratch c.scratch p ∧ (∀ q, Bears c.paths w q → ¬ p <+: q) ∧
    ∀ q, Ends c.paths w q → q ∉ w.onWay c.scratch

theorem Awaits.fetch (h : Awaits c.paths g r rules n review w) (haside : Aside c w) (id : String) :
    Awaits c.paths g r rules n review (c.fetch id w).2 := by
  obtain ⟨p, hscratch, hbase, hends⟩ := haside
  exact h.preserved (.filled (Context.fetch_filled h.layout.real hscratch id) hbase hends)

theorem Awaits.candidate (h : Awaits c.paths g r rules n review w) (haside : Aside c w) (target : String) :
    Awaits c.paths g r rules n review (candidate c target w).2 := by
  rw [Command.candidate, Act.bind_of_ok (x := get) rfl]
  split
  · exact h
  · split
    · exact h
    · exact Act.bind_holds (h.fetch haside target) fun _ _ _ h => h

theorem Awaits.installation (h : Awaits c.paths g r rules n review w) (haside : Aside c w)
    {target : String} {name : Option String} {dryRun : Bool}
    (hother : ∀ i v, installation c target name dryRun w = (.ok i, v) →
      i.decision.name ≠ n ∧ i.decision.Fits) :
    Awaits c.paths g r rules n review (installation c target name dryRun w).2 := by
  refine Act.bind_holds (h.candidate haside target) fun ⟨path, source⟩ v hcandidate h => ?_
  refine h.installFrom fun i u hrun => hother i u ?_
  rw [Command.installation, Act.bind_of_ok hcandidate]
  exact hrun

theorem Awaits.approve (h : Awaits c.paths g r rules n review w) {name : String} (hother : name ≠ n)
    (purpose : Option String) : Awaits c.paths g r rules n review (approve c name purpose w).2 := by
  rw [Command.approve, Act.bind_of_ok (x := get) rfl]
  cases Pending.get? w c.paths.pending name with
  | none => exact h
  | some found =>
    simp only
    rcases c.gate_cases w with ⟨e, he⟩ | ⟨gate, l, hgate, -, rfl⟩
    · rwa [Act.bind_of_error he]
    rw [Act.bind_of_ok hgate]
    refine Act.bind_holds (h.onLedger _ (Ledger.add_confined _ keeps_ledger.1 keeps_ledger.2 _ _))
      fun _ u _ h => Act.bind_holds ?_ fun _ _ _ h => h
    rw [Act.discard_world, onState_world]
    exact h.take hother

theorem Awaits.revoke (h : Awaits c.paths g r rules n review w) (name : String) :
    Awaits c.paths g r rules n review (revoke c name w).2 := by
  rw [Command.revoke, Act.bind_of_ok (x := c.ledger) rfl]
  refine Act.bind_holds
    (h.onLedger _ (Ledger.revoke_confined _ keeps_ledger.1 keeps_ledger.2 _ _)) fun ⟨revoked, l⟩ u _ h => ?_
  cases revoked with
  | false => exact h
  | true => exact h

theorem Awaits.watch (h : Awaits c.paths g r rules n review w) (dir : Option String) :
    Awaits c.paths g r rules n review (watch c dir w).2 := by
  rw [Command.watch, Act.bind_of_ok (x := get) rfl]
  split
  · exact h
  refine Act.bind_holds (by rwa [c.rules_world]) fun rules v _ h => ?_
  rw [Act.bind_of_ok (x := c.ledger) rfl]
  refine Act.bind_holds (h.onLedger _ (Watcher.run_confined _ ?_ _ _)) fun _ _ _ h => h
  exact keeps_awaits (by simp [Paths.records])

/-- A command that does not concern the review for a name. -/
def Elsewhere (c : Context) (n : String) (w : World) : CommandLine.Command → Prop
  | .install target name dryRun => ∀ i v, installation c target name dryRun w = (.ok i, v) →
      i.decision.name ≠ n ∧ i.decision.Fits
  | .approve name _ => name ≠ n
  | _ => True

/-- A review waits while commands concern other names. -/
theorem Awaits.perform (h : Awaits c.paths g r rules n review w) (haside : Aside c w)
    {command : CommandLine.Command} (hother : Elsewhere c n w command) :
    Awaits c.paths g r rules n review (Program.perform c command w).2 := by
  cases command with
  | scanHub id =>
    refine Act.bind_holds (h.fetch haside id) fun ⟨package, root⟩ v _ h => ?_
    refine Act.bind_holds (by rwa [c.rules_world]) fun rules v _ h => ?_
    rwa [Act.bind_of_ok (x := get) rfl, liftExcept_world]
  | install target name dryRun =>
    exact Act.bind_holds (h.installation haside hother) fun _ _ _ h => h
  | approve name purpose => exact h.approve hother purpose
  | revoke name => exact h.revoke name
  | watch dir => exact h.watch dir
  | scan | check | batch | ledger | verify | diff | policy | runtime | status =>
    rwa [perform_reads (by trivial)]

end Perform

end Command
end SkillAudit
