import Mathlib
import SkillAudit.Proofs.CommandContext
import SkillAudit.Proofs.StatePlaces
import SkillAudit.Proofs.WayKept

/-!
Packages from a hub. Whatever a hub serves is written below one directory: its paths have been
checked, and no link there leads out.
-/
namespace SkillAudit

namespace World

/-- What is found when links are followed is no link. -/
theorem leads_follow {w : World} {slash : Bool} {links : Nat} {here p : Place} {names : List String}
    {trail : List Place} {n : Node} (h : Leads w true slash links here names trail (.taken p n))
    (t : String) : n ≠ .link t := by
  generalize hs : Spot.taken p n = s at h
  induction h with
  | here | file =>
    cases hs
    simp
  | free => cases hs
  | link _ _ _ hfollow => cases hfollow
  | idle _ _ ih | up _ _ _ ih | down _ _ _ _ ih | through _ _ _ _ _ _ ih => exact ih hs

/-- The same links in the same places. -/
structure SameLinks (w v : World) : Prop where
  cwd : v.cwd = w.cwd
  links : ∀ q t, v.at? q = some (.link t) ↔ w.at? q = some (.link t)

section SameLinks
variable {w v u : World}

theorem SameLinks.refl (w : World) : SameLinks w w := ⟨rfl, fun _ _ => Iff.rfl⟩

theorem SameLinks.route? (h : SameLinks w v) (path : String) : v.route? path = w.route? path :=
  (way_of_links h.cwd fun q _ => h.links q).2.2

theorem SameLinks.grows (h : SameLinks w v) (hu : v.Grows u) : SameLinks w u where
  cwd := hu.cwd.trans h.cwd
  links q t := ⟨fun hat => (h.links q t).mp (hu.link hat), fun hat => hu.keeps q _ ((h.links q t).mpr hat)⟩

theorem SameLinks.writeFile {path : String} {bytes : ByteArray} (h : SameLinks w v)
    (hok : v.writeFile path bytes = .ok u) : SameLinks w u := by
  obtain ⟨-, spot, hspot, hdir, rfl⟩ := writeFile_spot hok
  obtain ⟨trail, hleads⟩ := leads_of_resolve hspot
  have hne := (leads_place_free hleads hdir).1
  have hlink : ∀ t, v.at? spot.place ≠ some (.link t) := by
    intro t ht
    cases spot with
    | free p => simp [Spot.place, (leads_free hleads).1] at ht
    | taken p n =>
      rcases leads_taken hleads with rfl | ⟨hat, -⟩
      · exact hdir p rfl
      · exact leads_follow hleads t (Option.some.inj (hat.symm.trans ht))
  refine ⟨h.cwd, fun q t => ?_⟩
  rw [← h.links]
  rcases eq_or_ne q spot.place with rfl | hq
  · rw [at?_put_self _ hne]
    simp [hlink t]
  · rw [at?_put_ne _ hq]

end SameLinks

/-- A path to a place at and below which no link stands. -/
structure Scratch (w : World) (base : String) (p : Place) : Prop where
  goal : ∃ g, w.goal? base = some g ∧ g.place = p
  plain : ∀ rest t, w.at? (p ++ rest) ≠ some (.link t)

section Scratch
variable {w v : World} {base path : String} {p : Place}

theorem Scratch.of_links (hs : Scratch w base p) (h : SameLinks w v) : Scratch v base p := by
  refine ⟨?_, fun rest t ht => hs.plain rest t ((h.links _ _).mp ht)⟩
  rw [(way_of_links h.cwd fun q _ => h.links q).1]
  exact hs.goal

theorem Scratch.extend (hs : Scratch w base p) {ns : List String} (hns : ∀ n ∈ ns, IsStep n)
    (habs : Path.isAbsolute path = Path.isAbsolute base)
    (hsteps : Path.steps path = Path.steps base ++ ns) :
    (∃ g, w.goal? path = some g ∧ g.place = p ++ ns) ∧
      ∀ q ∈ w.onWay path, q ∈ w.onWay base ∨ p <+: q := by
  obtain ⟨g, hgoal, rfl⟩ := hs.goal
  have hstart : w.start path = w.start base := by rw [start, start, habs]
  obtain ⟨hcourse, hpasses⟩ := @course_down _ (linkLimit - g.links.length) _ _ hns hs.plain
  rw [goal?_eq] at hgoal
  constructor
  · refine ⟨⟨g.links, g.place ++ ns⟩, ?_, rfl⟩
    rw [goal?_eq, hstart, hsteps, course_append hgoal (by simp), hcourse]
    simp
  · intro q hq
    rw [onWay, hstart, hsteps, passes_append hgoal, List.mem_append, hpasses] at hq
    rcases hq with hq | ⟨ms, -, -, rfl⟩
    · exact .inl hq
    · exact .inr ⟨ms, rfl⟩

/-- A tree in which something has been written at a scratch place. -/
structure Filled (w : World) (base : String) (p : Place) (v : World) : Prop where
  scratch : Scratch v base p
  changes : w.Changes (fun q => (w.at? q = none ∧ q ∈ w.onWay base) ∨ p <+: q) v
  real : v.IsReal

variable {ns : List String} (hns : ∀ n ∈ ns, IsStep n)
  (habs : Path.isAbsolute path = Path.isAbsolute base)
  (hsteps : Path.steps path = Path.steps base ++ ns)

theorem Filled.builds (h : Filled w base p v) {Q : Place → Prop} {u : World} (hu : Builds Q v u)
    (hQ : ∀ q, Q q → q ∈ w.onWay base ∨ p <+: q) (hreal : u.IsReal) : Filled w base p u := by
  refine ⟨h.scratch.of_links ⟨hu.cwd, fun q t => ?_⟩,
    h.changes.builds hu fun q hfree hq => (hQ q hq).imp_left (⟨hfree, ·⟩), hreal⟩
  rcases hu.made q with hsame | ⟨hfree, hdir, -⟩
  · rw [hsame]
  · simp [hfree, hdir]

include hns habs hsteps

theorem Filled.makeDirs (h : Filled w base p v) (hw : Scratch w base p) {up : String}
    (hup : Path.parent path = some up ∨ up = path) : Filled w base p (v.makeDirs up).2 := by
  refine h.builds (h.changes.advances.makeDirs up) (fun q hq => ?_) (h.real.makeDirs up)
  refine (hw.extend hns habs hsteps).2 q ?_
  rcases hup with hup | rfl
  · exact onWay_parent hup w hq
  · exact hq

theorem Filled.writeFile (h : Filled w base p v) {u : World} {bytes : ByteArray}
    (hok : v.writeFile path bytes = .ok u) : Filled w base p u := by
  have hreal := h.real.writeFile hok
  have hlinks := (SameLinks.refl v).writeFile hok
  obtain ⟨g, hgoal, hne, -, rfl⟩ := writeFile_ok hok
  obtain ⟨g', hgoal', hplace⟩ := (h.scratch.extend hns habs hsteps).1
  obtain rfl : g = g' := Option.some.inj (hgoal.symm.trans hgoal')
  exact ⟨h.scratch.of_links hlinks, h.changes.putFile hne (.inr ⟨ns, hplace.symm⟩) bytes, hreal⟩

end Scratch
end World

theorem exists_of_mapM_ok {α β ε : Type} {f : α → Except ε β} {xs : List α} {ys : List β}
    (h : xs.mapM f = .ok ys) : ∀ y ∈ ys, ∃ x ∈ xs, f x = .ok y := by
  induction xs generalizing ys with
  | nil =>
    rw [List.mapM_nil] at h
    cases h
    simp
  | cons x xs ih =>
    rw [List.mapM_cons] at h
    cases hx : f x with
    | error e =>
      rw [hx] at h
      cases h
    | ok y =>
      cases hrest : xs.mapM f with
      | error e =>
        rw [hx, hrest] at h
        cases h
      | ok rest =>
        rw [hx, hrest] at h
        cases h
        refine List.forall_mem_cons.mpr ⟨⟨x, by simp, hx⟩, fun z hz => ?_⟩
        obtain ⟨a, ha, haz⟩ := ih hrest z hz
        exact ⟨a, by simp [ha], haz⟩

namespace RemoteFile

theorem safeNames {f : RemoteFile} {names : List String} (h : f.safeNames? = some names) :
    names ≠ [] ∧ ∀ n ∈ names, World.IsStep n ∧ '/' ∉ n.toList := by
  unfold safeNames? at h
  split at h
  · cases h
  · simp only at h
    split at h
    · cases h
    next hsafe =>
      obtain rfl := Option.some.inj h
      simp only [Bool.or_eq_true, List.isEmpty_iff, not_or] at hsafe
      refine ⟨hsafe.1, fun n hn => ?_⟩
      obtain ⟨hmem, hdot⟩ := List.mem_filter.mp hn
      have hup : n ≠ ".." := by
        rintro rfl
        exact hsafe.2 (List.contains_iff_mem.mpr hn)
      have hpiece : n ∈ Path.pieces f.path ∧ n ≠ "" := by
        unfold Path.names at hmem
        cases hpieces : Path.pieces f.path with
        | nil => simp [hpieces] at hmem
        | cons first rest =>
          simp only [hpieces, List.mem_append] at hmem
          rcases hmem with hmem | hmem
          · split at hmem
            · simp at hmem
            next hne =>
              obtain rfl := List.mem_singleton.mp hmem
              exact ⟨by simp, by simpa using hne⟩
          · obtain ⟨hmem, hbusy⟩ := List.mem_filter.mp hmem
            refine ⟨by simp [hmem], ?_⟩
            rintro rfl
            simp [Path.isIdle] at hbusy
      refine ⟨⟨?_, by simpa using hup⟩, Path.slashless_of_mem_pieces hpiece.1⟩
      simpa [World.walk.isIdle, hpiece.2] using hdot

end RemoteFile

namespace RemotePackage

theorem directory_step (p : RemotePackage) :
    World.IsStep p.directory ∧ '/' ∉ p.directory.toList := by
  have hplain : ∀ name, isPlainName name = true → World.IsStep name ∧ '/' ∉ name.toList := by
    intro name h
    simp only [isPlainName, Bool.and_eq_true, bne_iff_ne, ne_eq, Bool.not_eq_true',
      List.any_eq_false] at h
    obtain ⟨⟨⟨hne, hhere⟩, hup⟩, hchars⟩ := h
    refine ⟨⟨?_, by simpa using hup⟩, fun hc => ?_⟩
    · simp [World.walk.isIdle, hne, hhere]
    · simpa using hchars _ hc
  unfold directory
  cases hfind : [p.name, p.id].find? isPlainName with
  | some name => exact hplain name (List.find?_some hfind)
  | none => exact hplain "skill" (by decide)

theorem plan_mem {p : RemotePackage} {files : List (List String × RemoteFile)}
    (h : p.plan = .ok files) : ∀ x ∈ files, x.2.safeNames? = some x.1 := by
  intro x hx
  obtain ⟨f, -, hf⟩ := exists_of_mapM_ok h x hx
  split at hf
  next names hnames =>
    obtain rfl := Except.ok.inj hf
    exact hnames
  next => cases hf

theorem steps_intercalate {names : List String} (hne : names ≠ [])
    (hnames : ∀ n ∈ names, World.IsStep n ∧ '/' ∉ n.toList) :
    Path.isAbsolute (String.intercalate "/" names) = false ∧
      Path.steps (String.intercalate "/" names) = names := by
  have hpieces := Path.pieces_intercalate hne fun n hn => (hnames n hn).2
  have hbusy : ∀ n ∈ names, Path.isIdle n = false := fun n hn => (hnames n hn).1.busy
  constructor
  · cases names with
    | nil => exact absurd rfl hne
    | cons first rest =>
      refine Bool.eq_false_iff.mpr fun habs => ?_
      have hempty := ((Path.isAbsolute_iff hpieces).mp habs).1
      simp [hempty, Path.isIdle] at hbusy
  · rw [Path.steps, hpieces]
    exact List.filter_eq_self.mpr fun n hn => by simp [hbusy n hn]

theorem steps_directory (package : RemotePackage) (base : String) :
    Path.isAbsolute (Path.join base package.directory) = Path.isAbsolute base ∧
      Path.steps (Path.join base package.directory) = Path.steps base ++ [package.directory] := by
  have hdown : ∀ n ∈ [package.directory], World.IsStep n ∧ '/' ∉ n.toList := by
    simpa using package.directory_step
  obtain ⟨habs, hsteps⟩ := steps_intercalate (by simp) hdown
  rw [String.intercalate_singleton] at habs hsteps
  exact ⟨Path.isAbsolute_join habs base, by rw [Path.steps_join habs, hsteps]⟩

/-! Writing a package. What holds of a tree and is kept when directories are made and files are
written holds afterwards, whether or not all could be written. -/

section Keeps
variable {P : World → Prop} {v : World} {root : String}

theorem makeDirs_keeps {path : String} (hdirs : P v → P (v.makeDirs path).2) (h : P v) :
    P (Write.makeDirs path v).2 := by
  have hmade := hdirs h
  unfold Write.makeDirs
  split
  next v' heq => rwa [heq] at hmade
  next e v' heq => rwa [heq] at hmade

theorem put_keeps {path : String} {bytes : ByteArray}
    (hfile : ∀ u', v.writeFile path bytes = .ok u' → P v → P u') (h : P v) : P ((do
      match (← get).writeFile path bytes with
      | .ok w => set w
      | .error e => throw (.file path e) : Write Unit) v).2 := by
  rw [Act.bind_of_ok (x := get) rfl]
  cases hok : v.writeFile path bytes with
  | error e => exact h
  | ok u' => exact hfile u' hok h

theorem writeFile_keeps {names : List String} {f : RemoteFile}
    (hdirs : ∀ u up, Path.parent (Path.join root (String.intercalate "/" names)) = some up →
      P u → P (u.makeDirs up).2)
    (hfile : ∀ u bytes u', u.writeFile (Path.join root (String.intercalate "/" names)) bytes = .ok u' →
      P u → P u') (h : P v) : P (writeFile root names f v).2 := by
  unfold writeFile
  cases f.bytes? with
  | none => exact h
  | some bytes =>
    simp only
    cases hup : Path.parent (Path.join root (String.intercalate "/" names)) with
    | none => exact put_keeps (hfile v bytes) h
    | some up =>
      exact Act.bind_keeps (R := fun a b => P a → P b) (fun h h' => h' ∘ h)
        (makeDirs_keeps (hdirs v up hup)) (fun _ u _ => put_keeps (hfile u bytes)) h

theorem writeFiles_keeps {files : List (List String × RemoteFile)}
    (hdirs : ∀ x ∈ files, ∀ u up,
      Path.parent (Path.join root (String.intercalate "/" x.1)) = some up → P u → P (u.makeDirs up).2)
    (hfile : ∀ x ∈ files, ∀ u bytes u',
      u.writeFile (Path.join root (String.intercalate "/" x.1)) bytes = .ok u' → P u → P u')
    (h : P v) : P (files.forM (fun (names, f) => writeFile root names f) v).2 := by
  induction files generalizing v with
  | nil => exact h
  | cons x files ih =>
    rw [List.forM_eq_forM, List.forM_cons]
    rw [List.forall_mem_cons] at hdirs hfile
    exact Act.bind_keeps (R := fun a b => P a → P b) (fun h h' => h' ∘ h)
      (writeFile_keeps hdirs.1 hfile.1) (fun _ _ _ => ih hdirs.2 hfile.2) h

theorem writeTo_keeps (package : RemotePackage) (hroot : P v → P (v.makeDirs root).2)
    (hdirs : ∀ names f, RemoteFile.safeNames? f = some names → ∀ u up,
      Path.parent (Path.join root (String.intercalate "/" names)) = some up →
        P u → P (u.makeDirs up).2)
    (hfile : ∀ names f, RemoteFile.safeNames? f = some names → ∀ u bytes u',
      u.writeFile (Path.join root (String.intercalate "/" names)) bytes = .ok u' → P u → P u')
    (h : P v) : P (package.writeTo root v).2 := by
  unfold writeTo
  cases hplan : package.plan with
  | error e => exact h
  | ok files =>
    have hsafe := plan_mem hplan
    exact Act.bind_keeps (R := fun a b => P a → P b) (fun h h' => h' ∘ h) (makeDirs_keeps hroot)
      (fun _ _ _ => writeFiles_keeps (fun x hx => hdirs x.1 x.2 (hsafe x hx))
        fun x hx => hfile x.1 x.2 (hsafe x hx)) h

end Keeps

theorem writeTo_filled {w v : World} {base : String} {p : Place} (hw : w.Scratch base p)
    (package : RemotePackage) (h : w.Filled base p v) :
    w.Filled base p (package.writeTo (Path.join base package.directory) v).2 := by
  obtain ⟨habs, hsteps⟩ := package.steps_directory base
  -- The path of a file leads down from the scratch place by its names.
  have hdown : ∀ names f, RemoteFile.safeNames? f = some names →
      (∀ n ∈ package.directory :: names, World.IsStep n) ∧
      Path.isAbsolute (Path.join (Path.join base package.directory) (String.intercalate "/" names)) =
        Path.isAbsolute base ∧
      Path.steps (Path.join (Path.join base package.directory) (String.intercalate "/" names)) =
        Path.steps base ++ package.directory :: names := by
    intro names f hnames
    obtain ⟨hne, hsafe⟩ := RemoteFile.safeNames hnames
    obtain ⟨hrel, hrest⟩ := steps_intercalate hne hsafe
    refine ⟨List.forall_mem_cons.mpr ⟨package.directory_step.1, fun n hn => (hsafe n hn).1⟩, ?_, ?_⟩
    · rw [Path.isAbsolute_join hrel, habs]
    · rw [Path.steps_join hrel, hsteps, hrest, List.append_assoc, List.singleton_append]
  refine writeTo_keeps package (fun h => ?_) (fun names f hnames u up hup h => ?_)
    (fun names f hnames u bytes u' hok h => ?_) h
  · exact h.makeDirs (by simpa using package.directory_step.1) habs hsteps hw (.inr rfl)
  · obtain ⟨hns, habs, hsteps⟩ := hdown names f hnames
    exact h.makeDirs hns habs hsteps hw (.inl hup)
  · obtain ⟨hns, habs, hsteps⟩ := hdown names f hnames
    exact h.writeFile hns habs hsteps hok

end RemotePackage

namespace Command.Context
variable {c : Context} {w : World}

/-- Fetching a package writes it below the scratch path, if it can be had. -/
theorem fetch_cases (c : Context) (id : String) (w : World) : (c.fetch id w).2 = w ∨
    ∃ package : RemotePackage,
      (c.fetch id w).2 = (package.writeTo (Path.join c.scratch package.directory) w).2 := by
  unfold fetch
  cases Hub.ofBase c.config.hub.baseUrl {} with
  | error e => exact .inl rfl
  | ok hub =>
    simp only
    cases hub.fetch c.send id with
    | error e => exact .inl rfl
    | ok package =>
      simp only
      rw [Act.bind_of_ok (x := get) rfl]
      cases hdone : package.writeTo (Path.join c.scratch package.directory) w with
      | mk result v =>
        refine .inr ⟨package, ?_⟩
        rw [hdone]
        cases result with
        | error e => rfl
        | ok => rfl

/-- Fetching a package changes the tree below the scratch place, and on the way to it. -/
theorem fetch_filled {p : Place} (hw : w.IsReal) (hs : w.Scratch c.scratch p) (id : String) :
    w.Filled c.scratch p (c.fetch id w).2 := by
  have hstart : w.Filled c.scratch p w := ⟨hs, .refl _ w, hw⟩
  rcases c.fetch_cases id w with hsame | ⟨package, hwritten⟩
  · rwa [hsame]
  · rw [hwritten]
    exact package.writeTo_filled hs hstart

theorem fetch_real (hw : w.IsReal) (id : String) : (c.fetch id w).2.IsReal := by
  rcases c.fetch_cases id w with hsame | ⟨package, hwritten⟩
  · rwa [hsame]
  · rw [hwritten]
    exact package.writeTo_keeps (P := World.IsReal) (fun h => h.makeDirs _)
      (fun _ _ _ u up _ h => h.makeDirs up) (fun _ _ _ u bytes u' hok h => h.writeFile hok) hw

/-- Fetching a package makes and removes no link. -/
theorem fetch_links (c : Context) (id : String) (w : World) :
    World.SameLinks w (c.fetch id w).2 := by
  rcases c.fetch_cases id w with hsame | ⟨package, hwritten⟩
  · rw [hsame]
    exact .refl w
  · rw [hwritten]
    exact package.writeTo_keeps (P := World.SameLinks w)
      (fun h => h.grows (World.makeDirsWithin_grows _ _ _))
      (fun _ _ _ _ _ _ h => h.grows (World.makeDirsWithin_grows _ _ _))
      (fun _ _ _ _ _ _ hok h => h.writeFile hok) (.refl w)

end Command.Context
end SkillAudit
