import Mathlib
import SkillAudit.Proofs.HubFetch
import SkillAudit.Proofs.Installation
import SkillAudit.Proofs.PathEvaluation

/-!
Installations that fail. An earlier copy of a package is removed only after the new one has been put
together, and then the new one takes its place; so a failed installation leaves the earlier copy as it
was, provided that there was something to put together.
-/
namespace SkillAudit

namespace World

/-- A directory can be moved to where nothing stands. -/
theorem rename_free {w : World} {source target : String} {p q : Place}
    (hs : w.resolve false source = .ok (.taken p .dir))
    (ht : w.resolve false target = .ok (.free q)) (hnot : ¬ p <+: q) :
    w.rename source target = .ok (w.move p q) := by
  simp only [rename, hs, ht, isPrefixOf_eq_false hnot, Bool.false_eq_true, if_false]

end World

namespace Command
open World

section ReplaceTree
variable {v u t w' : World} {dir up name root : String} {p : Place} {e : Failure}

/-- Once files have been put together, a directory stands at the staging place. -/
theorem Shelf.staged_dir (h : Shelf v dir up name p)
    (hu : clearAway "cannot clear " (Path.join up (stagingName name)) v = (.ok (), u))
    (hfiles : Listing.met u root ≠ [])
    (ht : stage root (Listing.met u root) (Path.join up (stagingName name)) u = (.ok (), t)) :
    t.at? (p ++ [stagingName name]) = some .dir := by
  rcases h.cleared hu with ⟨hready, hnone, -⟩ | ⟨rfl, hlost, htaken⟩
  · exact (h.staged_copy hu hready hnone ht).dir hfiles
  · have hnothing := (stage_blocked root (h.cleared_files hu root).1 h.bench htaken hlost).2
    rw [ht] at hnothing
    exact absurd (hnothing rfl) hfiles

/-- What has been put together can take the place of the earlier copy, if the way there does not lead
through that copy. -/
theorem Shelf.rename_staged (h : Shelf v dir up name p)
    (hway : ∀ q ∈ v.onWay dir, ¬ p ++ [name] <+: q)
    (halters : Alters (p ++ [stagingName name] <+: ·) v t)
    (hdir : t.at? (p ++ [stagingName name]) = some .dir)
    (hstaging : IsPath (Path.join up (stagingName name))) (htarget : IsPath (Path.join dir name)) :
    (t.prune (p ++ [name])).rename (Path.join up (stagingName name)) (Path.join dir name) =
      .ok ((t.prune (p ++ [name])).move (p ++ [stagingName name]) (p ++ [name])) := by
  have hsame := onWay_congr h.absolute h.steps v
  have hbench := h.bench.alters halters
  have haside : ∀ q ∈ t.onWay up, ¬ p ++ [name] <+: q := by
    rw [(h.bench.dir.of_same halters.cwd fun q hq => halters.same q (h.bench.aside q hq)).2, ← hsame]
    exact hway
  obtain ⟨hup, -⟩ := hbench.dir.of_same (v := t.prune (p ++ [name])) rfl
    fun q hq => at?_prune_else (haside q hq)
  have hbeside : ¬ p ++ [name] <+: p ++ [stagingName name] := by
    simpa using @not_staging_of_target p name []
  have hbeside' : ¬ p ++ [stagingName name] <+: p ++ [name] := by
    simpa using @not_target_of_staging p name []
  refine rename_free ?_ ?_ hbeside'
  · refine resolve_join_taken hup h.bench.named hstaging false ?_ (by simp)
    rw [at?_prune_else hbeside, hdir]
  · exact resolve_join_free (hup.congr h.absolute h.steps) h.named htarget false
      (at?_prune_below (by simp) List.prefix_rfl)

/-- Where a package could not be replaced, the earlier copy is as it was, if there was something to
replace it with. -/
theorem Shelf.replaceTree_error (h : Shelf v dir up name p)
    (hway : ∀ q ∈ v.onWay dir, ¬ p ++ [name] <+: q)
    (hfiles : ∀ u, clearAway "cannot clear " (Path.join up (stagingName name)) v = (.ok (), u) →
      Listing.met u root ≠ [])
    (herror : replaceTree root (Path.join up (stagingName name)) (Path.join dir name) v =
      (.error e, w')) (rest : Place) :
    w'.at? (p ++ [name] ++ rest) = v.at? (p ++ [name] ++ rest) := by
  rcases Act.bind_error herror with hclear | ⟨_, u, hu, hlater⟩
  · -- The staging place could not be cleared.
    have halters : Alters (p ++ [stagingName name] <+: ·) v
        (clearAway "cannot clear " (Path.join up (stagingName name)) v).2 :=
      clearAway_alters fun spot hspot q hq => h.bench.place hspot ▸ hq
    rw [hclear] at halters
    exact halters.same _ not_target_of_staging
  have hstaged := (h.cleared_alters hu).trans (h.staged hu root).1
  rw [Act.bind_of_ok (x := get) rfl] at hlater
  rcases Act.bind_error hlater with hstage | ⟨_, t, ht, hlater⟩
  · -- Some file could not be copied.
    rw [hstage] at hstaged
    exact hstaged.same _ not_target_of_staging
  rw [ht] at hstaged
  have hkept := hstaged.same _ (@not_target_of_staging p name rest)
  rcases Act.bind_error hlater with hclear | ⟨_, v', hv', hrename⟩
  · -- The earlier copy could not be removed.
    rw [clearAway_eq] at hclear
    split at hclear
    next => rw [(change_error hclear).1, hkept]
    next => cases hclear
  obtain ⟨rfl, hnever⟩ := change_error hrename
  rcases clearAway_ok hv' with ⟨-, rfl⟩ | ⟨q, n, hq, rfl⟩
  · exact hkept
  · -- Where it has been removed, the new one takes its place.
    have hbench := h.bench.alters hstaged
    obtain ⟨g, hgoal, hplace⟩ := (hbench.dir.congr h.absolute h.steps).goal
    obtain rfl : q = p ++ [name] := hplace ▸ place_of_resolve_join hgoal h.named hq
    have hpath := stage_isPath h.bench.named (h.cleared_files hu root).1 (hfiles u hu) ht
    exact absurd (h.rename_staged hway hstaged (h.staged_dir hu (hfiles u hu) ht) hpath
      (isPath_of_resolve hq)) (hnever _)

end ReplaceTree

/-- Where a package could not be copied, the earlier copy is as it was. The package needs a file that
is not at the staging place, and the path of the directory may not lead through either place. -/
theorem copyPackage_error {w w' : World} {dir name root : String} {e : Failure} {g : Route}
    (hw : w.IsTree) (hname : IsName name) (hstaged : IsName (stagingName name))
    (hgoal : w.goal? dir = some g) (hway : ∀ q ∈ w.onWay dir, ¬ Swaps g.place name q)
    (hfiles : Listing.met (w.prune (g.place ++ [stagingName name])) root ≠ [])
    (herror : copyPackage root (Path.join dir name) w = (.error e, w')) {q : Place}
    (hq : g.place ++ [name] <+: q) : w'.at? q = w.at? q := by
  obtain ⟨up, habs, hsteps, heq⟩ := copyPackage_eq hname root dir
  have hsame := onWay_congr habs hsteps w
  have hbuilds := (Advances.refl w).makeDirs up
  rw [← makeDirs_world, hsame] at hbuilds
  -- The directories that are made are on the way, and the copy is not.
  have hmade : (Act.makeDirs up w).2.at? q = w.at? q := by
    rcases hbuilds.made q with hsame | ⟨-, -, hon⟩
    · exact hsame
    · exact absurd (.inl hq) (hway q hon)
  rw [heq] at herror
  rcases Act.bind_error herror with hdirs | ⟨_, v, hdirs, herror⟩
  · rwa [hdirs] at hmade
  rw [hdirs] at hmade hbuilds
  obtain ⟨_, hg, hshelf, honWay, -⟩ :=
    shelf_of_makeDirs hw hname hstaged (staging_aside hgoal hway) habs hsteps (makeDirs_ok hdirs)
  obtain rfl := Option.some.inj (hgoal.symm.trans hg)
  obtain ⟨rest, rfl⟩ := hq
  rw [hshelf.replaceTree_error ?_ ?_ herror rest, hmade]
  · rw [honWay]
    exact fun q hon hpre => hway q hon (.inl hpre)
  · intro u hu hnil
    obtain ⟨f, hf⟩ := List.exists_mem_of_ne_nil _ hfiles
    have hmem := hshelf.pruned_subset hw.distinct hbuilds hu root hf
    simp [hnil] at hmem

/-! Installing. -/

/-- An earlier copy at a name in the directory for packages that a failed installation does not lose.
`v` is the tree once the package that is to be installed has been found or fetched. -/
structure Guarded (c : Context) (target : String) (name : Option String) (w v : World) (g : Route)
    (last : String) : Prop where
  directory : v.goal? c.paths.skillsDir = some g
  /-- The path of the directory leads neither through the copy nor through the staging copy. -/
  way : ∀ q ∈ v.onWay c.paths.skillsDir, ¬ Swaps g.place last q
  /-- No state is kept in the copy. -/
  state : ∀ q, KeepsState c v q → ¬ g.place ++ [last] <+: q
  /-- What is fetched is not put there either. -/
  scratch : w.pathExists target = true ∨ looksLikePath target = true ∨
    ∃ p, w.Scratch c.scratch p ∧ ∀ q, q ∈ w.onWay c.scratch ∨ p <+: q → ¬ g.place ++ [last] <+: q
  /-- The package has a file to be copied, beside what is removed before that. -/
  package : ∀ path source root, candidate c target w = (.ok (path, source), v) →
    Package.locate? v path c.policy.manifestFile = some root →
      packageName c v root name = last ∧
        Listing.met (v.prune (g.place ++ [stagingName last])) root ≠ []

/-- A package is found here, or fetched. -/
theorem candidate_tree (c : Context) (target : String) (w : World) :
    (candidate c target w).2 = w ∨
      ¬ (w.pathExists target = true ∨ looksLikePath target = true) ∧
        (candidate c target w).2 = (c.fetch target w).2 := by
  by_cases hlocal : w.pathExists target = true ∨ looksLikePath target = true
  · rcases candidate_cases c hlocal with ⟨e, he⟩ | ⟨-, hok⟩
    · exact .inl (by rw [he])
    · exact .inl (by rw [hok])
  · obtain ⟨hpath, hlooks⟩ := not_or.mp hlocal
    refine .inr ⟨hlocal, ?_⟩
    rw [candidate, Act.bind_of_ok (x := get) rfl, if_neg hpath, if_neg hlooks]
    cases hfetch : c.fetch target w with
    | mk result u =>
      cases result with
      | error e => rw [Act.bind_of_error hfetch]
      | ok a =>
        rw [Act.bind_of_ok hfetch]
        rfl

/-- Finding or fetching a package does not change an earlier copy. -/
theorem Guarded.candidate {c : Context} {target last : String} {name : Option String} {w v : World}
    {g : Route} {found : Except Failure (String × String)} (h : Guarded c target name w v g last)
    (hw : w.IsReal) (hfound : candidate c target w = (found, v)) :
    v.IsTree ∧ ∀ q, g.place ++ [last] <+: q → v.at? q = w.at? q := by
  have htree := candidate_tree c target w
  rw [hfound] at htree
  rcases htree with rfl | ⟨hremote, hfetched⟩
  · exact ⟨hw.toIsTree, fun _ _ => rfl⟩
  · obtain ⟨p, hscratch, hbeside⟩ := (or_assoc.mpr h.scratch).resolve_left hremote
    have hfilled := Context.fetch_filled hw hscratch target
    rw [← hfetched] at hfilled
    refine ⟨hfilled.real.toIsTree, fun q hq => ?_⟩
    by_contra hne
    exact hbeside q ((hfilled.changes.only q hne).imp_left And.right) hq

theorem failed_install_keeps_copy {c : Context} {target last : String} {name : Option String}
    {dryRun : Bool} {w v w' : World} {g : Route} {found : Except Failure (String × String)}
    {e : Failure} (hw : w.IsReal) (hfound : candidate c target w = (found, v))
    (hguarded : Guarded c target name w v g last)
    (herror : install c target name dryRun w = (.error e, w')) :
    ∀ q, g.place ++ [last] <+: q → w'.at? q = w.at? q := by
  intro q hq
  obtain ⟨hv, hkept⟩ := hguarded.candidate hw hfound
  rw [← hkept q hq]
  obtain ⟨result, hrun⟩ : ∃ result, installation c target name dryRun w = (.error result, w') := by
    rcases hrun : installation c target name dryRun w with ⟨e' | i, u⟩
    · rw [install_eq hrun] at herror
      exact ⟨e', by rw [(Prod.mk.inj herror).2]⟩
    · rw [install_eq hrun] at herror
      cases (Prod.mk.inj herror).1
  rw [installation] at hrun
  cases found with
  | error e' =>
    rw [Act.bind_of_error hfound] at hrun
    rw [(Prod.mk.inj hrun).2]
  | ok a =>
    obtain ⟨path, source⟩ := a
    rw [Act.bind_of_ok hfound] at hrun
    by_cases hstarts : CopyStarts c path source name dryRun v
    swap
    · by_contra hne
      exact hguarded.state q ((installFrom_kept hstarts hrun).1.only q hne) hq
    obtain ⟨j, hj, hcopied⟩ := hstarts
    obtain ⟨hroot, hsafe, hplace, -⟩ := judge_ok hj
    obtain ⟨hlast, hfiles⟩ := hguarded.package path source j.root hfound hroot
    rw [hlast] at hsafe hplace
    rcases installFrom_copied hj hcopied hrun with ⟨e', -, hcopy⟩ | ⟨-, hok⟩
    · rw [hplace] at hcopy
      exact copyPackage_error hv (isName_of_isSafeName hsafe) (isName_stagingName hsafe)
        hguarded.directory hguarded.way hfiles hcopy hq
    · cases hok

/-! Failed installations in a directory for packages that has an earlier copy. -/

/-- A package with a manifest, an empty rule document, and a directory for packages with an earlier
copy of the package. -/
def restock (manifest : Node) (others : List (Place × Node)) : World :=
  ⟨[(["p"], .dir), (["p", "SKILL.md"], manifest), (["r"], .file .empty), (["s"], .dir),
    (["s", "p"], .dir), (["s", "p", "SKILL.md"], .file ⟨#[121]⟩)] ++ others, []⟩

def blockedShop : World := restock (.file ⟨#[120]⟩) [(["s", ".p.staging"], .file .empty)]

/-- The manifest is a link, so that the package has no file of its own. -/
def linkedShop : World := restock (.link "../m") [(["m"], .file ⟨#[120]⟩)]

/-- A tree in which the package at `p` differs from the copy at `s/p`. -/
structure Restock (w : World) : Prop extends Stall w where
  target : w.resolve true "p" = .ok (.taken ["p"] .dir)
  copy : w.resolve true "s/p" = .ok (.taken ["s", "p"] .dir)
  shelf : ∀ follow, w.resolve follow "s" = .ok (.taken ["s"] .dir)
  manifest : w.isFile "p/SKILL.md" = true
  differs : (Fingerprint.ofListing
      ((Listing.ofPlace w ["s", "p"]).filter (Listing.isOpen "s/p"))).hash ≠
    (Fingerprint.ofListing ((Listing.ofPlace w ["p"]).filter (Listing.isOpen "p"))).hash

namespace Restock
variable {w w' : World} (h : Restock w)
include h

theorem candidate (c : Context) : Command.candidate c "p" w = (.ok ("p", "p"), w) := by
  have hexists : w.pathExists "p" = true := by simp only [pathExists, World.find, h.target]
  rw [Command.candidate, Act.bind_of_ok (x := get) rfl, if_pos hexists]
  rfl

theorem locate? : Package.locate? w "p" Manifest.defaultName = some "p" := by
  have hjoin : Path.join "p" Manifest.defaultName = "p/SKILL.md" := by decide
  simp only [Package.locate?, Package.isPackage, hjoin, h.manifest]
  rfl

theorem makeDirs : Act.makeDirs "s" w = (.ok (), w) :=
  makeDirs_standing (by decide) (by decide) h.shelf

/-- An installation comes to copy the package, and fails if that fails. -/
theorem install_error {e : Failure}
    (hcopy : replaceTree "p" "s/.p.staging" "s/p" w = (.error e, w')) :
    install (shopContext "s" false) "p" (some "p") false w = (.error e, w') := by
  have hjoin : Path.join "s" "p" = "s/p" := by decide
  have hfind : w.find "p" = .ok (["p"], .dir) := by simp only [World.find, h.target]
  have hcopied : w.find "s/p" = .ok (["s", "p"], .dir) := by simp only [World.find, h.copy]
  obtain ⟨d, -, hrun⟩ := @Stall.installation w h.toStall "s" "p" hfind h.locate? (by decide)
    (by rw [hjoin, sameDir, hfind, hcopied]; decide)
    (by
      rw [hjoin, Fingerprint.ofPath, Fingerprint.ofPath, Listing.ofPath_of_find hfind,
        Listing.ofPath_of_find hcopied]
      rintro ⟨-, heq⟩
      exact h.differs heq)
  have hparent : Path.parent "s/p" = some "s" := by decide
  have hstaging : Path.join "s" (stagingName ((Path.fileName "s/p").getD "")) = "s/.p.staging" := by
    decide
  have hfails : copyPackage "p" (Path.join "s" "p") w = (.error e, w') := by
    simp only [hjoin, copyPackage, hparent, hstaging]
    rw [Act.bind_of_ok h.makeDirs, hcopy]
  exact install_eq (hrun _ _ hfails)

end Restock

theorem restock_of_reaches {w : World} (hstall : Stall w)
    (hpaths : w.reaches true "p" = .ok (.taken ["p"] .dir) ∧
      w.reaches true "s/p" = .ok (.taken ["s", "p"] .dir) ∧
      ∀ follow, w.reaches follow "s" = .ok (.taken ["s"] .dir))
    (q : Place) (bytes : ByteArray)
    (hmanifest : w.reaches true "p/SKILL.md" = .ok (.taken q (.file bytes)))
    (hdiffers : (Fingerprint.ofListing
        ((Listing.ofPlace w ["s", "p"]).filter (Listing.isOpen "s/p"))).hash ≠
      (Fingerprint.ofListing ((Listing.ofPlace w ["p"]).filter (Listing.isOpen "p"))).hash) :
    Restock w where
  toStall := hstall
  target := by rw [resolve_eq_reaches, hpaths.1]
  copy := by rw [resolve_eq_reaches, hpaths.2.1]
  shelf follow := by rw [resolve_eq_reaches, hpaths.2.2 follow]
  manifest := by simp only [isFile, World.find, resolve_eq_reaches, hmanifest]
  differs := hdiffers

theorem blockedShop_restock : Restock blockedShop := by
  refine restock_of_reaches ⟨rfl, rfl⟩ (by decide) ["p", "SKILL.md"] ⟨#[120]⟩ (by decide) ?_
  have hcopy : Listing.ofPlace blockedShop ["s", "p"] = [⟨"SKILL.md", ⟨#[121]⟩⟩] := by cbv
  have hpackage : Listing.ofPlace blockedShop ["p"] = [⟨"SKILL.md", ⟨#[120]⟩⟩] := by cbv
  rw [hcopy, hpackage]
  decide +kernel

theorem blockedShop_guarded :
    Guarded (shopContext "s" false) "p" (some "p") blockedShop blockedShop ⟨[], ["s"]⟩ "p" := by
  have hlocal : LocalPath "s" "s" := by decide
  have hlink : ∀ t, blockedShop.at? (blockedShop.cwd ++ ["s"]) ≠ some (.link t) := by
    have hdir : blockedShop.at? (blockedShop.cwd ++ ["s"]) = some .dir := rfl
    simp [hdir]
  refine ⟨hlocal.goal blockedShop hlink, fun q hq => ?_, fun q hq => ?_, .inl ?_, ?_⟩
  · have hway : q ∈ blockedShop.onWay "s" := hq
    rw [hlocal.onWay hlink, List.mem_singleton] at hway
    rw [hway, Swaps]
    decide
  · obtain ⟨name, hname, rfl⟩ := shopContext_state (by decide) hq
    clear hq
    revert name
    decide
  · simp only [pathExists, World.find, blockedShop_restock.target]
  · intro path source root hfound hroot
    obtain ⟨rfl, -⟩ := Prod.mk.inj (Except.ok.inj
      (Prod.mk.inj ((blockedShop_restock.candidate _).symm.trans hfound)).1)
    obtain rfl := Option.some.inj (blockedShop_restock.locate?.symm.trans hroot)
    refine ⟨rfl, ?_⟩
    have hfind : (blockedShop.prune ["s", ".p.staging"]).find "p" = .ok (["p"], .dir) := by
      simp only [World.find, resolve_eq_reaches]
      decide
    have hplace : Listing.ofPlace (blockedShop.prune ["s", ".p.staging"]) ["p"] =
        [⟨"SKILL.md", ⟨#[120]⟩⟩] := by cbv
    change Listing.met (blockedShop.prune ["s", ".p.staging"]) "p" ≠ []
    rw [Listing.met_of_find hfind, hplace]
    decide

/-- The staging place cannot be cleared, and the earlier copy stays. -/
theorem failed_install_keeps_copy_blocked : blockedShop.IsReal ∧
    Guarded (shopContext "s" false) "p" (some "p") blockedShop blockedShop ⟨[], ["s"]⟩ "p" ∧
    ∃ e w', install (shopContext "s" false) "p" (some "p") false blockedShop = (.error e, w') ∧
      w'.at? ["s", "p", "SKILL.md"] = some (.file ⟨#[121]⟩) := by
  have hresolve : ∀ follow, blockedShop.resolve follow "s/.p.staging" =
      .ok (.taken ["s", ".p.staging"] (.file .empty)) := by
    have hreaches : ∀ follow, blockedShop.reaches follow "s/.p.staging" =
      .ok (.taken ["s", ".p.staging"] (.file .empty)) := by decide
    exact fun follow => by rw [resolve_eq_reaches, hreaches]
  obtain ⟨e, hclear⟩ : ∃ e, clearAway "cannot clear " "s/.p.staging" blockedShop =
      (.error e, blockedShop) := by
    rw [clearAway_eq, pathExists, World.find, hresolve true]
    simp only [Act.change, removeTree, hresolve false, if_true]
    exact ⟨_, rfl⟩
  have hreal : blockedShop.IsReal := by decide
  have hrun := blockedShop_restock.install_error
    (show replaceTree "p" "s/.p.staging" "s/p" blockedShop = _ from Act.bind_of_error hclear)
  refine ⟨hreal, blockedShop_guarded, e, _, hrun, ?_⟩
  exact failed_install_keeps_copy hreal (blockedShop_restock.candidate _) blockedShop_guarded hrun
    ["s", "p", "SKILL.md"] (by decide)

theorem linkedShop_restock : Restock linkedShop := by
  refine restock_of_reaches ⟨rfl, rfl⟩ (by decide) ["m"] ⟨#[120]⟩ (by decide) ?_
  have hcopy : Listing.ofPlace linkedShop ["s", "p"] = [⟨"SKILL.md", ⟨#[121]⟩⟩] := by cbv
  have hpackage : Listing.ofPlace linkedShop ["p"] = [] := by cbv
  rw [hcopy, hpackage]
  decide +kernel

/-- Without a file of its own the package is never put together, but the earlier copy is removed. -/
theorem failed_install_loses_copy : linkedShop.IsReal ∧
    ∃ e w', install (shopContext "s" false) "p" (some "p") false linkedShop = (.error e, w') ∧
      linkedShop.at? ["s", "p", "SKILL.md"] = some (.file ⟨#[121]⟩) ∧
      ∀ q, ["s", "p"] <+: q → w'.at? q = none := by
  have hmissing : linkedShop.pathExists "s/.p.staging" = false := by
    rw [pathExists, World.find, resolve_eq_reaches]
    decide
  have hstaging : clearAway "cannot clear " "s/.p.staging" linkedShop = (.ok (), linkedShop) := by
    rw [clearAway_eq, hmissing]
    rfl
  have hfiles : Listing.met linkedShop "p" = [] := by
    have hfind : linkedShop.find "p" = .ok (["p"], .dir) := by
      simp only [World.find, linkedShop_restock.target]
    have hplace : Listing.ofPlace linkedShop ["p"] = [] := by cbv
    rw [Listing.met_of_find hfind, hplace, List.filter_nil]
  have htarget : clearAway "cannot replace " "s/p" linkedShop =
      (.ok (), linkedShop.prune ["s", "p"]) := by
    have hresolve : linkedShop.resolve false "s/p" = .ok (.taken ["s", "p"] .dir) := by
      rw [resolve_eq_reaches]
      decide
    have hexists : linkedShop.pathExists "s/p" = true := by
      simp only [pathExists, World.find, linkedShop_restock.copy]
    rw [clearAway_eq, hexists]
    simp [Act.change, removeTree, hresolve]
  have hrename : Act.change "cannot move package into s/p" (·.rename "s/.p.staging" "s/p")
      (linkedShop.prune ["s", "p"]) =
        (.error ⟨["cannot move package into s/p", OsError.notFound.message]⟩,
          linkedShop.prune ["s", "p"]) := by
    have hfree : (linkedShop.prune ["s", "p"]).resolve false "s/.p.staging" =
        .ok (.free ["s", ".p.staging"]) := by
      rw [resolve_eq_reaches]
      decide
    simp [Act.change, World.rename, hfree]
  have hfails : replaceTree "p" "s/.p.staging" "s/p" linkedShop =
      (.error ⟨["cannot move package into s/p", OsError.notFound.message]⟩,
        linkedShop.prune ["s", "p"]) := by
    rw [replaceTree, Act.bind_of_ok hstaging, Act.bind_of_ok (x := get) rfl, hfiles, stage_nil,
      Act.bind_of_ok (x := pure ()) rfl, Act.bind_of_ok htarget]
    exact hrename
  exact ⟨by decide, _, _, linkedShop_restock.install_error hfails, rfl,
    fun q hq => at?_prune_below (by simp) hq⟩

end Command
end SkillAudit
