import Mathlib
import SkillAudit.Proofs.Discovery
import SkillAudit.Proofs.FailedInstall

/-!
Installed packages under watch. A package that has been installed is found again in the directory for
packages when its name is not hidden and its manifest is one of the files that were copied; then the
next watch cycle tracks it.
-/
namespace SkillAudit

theorem Policy.manifest_of_validate {p : Policy} (h : p.validate = .ok ()) :
    isSafeName p.manifestFile = true := by
  by_contra hunsafe
  have hunsafe : isSafeName p.manifestFile = false := by simpa using hunsafe
  have hfault : p.fault? ≠ none := by
    simp only [Policy.fault?, hunsafe, Bool.not_false, if_true]
    split
    · simp
    · split
      · simp
      · split <;> simp
  obtain ⟨f, hf⟩ := Option.ne_none_iff_exists'.mp hfault
  rw [Policy.validate, hf] at h
  cases h

/-- A gate works only with a manifest that has a plain name. -/
theorem Command.Context.manifest_of_gate {c : Context} {w w' : World} {found : Gate × Ledger}
    (h : c.gate w = (.ok found, w')) : isSafeName c.policy.manifestFile = true := by
  unfold gate at h
  obtain ⟨rules, v, hrules, h⟩ := Act.bind_ok h
  rw [Act.bind_of_ok (x := c.ledger) rfl, Gate.ofPolicy] at h
  cases hvalid : c.policy.validate with
  | error e =>
    rw [hvalid] at h
    cases h
  | ok => exact Policy.manifest_of_validate hvalid

namespace Command
open World

theorem candidate_real {c : Context} {target : String} {w v : World}
    {found : Except Failure (String × String)} (hw : w.IsReal)
    (hfound : candidate c target w = (found, v)) : v.IsReal := by
  have htree := candidate_tree c target w
  rw [hfound] at htree
  rcases htree with rfl | ⟨-, rfl⟩
  · exact hw
  · exact Context.fetch_real hw target

/-- The directory after the package at a root has been copied to a name in it. -/
structure Stocked (w w' : World) (dir name root : String) (p : Place) : Prop where
  distinct : w'.Distinct
  named : w'.Named
  path : IsPath (Path.join dir name)
  leads : w'.LeadsToDir dir p
  plain : ∀ n t, w'.at? (p ++ [name] ++ [n]) ≠ some (.link t)
  /-- Where the package has files, a directory stands at the name. -/
  made : Listing.ofPath (w.prune (p ++ [stagingName name])) root ≠ [] →
    w'.at? (p ++ [name]) = some .dir
  /-- In a directory that stands there are those files. -/
  files : w'.at? (p ++ [name]) = some .dir → ∀ ns bytes,
    w'.at? (p ++ [name] ++ ns) = some (.file bytes) ↔
      ∃ f ∈ Listing.ofPath (w.prune (p ++ [stagingName name])) root, names f = ns ∧ f.bytes = bytes

theorem copyPackage_stocked {w w' : World} {dir name root : String} {g : Route} {place : Place}
    (hw : w.IsReal) (hname : IsName name) (hstaged : IsName (stagingName name))
    (hgoal : w.goal? dir = some g) (hway : ∀ q ∈ w.onWay dir, ¬ Swaps g.place name q)
    (hroot : w.LeadsToDir root place)
    (hok : copyPackage root (Path.join dir name) w = (.ok (), w')) :
    Stocked w w' dir name root g.place := by
  obtain ⟨up, habs, hsteps, heq⟩ := copyPackage_eq hname root dir
  rw [heq] at hok
  obtain ⟨_, v, hmade, hok⟩ := Act.bind_ok hok
  have hmade := makeDirs_ok hmade
  have hv : v.IsReal := by
    have hreal := hw.makeDirs up
    rwa [hmade] at hreal
  obtain ⟨_, hg, hshelf, honWay, hbuilds⟩ := shelf_of_makeDirs hw.toIsTree hname hstaged
    (staging_aside hgoal hway) habs hsteps hmade
  obtain rfl := Option.some.inj (hgoal.symm.trans hg)
  have halters := hshelf.replaceTree_alters root
  rw [hok] at halters
  obtain ⟨hpath, hgone, u, hclear, -, hout⟩ := hshelf.replaceTree_ok hok
  have hsubset : Listing.ofPath (w.prune (g.place ++ [stagingName name])) root ⊆
      Listing.ofPath u root :=
    List.filter_subset _ (hshelf.pruned_subset hw.distinct hbuilds hclear root)
  have hdir := hshelf.bench.dir.congr hshelf.absolute hshelf.steps
  obtain ⟨hleads, -⟩ := hdir.of_same halters.cwd fun q hq => halters.same q (hway q (honWay ▸ hq))
  have hplace : ∀ n ∈ g.place, IsName n := by
    refine hv.named_of_leadsToDir ?_ hdir
    by_cases hempty : dir = ""
    · simp [hempty]
    · simpa using (hpath.of_join hname hempty).noZero
  refine ⟨halters.distinct hshelf.distinct, ?_, hpath, hleads, ?_, ?_, ?_⟩
  · intro q n hat
    by_cases hswap : Swaps g.place name q
    · rcases hswap with ⟨rest, rfl⟩ | ⟨rest, rfl⟩
      · have hrest := hout.named hshelf.rooted (fun f hf =>
          (hshelf.cleared_files hclear root).1 f (List.mem_of_mem_filter hf)) hat
        intro m hm
        simp only [List.mem_append, List.mem_singleton] at hm
        rcases hm with (hm | rfl) | hm
        · exact hplace m hm
        · exact hname
        · exact hrest m hm
      · rw [hgone] at hat
        cases hat
    · rw [halters.same q hswap] at hat
      exact hv.isName_of_at? hat
  · intro n t hat
    simpa [Copied] using (hout.at?_iff hshelf.rooted (by simp)).mp hat
  · intro hne
    cases hout with
    | copy hfiles hcopy _ => exact hcopy.dir hfiles
    | link hfiles _ _ _ _ _ =>
      obtain ⟨f, hf⟩ := List.exists_mem_of_ne_nil _ hne
      simpa [hfiles] using hsubset hf
  · intro hat ns bytes
    cases hout with
    | copy hfiles hcopy _ =>
      have hsubset' := hshelf.subset_pruned hw.distinct hbuilds hclear
        (hshelf.cleared_of_files hok hclear hfiles) hroot
      rw [hcopy]
      constructor
      · rintro (⟨f, hf, hns, hbytes⟩ | ⟨hdir, -⟩)
        · exact ⟨f, hsubset' hf, hns, (Node.file.inj hbytes).symm⟩
        · cases hdir
      · rintro ⟨f, hf, hns, rfl⟩
        exact .inl ⟨f, hsubset hf, hns, rfl⟩
    | link hfiles target hlink _ _ hnew =>
      rw [← List.append_nil (g.place ++ [name]), hnew, List.append_nil, hlink] at hat
      cases hat

/-- A package that has been copied is found in the directory if its name is not hidden and its
manifest is one of its files. -/
theorem Stocked.mem_discover_iff {w w' : World} {dir name root manifest : String} {p : Place}
    (h : Stocked w w' dir name root p) (hname : IsName name) (hmanifest : IsName manifest)
    (hdir : dir ≠ "") (hpath : IsPath (Path.join (Path.join dir name) manifest)) :
    Path.join dir name ∈ Package.discover w' dir manifest ↔ ¬ Package.IsHidden name ∧
      ∃ f ∈ Listing.ofPath (w.prune (p ++ [stagingName name])) root, f.path = manifest := by
  have hfind : w'.find dir = .ok (p, .dir) := find_dir_iff.mpr ⟨h.path.of_join hname hdir, h.leads⟩
  have hpiece : ∀ f : PackageFile, names f = [manifest] ↔ f.path = manifest := by
    intro f
    constructor
    · intro hnames
      rw [← Path.intercalate_pieces f.path, ← names, hnames, String.intercalate_singleton]
    · rintro rfl
      exact Path.pieces_name hmanifest
  -- Where a directory stands at the name, it is a package if the manifest was copied.
  have hpackage : w'.at? (p ++ [name]) = some .dir →
      (Package.isPackage w' (Path.join dir name) manifest = true ↔
        ∃ f ∈ Listing.ofPath (w.prune (p ++ [stagingName name])) root, f.path = manifest) := by
    intro hat
    rw [Package.isPackage,
      isFile_join_iff (h.leads.join hname hat) hmanifest hpath (h.plain manifest)]
    constructor
    · rintro ⟨bytes, hfile⟩
      obtain ⟨f, hf, hnames, -⟩ := (h.files hat [manifest] bytes).mp hfile
      exact ⟨f, hf, (hpiece f).mp hnames⟩
    · rintro ⟨f, hf, hfile⟩
      exact ⟨f.bytes, (h.files hat [manifest] f.bytes).mpr ⟨f, hf, (hpiece f).mpr hfile, rfl⟩⟩
  constructor
  · intro hmem
    obtain ⟨q, hfound, hat, hshown, hisPackage⟩ :=
      Package.of_mem_discover h.distinct h.named hname hmem
    obtain rfl : p = q := (Prod.mk.inj (Except.ok.inj (hfind.symm.trans hfound))).1
    exact ⟨hshown, (hpackage hat).mp hisPackage⟩
  · rintro ⟨hshown, f, hf, hfile⟩
    have hat := h.made (List.ne_nil_of_mem hf)
    exact Package.mem_discover_of_at? hfind hat hshown ((hpackage hat).mpr ⟨f, hf, hfile⟩)

theorem copied_of_installed {c : Context} {path source : String} {name : Option String}
    {dryRun : Bool} {v w' : World} {i : Installation}
    (h : installFrom c path source name dryRun v = (.ok i, w')) (hi : i.action = .installed) :
    ∃ j, judge c path source name v = (.ok j, v) ∧ copyPackage j.root j.place v = (.ok (), w') ∧
      i.decision = j.decision := by
  by_cases hstarts : CopyStarts c path source name dryRun v
  · obtain ⟨j, hj, hcopied⟩ := hstarts
    rcases installFrom_copied hj hcopied h with ⟨e, he, -⟩ | ⟨hcopy, hok⟩
    · cases he
    · obtain rfl := Except.ok.inj hok
      exact ⟨j, hj, hcopy, rfl⟩
  · exact absurd hi ((installFrom_kept hstarts h).2 i rfl)

/-- An installed package is found in the directory for packages exactly if its name is not hidden and
its manifest is one of the files that were copied; and then the next watch cycle tracks it, or a
package of the same name that is found before it. -/
theorem installed_watched_iff {c : Context} {target path source : String} {name : Option String}
    {dryRun : Bool} {w v w' : World} {i : Installation} {g : Route} (hw : w.IsReal)
    (hfound : candidate c target w = (.ok (path, source), v))
    (hgoal : v.goal? c.paths.skillsDir = some g)
    (hway : ∀ q ∈ v.onWay c.paths.skillsDir, ¬ Swaps g.place i.decision.name q)
    (hdir : c.paths.skillsDir ≠ "")
    (hpath : IsPath (Path.join (Path.join c.paths.skillsDir i.decision.name) c.policy.manifestFile))
    (h : installation c target name dryRun w = (.ok i, w')) (hinstalled : i.action = .installed) :
    ∃ root, Package.locate? v path c.policy.manifestFile = some root ∧
      i.decision.name = packageName c v root name ∧
      (Path.join c.paths.skillsDir i.decision.name ∈
          Package.discover w' c.paths.skillsDir c.policy.manifestFile ↔
        ¬ Package.IsHidden i.decision.name ∧
          ∃ f ∈ Listing.ofPath (v.prune (g.place ++ [stagingName i.decision.name])) root,
            f.path = c.policy.manifestFile) ∧
      (Path.join c.paths.skillsDir i.decision.name ∈
          Package.discover w' c.paths.skillsDir c.policy.manifestFile →
        ∀ watcher : Watcher, watcher.skillsDir = c.paths.skillsDir →
          watcher.policy.manifestFile = c.policy.manifestFile →
          (∀ r, w'.route? watcher.statePath = some r → r.place ∉ r.links) →
          ∀ now l report l' w'', watcher.run now (l, w') = (.ok report, (l', w'')) →
            watcher.Tracks (watcher.surveyedTree w') (watcher.state w'')
              (Path.join c.paths.skillsDir i.decision.name)) := by
  have hv := candidate_real hw hfound
  rw [installation, Act.bind_of_ok hfound] at h
  obtain ⟨j, hj, hcopy, hdecision⟩ := copied_of_installed h hinstalled
  obtain ⟨hroot, hsafe, hplace, hname, -, -⟩ := judge_ok hj
  rw [← hdecision] at hname
  rw [← hname] at hsafe hplace
  rw [hplace] at hcopy
  have hisName := isName_of_isSafeName hsafe
  have hmanifest : IsName c.policy.manifestFile := by
    rcases judge_cases c path source name v with ⟨e, he⟩ | ⟨_, _, _, -, -, -, -, hgate⟩
    · rw [he] at hj
      cases hj
    · exact isName_of_isSafeName (Context.manifest_of_gate hgate)
  obtain ⟨place, hleads⟩ : ∃ place, v.LeadsToDir j.root place := by
    have hpackage := (Package.isPackage_of_locate? hroot).1
    unfold Package.isPackage isFile at hpackage
    split at hpackage
    next hfile => exact leadsToDir_of_resolve_join hmanifest (resolve_of_find hfile)
    next => cases hpackage
  have hstocked := copyPackage_stocked hv hisName (isName_stagingName hsafe) hgoal hway hleads hcopy
  refine ⟨j.root, hroot, hname, hstocked.mem_discover_iff hisName hmanifest hdir hpath, ?_⟩
  intro hmem watcher hskills hfile hown now l report l' w'' hrun
  refine Watcher.run_tracks hown hrun ?_
  rw [Watcher.roots, hskills, hfile]
  exact Package.discover_grows hstocked.distinct hstocked.named hisName
    (Store.lock_grows_always _ _) hmem

/-! An installed package that is tracked, and one that is not. -/

theorem shop_real : shop.IsReal := by decide

theorem shop_way (name : String) : ∀ q ∈ shop.onWay "s", ¬ Swaps ["s"] name q := by
  have hlocal : LocalPath "s" "s" := by decide
  intro q hq
  obtain rfl : q = ["s"] := by
    rw [hlocal.onWay shop_noLink, List.mem_singleton] at hq
    exact hq
  rintro (hpre | hpre)
  · simpa using hpre.length_le
  · simpa using hpre.length_le

theorem shop_route : shop.goal? "s" = some ⟨[], ["s"]⟩ := by
  have hlocal : LocalPath "s" "s" := by decide
  exact hlocal.goal shop shop_noLink

def shopWatcher : Watcher := ⟨"s", "watch.json", (shopContext "s" false).policy, ⟨"1", []⟩⟩

theorem shopWatcher_run (l : Ledger) : ∃ report l' w',
    shopWatcher.run Instant.newYear (l, installedShop) = (.ok report, (l', w')) := by
  have hstate : LocalPath "watch.json" "watch.json" := by decide
  have hlocal : LocalPath (Store.lockPath "watch.json") "watch.json.lock" := by decide
  have hlock : Store.lock "watch.json" installedShop =
      (.ok (), installedShop.put ["watch.json.lock"] (.file .empty)) :=
    Store.lock_local_free hlocal (by decide) (by decide)
  have hwrite := hstate.write (installedShop.put ["watch.json.lock"] (.file .empty)) (.inl (by decide))
    (Store.jsonText (shopWatcher.outcome Instant.newYear l
      (installedShop.put ["watch.json.lock"] (.file .empty))).2.toJson).toUTF8
  have hrun : shopWatcher.run Instant.newYear (l, installedShop) = _ := Watcher.run_of_lock hlock
  rw [Store.writeJson, show shopWatcher.statePath = "watch.json" from rfl, hwrite] at hrun
  exact ⟨_, _, _, hrun⟩

/-- The package of the shop is installed, found and tracked. -/
theorem installed_watched_iff_shop : shop.IsReal ∧
    ∃ i, installation (shopContext "s" false) "p" (some "p") false shop = (.ok i, installedShop) ∧
      i.action = .installed ∧ "s/p" ∈ Package.discover installedShop "s" "SKILL.md" ∧
      ∃ l report l' w'', shopWatcher.run Instant.newYear (l, installedShop) =
          (.ok report, (l', w'')) ∧
        shopWatcher.Tracks (shopWatcher.surveyedTree installedShop) (shopWatcher.state w'') "s/p" := by
  have hmissing : shop.find (Path.join "s" "p") = .error .notFound := by
    rw [World.find, resolve_eq_reaches]
    decide
  obtain ⟨d, hname, hrun⟩ := shopPath_plain.installation hmissing
  have hjoin : Path.join "s" "p" = "s/p" := by decide
  obtain ⟨root, hroot, -, hiff, htracks⟩ := installed_watched_iff shop_real shop_candidate
    shop_route (by rw [hname]; exact shop_way "p") (by decide) (by rw [hname]; decide) hrun rfl
  obtain rfl : "p" = root := Option.some.inj (shop_hasPackage.locate?.symm.trans hroot)
  have hfiles : Listing.ofPath (shop.prune (["s"] ++ [stagingName "p"])) "p" =
      [⟨"SKILL.md", ⟨#[120]⟩⟩] := by
    change (Listing.met clearedShop "p").filter (Listing.isOpen "p") = _
    rw [clearedShop_files]
    decide
  have hmem : "s/p" ∈ Package.discover installedShop "s" "SKILL.md" := by
    have hmem := hiff.mpr
    rw [hname] at hmem
    exact hjoin ▸ hmem ⟨by decide, _, by rw [hfiles]; exact List.mem_singleton.mpr rfl, rfl⟩
  obtain ⟨report, l', w'', hcycle⟩ := shopWatcher_run (.load installedShop "ledger.json" none)
  refine ⟨shop_real, _, hrun, rfl, hmem, _, report, l', w'', hcycle, ?_⟩
  have hown : ∀ r, installedShop.route? shopWatcher.statePath = some r → r.place ∉ r.links := by
    have hstate : LocalPath "watch.json" "watch.json" := by decide
    intro r hr
    rw [show shopWatcher.statePath = "watch.json" from rfl, hstate.route] at hr
    obtain rfl := Option.some.inj hr
    simp
  rw [hname] at htracks
  exact hjoin ▸ htracks (hjoin ▸ hmem) shopWatcher rfl rfl hown _ _ _ _ _ hcycle

def hiddenShop : World :=
  (shop.put ["s", "..h.staging"] .dir).put ["s", "..h.staging", "SKILL.md"] (.file ⟨#[120]⟩)

theorem hiddenShop_copied : copyPackage "p" (Path.join "s" ".h") shop =
    (.ok (), hiddenShop.move ["s", "..h.staging"] ["s", ".h"]) := by
  have hjoin : Path.join "s" ".h" = "s/.h" := by decide
  have hparent : Path.parent "s/.h" = some "s" := by decide
  have hstaging : Path.join "s" (stagingName ((Path.fileName "s/.h").getD "")) = "s/..h.staging" := by
    decide
  have hdirs : Act.makeDirs "s" shop = (.ok (), shop) := by
    refine makeDirs_standing (p := ["s"]) (by decide) (by decide) fun follow => ?_
    rw [resolve_eq_reaches]
    cases follow <;> decide
  have hcleared : clearAway "cannot clear " "s/..h.staging" shop = (.ok (), shop) := by
    have hmissing : shop.pathExists "s/..h.staging" = false := by
      rw [pathExists, World.find, resolve_eq_reaches]
      decide
    rw [clearAway_eq, hmissing]
    rfl
  have hfiles : Listing.met shop "p" = [⟨"SKILL.md", ⟨#[120]⟩⟩] := by
    have hlisted : Listing.ofPlace shop ["p"] = [⟨"SKILL.md", ⟨#[120]⟩⟩] := by cbv
    rw [Listing.met_of_find shop_find, hlisted]
    decide
  have hstaged : stage "p" [⟨"SKILL.md", ⟨#[120]⟩⟩] "s/..h.staging" shop = (.ok (), hiddenShop) := by
    have htarget : Path.join "s/..h.staging" "SKILL.md" = "s/..h.staging/SKILL.md" ∧
        Path.parent "s/..h.staging/SKILL.md" = some "s/..h.staging" := by decide
    have hdir : shop.resolve false "s/..h.staging" = .ok (.free ["s", "..h.staging"]) := by
      rw [resolve_eq_reaches]
      decide
    have hfile : (shop.put ["s", "..h.staging"] .dir).resolve true "s/..h.staging/SKILL.md" =
        .ok (.free ["s", "..h.staging", "SKILL.md"]) := by
      rw [resolve_eq_reaches]
      decide
    have hwrite : (shop.put ["s", "..h.staging"] .dir).writeFile "s/..h.staging/SKILL.md" ⟨#[120]⟩ =
        .ok hiddenShop := by
      rw [writeFile, hfile]
      exact if_neg (by decide)
    have hopen : Listing.isOpen "p" ⟨"SKILL.md", ⟨#[120]⟩⟩ = true := by decide
    have hcopy : copyFile "p" "s/..h.staging" ⟨"SKILL.md", ⟨#[120]⟩⟩ shop = (.ok (), hiddenShop) := by
      simp only [copyFile, htarget, hopen, if_true]
      rw [Act.bind_of_ok (makeDirs_free (by decide) (by decide) hdir), Act.change, hwrite]
    rw [stage_cons, Act.bind_of_ok hcopy]
    rfl
  have hfree : ∀ follow, hiddenShop.resolve follow "s/.h" = .ok (.free ["s", ".h"]) := fun follow => by
    rw [resolve_eq_reaches]
    cases follow <;> decide
  have hplace : clearAway "cannot replace " "s/.h" hiddenShop = (.ok (), hiddenShop) := by
    rw [clearAway_eq, pathExists, World.find, hfree true]
    rfl
  have hmove : Act.change ("cannot move package into " ++ "s/.h")
      (·.rename "s/..h.staging" "s/.h") hiddenShop =
        (.ok (), hiddenShop.move ["s", "..h.staging"] ["s", ".h"]) := by
    have hsource : hiddenShop.resolve false "s/..h.staging" =
        .ok (.taken ["s", "..h.staging"] .dir) := by
      rw [resolve_eq_reaches]
      decide
    rw [Act.change, rename_free hsource (hfree false) (by decide)]
  rw [hjoin]
  simp only [copyPackage, hparent, hstaging]
  rw [Act.bind_of_ok hdirs, replaceTree, Act.bind_of_ok hcleared,
    Act.bind_of_ok (x := get) rfl, hfiles, Act.bind_of_ok hstaged, Act.bind_of_ok hplace]
  exact hmove

/-- A package may be installed under a name that is hidden, and is not found then. -/
theorem installed_hidden_unwatched : shop.IsReal ∧
    ∃ i w', installation (shopContext "s" false) "p" (some ".h") false shop = (.ok i, w') ∧
      i.action = .installed ∧ i.place = some (Path.join "s" ".h") ∧
      w'.at? ["s", ".h", "SKILL.md"] = some (.file ⟨#[120]⟩) ∧
      Path.join "s" ".h" ∉ Package.discover w' "s" "SKILL.md" := by
  have hmissing : shop.find (Path.join "s" ".h") = .error .notFound := by
    rw [World.find, resolve_eq_reaches]
    decide
  obtain ⟨d, -, hrun⟩ := shop_stall.installation shop_find shop_hasPackage.locate?
    (by decide : isSafeName ".h" = true) (by rw [sameDir, hmissing]) (by simp [isDir, hmissing])
  have hleads : shop.LeadsToDir "p" ["p"] := (find_dir_iff.mp shop_find).2
  have hstocked := copyPackage_stocked shop_real (by decide) (by decide) shop_route (shop_way ".h")
    hleads hiddenShop_copied
  refine ⟨shop_real, _, _, hrun _ _ hiddenShop_copied, rfl, rfl, rfl, fun hmem => ?_⟩
  have hmanifest : IsName "SKILL.md" := by decide
  have hshown := (hstocked.mem_discover_iff (by decide) hmanifest (by decide) (by decide)).mp hmem
  exact absurd hshown.1 (by decide)

end Command
end SkillAudit
