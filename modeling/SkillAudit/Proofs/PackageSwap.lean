import Mathlib
import SkillAudit.Proofs.PackageCopy
import SkillAudit.Proofs.TreeKept

/-!
Putting a copied package in its place. The earlier copy goes, the new one takes its name, and the
files below that name are the listing of the package.
-/
namespace SkillAudit

namespace World

theorem at?_of_leads_name {w : World} {links : Nat} {here : Place} {front : List String}
    {name : String} {trail : List Place} {q : Place} {n : Node} (hname : IsStep name)
    (h : Leads w false false links here (front ++ [name]) trail (.taken q n)) :
    w.at? q = some n := by
  generalize hs : Spot.taken q n = s at h
  generalize hall : front ++ [name] = all at h
  induction h generalizing front with
  | here => simp at hall
  | free => cases hs
  | file _ _ hat | link _ _ hat =>
    cases hs
    exact hat
  | idle hidle h ih =>
    rcases List.append_eq_cons_iff.mp hall with ⟨rfl, heq⟩ | ⟨rest, rfl, hrest⟩
    · obtain ⟨rfl, -⟩ := List.cons.inj heq
      rw [hname.busy] at hidle
      cases hidle
    · exact ih hs hrest.symm
  | up _ hup h ih =>
    rcases List.append_eq_cons_iff.mp hall with ⟨rfl, heq⟩ | ⟨rest, rfl, hrest⟩
    · obtain ⟨rfl, -⟩ := List.cons.inj heq
      rw [hname.down] at hup
      cases hup
    · exact ih hs hrest.symm
  | down _ _ hat h ih =>
    rcases List.append_eq_cons_iff.mp hall with ⟨rfl, heq⟩ | ⟨rest, rfl, hrest⟩
    · obtain ⟨rfl, rfl⟩ := List.cons.inj heq
      cases h
      cases hs
      exact hat
    · exact ih hs hrest.symm
  | @through _ _ _ target later _ _ _ _ _ hgo _ h ih =>
    rcases List.append_eq_cons_iff.mp hall with ⟨rfl, heq⟩ | ⟨rest, rfl, hrest⟩
    · obtain ⟨rfl, rfl⟩ := List.cons.inj heq
      simp at hgo
    · have hsplit : Path.pieces target ++ rest ++ [name] = Path.pieces target ++ later := by
        rw [hrest, List.append_assoc]
      exact ih hs hsplit

theorem at?_of_resolve_join {w : World} {base name : String} (hname : IsName name) {q : Place}
    {n : Node} (h : w.resolve false (Path.join base name) = .ok (.taken q n)) :
    w.at? q = some n := by
  obtain ⟨front, hpieces, -⟩ := Path.pieces_join_name hname base
  obtain ⟨trail, hleads⟩ := leads_of_resolve h
  rw [Path.endsInSlash_join_name hname, Path.namesOf_eq hpieces hname.nonempty] at hleads
  exact at?_of_leads_name (Path.isStep_name hname) hleads

theorem clear_of_resolve_join {w : World} {base name : String} {spot : Spot} (hname : IsName name)
    (h : w.resolve false (Path.join base name) = .ok spot) : ∀ q ∈ w.onWay base, Clear w q := by
  obtain ⟨front, hpieces, hfront⟩ := Path.pieces_join_name hname base
  obtain ⟨trail, hleads⟩ := leads_of_resolve h
  rw [Path.namesOf_eq hpieces hname.nonempty] at hleads
  obtain ⟨-, hclear⟩ := clear_of_leads hleads (by simp)
  rw [onWay, ← hfront, (course_filter _ _ _ _).2, start,
    ← Path.isAbsolute_join (Path.isAbsolute_name hname), ← start]
  exact hclear

/-- A path that can still be followed after something has been removed did not lead through it, and
leads where it led. -/
theorem way_of_prune {v : World} {base name : String} {gone : Place} {spot : Spot}
    (hname : IsName name) (hgone : gone ≠ [])
    (h : (v.prune gone).resolve false (Path.join base name) = .ok spot) :
    (v.prune gone).goal? base = v.goal? base ∧ ∀ q ∈ v.onWay base, ¬ gone <+: q := by
  have hclear := clear_of_resolve_join hname h
  -- What the path passes is there, so it has not been removed.
  have hkept : ∀ q ∈ (v.prune gone).onWay base, ¬ gone <+: q := fun q hq hbelow => by
    rcases (hclear q hq).open_ with hdir | ⟨t, ht, -⟩ <;>
      simp_all [at?_prune_below hgone hbelow]
  have hlinks : ∀ q ∈ (v.prune gone).passes linkLimit ((v.prune gone).start base)
      (Path.steps base), ∀ t, v.at? q = some (.link t) ↔ (v.prune gone).at? q = some (.link t) :=
    fun q hq t => by rw [at?_prune_else (hkept q hq)]
  obtain ⟨hcourse, hpasses⟩ := course_eq_of_links hlinks
  have hstart : (v.prune gone).start base = v.start base := rfl
  rw [hstart] at hcourse hpasses
  constructor
  · rw [goal?_eq, goal?_eq, hstart, hcourse]
  · rw [onWay, hpasses]
    exact hkept

end World

theorem Listing.met_subset {w v : World} (hw : w.Distinct) (hv : v.Distinct)
    (hcwd : v.cwd = w.cwd) (hkeeps : ∀ q n, w.at? q = some n → v.at? q = some n) (root : String) :
    Listing.met w root ⊆ Listing.met v root := by
  intro f hf
  obtain ⟨place, hfind, hf, hmet⟩ := Listing.mem_met.mp hf
  obtain ⟨names, bytes, hat, hin, rfl⟩ := (Listing.mem_ofPlace hw).mp hf
  exact Listing.mem_met.mpr ⟨place, World.find_keeps hcwd hkeeps hfind,
    (Listing.mem_ofPlace hv).mpr ⟨names, bytes, hkeeps _ _ hat, hin, rfl⟩, hmet⟩

namespace Command
open World

/-! Clearing. -/

section Clear
variable {text path : String} {v v' : World}

theorem clearAway_eq (text path : String) (v : World) : clearAway text path v =
    if v.pathExists path then Act.change (text ++ path) (·.removeTree path) v else (.ok (), v) := by
  rw [clearAway, Act.bind_of_ok (x := get) rfl]
  split <;> rfl

theorem clearAway_ok (h : clearAway text path v = (.ok (), v')) :
    (v.pathExists path = false ∧ v' = v) ∨
      ∃ q n, v.resolve false path = .ok (.taken q n) ∧ v' = v.prune q := by
  rw [clearAway_eq] at h
  split at h
  next => exact .inr (removeTree_ok (change_ok h))
  next hmissing => exact .inl ⟨by simpa using hmissing, (Prod.mk.inj h).2.symm⟩

theorem clearAway_alters {P : Place → Prop}
    (hP : ∀ spot, v.resolve false path = .ok spot → ∀ q, spot.place <+: q → P q) :
    Alters P v (clearAway text path v).2 := by
  rw [clearAway_eq]
  split
  next =>
    refine change_world (R := Alters P) (.refl P v) fun v' hv => ?_
    obtain ⟨q, n, hq, rfl⟩ := removeTree_ok hv
    exact .prune (hP _ hq)
  next => exact .refl P v

end Clear

/-! The place of a package and the place beside it. -/

/-- A directory at the place `p`, which the paths `dir` and `up` lead to, with room for a package and
for its staging copy. -/
structure Shelf (v : World) (dir up name : String) (p : Place) : Prop where
  bench : Bench v up (stagingName name) p
  absolute : Path.isAbsolute dir = Path.isAbsolute up
  steps : Path.steps dir = Path.steps up
  named : IsName name
  rooted : v.Rooted
  distinct : v.Distinct
  fileNamed : ∀ q bytes, v.at? q = some (.file bytes) → ∀ n ∈ q, IsName n

/-- The places that change when a package is replaced. -/
def Swaps (p : Place) (name : String) (q : Place) : Prop :=
  p ++ [name] <+: q ∨ p ++ [stagingName name] <+: q

theorem stagingName_ne (name : String) : stagingName name ≠ name := by
  intro heq
  have hlength := congrArg (List.length ∘ String.toList) heq
  simp [stagingName] at hlength
  omega

theorem not_staging_of_target {p : Place} {name : String} {rest : Place} :
    ¬ p ++ [name] <+: p ++ [stagingName name] ++ rest := by
  intro h
  rw [List.append_assoc, List.prefix_append_right_inj] at h
  simp only [List.cons_append, List.nil_append, List.cons_prefix_cons] at h
  exact stagingName_ne name h.1.symm

theorem not_target_of_staging {p : Place} {name : String} {rest : Place} :
    ¬ p ++ [stagingName name] <+: p ++ [name] ++ rest := by
  intro h
  rw [List.append_assoc, List.prefix_append_right_inj] at h
  simp only [List.cons_append, List.nil_append, List.cons_prefix_cons] at h
  exact stagingName_ne name h.1

/-- The files of a package have names, and no two the same. -/
theorem files_named {u : World} (hu : u.Distinct)
    (hnamed : ∀ q bytes, u.at? q = some (.file bytes) → ∀ n ∈ q, IsName n) (root : String) :
    (∀ f ∈ Listing.met u root, ∀ n ∈ names f, IsName n) ∧
      ((Listing.met u root).map names).Nodup := by
  have hsplit : (Listing.met u root).map names =
      ((Listing.met u root).map (·.path)).map Path.pieces := by
    simp [names, Function.comp_def]
  have hinj : Function.Injective Path.pieces := fun a b hab => by
    rw [← Path.intercalate_pieces a, hab, Path.intercalate_pieces]
  rw [hsplit, Listing.met]
  split
  next place hfind =>
    constructor
    · intro f hf
      obtain ⟨ns, bytes, hat, hin, rfl⟩ := (Listing.mem_ofPlace hu).mp (List.mem_filter.mp hf).1
      have hns : ∀ n ∈ ns, IsName n := fun n hn => hnamed _ _ hat n (by simp [hn])
      have hne : ns ≠ [] := by
        rintro rfl
        simp [Listing.isIncluded] at hin
      rwa [names, Path.pieces_intercalate hne fun n hn => (hns n hn).slashless]
    · have hpaths : ((Listing.ofPlace u place).map (·.path)).Nodup :=
        Listing.distinct_paths hu fun ns bytes hat _ n hn =>
          (hnamed _ _ hat n (by simp [hn])).slashless
      exact (hpaths.sublist (List.filter_sublist.map _)).map hinj
  next => simp

theorem Bench.ready {v : World} {up name : String} {p : Place} (h : Bench v up name p)
    (hnone : ∀ rest, v.at? (p ++ [name] ++ rest) = none) : Ready v up name p :=
  { h with
    plain := fun rest t ht => by
      rw [hnone rest] at ht
      cases ht }

section Shelf
variable {v u t v' : World} {dir up name root text : String} {p : Place}

/-- Once the staging place has been cleared nothing stands there, unless something stands there that
no path finds. -/
theorem Shelf.cleared (h : Shelf v dir up name p)
    (hok : clearAway text (Path.join up (stagingName name)) v = (.ok (), u)) :
    (Ready u up (stagingName name) p ∧ (∀ rest, u.at? (p ++ [stagingName name] ++ rest) = none) ∧
      Alters (p ++ [stagingName name] <+: ·) v u) ∨
    (u = v ∧ v.pathExists (Path.join up (stagingName name)) = false ∧
      v.at? (p ++ [stagingName name]) ≠ none) := by
  rcases clearAway_ok hok with ⟨hmissing, rfl⟩ | ⟨q, n, hq, rfl⟩
  · by_cases hat : u.at? (p ++ [stagingName name]) = none
    · have hnone : ∀ rest, u.at? (p ++ [stagingName name] ++ rest) = none := by
        intro rest
        by_cases hrest : rest = []
        · rwa [hrest, List.append_nil]
        · exact h.rooted.below_none (by simp [hat]) hrest
      exact .inl ⟨h.bench.ready hnone, hnone, .refl _ u⟩
    · exact .inr ⟨rfl, hmissing, hat⟩
  · obtain rfl : q = p ++ [stagingName name] := h.bench.place hq
    have halters : Alters (p ++ [stagingName name] <+: ·) v (v.prune (p ++ [stagingName name])) :=
      .prune fun _ => id
    have hnone : ∀ rest, (v.prune (p ++ [stagingName name])).at? (p ++ [stagingName name] ++ rest) =
        none := fun rest => at?_prune_below (by simp) ⟨rest, rfl⟩
    exact .inl ⟨(h.bench.alters halters).ready hnone, hnone, halters⟩

theorem Shelf.cleared_keeps (h : Shelf v dir up name p)
    (hok : clearAway text (Path.join up (stagingName name)) v = (.ok (), u)) {q : Place} {n : Node}
    (hq : u.at? q = some n) : v.at? q = some n := by
  rcases h.cleared hok with ⟨-, hnone, halters⟩ | ⟨rfl, -, -⟩
  · by_cases hbelow : p ++ [stagingName name] <+: q
    · obtain ⟨rest, rfl⟩ := hbelow
      rw [hnone rest] at hq
      cases hq
    · rwa [← halters.same q hbelow]
  · exact hq

theorem Shelf.cleared_alters (h : Shelf v dir up name p)
    (hok : clearAway text (Path.join up (stagingName name)) v = (.ok (), u)) :
    Alters (p ++ [stagingName name] <+: ·) v u := by
  rcases h.cleared hok with ⟨-, -, halters⟩ | ⟨rfl, -, -⟩
  · exact halters
  · exact .refl _ _

theorem Shelf.cleared_files (h : Shelf v dir up name p)
    (hok : clearAway text (Path.join up (stagingName name)) v = (.ok (), u)) (root : String) :
    (∀ f ∈ Listing.met u root, ∀ n ∈ names f, IsName n) ∧
      ((Listing.met u root).map names).Nodup :=
  files_named ((h.cleared_alters hok).distinct h.distinct)
    (fun q bytes hq => h.fileNamed q bytes (h.cleared_keeps hok hq)) root

/-- Where nothing was left at the staging place, a copy of the files stands there once they are put
together. -/
theorem Shelf.staged_copy (h : Shelf v dir up name p)
    (hok : clearAway text (Path.join up (stagingName name)) v = (.ok (), u))
    (hready : Ready u up (stagingName name) p)
    (hnone : ∀ rest, u.at? (p ++ [stagingName name] ++ rest) = none)
    (ht : stage root (Listing.met u root) (Path.join up (stagingName name)) u = (.ok (), t)) :
    IsCopy t (p ++ [stagingName name]) (Listing.met u root) := by
  obtain ⟨hnamed, hdistinct⟩ := h.cleared_files hok root
  simpa using stage_ok hnamed (by simpa using hdistinct) hready (isCopy_nil hnone) ht

section Pruned
variable {w : World} {P : Place → Prop} (h : Shelf v dir up name p) (hw : w.Distinct)
  (hbuilds : Builds P w v)
  (hok : clearAway text (Path.join up (stagingName name)) v = (.ok (), u))
include h hw hbuilds hok

/-- What a package has beside the staging place is there once that place has been cleared. -/
theorem Shelf.pruned_subset (root : String) :
    Listing.met (w.prune (p ++ [stagingName name])) root ⊆ Listing.met u root := by
  obtain ⟨hcwd, hsame, hdistinct⟩ := h.cleared_alters hok
  refine Listing.met_subset (Distinct.prune hw _) (hdistinct h.distinct)
    (hcwd.trans hbuilds.cwd) (fun q n hat => ?_) root
  by_cases hpre : p ++ [stagingName name] <+: q
  · rw [at?_prune_below (by simp) hpre] at hat
    cases hat
  · rw [at?_prune_else hpre] at hat
    rw [hsame q hpre, hbuilds.keeps hat]

/-- There is nothing else, if nothing is left at the staging place. -/
theorem Shelf.subset_pruned (hnone : ∀ rest, u.at? (p ++ [stagingName name] ++ rest) = none)
    {root : String} {place : Place} (hroot : w.LeadsToDir root place) :
    Listing.ofPath u root ⊆ Listing.ofPath (w.prune (p ++ [stagingName name])) root := by
  have hkeeps : ∀ q n, u.at? q = some n → v.at? q = some n := fun q n => h.cleared_keeps hok
  have hbeside : ∀ q n, u.at? q = some n → ¬ p ++ [stagingName name] <+: q := by
    rintro q n hat ⟨rest, rfl⟩
    rw [hnone rest] at hat
    cases hat
  obtain ⟨hcwd, -, hdistinct⟩ := h.cleared_alters hok
  intro f hf
  obtain ⟨rp, hfind, hf, hopen⟩ := Listing.mem_ofPath.mp hf
  obtain ⟨ns, bytes, hat, hin, rfl⟩ := (Listing.mem_ofPlace (hdistinct h.distinct)).mp hf
  obtain ⟨hpath, hleads⟩ := find_dir_iff.mp hfind
  -- The three trees agree on the way to the root.
  have hthere : ∀ {x : World} {q : Place}, Clear x q → ∃ n, x.at? q = some n := fun hclear => by
    rcases hclear.open_ with hdir | ⟨t, ht, -⟩
    · exact ⟨_, hdir⟩
    · exact ⟨_, ht⟩
  obtain ⟨hleadsv, hwayu⟩ := hleads.of_same hcwd.symm fun q hq => by
    obtain ⟨n, hn⟩ := hthere (hleads.clear q hq)
    rw [hn, hkeeps q n hn]
  obtain ⟨hleadsv', hwayw⟩ := hroot.of_same hbuilds.cwd fun q hq => by
    obtain ⟨n, hn⟩ := hthere (hroot.clear q hq)
    rw [hn, hbuilds.keeps hn]
  obtain rfl : rp = place := by
    obtain ⟨g, hgoal, rfl⟩ := hleadsv.goal
    obtain ⟨g', hgoal', rfl⟩ := hleadsv'.goal
    rw [Option.some.inj (hgoal.symm.trans hgoal')]
  obtain ⟨hpruned, -⟩ := hroot.of_same (v := w.prune (p ++ [stagingName name])) rfl fun q hq => by
    rw [← hwayw, hwayu] at hq
    obtain ⟨n, hn⟩ := hthere (hleads.clear q hq)
    exact at?_prune_else (hbeside q n hn)
  refine Listing.mem_ofPath.mpr ⟨rp, find_dir_iff.mpr ⟨hpath, hpruned⟩,
    (Listing.mem_ofPlace (Distinct.prune hw _)).mpr ⟨ns, bytes, ?_, hin, rfl⟩, hopen⟩
  rw [at?_prune_else (hbeside _ _ hat)]
  rcases hbuilds.made (rp ++ ns) with hsame | ⟨-, hdir, -⟩
  · rw [← hsame, hkeeps _ _ hat]
  · rw [hkeeps _ _ hat] at hdir
    cases hdir

end Pruned

/-- A package that has nothing in common with the directory has the files it had. -/
theorem Shelf.met_cleared {w : World} {P : Place → Prop} (h : Shelf v dir up name p)
    (hw : w.IsTree) (hbuilds : Builds P w v)
    (hok : clearAway text (Path.join up (stagingName name)) v = (.ok (), u)) {rp : Place}
    (hfound : w.find root = .ok (rp, .dir)) (hfind : u.find root = .ok (rp, .dir))
    (hnot : ¬ rp <+: p) (hnot' : ¬ p <+: rp) : Listing.met u root = Listing.met w root := by
  have hu := h.cleared_alters hok
  rw [Listing.met_of_find hfind, Listing.met_of_find hfound]
  refine congrArg _ (Listing.ofPlace_congr hw (hu.distinct h.distinct) fun ns bytes _ => ?_)
  have hbeside : ¬ p ++ [stagingName name] <+: rp ++ ns := by
    intro hpre
    rcases List.prefix_or_prefix_of_prefix ((List.prefix_append _ _).trans hpre)
      (List.prefix_append rp ns) with h | h
    · exact hnot' h
    · exact hnot h
  rw [hu.same _ hbeside]
  rcases hbuilds.made (rp ++ ns) with hsame | ⟨hfree, hdir, -⟩
  · rw [hsame]
  · simp [hfree, hdir]

/-- Staging changes the staging copy only. -/
theorem Shelf.staged (h : Shelf v dir up name p)
    (hok : clearAway text (Path.join up (stagingName name)) v = (.ok (), u)) (root : String) :
    Alters (p ++ [stagingName name] <+: ·) u
        (stage root (Listing.met u root) (Path.join up (stagingName name)) u).2 ∧
      Bench (stage root (Listing.met u root) (Path.join up (stagingName name)) u).2 up
        (stagingName name) p := by
  obtain ⟨hnamed, -⟩ := h.cleared_files hok root
  rcases h.cleared hok with ⟨hready, -, -⟩ | ⟨rfl, hmissing, hat⟩
  · obtain ⟨hstage, hready⟩ := stage_alters root hnamed hready
    exact ⟨hstage, hready.toBench⟩
  · rw [(stage_blocked root hnamed h.bench hat hmissing).1]
    exact ⟨.refl _ _, h.bench⟩

/-- After the earlier copy has been cleared away, the paths lead where they led, if anywhere. -/
theorem Shelf.place (h : Shelf v dir up name p) (ht : Bench t up (stagingName name) p)
    (hok : clearAway text (Path.join dir name) t = (.ok (), v')) {base last : String}
    (hbase : t.LeadsToDir base p) (hlast : IsName last) {spot : Spot}
    (hspot : v'.resolve false (Path.join base last) = .ok spot) : spot.place = p ++ [last] := by
  obtain ⟨g, hgoal, rfl⟩ := (ht.dir.congr h.absolute h.steps).goal
  rcases clearAway_ok hok with ⟨-, rfl⟩ | ⟨q, n, hq, rfl⟩
  · obtain ⟨g', hgoal', hplace⟩ := hbase.goal
    rw [← hplace]
    exact place_of_resolve_join hgoal' hlast hspot
  · have hgone : q = g.place ++ [name] := place_of_resolve_join hgoal h.named hq
    obtain ⟨g', hgoal', hplace⟩ := hbase.goal
    rw [← hplace]
    refine place_of_resolve_join ?_ hlast hspot
    rw [(way_of_prune hlast (by simp [hgone]) hspot).1, hgoal']

/-- Where a directory can be moved to a name in a directory, the way there does not lead through what
that name stood for. -/
theorem Shelf.way_free (h : Shelf v dir up name p)
    (ht : Alters (p ++ [stagingName name] <+: ·) v t)
    (hok : clearAway text (Path.join dir name) t = (.ok (), v')) {spot : Spot}
    (hspot : v'.resolve false (Path.join dir name) = .ok spot)
    (hdir : ∀ q n, spot = .taken q n → n = .dir) : ∀ q ∈ v.onWay dir, ¬ p ++ [name] <+: q := by
  have hway := onWay_congr h.absolute h.steps v
  obtain ⟨hleads, hsame⟩ := (h.bench.dir.congr h.absolute h.steps).of_same ht.cwd
    fun q hq => ht.same q (h.bench.aside q (hway ▸ hq))
  obtain ⟨g, hgoal, rfl⟩ := hleads.goal
  rw [← hsame]
  rcases clearAway_ok hok with ⟨hmissing, rfl⟩ | ⟨r, n, hr, rfl⟩
  · have hplace := place_of_resolve_join hgoal h.named hspot
    have hnone : v'.at? (g.place ++ [name]) = none := by
      cases spot with
      | free q => exact hplace ▸ (resolve_free hspot).1
      | taken q n =>
        obtain rfl := hdir q n rfl
        obtain rfl : q = g.place ++ [name] := hplace
        have hat := at?_of_resolve_join h.named hspot
        have hfind := find_dir_iff.mpr ⟨isPath_of_resolve hspot, hleads.join h.named hat⟩
        simp [pathExists, hfind] at hmissing
    rintro q hq ⟨rest, rfl⟩
    -- Nothing stands there or below, so nothing there can be passed.
    have hbelow : v'.at? (g.place ++ [name] ++ rest) = none := by
      by_cases hrest : rest = []
      · rwa [hrest, List.append_nil]
      · rw [ht.same _ not_target_of_staging]
        refine h.rooted.below_none ?_ hrest
        rw [← List.append_nil (g.place ++ [name]), ← ht.same _ not_target_of_staging,
          List.append_nil, hnone]
        simp
    rcases (hleads.clear _ hq).open_ with hopen | ⟨target, hopen, -⟩
    · rw [hbelow] at hopen
      cases hopen
    · rw [hbelow] at hopen
      cases hopen
  · obtain rfl : r = g.place ++ [name] := place_of_resolve_join hgoal h.named hr
    exact (way_of_prune h.named (by simp) hspot).2

/-- Replacing a package changes its place and the staging place, whether or not it succeeds. -/
theorem Shelf.replaceTree_alters (h : Shelf v dir up name p) (root : String) :
    Alters (Swaps p name) v
      (replaceTree root (Path.join up (stagingName name)) (Path.join dir name) v).2 := by
  refine Act.bind_keeps Alters.trans (clearAway_alters fun spot hspot q hq => ?_) fun _ u hu => ?_
  · exact .inr (h.bench.place hspot ▸ hq)
  rw [Act.bind_of_ok (x := get) rfl]
  obtain ⟨halters, hbench⟩ := h.staged hu root
  refine Act.bind_keeps Alters.trans (halters.mono fun _ => .inr) fun _ t ht => ?_
  rw [ht] at hbench
  have hdir := hbench.dir.congr h.absolute h.steps
  refine Act.bind_keeps Alters.trans (clearAway_alters fun spot hspot q hq => ?_) fun _ v' hv' => ?_
  · obtain ⟨g, hgoal, rfl⟩ := hdir.goal
    exact .inl (place_of_resolve_join hgoal h.named hspot ▸ hq)
  refine change_world (R := Alters (Swaps p name)) (.refl _ v') fun w' hw' => ?_
  obtain ⟨q, n, spot, hsource, htarget, hmoved⟩ := rename_ok hw'
  have hq : q = p ++ [stagingName name] := h.place hbench hv' hbench.dir hbench.named hsource
  have hspot : spot.place = p ++ [name] := h.place hbench hv' hdir h.named htarget
  rcases hmoved with rfl | ⟨rfl, -⟩
  · exact .move (fun r hr => .inr (hq ▸ hr)) fun r hr => .inl (hspot ▸ hr)
  · exact .refl _ w'

/-- What a replaced package has at its place: a copy of the files, or, where there are none, a link
that was found at the staging place and leads nowhere. -/
inductive Outcome (v w' : World) (dir up name : String) (p : Place) (files : Listing) : Prop
  | copy (hfiles : files ≠ []) (hcopy : IsCopy w' (p ++ [name]) files)
      (hway : ∀ q ∈ v.onWay dir, ¬ p ++ [name] <+: q)
  | link (hfiles : files = []) (target : String)
      (hstaging : v.at? (p ++ [stagingName name]) = some (.link target))
      (hlost : v.pathExists (Path.join up (stagingName name)) = false)
      (hpath : IsPath (Path.join up (stagingName name)))
      (hat : ∀ rest, w'.at? (p ++ [name] ++ rest) = v.at? (p ++ [stagingName name] ++ rest))

/-- Below its place a replaced package has what has been copied, and nothing else. -/
theorem Outcome.at?_iff {w' : World} {files : Listing} (h : Outcome v w' dir up name p files)
    (hrooted : v.Rooted) {ns : Place} (hns : ns ≠ []) {n : Node} :
    w'.at? (p ++ [name] ++ ns) = some n ↔ Copied files ns n := by
  cases h with
  | copy _ hcopy _ => exact hcopy ns n
  | link hfiles target hstaging _ _ hat =>
    rw [hat, hrooted.below_none (by simp [hstaging]) hns, hfiles]
    simp [Copied]

theorem Outcome.named {w' : World} {files : Listing} (h : Outcome v w' dir up name p files)
    (hrooted : v.Rooted) (hnamed : ∀ f ∈ files, ∀ n ∈ names f, IsName n) {ns : Place} {n : Node}
    (hat : w'.at? (p ++ [name] ++ ns) = some n) : ∀ m ∈ ns, IsName m := by
  by_cases hns : ns = []
  · simp [hns]
  · rcases (h.at?_iff hrooted hns).mp hat with ⟨f, hf, rfl, -⟩ | ⟨-, f, hf, hpre, -⟩
    · exact hnamed f hf
    · exact fun m hm => hnamed f hf m (hpre.subset hm)

theorem Shelf.replaceTree_ok (h : Shelf v dir up name p) {w' : World}
    (hok : replaceTree root (Path.join up (stagingName name)) (Path.join dir name) v =
      (.ok (), w')) :
    IsPath (Path.join dir name) ∧ (∀ rest, w'.at? (p ++ [stagingName name] ++ rest) = none) ∧
      ∃ u, clearAway "cannot clear " (Path.join up (stagingName name)) v = (.ok (), u) ∧
        Listing.ofPath u root = Listing.met u root ∧
        Outcome v w' dir up name p (Listing.ofPath u root) := by
  obtain ⟨_, u, hu, hrest⟩ := Act.bind_ok hok
  rw [Act.bind_of_ok (x := get) rfl] at hrest
  obtain ⟨_, t, ht, hrest⟩ := Act.bind_ok hrest
  obtain ⟨_, v', hv', hrename⟩ := Act.bind_ok hrest
  obtain ⟨-, hbench⟩ := h.staged hu root
  rw [ht] at hbench
  have hdir := hbench.dir.congr h.absolute h.steps
  obtain ⟨q, n, spot, hsource, htarget, hmoved⟩ := rename_ok (change_ok hrename)
  obtain rfl : q = p ++ [stagingName name] := h.place hbench hv' hbench.dir hbench.named hsource
  have hspot : spot.place = p ++ [name] := h.place hbench hv' hdir h.named htarget
  have hat := at?_of_resolve_join hbench.named hsource
  rcases hmoved with hmoved | ⟨-, hself⟩
  swap
  · rw [hspot] at hself
    exact absurd (by simpa using hself) (stagingName_ne name)
  rw [hspot] at hmoved
  subst hmoved
  -- The staging copy is as it was made: the earlier copy stood beside it.
  have hkept : ∀ rest, v'.at? (p ++ [stagingName name] ++ rest) =
      t.at? (p ++ [stagingName name] ++ rest) := by
    intro rest
    rcases clearAway_ok hv' with ⟨-, rfl⟩ | ⟨q, m, hq, rfl⟩
    · rfl
    · obtain ⟨g, hgoal, rfl⟩ := hdir.goal
      obtain rfl : q = g.place ++ [name] := place_of_resolve_join hgoal h.named hq
      exact at?_prune_else not_staging_of_target
  have hnew : ∀ rest, (v'.move (p ++ [stagingName name]) (p ++ [name])).at? (p ++ [name] ++ rest) =
      t.at? (p ++ [stagingName name] ++ rest) := by
    intro rest
    rw [at?_move_target (by simp) (by simp), hkept]
  -- Whatever was met could be opened.
  have hopen : Listing.ofPath u root = Listing.met u root :=
    List.filter_eq_self.mpr (stage_isOpen ht)
  refine ⟨isPath_of_resolve htarget, fun rest => ?_, u, hu, hopen, ?_⟩
  · rw [at?_move_else not_staging_of_target, at?_prune_below (by simp) ⟨rest, rfl⟩]
  rw [hopen]
  rcases h.cleared hu with ⟨hready, hnone, hcleared⟩ | ⟨rfl, hlost, htaken⟩
  · have hcopy := h.staged_copy hu hready hnone ht
    have hthere : t.at? (p ++ [stagingName name] ++ []) = some n := by
      rw [← hkept, List.append_nil, hat]
    have hcopied := (hcopy [] n).mp hthere
    obtain rfl : n = .dir := by
      rcases hcopied with ⟨f, -, hnil, -⟩ | ⟨rfl, -⟩
      · exact absurd hnil (Path.pieces_ne_nil f.path)
      · rfl
    refine .copy (fun hnil => ?_) (fun ns n => ?_) ?_
    · rw [hnil] at hcopied
      simp [Copied] at hcopied
    · rw [hnew, hcopy ns n]
    · refine h.way_free (hcleared.trans ?_) hv' htarget fun q m hq => ?_
      · have hstaged := (h.staged hu root).1
        rwa [ht] at hstaged
      · exact rename_dir (change_ok hrename) hsource (hq ▸ htarget)
  · obtain ⟨hsame, hfiles⟩ := stage_blocked root (h.cleared_files hu root).1 h.bench htaken hlost
    rw [ht] at hsame hfiles
    subst hsame
    rw [← List.append_nil (p ++ [stagingName name]), hkept, List.append_nil] at hat
    have hpath := isPath_of_resolve hsource
    obtain ⟨target, rfl⟩ := h.bench.link_of_missing hat hpath hlost
    exact .link (hfiles rfl) target hat hlost hpath hnew

/-- Where files have been put together, the staging place had been cleared. -/
theorem Shelf.cleared_of_files (h : Shelf v dir up name p) {w' : World}
    (hok : replaceTree root (Path.join up (stagingName name)) (Path.join dir name) v =
      (.ok (), w'))
    (hu : clearAway "cannot clear " (Path.join up (stagingName name)) v = (.ok (), u))
    (hfiles : Listing.ofPath u root ≠ []) (rest : Place) :
    u.at? (p ++ [stagingName name] ++ rest) = none := by
  rcases h.cleared hu with ⟨-, hnone, -⟩ | ⟨rfl, hlost, htaken⟩
  · exact hnone rest
  · have hblocked := (stage_blocked root (h.cleared_files hu root).1 h.bench htaken hlost).2
    rw [replaceTree, Act.bind_of_ok hu, Act.bind_of_ok (x := get) rfl] at hok
    obtain ⟨_, t, ht, -⟩ := Act.bind_ok hok
    rw [ht] at hblocked
    exact absurd (by rw [Listing.ofPath, hblocked rfl, List.filter_nil]) hfiles

/-- What a name in a directory leads to, if it is a link: what the link says, from there. -/
theorem leadsToDir_link {w : World} {base last target : String} {g : Route} {q : Place}
    (hgoal : w.goal? base = some g) (hlast : IsName last)
    (hat : w.at? (g.place ++ [last]) = some (.link target)) :
    w.LeadsToDir (Path.join base last) q ↔
      (∀ r ∈ w.onWay base, Clear w r) ∧ target ≠ "" ∧
        ∃ links, linkLimit - g.links.length = links + 1 ∧
          (∃ s, w.course true links (if Path.isAbsolute target then [] else g.place)
            (Path.pieces target) = some s ∧ s.place = q) ∧
          ∀ r ∈ w.passes links (if Path.isAbsolute target then [] else g.place)
            (Path.pieces target), Clear w r := by
  have hstart : w.start (Path.join base last) = w.start base := by
    rw [start, start, Path.isAbsolute_join (Path.isAbsolute_name hlast)]
  have hstep := Path.isStep_name hlast
  rw [goal?_eq] at hgoal
  have hcourse : w.goal? (Path.join base last) =
      (w.course true (linkLimit - g.links.length) g.place [last]).map
        fun s => ⟨g.links ++ s.links, s.place⟩ := by
    rw [goal?_eq, hstart, Path.steps_join_name hlast, course_append hgoal (by simp)]
  have hpasses : w.onWay (Path.join base last) =
      w.onWay base ++ w.passes (linkLimit - g.links.length) g.place [last] := by
    rw [onWay, hstart, Path.steps_join_name hlast, passes_append hgoal, onWay]
  have hclear : Clear w (g.place ++ [last]) ↔ target ≠ "" := by
    constructor
    · intro h
      rcases h.open_ with hdir | ⟨t, ht, hne⟩
      · simp [hat] at hdir
      · simp_all
    · exact fun hne => ⟨.inr ⟨target, hat, hne⟩, by simpa using hlast.short⟩
  cases hlinks : linkLimit - g.links.length with
  | zero =>
    rw [hlinks, course_stuck hstep hat] at hcourse
    constructor
    · intro h
      obtain ⟨s, hs, -⟩ := h.goal
      simp [hcourse] at hs
    · rintro ⟨-, -, links, hlinks, -⟩
      omega
  | succ links =>
    rw [hlinks, course_over hstep hat (by simp), List.append_nil] at hcourse
    rw [hlinks, passes_over hstep hat, List.append_nil] at hpasses
    have hgo : (∃ s, w.goal? (Path.join base last) = some s ∧ s.place = q) ↔
        ∃ s, w.course true links (if Path.isAbsolute target then [] else g.place)
          (Path.pieces target) = some s ∧ s.place = q := by
      rw [hcourse]
      cases w.course true links (if Path.isAbsolute target then [] else g.place)
        (Path.pieces target) <;> simp
    have hiff : w.LeadsToDir (Path.join base last) q ↔
        (∃ s, w.goal? (Path.join base last) = some s ∧ s.place = q) ∧
          ∀ r ∈ w.onWay (Path.join base last), Clear w r :=
      ⟨fun h => ⟨h.goal, h.clear⟩, fun h => ⟨h.1, h.2⟩⟩
    rw [hiff, hgo, hpasses]
    simp only [List.forall_mem_append, List.forall_mem_cons, hclear, Nat.add_right_cancel_iff,
      exists_eq_left']
    tauto

theorem Shelf.link_lost (h : Shelf v dir up name p) {w' : World}
    (halters : Alters (Swaps p name) v w')
    (hgone : ∀ rest, w'.at? (p ++ [stagingName name] ++ rest) = none)
    (hnot : ∀ q ∈ v.onWay dir, ¬ p ++ [name] <+: q) {target : String}
    (hstaging : v.at? (p ++ [stagingName name]) = some (.link target))
    (hpath : IsPath (Path.join up (stagingName name)))
    (hat : ∀ rest, w'.at? (p ++ [name] ++ rest) = v.at? (p ++ [stagingName name] ++ rest))
    {q : Place} (hfind : w'.find (Path.join dir name) = .ok (q, .dir)) :
    v.pathExists (Path.join up (stagingName name)) = true := by
  have hway := onWay_congr h.absolute h.steps v
  have hgoalup := goal?_congr h.absolute h.steps v
  obtain ⟨g, hgoal, rfl⟩ := h.bench.dir.goal
  -- The directory is reached as before, over the same links.
  have hsame : ∀ r ∈ v.onWay dir, w'.at? r = v.at? r := fun r hr => halters.same r fun hswap =>
    hswap.elim (hnot r hr) (h.bench.aside r (hway ▸ hr))
  have hgoal' : w'.goal? dir = some g := by
    have hlinks : ∀ r ∈ v.passes linkLimit (v.start dir) (Path.steps dir), ∀ t,
        w'.at? r = some (.link t) ↔ v.at? r = some (.link t) := fun r hr t => by rw [hsame r hr]
    rw [goal?_eq, start, halters.cwd, ← start, (course_eq_of_links hlinks).1, ← goal?_eq, hgoalup,
      hgoal]
  have hlink : w'.at? (g.place ++ [name]) = some (.link target) := by
    simpa [hstaging] using hat []
  obtain ⟨-, hne, links, hlinks, ⟨s, hs, hplace⟩, hclear⟩ :=
    (leadsToDir_link hgoal' h.named hlink).mp (find_dir_iff.mp hfind).2
  -- What the link passes stands elsewhere, and stood there before.
  have hold : ∀ r ∈ w'.passes links (if Path.isAbsolute target then [] else g.place)
      (Path.pieces target), v.at? r = w'.at? r := by
    intro r hr
    refine (halters.same r ?_).symm
    have hthere : w'.at? r ≠ none := by
      rcases (hclear r hr).open_ with hdir | ⟨t, ht, -⟩ <;> simp_all
    rintro (⟨rest, rfl⟩ | ⟨rest, rfl⟩)
    · by_cases hrest : rest = []
      · rw [hrest, List.append_nil] at hr
        exact not_mem_passes_self hlink hs hr
      · exact hthere ((hat rest).trans (h.rooted.below_none (by simp [hstaging]) hrest))
    · exact hthere (hgone rest)
  obtain ⟨hcourse, hpasses⟩ := course_eq_of_links fun r hr t => by rw [hold r hr]
  have hdir : v.LeadsToDir (Path.join up (stagingName name)) q := by
    refine (leadsToDir_link hgoal h.bench.named hstaging).mpr
      ⟨h.bench.dir.clear, hne, links, hlinks, ⟨s, hcourse.trans hs, hplace⟩, fun r hr => ?_⟩
    rw [hpasses] at hr
    obtain ⟨hopen, hshort⟩ := hclear r hr
    exact ⟨by rwa [hold r hr], hshort⟩
  simp [pathExists, find_dir_iff.mpr ⟨hpath, hdir⟩]

/-- The package is found at its path. Only where it has no files might that path lead through what
has been replaced. -/
theorem Shelf.ofPath_replaced (h : Shelf v dir up name p) {w' : World} {files : Listing}
    (halters : Alters (Swaps p name) v w') (hpath : IsPath (Path.join dir name))
    (hgone : ∀ rest, w'.at? (p ++ [stagingName name] ++ rest) = none)
    (hout : Outcome v w' dir up name p files)
    (hnot : files ≠ [] ∨ ∀ q ∈ v.onWay dir, ¬ p ++ [name] <+: q) :
    Listing.ofPath w' (Path.join dir name) =
      (Listing.ofPlace w' (p ++ [name])).filter (Listing.isOpen (Path.join dir name)) := by
  cases hout with
  | copy hfiles hcopy hfree =>
    have hroot := hcopy.dir hfiles
    have hway := onWay_congr h.absolute h.steps v
    obtain ⟨hdir, -⟩ := (h.bench.dir.congr h.absolute h.steps).of_same halters.cwd
      fun q hq => halters.same q fun hswap =>
        hswap.elim (hfree q hq) (h.bench.aside q (hway ▸ hq))
    exact Listing.ofPath_of_find (find_dir_iff.mpr ⟨hpath, hdir.join h.named hroot⟩)
  | link hfiles target hstaging hlost hstagingPath hat =>
    have hfree := hnot.resolve_left (absurd hfiles)
    have hnone : Listing.ofPlace w' (p ++ [name]) = [] := by
      refine List.eq_nil_iff_forall_not_mem.mpr fun f hf => ?_
      obtain ⟨ns, bytes, hfile, hin, -⟩ :=
        (Listing.mem_ofPlace (halters.distinct h.distinct)).mp hf
      have hne : ns ≠ [] := by
        rintro rfl
        simp [Listing.isIncluded] at hin
      rw [hat, h.rooted.below_none (by simp [hstaging]) hne] at hfile
      cases hfile
    rw [hnone, List.filter_nil]
    refine Listing.ofPath_eq_nil fun q hfind => ?_
    rw [h.link_lost halters hgone hfree hstaging hstagingPath hat hfind] at hlost
    cases hlost

end Shelf

/-! The whole of it: the directory is made where it is missing, and the package is put in it. -/

/-- What stands at a name in the directory at `p`, after the package at a root has been put there. -/
structure Installed (w w' : World) (root dir name : String) (p : Place) : Prop where
  /-- The files of the package and the directories that lead to them, and nothing else. -/
  copied : ∀ ns, ns ≠ [] → ∀ n,
    w'.at? (p ++ [name] ++ ns) = some n ↔ Copied (Listing.ofPath w root) ns n
  listed : Listing.ofPlace w' (p ++ [name]) = Listing.ofPath w root
  /-- No file of the package was out of reach. -/
  complete : Listing.ofPath w root = Listing.met w root
  /-- They are found by the path, as far as they are within its reach. Where there are none, this is
  so if the path does not lead through what is replaced. -/
  found : (Listing.ofPath w root ≠ [] ∨ ∀ q ∈ w.onWay dir, ¬ p ++ [name] <+: q) →
    Listing.ofPath w' (Path.join dir name) =
      (Listing.ofPath w root).filter (Listing.isOpen (Path.join dir name))

theorem ofPlace_of_copied {w w' : World} {root : String} {place : Place} (hw : w.IsTree)
    (hw' : w'.Distinct) (h : ∀ ns, ns ≠ [] → ∀ n,
      w'.at? (place ++ ns) = some n ↔ Copied (Listing.ofPath w root) ns n) :
    Listing.ofPlace w' place = Listing.ofPath w root := by
  have hne : ∀ ns, Listing.isIncluded ns = true → ns ≠ [] := by
    rintro ns hin rfl
    simp [Listing.isIncluded] at hin
  -- A file there has the names of a file of the package.
  have hfile : ∀ ns bytes, w'.at? (place ++ ns) = some (.file bytes) →
      Listing.isIncluded ns = true → ∃ f ∈ Listing.ofPath w root, names f = ns ∧ f.bytes = bytes := by
    intro ns bytes hat hin
    rcases (h ns (hne ns hin) _).mp hat with ⟨f, hf, hns, hbytes⟩ | ⟨hdir, -⟩
    · exact ⟨f, hf, hns, (Node.file.inj hbytes).symm⟩
    · cases hdir
  have hpaths : ((Listing.ofPlace w' place).map (·.path)).Nodup := by
    refine Listing.distinct_paths hw' fun ns bytes hat hin n hn => ?_
    obtain ⟨f, -, rfl, -⟩ := hfile ns bytes hat hin
    exact Path.slashless_of_mem_pieces hn
  refine Listing.eq_of_mem_iff (Listing.ascending_of_distinct hpaths)
    (Listing.ascending_ofPath hw root) fun f => ?_
  rw [Listing.mem_ofPlace hw']
  constructor
  · rintro ⟨ns, bytes, hat, hin, rfl⟩
    obtain ⟨f, hf, rfl, rfl⟩ := hfile ns bytes hat hin
    rwa [names, Path.intercalate_pieces]
  · intro hf
    obtain ⟨rp, -, hplace, -⟩ := Listing.mem_ofPath.mp hf
    obtain ⟨ns, bytes, hat, hin, rfl⟩ := (Listing.mem_ofPlace hw.distinct).mp hplace
    have hnames : names ⟨String.intercalate "/" ns, bytes⟩ = ns :=
      Path.pieces_intercalate (hne ns hin) fun n hn =>
        (hw.isName_of_at? hat n (by simp [hn])).slashless
    exact ⟨ns, bytes, (h ns (hne ns hin) _).mpr (.inl ⟨_, hf, hnames, rfl⟩), hin, rfl⟩

/-! Trees stay trees. -/

theorem stage_keeps {P : World → Prop} (hdirs : ∀ v up, P v → P (v.makeDirs up).2)
    (hfile : ∀ v path bytes v', v.writeFile path bytes = .ok v' → P v → P v') (root : String)
    (files : Listing) (staging : String) {v : World} (h : P v) :
    P (stage root files staging v).2 := by
  induction files generalizing v with
  | nil => exact h
  | cons f files ih =>
    rw [stage_cons]
    refine Act.bind_keeps (R := fun a b => P a → P b) (fun h h' => h' ∘ h) (fun h => ?_)
      (fun _ u _ => ih) h
    have hwrite : ∀ u, P u → P (Act.change ("cannot copy " ++ Path.join root f.path) (fun w =>
        if Listing.isOpen root f then w.writeFile (Path.join staging f.path) f.bytes
        else .error .nameTooLong) u).2 := fun u =>
      change_world (R := fun a b => P a → P b) id fun u' hu' => hfile u _ _ u' (opened_ok hu').2
    unfold copyFile
    cases Path.parent (Path.join staging f.path) with
    | none => exact hwrite v h
    | some dir =>
      refine Act.bind_keeps (R := fun a b => P a → P b) (fun h h' => h' ∘ h) (fun h => ?_)
        (fun _ u _ => hwrite u) h
      rw [makeDirs_world]
      exact hdirs v dir h

theorem clearAway_keeps {P : World → Prop} {text path : String} {v : World}
    (hprune : ∀ q n, v.resolve false path = .ok (.taken q n) → P v → P (v.prune q)) (h : P v) :
    P (clearAway text path v).2 := by
  rw [clearAway_eq]
  split
  next =>
    refine change_world (R := fun a b => P a → P b) id (fun v' hv => ?_) h
    obtain ⟨q, n, hq, rfl⟩ := removeTree_ok hv
    exact hprune q n hq
  next => exact h

/-- Replacing a package keeps a tree one, unless the current directory is in the package. -/
theorem Shelf.replaceTree_real {v : World} {dir up name : String} {p : Place}
    (h : Shelf v dir up name p) (hv : v.IsReal) (hcwd : ∀ n, ¬ p ++ [n] <+: v.cwd) (root : String) :
    (replaceTree root (Path.join up (stagingName name)) (Path.join dir name) v).2.IsReal := by
  have hprune : ∀ n, ∀ x : World, x.IsReal ∧ x.cwd = v.cwd →
      (x.prune (p ++ [n])).IsReal ∧ (x.prune (p ++ [n])).cwd = v.cwd := fun n x hx =>
    ⟨hx.1.prune (hx.2 ▸ hcwd n), hx.2⟩
  let P (x : World) : Prop := x.IsReal ∧ x.cwd = v.cwd
  have hstage : ∀ files x, P x → P (stage root files (Path.join up (stagingName name)) x).2 := by
    refine fun files x => stage_keeps (P := P) (fun x up hx => ⟨hx.1.makeDirs up, ?_⟩)
      (fun x path bytes x' hok hx => ⟨hx.1.writeFile hok, ?_⟩) root files _
    · exact ((Advances.refl x).makeDirs up).cwd.trans hx.2
    · obtain ⟨-, -, -, -, rfl⟩ := writeFile_ok hok
      exact hx.2
  refine (Act.bind_keeps (R := fun a b => P a → P b) (fun h h' => h' ∘ h)
    (clearAway_keeps fun q n hq => ?_) (fun _ u hu => ?_) ⟨hv, rfl⟩).1
  · rw [show q = p ++ [stagingName name] from h.bench.place hq]
    exact hprune _ v
  rw [Act.bind_of_ok (x := get) rfl]
  obtain ⟨-, hbench⟩ := h.staged hu root
  refine Act.bind_keeps (R := fun a b => P a → P b) (fun h h' => h' ∘ h) (hstage _ u)
    fun _ t ht => ?_
  rw [ht] at hbench
  have hdir := hbench.dir.congr h.absolute h.steps
  refine Act.bind_keeps (R := fun a b => P a → P b) (fun h h' => h' ∘ h)
    (clearAway_keeps fun q n hq => ?_) fun _ v' hv' => ?_
  · obtain ⟨g, hgoal, rfl⟩ := hdir.goal
    rw [show q = g.place ++ [name] from place_of_resolve_join hgoal h.named hq]
    exact hprune _ t
  refine change_world (R := fun a b => P a → P b) id fun w' hw' hx => ?_
  obtain ⟨q, n, spot, hsource, htarget, hmoved⟩ := rename_ok hw'
  have hq : q = p ++ [stagingName name] := h.place hbench hv' hbench.dir hbench.named hsource
  have hspot : spot.place = p ++ [name] := h.place hbench hv' hdir h.named htarget
  rcases hmoved with rfl | ⟨rfl, -⟩
  swap
  · exact hx
  refine ⟨?_, hx.2⟩
  -- The target is a name in a directory, whether or not something stands there.
  have hplace : (∀ n ∈ spot.place, IsName n) ∧ v'.at? spot.place.dropLast = some .dir := by
    cases spot with
    | free r =>
      obtain ⟨-, hnamed, hparent, -⟩ := hx.1.spot htarget (by simp)
      exact ⟨hnamed, hparent⟩
    | taken r m =>
      have hat := at?_of_resolve_join h.named htarget
      exact ⟨hx.1.isName_of_at? hat, hx.1.rooted.parent r m hat⟩
  rw [hq, hspot] at *
  rw [List.dropLast_concat] at hplace
  have hbeside : ¬ p ++ [stagingName name] <+: p := fun hpre => by
    simpa using hpre.length_le
  exact hx.1.move (by simp) (by simp) hplace.1 (by simpa using hplace.2) (by simpa using hbeside)
    (hx.2 ▸ hcwd _) (hx.2 ▸ hcwd _)

section CopyPackage
variable {w v u w' : World} {dir up name root text : String} {p : Place} (hw : w.IsTree)
  (hname : IsName name) (hstaged : IsName (stagingName name))
  (hstaging : ∀ g, w.goal? dir = some g →
    ∀ q ∈ w.onWay dir, ¬ g.place ++ [stagingName name] <+: q)

/-- A way that leads through neither place does not lead through the staging place. -/
theorem staging_aside {g : Route} (hgoal : w.goal? dir = some g)
    (hway : ∀ q ∈ w.onWay dir, ¬ Swaps g.place name q) :
    ∀ g', w.goal? dir = some g' → ∀ q ∈ w.onWay dir, ¬ g'.place ++ [stagingName name] <+: q := by
  rintro _ hg q hon hpre
  obtain rfl := Option.some.inj (hgoal.symm.trans hg)
  exact hway q hon (.inr hpre)

theorem copyPackage_eq (hname : IsName name) (root dir : String) :
    ∃ up, Path.isAbsolute up = Path.isAbsolute dir ∧ Path.steps up = Path.steps dir ∧
      copyPackage root (Path.join dir name) = (do
        Act.makeDirs up
        replaceTree root (Path.join up (stagingName name)) (Path.join dir name)) := by
  obtain ⟨up, hup, habs, hsteps⟩ := Path.parent_join_name hname dir
  exact ⟨up, habs, hsteps, by
    simp only [copyPackage, hup, Path.fileName_join_name hname, Option.getD_some]⟩

include hw hname hstaged hstaging

/-- Once the directory is there, so is the room for a package and its staging copy. -/
theorem shelf_of_makeDirs (habs : Path.isAbsolute up = Path.isAbsolute dir)
    (hsteps : Path.steps up = Path.steps dir) (hok : w.makeDirs up = (.ok (), v)) :
    ∃ g, w.goal? dir = some g ∧ Shelf v dir up name g.place ∧ v.onWay dir = w.onWay dir ∧
      Builds (· ∈ w.onWay dir) w v := by
  have hsame : ∀ x : World, x.onWay up = x.onWay dir ∧ x.goal? up = x.goal? dir := fun x =>
    ⟨onWay_congr habs hsteps x, goal?_congr habs hsteps x⟩
  have hbuilds := (Advances.refl w).makeDirs up
  rw [hok, (hsame w).1] at hbuilds
  have hlink : ∀ q ∈ w.passes linkLimit (w.start dir) (Path.steps dir), ∀ t,
      v.at? q = some (.link t) ↔ w.at? q = some (.link t) := by
    intro q _ t
    rcases hbuilds.made q with heq | ⟨hfree, hdir, -⟩
    · rw [heq]
    · simp [hfree, hdir]
  obtain ⟨hcourse, hpasses⟩ := course_eq_of_links hlink
  have hstart : v.start dir = w.start dir := by rw [start, start, hbuilds.cwd]
  have hway : v.onWay dir = w.onWay dir := by rw [onWay, hstart, hpasses, onWay]
  have hgoal : v.goal? dir = w.goal? dir := by rw [goal?_eq, hstart, hcourse, goal?_eq]
  obtain ⟨p, hleads⟩ := leadsToDir_of_makeDirs hok
  obtain ⟨g, hg, rfl⟩ := hleads.goal
  rw [(hsame v).2, hgoal] at hg
  refine ⟨g, hg, ?_, hway, hbuilds⟩
  have haside : ∀ q ∈ w.onWay dir, ¬ g.place ++ [stagingName name] <+: q := hstaging g hg
  have hrooted : v.Rooted := by
    have hmade := hw.rooted.makeDirsWithin (up.length + 1) up
    rwa [← World.makeDirs, hok] at hmade
  refine ⟨⟨hleads, hstaged, ?_⟩, habs.symm, hsteps.symm, hname, hrooted,
    hbuilds.distinct hw.distinct, ?_⟩
  · rw [(hsame v).1, hway]
    exact haside
  · intro q bytes hq
    rcases hbuilds.made q with heq | ⟨-, hdir, -⟩
    · exact hw.isName_of_at? (heq ▸ hq)
    · simp [hq] at hdir

/-- Whether or not a package could be copied, nothing changes but its place, the staging place and
what is missing on the way to them. -/
theorem copyPackage_frame (root : String) (q : Place) :
    (copyPackage root (Path.join dir name) w).2.at? q = w.at? q ∨
    (q ∈ w.onWay dir ∧ w.at? q = none ∧
      (copyPackage root (Path.join dir name) w).2.at? q = some .dir) ∨
    ∃ g, w.goal? dir = some g ∧ Swaps g.place name q := by
  obtain ⟨up, habs, hsteps, heq⟩ := copyPackage_eq hname root dir
  have hway := onWay_congr habs hsteps w
  have hbuilds := (Advances.refl w).makeDirs up
  rw [← makeDirs_world, hway] at hbuilds
  rw [heq]
  cases hmade : Act.makeDirs up w with
  | mk result v =>
    rw [hmade] at hbuilds
    have hmissing : v.at? q = w.at? q ∨ (q ∈ w.onWay dir ∧ w.at? q = none ∧ v.at? q = some .dir) ∨
        ∃ g, w.goal? dir = some g ∧ Swaps g.place name q := by
      rcases hbuilds.made q with hsame | ⟨hfree, hdir, hon⟩
      · exact .inl hsame
      · exact .inr (.inl ⟨hon, hfree, hdir⟩)
    cases result with
    | error e =>
      rw [Act.bind_of_error hmade]
      exact hmissing
    | ok =>
      rw [Act.bind_of_ok hmade]
      obtain ⟨g, hg, hshelf, -, -⟩ :=
        shelf_of_makeDirs hw hname hstaged hstaging habs hsteps (makeDirs_ok hmade)
      by_cases hswap : Swaps g.place name q
      · exact .inr (.inr ⟨g, hg, hswap⟩)
      · rw [(hshelf.replaceTree_alters root).same q hswap]
        exact hmissing

/-- Whether or not a package could be copied, what it is copied into is a tree, with the same current
directory. -/
theorem copyPackage_real (hreal : w.IsReal)
    (hcwd : ∀ g, w.goal? dir = some g → ∀ n, ¬ g.place ++ [n] <+: w.cwd) (root : String) :
    (copyPackage root (Path.join dir name) w).2.IsReal ∧
      (copyPackage root (Path.join dir name) w).2.cwd = w.cwd := by
  obtain ⟨up, habs, hsteps, heq⟩ := copyPackage_eq hname root dir
  have hmake := hreal.makeDirs up
  have hsame := ((Advances.refl w).makeDirs up).cwd
  rw [← makeDirs_world] at hmake hsame
  rw [heq]
  cases hmade : Act.makeDirs up w with
  | mk result v =>
    rw [hmade] at hmake hsame
    cases result with
    | error e =>
      rw [Act.bind_of_error hmade]
      exact ⟨hmake, hsame⟩
    | ok =>
      rw [Act.bind_of_ok hmade]
      obtain ⟨g, hg, hshelf, -, hbuilds⟩ :=
        shelf_of_makeDirs hw hname hstaged hstaging habs hsteps (makeDirs_ok hmade)
      exact ⟨hshelf.replaceTree_real hmake (fun n => hbuilds.cwd ▸ hcwd g hg n) root,
        (hshelf.replaceTree_alters root).cwd.trans hsame⟩

/-- What is copied is the listing of the package, which has nothing in common with the directory. -/
theorem copyPackage_ok (hroot : (∃ found, w.find root = .ok found) ∨ ¬ IsPath root)
    (hapart : ∀ rp n g, w.find root = .ok (rp, n) → w.goal? dir = some g →
      ¬ rp <+: g.place ∧ ¬ g.place <+: rp)
    (hok : copyPackage root (Path.join dir name) w = (.ok (), w')) :
    ∃ g, w.goal? dir = some g ∧ Installed w w' root dir name g.place := by
  obtain ⟨up, habs, hsteps, heq⟩ := copyPackage_eq hname root dir
  rw [heq] at hok
  obtain ⟨_, v, hmade, hok⟩ := Act.bind_ok hok
  obtain ⟨g, hg, hshelf, hway, hbuilds⟩ :=
    shelf_of_makeDirs hw hname hstaged hstaging habs hsteps (makeDirs_ok hmade)
  refine ⟨g, hg, ?_⟩
  have halters := hshelf.replaceTree_alters root
  rw [hok] at halters
  obtain ⟨hpath, hgone, u, hclear, hopen, hout⟩ := hshelf.replaceTree_ok hok
  have hu := hshelf.cleared_alters hclear
  -- The package is where it was, and as it was: neither step comes near its files.
  have hkept : ∀ rp, u.find root = .ok (rp, .dir) →
      Listing.met u root = Listing.met w root := by
    intro rp hfind
    have hv := find_keeps hu.cwd.symm (fun q n => hshelf.cleared_keeps hclear) hfind
    have hfound : w.find root = .ok (rp, .dir) := by
      rcases hroot with ⟨found, hfound⟩ | hno
      · rw [find_keeps hbuilds.cwd (fun q n => hbuilds.keeps) hfound] at hv
        rw [hfound, hv]
      · exact absurd (find_dir_iff.mp hfind).1 hno
    obtain ⟨hnot, hnot'⟩ := hapart rp .dir g hfound hg
    exact hshelf.met_cleared hw hbuilds hclear hfound hfind hnot hnot'
  have hmet : Listing.met u root = Listing.met w root := by
    cases hout with
    | copy hfiles hcopy _ =>
      obtain ⟨f, hf⟩ := List.exists_mem_of_ne_nil _ hfiles
      obtain ⟨rp, hfind, -⟩ := Listing.mem_ofPath.mp hf
      exact hkept rp hfind
    | link hfiles target hat hlost _ _ =>
      obtain rfl : u = v := by
        rw [clearAway_eq, hlost] at hclear
        exact (Prod.mk.inj hclear).2.symm
      by_cases hdir : ∃ rp, w.find root = .ok (rp, .dir)
      · obtain ⟨rp, hfind⟩ := hdir
        exact hkept rp (find_keeps hbuilds.cwd (fun q n => hbuilds.keeps) hfind)
      · rw [← hopen, hfiles, Listing.met_eq_nil fun rp hfind => hdir ⟨rp, hfind⟩]
  have hlisting : Listing.ofPath u root = Listing.ofPath w root := by
    rw [Listing.ofPath, hmet, Listing.ofPath]
  have hcopied : ∀ ns, ns ≠ [] → ∀ n, w'.at? (g.place ++ [name] ++ ns) = some n ↔
      Copied (Listing.ofPath w root) ns n := by
    intro ns hns n
    rw [← hlisting]
    exact hout.at?_iff hshelf.rooted hns
  have hlisted := ofPlace_of_copied hw (halters.distinct hshelf.distinct) hcopied
  refine ⟨hcopied, hlisted, by rw [← hlisting, hopen, hmet], fun hnot => ?_⟩
  rw [← hlisting, ← hway] at hnot
  rw [hshelf.ofPath_replaced halters hpath hgone hout hnot, hlisted]

end CopyPackage

end Command
end SkillAudit
