import Mathlib
import SkillAudit.Proofs.Passage

/-!
What the operations on a file tree change. Directories are made at places on the way that were
missing, a file is put where its path leads, and a tree that is removed or moved is the only thing
that goes.
-/
namespace SkillAudit.World

/-! Removing and moving. -/

section Prune
variable {w : World} {p q : Place}

theorem isPrefixOf_eq_false (h : ¬ p <+: q) : p.isPrefixOf q = false :=
  Bool.eq_false_iff.mpr fun hpre => h (List.isPrefixOf_iff_prefix.mp hpre)

theorem lookup_prune (w : World) (p q : Place) :
    (w.prune p).nodes.lookup q = if p.isPrefixOf q then none else w.nodes.lookup q := by
  rw [prune, lookup_filter fun q => !p.isPrefixOf q]
  cases p.isPrefixOf q <;> rfl

theorem at?_prune_below (hp : p ≠ []) (h : p <+: q) : (w.prune p).at? q = none := by
  have hq : q ≠ [] := by
    rintro rfl
    exact hp (List.prefix_nil.mp h)
  rw [at?, if_neg (by simpa using hq), lookup_prune, if_pos (List.isPrefixOf_iff_prefix.mpr h)]

theorem at?_prune_else (h : ¬ p <+: q) : (w.prune p).at? q = w.at? q := by
  rw [at?, at?, lookup_prune, isPrefixOf_eq_false h]
  rfl

theorem Distinct.prune (h : w.Distinct) (p : Place) : (w.prune p).Distinct :=
  List.Nodup.sublist (List.filter_sublist.map _) h

theorem Distinct.put (h : w.Distinct) (p : Place) (n : Node) : (w.put p n).Distinct := by
  refine List.nodup_cons.mpr ⟨by simp, ?_⟩
  exact List.Nodup.sublist (List.filter_sublist.map _) h

end Prune

section Move
variable {w : World} {source target : Place}

def moved (w : World) (source target : Place) : List (Place × Node) :=
  w.nodes.filterMap fun (q, n) => (source.isPrefixOf? q).map fun rest => (target ++ rest, n)

theorem lookup_moved (w : World) (source target rest : Place) :
    (w.moved source target).lookup (target ++ rest) = w.nodes.lookup (source ++ rest) := by
  rw [moved]
  induction w.nodes with
  | nil => rfl
  | cons x nodes ih =>
    obtain ⟨q, n⟩ := x
    cases hq : source.isPrefixOf? q with
    | none =>
      have hne : (source ++ rest == q) = false := by
        refine beq_eq_false_iff_ne.mpr fun heq => ?_
        rw [isPrefixOf?_eq_some.mpr heq.symm] at hq
        cases hq
      simp [hq, List.lookup_cons, hne, ih]
    | some rest' =>
      obtain rfl := isPrefixOf?_eq_some.mp hq
      by_cases hrest : rest = rest'
      · simp [hq, hrest]
      · have htarget : (target ++ rest == target ++ rest') = false := by simpa using hrest
        have hsource : (source ++ rest == source ++ rest') = false := by simpa using hrest
        simp [hq, List.lookup_cons, htarget, hsource, ih]

theorem lookup_moved_else {q : Place} (h : ¬ target <+: q) :
    (w.moved source target).lookup q = none := by
  rw [List.lookup_eq_none_iff]
  rintro ⟨q', n⟩ hmem
  obtain ⟨⟨q₀, n₀⟩, -, hq₀⟩ := List.mem_filterMap.mp hmem
  obtain ⟨rest, -, hrest⟩ := Option.map_eq_some_iff.mp hq₀
  obtain ⟨rfl, rfl⟩ := Prod.mk.inj hrest
  have hne : q ≠ target ++ rest := by
    rintro rfl
    exact h ⟨rest, rfl⟩
  simpa using hne

theorem at?_move_target (hs : source ≠ []) (ht : target ≠ []) (rest : Place) :
    (w.move source target).at? (target ++ rest) = w.at? (source ++ rest) := by
  have hgone : ((w.prune source).prune target).nodes.lookup (target ++ rest) = none := by
    rw [lookup_prune, if_pos (List.isPrefixOf_iff_prefix.mpr ⟨rest, rfl⟩)]
  have hnodes : (w.move source target).nodes =
      w.moved source target ++ ((w.prune source).prune target).nodes := rfl
  rw [at?, at?, if_neg (by simp [ht]), if_neg (by simp [hs]), hnodes, List.lookup_append,
    lookup_moved, hgone, Option.or_none]

theorem at?_move_else {q : Place} (h : ¬ target <+: q) :
    (w.move source target).at? q = (w.prune source).at? q := by
  have hnodes : (w.move source target).nodes =
      w.moved source target ++ ((w.prune source).prune target).nodes := rfl
  rw [at?, at?, hnodes, List.lookup_append, lookup_moved_else h, Option.none_or, lookup_prune,
    isPrefixOf_eq_false h]
  rfl

theorem Distinct.move (h : w.Distinct) (source target : Place) :
    (w.move source target).Distinct := by
  have hnodes : (w.move source target).nodes =
      w.moved source target ++ ((w.prune source).prune target).nodes := rfl
  have hmoved : ((w.moved source target).map Prod.fst).Nodup := by
    refine List.pairwise_map.mpr (List.pairwise_filterMap.mpr ?_)
    refine (List.pairwise_map.mp h).imp ?_
    rintro ⟨p, n⟩ ⟨q, m⟩ hne x hx y hy hxy
    obtain ⟨rest, hp, rfl⟩ := Option.map_eq_some_iff.mp hx
    obtain ⟨rest', hq, rfl⟩ := Option.map_eq_some_iff.mp hy
    have hrest : rest = rest' := by simpa using hxy
    exact hne ((isPrefixOf?_eq_some.mp hp).trans (hrest ▸ (isPrefixOf?_eq_some.mp hq).symm))
  rw [Distinct, hnodes, List.map_append, List.nodup_append]
  refine ⟨hmoved, (h.prune source).prune target, ?_⟩
  rintro p hp q hq rfl
  -- What is moved comes to stand below the target, where all else has been removed.
  obtain ⟨x, hx, rfl⟩ := List.mem_map.mp hp
  obtain ⟨y, -, hy⟩ := List.mem_filterMap.mp hx
  obtain ⟨rest, -, rfl⟩ := Option.map_eq_some_iff.mp hy
  obtain ⟨z, hz, hfst⟩ := List.mem_map.mp hq
  have hkept := (List.mem_filter.mp hz).2
  simp only at hfst
  simp [hfst, List.isPrefixOf_iff_prefix.mpr ⟨rest, rfl⟩] at hkept

end Move

/-! Making directories. -/

theorem onWay_congr {path path' : String} (habs : Path.isAbsolute path' = Path.isAbsolute path)
    (hsteps : Path.steps path' = Path.steps path) (w : World) : w.onWay path' = w.onWay path := by
  rw [onWay, onWay, World.start, World.start, habs, hsteps]

theorem goal?_congr {path path' : String} (habs : Path.isAbsolute path' = Path.isAbsolute path)
    (hsteps : Path.steps path' = Path.steps path) (w : World) : w.goal? path' = w.goal? path := by
  rw [goal?_eq, goal?_eq, World.start, World.start, habs, hsteps]

theorem onWay_parent {path up : String} (h : Path.parent path = some up) (w : World) :
    w.onWay up ⊆ w.onWay path := by
  obtain ⟨hsteps, habs⟩ := Path.steps_parent h
  obtain ⟨last, hlast⟩ := List.dropLast_prefix (Path.steps path)
  rw [onWay, onWay, World.start, World.start, habs, hsteps]
  conv_rhs => rw [← hlast]
  exact passes_subset w _ _ _ _

/-- What a tree becomes while directories are made and files are put: nothing is gone, no link is
new, and no directory is new but where nothing stood. -/
structure Advances (w v : World) : Prop where
  cwd : v.cwd = w.cwd
  dir : ∀ q, v.at? q = some .dir → w.at? q = some .dir ∨ w.at? q = none
  link : ∀ q t, v.at? q = some (.link t) → w.at? q = some (.link t)
  none : ∀ q, v.at? q = none → w.at? q = none

/-- What a tree becomes while directories are made at missing places that satisfy `P`. -/
structure Builds (P : Place → Prop) (w v : World) : Prop where
  cwd : v.cwd = w.cwd
  made : ∀ q, v.at? q = w.at? q ∨ (w.at? q = none ∧ v.at? q = some .dir ∧ P q)
  distinct : w.Distinct → v.Distinct

namespace Builds
variable {P Q : Place → Prop} {u v w : World}

theorem refl (P : Place → Prop) (w : World) : Builds P w w := ⟨rfl, fun _ => .inl rfl, id⟩

theorem trans (h : Builds P u v) (h' : Builds P v w) : Builds P u w where
  cwd := h'.cwd.trans h.cwd
  made q := by
    rcases h.made q with hv | ⟨hu, hv, hp⟩
    · rcases h'.made q with hw | ⟨hv', hw, hp⟩
      · exact .inl (hw.trans hv)
      · exact .inr ⟨hv ▸ hv', hw, hp⟩
    · rcases h'.made q with hw | ⟨hv', -, -⟩
      · exact .inr ⟨hu, hw.trans hv, hp⟩
      · rw [hv] at hv'
        cases hv'
  distinct := h'.distinct ∘ h.distinct

theorem mono (h : Builds P u v) (hPQ : ∀ q, P q → Q q) : Builds Q u v :=
  ⟨h.cwd, fun q => (h.made q).imp_right fun ⟨hu, hv, hp⟩ => ⟨hu, hv, hPQ q hp⟩, h.distinct⟩

theorem put {p : Place} (hp : p ≠ []) (hfree : w.at? p = none) (hP : P p) :
    Builds P w (w.put p .dir) where
  cwd := rfl
  made q := by
    by_cases hq : q = p
    · subst hq
      exact .inr ⟨hfree, at?_put_self w hp .dir, hP⟩
    · exact .inl (at?_put_ne w hq .dir)
  distinct h := h.put p .dir

theorem keeps (h : Builds P w v) {q : Place} {n : Node} (hq : w.at? q = some n) :
    v.at? q = some n := by
  rcases h.made q with hv | ⟨hnone, -, -⟩
  · rw [hv, hq]
  · rw [hq] at hnone
    cases hnone

end Builds

namespace Advances
variable {P : Place → Prop} {u v w : World}

theorem refl (w : World) : Advances w w :=
  ⟨rfl, fun _ h => .inl h, fun _ _ h => h, fun _ h => h⟩

theorem builds (h : Advances w u) (hv : Builds P u v) : Advances w v where
  cwd := hv.cwd.trans h.cwd
  dir q hq := by
    rcases hv.made q with hu | ⟨hu, -, -⟩
    · exact h.dir q (hu ▸ hq)
    · exact .inr (h.none q hu)
  link q t hq := by
    rcases hv.made q with hu | ⟨-, hdir, -⟩
    · exact h.link q t (hu ▸ hq)
    · rw [hq] at hdir
      cases hdir
  none q hq := by
    rcases hv.made q with hu | ⟨-, hdir, -⟩
    · exact h.none q (hu ▸ hq)
    · rw [hq] at hdir
      cases hdir

theorem putFile (h : Advances w u) {p : Place} (hp : p ≠ []) (bytes : ByteArray) :
    Advances w (u.put p (.file bytes)) where
  cwd := h.cwd
  dir q hq := by
    by_cases hqp : q = p
    · rw [hqp, at?_put_self u hp] at hq
      cases hq
    · exact h.dir q (by rwa [at?_put_ne u hqp] at hq)
  link q t hq := by
    by_cases hqp : q = p
    · rw [hqp, at?_put_self u hp] at hq
      cases hq
    · exact h.link q t (by rwa [at?_put_ne u hqp] at hq)
  none q hq := by
    by_cases hqp : q = p
    · rw [hqp, at?_put_self u hp] at hq
      cases hq
    · exact h.none q (by rwa [at?_put_ne u hqp] at hq)

theorem start (h : Advances w v) (path : String) : v.start path = w.start path := by
  rw [World.start, World.start, h.cwd]

/-- A place that is found free now was on the way before. -/
theorem mem_passes_of_free (h : Advances w v) {follow slash : Bool} {links : Nat} {here q : Place}
    {names : List String} {trail : List Place}
    (hleads : Leads v follow slash links here names trail (.free q)) :
    q ∈ w.passes links here names := by
  generalize hs : Spot.free q = s at hleads
  induction hleads with
  | here | file | link => cases hs
  | free hname =>
    cases hs
    exact mem_passes_head hname
  | idle hname _ ih =>
    rw [passes_idle hname]
    exact ih hs
  | up _ hname _ ih =>
    rw [passes_up hname]
    exact ih hs
  | @down links here name _ _ _ hname _ hat _ ih =>
    have hlink : ∀ t, w.at? (here ++ [name]) ≠ some (.link t) := fun t ht => by
      rcases h.dir _ hat with hdir | hdir <;> simp [ht] at hdir
    rw [passes_step hname hlink]
    exact List.mem_cons_of_mem _ (ih hs)
  | through hname _ hat _ _ _ ih =>
    rw [passes_over hname (h.link _ _ hat)]
    exact List.mem_cons_of_mem _ (ih hs)

/-- What a path leads to now, its last name not being followed, it led to before. -/
theorem course_of_leads (h : Advances w v) {links : Nat} {here : Place} {names : List String}
    {trail : List Place} {spot : Spot}
    (hleads : Leads v false false links here names trail spot) :
    w.course false links here names = some ⟨trail, spot.place⟩ := by
  induction hleads with
  | here => simp [course, Spot.place]
  | idle hname _ ih => rw [course_idle hname, ih]
  | up _ hname _ ih => rw [course_up hname, ih]
  | free hname | file hname | link hname => exact course_last hname
  | @down links here name _ _ _ hname _ hat _ ih =>
    have hlink : ∀ t, w.at? (here ++ [name]) ≠ some (.link t) := fun t ht => by
      rcases h.dir _ hat with hdir | hdir <;> simp [ht] at hdir
    rw [course_step hname hlink, ih]
  | through hname _ hat hgo _ _ ih =>
    rw [course_over hname (h.link _ _ hat) (by simpa using hgo), ih, Option.map_some]

theorem makeDir (h : Advances w v) {v' : World} {path : String} (hok : v.makeDir path = .ok v') :
    Builds (fun q => q ∈ w.onWay path) v v' := by
  obtain ⟨p, hp, rfl⟩ := makeDir_ok hok
  obtain ⟨hfree, hne⟩ := resolve_free hp
  refine .put hne hfree ?_
  obtain ⟨trail, hleads⟩ := leads_of_resolve hp
  rw [h.start] at hleads
  have hmem := h.mem_passes_of_free hleads
  rw [← onWay_eq] at hmem
  rwa [onWay, World.start, (trimSlashes_same path).1, (trimSlashes_same path).2] at hmem

theorem makeDirsWithin (h : Advances w v) (fuel : Nat) (path : String) :
    Builds (fun q => q ∈ w.onWay path) v (World.makeDirsWithin fuel v path).2 := by
  fun_induction World.makeDirsWithin fuel v path with
  | case1 | case2 | case4 => exact .refl _ _
  | case3 fuel v path hne v' hdir => exact h.makeDir hdir
  | case5 fuel v path hne hmissing up hparent e v' hrec ih =>
    rw [hrec] at ih
    exact (ih h).mono fun q hq => onWay_parent hparent w hq
  | case6 fuel v path hne hmissing up hparent v' hrec v'' hdir ih =>
    rw [hrec] at ih
    have hfirst := (ih h).mono (Q := fun q => q ∈ w.onWay path) fun q hq => onWay_parent hparent w hq
    exact hfirst.trans ((h.builds hfirst).makeDir hdir)
  | case7 fuel v path hne hmissing up hparent v' hrec e hdir hisDir ih =>
    rw [hrec] at ih
    exact (ih h).mono fun q hq => onWay_parent hparent w hq
  | case8 fuel v path hne hmissing up hparent v' hrec e hdir hisDir ih =>
    rw [hrec] at ih
    exact (ih h).mono fun q hq => onWay_parent hparent w hq
  | case9 | case10 => exact .refl _ _

theorem makeDirs (h : Advances w v) (path : String) :
    Builds (fun q => q ∈ w.onWay path) v (v.makeDirs path).2 :=
  h.makeDirsWithin _ path

end Advances

namespace Rooted
variable {w : World}

theorem start (h : w.Rooted) (path : String) : w.at? (w.start path) = some .dir := by
  rw [World.start]
  split
  · rfl
  · exact h.cwd

theorem parent_of_free (hw : w.Rooted) {follow slash : Bool} {links : Nat} {here q : Place}
    {names : List String} {trail : List Place} (hhere : w.at? here = some .dir)
    (h : Leads w follow slash links here names trail (.free q)) :
    w.at? q.dropLast = some .dir := by
  generalize hs : Spot.free q = s at h
  induction h with
  | here | file | link => cases hs
  | free =>
    cases hs
    rwa [List.dropLast_concat]
  | idle _ _ ih => exact ih hhere hs
  | up _ _ _ ih => exact ih (hw.parent _ _ hhere) hs
  | down _ _ hat _ ih => exact ih hat hs
  | through _ _ _ _ _ _ ih =>
    refine ih ?_ hs
    split
    · rfl
    · exact hhere

theorem putDir (hw : w.Rooted) {p : Place} (hp : p ≠ []) (hfree : w.at? p = none)
    (hparent : w.at? p.dropLast = some .dir) : (w.put p .dir).Rooted := by
  have hkeeps : ∀ {q}, w.at? q = some .dir → (w.put p .dir).at? q = some .dir := fun hq =>
    (Builds.put (P := fun _ => True) hp hfree trivial).keeps hq
  refine ⟨fun q n hq => ?_, hkeeps hw.cwd⟩
  by_cases hqp : q = p
  · exact hqp ▸ hkeeps hparent
  · rw [at?_put_ne w hqp] at hq
    exact hkeeps (hw.parent q n hq)

theorem makeDir (hw : w.Rooted) {v : World} {path : String} (h : w.makeDir path = .ok v) :
    v.Rooted := by
  obtain ⟨p, hp, rfl⟩ := makeDir_ok h
  obtain ⟨hfree, hne⟩ := resolve_free hp
  obtain ⟨trail, hleads⟩ := leads_of_resolve hp
  exact hw.putDir hne hfree (hw.parent_of_free (hw.start _) hleads)

theorem makeDirsWithin (hw : w.Rooted) (fuel : Nat) (path : String) :
    (World.makeDirsWithin fuel w path).2.Rooted := by
  fun_induction World.makeDirsWithin fuel w path with
  | case1 | case2 | case4 | case9 | case10 => exact hw
  | case3 fuel w path hne v hdir => exact hw.makeDir hdir
  | case5 fuel w path hne hmissing up hparent e v hrec ih => simpa [hrec] using ih hw
  | case6 fuel w path hne hmissing up hparent v hrec v' hdir ih =>
    rw [hrec] at ih
    exact (ih hw).makeDir hdir
  | case7 fuel w path hne hmissing up hparent v hrec e hdir hisDir ih =>
    simpa [hrec] using ih hw
  | case8 fuel w path hne hmissing up hparent v hrec e hdir hisDir ih =>
    simpa [hrec] using ih hw

end Rooted

/-- Once a directory stands where a free place was, the names lead to it. -/
theorem leads_put_dir {w : World} {follow slash : Bool} {links : Nat} {here q : Place}
    {names : List String} {trail : List Place}
    (h : Leads w follow slash links here names trail (.free q)) (slash' : Bool) :
    Leads (w.put q .dir) true slash' links here names trail (.taken q .dir) := by
  obtain ⟨hfree, hne⟩ := leads_free h
  have hself := at?_put_self w hne .dir
  have hkeeps : ∀ p n, w.at? p = some n → (w.put q .dir).at? p = some n := by
    intro p n hp
    have hpq : p ≠ q := by
      rintro rfl
      simp [hfree] at hp
    rw [at?_put_ne w hpq, hp]
  generalize hs : Spot.free q = s at h
  induction h with
  | here | file | link => cases hs
  | free hname hshort =>
    cases hs
    exact .down hname hshort hself .here
  | idle hname _ ih => exact .idle hname (ih hs)
  | up hidle hname _ ih => exact .up hidle hname (ih hs)
  | down hname hshort hat _ ih => exact .down hname hshort (hkeeps _ _ hat) (ih hs)
  | through hname hshort hat _ htarget _ ih =>
    exact .through hname hshort (hkeeps _ _ hat) (by simp) htarget (ih hs)

theorem LeadsToDir.congr {w : World} {path path' : String} {p : Place} (h : w.LeadsToDir path p)
    (habs : Path.isAbsolute path' = Path.isAbsolute path)
    (hsteps : Path.steps path' = Path.steps path) : w.LeadsToDir path' p where
  goal := by
    rw [goal?_congr habs hsteps]
    exact h.goal
  clear := by
    rw [onWay_congr habs hsteps]
    exact h.clear

theorem leadsToDir_of_makeDir {w v : World} {path : String} (h : w.makeDir path = .ok v) :
    ∃ p, v.LeadsToDir path p := by
  obtain ⟨p, hp, rfl⟩ := makeDir_ok h
  obtain ⟨trail, hleads⟩ := leads_of_resolve hp
  have hdir := walk_of_leads (leads_put_dir hleads true)
  obtain ⟨habs, hsteps⟩ := trimSlashes_same path
  exact ⟨p, LeadsToDir.congr ((leadsToDir_iff true (Path.filter_namesOf _)).mpr hdir) habs.symm hsteps.symm⟩

/-- A directory that cannot be made, and whose parent cannot be made where it is missing. -/
theorem makeDirsWithin_error {fuel : Nat} {w : World} {path : String} {e : OsError}
    (hne : path ≠ "") (h : w.makeDir path = .error e) (hdir : w.isDir path = false)
    (hup : e = .notFound → ∃ up e', Path.parent path = some up ∧
      makeDirsWithin fuel w up = (.error e', w)) :
    ∃ e', makeDirsWithin (fuel + 1) w path = (.error e', w) := by
  rw [makeDirsWithin, if_neg (by simpa using hne), h]
  by_cases he : e = .notFound
  · obtain ⟨up, e', hparent, hmade⟩ := hup he
    subst he
    exact ⟨e', by simp only [hparent, hmade]⟩
  · refine ⟨e, ?_⟩
    split
    next heq => cases heq
    next heq => exact absurd (Except.error.inj heq) he
    next e' _ heq => simp [Except.error.inj heq, hdir]

theorem find_of_isDir {w : World} {path : String} (h : w.isDir path = true) :
    ∃ p, w.find path = .ok (p, .dir) := by
  unfold isDir at h
  split at h
  next p hp => exact ⟨p, hp⟩
  next => cases h

theorem leadsToDir_of_isDir {w : World} {path : String} (h : w.isDir path = true) :
    ∃ p, w.LeadsToDir path p := by
  obtain ⟨p, hp⟩ := find_of_isDir h
  exact ⟨p, (find_dir_iff.mp hp).2⟩

theorem leadsToDir_of_makeDirs {fuel : Nat} {w v : World} {path : String}
    (h : makeDirsWithin fuel w path = (.ok (), v)) : ∃ p, v.LeadsToDir path p := by
  fun_induction makeDirsWithin fuel w path with
  | case2 fuel w path hempty =>
    obtain rfl : path = "" := by simpa using hempty
    obtain rfl := (Prod.mk.inj h).2
    exact ⟨w.cwd, ⟨⟨[], w.cwd⟩, by simp [goal?_eq, Path.steps_empty, course, start, Path.isAbsolute],
      rfl⟩, by simp [onWay, Path.steps_empty, passes]⟩
  | case3 fuel w path hne w' hdir =>
    obtain rfl := (Prod.mk.inj h).2
    exact leadsToDir_of_makeDir hdir
  | case6 fuel w path hne hmissing up hparent w' hrec w'' hdir _ =>
    obtain rfl := (Prod.mk.inj h).2
    exact leadsToDir_of_makeDir hdir
  | case7 fuel w path hne hmissing up hparent w' hrec e hdir hisDir _ =>
    obtain rfl := (Prod.mk.inj h).2
    exact leadsToDir_of_isDir hisDir
  | case9 fuel w path hne e hdir hmissing hisDir =>
    obtain rfl := (Prod.mk.inj h).2
    exact leadsToDir_of_isDir hisDir
  | case1 | case4 | case5 | case8 | case10 => cases h

/-! Where the other operations work. -/

/-- A file is written at the end of its path, unless a directory is there. -/
theorem writeFile_spot {w w' : World} {path : String} {bytes : ByteArray}
    (h : w.writeFile path bytes = .ok w') :
    endsInSlash path = false ∧ ∃ spot, w.resolve true path = .ok spot ∧
      (∀ q, spot ≠ .taken q .dir) ∧ w' = w.put spot.place (.file bytes) := by
  unfold writeFile at h
  split at h
  next => cases h
  next p old hp =>
    obtain rfl := Except.ok.inj h
    obtain ⟨trail, hleads⟩ := leads_of_resolve hp
    exact ⟨slash_of_leads_file hleads, _, hp, by simp, rfl⟩
  next => cases h
  next p hp =>
    split at h
    next => cases h
    next hslash =>
      obtain rfl := Except.ok.inj h
      exact ⟨by simpa [endsInSlash] using hslash, _, hp, by simp, rfl⟩

/-- A file is written where its path leads. -/
theorem writeFile_ok {w w' : World} {path : String} {bytes : ByteArray}
    (h : w.writeFile path bytes = .ok w') :
    ∃ g, w.goal? path = some g ∧ g.place ≠ [] ∧ w.at? g.place ≠ some .dir ∧
      w' = w.put g.place (.file bytes) := by
  obtain ⟨hslash, spot, hspot, hdir, rfl⟩ := writeFile_spot h
  obtain ⟨trail, hleads⟩ := leads_of_resolve hspot
  rw [hslash] at hleads
  obtain ⟨hne, hat⟩ := leads_place_free hleads hdir
  exact ⟨_, course_of_leads hleads, hne, hat, rfl⟩

/-- A file that is opened is there, or it is made where nothing stood. -/
theorem touch_ok {w w' : World} {path : String} (h : w.touch path = .ok w') :
    w' = w ∨ ∃ p, w.resolve true path = .ok (.free p) ∧ w' = w.put p (.file .empty) := by
  unfold touch at h
  split at h
  next => cases h
  next => exact .inl (Except.ok.inj h).symm
  next => cases h
  next p hp =>
    split at h
    · cases h
    · exact .inr ⟨p, hp, (Except.ok.inj h).symm⟩

theorem removeTree_ok {w w' : World} {path : String} (h : w.removeTree path = .ok w') :
    ∃ p n, w.resolve false path = .ok (.taken p n) ∧ w' = w.prune p := by
  unfold removeTree at h
  split at h
  next => cases h
  next => cases h
  next p hp => exact ⟨p, _, hp, (Except.ok.inj h).symm⟩
  next p t hp => exact ⟨p, _, hp, (Except.ok.inj h).symm⟩
  next => cases h

theorem rename_ok {w w' : World} {source target : String} (h : w.rename source target = .ok w') :
    ∃ p n spot, w.resolve false source = .ok (.taken p n) ∧ w.resolve false target = .ok spot ∧
      (w' = w.move p spot.place ∨ (w' = w ∧ p = spot.place)) := by
  unfold rename at h
  cases hs : w.resolve false source with
  | error e => simp [hs] at h
  | ok from_ =>
    cases from_ with
    | free p => simp [hs] at h
    | taken p n =>
      cases ht : w.resolve false target with
      | error e => simp [hs, ht] at h
      | ok spot =>
        refine ⟨p, n, spot, rfl, rfl, ?_⟩
        simp only [hs, ht] at h
        split at h
        next q =>
          split at h
          · cases h
          · exact .inl (Except.ok.inj h).symm
        next q =>
          split at h
          next heq => exact .inr ⟨(Except.ok.inj h).symm, by simpa [Spot.place] using heq⟩
          next =>
            split at h
            · cases h
            · split at h
              · exact .inl (Except.ok.inj h).symm
              · cases h
        next => cases h
        next => cases h
        next q => exact .inl (Except.ok.inj h).symm
        next q m _ _ =>
          split at h
          next heq => exact .inr ⟨(Except.ok.inj h).symm, by simpa [Spot.place] using heq⟩
          next => exact .inl (Except.ok.inj h).symm

/-- A directory takes the place of nothing but a directory. -/
theorem rename_dir {w w' : World} {source target : String} {p q : Place} {n : Node}
    (h : w.rename source target = .ok w') (hs : w.resolve false source = .ok (.taken p .dir))
    (ht : w.resolve false target = .ok (.taken q n)) : n = .dir := by
  simp only [rename, hs, ht] at h
  cases n with
  | dir => rfl
  | file | link => cases h

theorem route?_join {w : World} {base name : String} {g : Route} (h : w.goal? base = some g)
    (hname : IsName name) :
    w.route? (Path.join base name) = some ⟨g.links, g.place ++ [name]⟩ := by
  obtain ⟨front, hpieces, hfront⟩ := Path.pieces_join_name hname base
  rw [goal?_eq, ← hfront, (course_filter w _ _ _).1] at h
  rw [route?, Path.namesOf_eq hpieces hname.nonempty, World.start,
    Path.isAbsolute_join (Path.isAbsolute_name hname), ← World.start, course_append h (by simp),
    course_last (Path.isStep_name hname)]
  simp

/-- What is done at a path that is continued by a name is done at that name in the directory. -/
theorem place_of_resolve_join {w : World} {base name : String} {g : Route} {spot : Spot}
    (h : w.goal? base = some g) (hname : IsName name)
    (hspot : w.resolve false (Path.join base name) = .ok spot) :
    spot.place = g.place ++ [name] := by
  obtain ⟨trail, hleads⟩ := leads_of_resolve hspot
  rw [Path.endsInSlash_join_name hname] at hleads
  have hroute := route?_join h hname
  rw [route?, course_of_leads hleads] at hroute
  exact congrArg Route.place (Option.some.inj hroute)

end SkillAudit.World
