import Mathlib
import SkillAudit.Command.Install
import SkillAudit.Proofs.TreeChange

/-!
Copying a package. Its files are put together in a directory beside the target, which then takes the
place of the target: what stands there is the listing of the package, and nothing changes elsewhere.
-/
namespace SkillAudit

namespace World

/-- What a tree becomes while it changes only at places that satisfy `P`. -/
structure Alters (P : Place → Prop) (w v : World) : Prop where
  cwd : v.cwd = w.cwd
  same : ∀ q, ¬ P q → v.at? q = w.at? q
  distinct : w.Distinct → v.Distinct

namespace Alters
variable {P Q : Place → Prop} {u v w : World}

theorem refl (P : Place → Prop) (w : World) : Alters P w w := ⟨rfl, fun _ _ => rfl, id⟩

theorem trans (h : Alters P u v) (h' : Alters P v w) : Alters P u w :=
  ⟨h'.cwd.trans h.cwd, fun q hq => (h'.same q hq).trans (h.same q hq), h'.distinct ∘ h.distinct⟩

theorem mono (h : Alters P u v) (hPQ : ∀ q, P q → Q q) : Alters Q u v :=
  ⟨h.cwd, fun q hq => h.same q (hq ∘ hPQ q), h.distinct⟩

theorem put {p : Place} (hP : P p) (n : Node) : Alters P w (w.put p n) where
  cwd := rfl
  same q hq := at?_put_ne w (by rintro rfl; exact hq hP) n
  distinct h := h.put p n

theorem prune {p : Place} (hP : ∀ q, p <+: q → P q) : Alters P w (w.prune p) where
  cwd := rfl
  same q hq := at?_prune_else (hq ∘ hP q)
  distinct h := h.prune p

theorem move {p q : Place} (hp : ∀ r, p <+: r → P r) (hq : ∀ r, q <+: r → P r) :
    Alters P w (w.move p q) where
  cwd := rfl
  same r hr := by rw [at?_move_else (hr ∘ hq r), at?_prune_else (hr ∘ hp r)]
  distinct h := h.move p q

theorem builds (h : Builds Q w v) (hPQ : ∀ q, w.at? q = none → Q q → P q) : Alters P w v where
  cwd := h.cwd
  same q hq := by
    rcases h.made q with hsame | ⟨hfree, -, hQ⟩
    · exact hsame
    · exact absurd (hPQ q hfree hQ) hq
  distinct := h.distinct

end Alters
end World

namespace Command
open World

def names (f : PackageFile) : Place := Path.pieces f.path

/-- What a copy of some files has at names below its place: a file, or a directory that leads to
one. -/
def Copied (files : Listing) (ns : Place) (n : Node) : Prop :=
  (∃ f ∈ files, names f = ns ∧ n = .file f.bytes) ∨
    (n = .dir ∧ ∃ f ∈ files, ns <+: names f ∧ ns ≠ names f)

/-- A copy of some files, and nothing else, stands at a place. -/
def IsCopy (v : World) (p : Place) (files : Listing) : Prop :=
  ∀ ns n, v.at? (p ++ ns) = some n ↔ Copied files ns n

/-- Where nothing stands there is a copy of no files. -/
theorem isCopy_nil {v : World} {p : Place} (hnone : ∀ ns, v.at? (p ++ ns) = none) :
    IsCopy v p [] := by
  intro ns n
  rw [hnone ns]
  simp [Copied]

theorem IsCopy.dir {v : World} {p : Place} {files : Listing} (h : IsCopy v p files)
    (hfiles : files ≠ []) : v.at? p = some .dir := by
  obtain ⟨f, hf⟩ := List.exists_mem_of_ne_nil files hfiles
  have hne : [] ≠ names f := (Path.pieces_ne_nil f.path).symm
  simpa using (h [] .dir).mpr (.inr ⟨rfl, f, hf, List.nil_prefix, hne⟩)

theorem copied_append {done : Listing} {f : PackageFile} {ns : Place} {n : Node} :
    Copied (done ++ [f]) ns n ↔ Copied done ns n ∨ (names f = ns ∧ n = .file f.bytes) ∨
      (n = .dir ∧ ns <+: names f ∧ ns ≠ names f) := by
  simp only [Copied, List.mem_append, List.mem_singleton, or_and_right, exists_or, exists_eq_left,
    and_or_left]
  exact or_or_or_comm

theorem proper_concat_iff {ns ms : Place} {m : String} :
    (ns <+: ms ++ [m] ∧ ns ≠ ms ++ [m]) ↔ ns <+: ms := by
  rw [List.prefix_concat_iff]
  constructor
  · rintro ⟨heq | hns, hne⟩
    · exact absurd heq hne
    · exact hns
  · intro hns
    refine ⟨.inr hns, fun heq => ?_⟩
    have hlength := hns.length_le
    simp [heq] at hlength

/-- A directory with a name in it that is not on the way to the directory. -/
structure Bench (v : World) (up name : String) (p : Place) : Prop where
  dir : v.LeadsToDir up p
  named : IsName name
  aside : ∀ q ∈ v.onWay up, ¬ p ++ [name] <+: q

/-- A place for a copy: no link stands there or below. -/
structure Ready (v : World) (up name : String) (p : Place) : Prop extends Bench v up name p where
  plain : ∀ rest t, v.at? (p ++ [name] ++ rest) ≠ some (.link t)

section Bench
variable {u v : World} {up name : String} {p : Place}

theorem Bench.alters (h : Bench u up name p) (hv : Alters (p ++ [name] <+: ·) u v) :
    Bench v up name p := by
  obtain ⟨hdir, hway⟩ := h.dir.of_same hv.cwd fun q hq => hv.same q (h.aside q hq)
  exact ⟨hdir, h.named, by rw [hway]; exact h.aside⟩

theorem Bench.place (h : Bench v up name p) {spot : Spot}
    (hspot : v.resolve false (Path.join up name) = .ok spot) : spot.place = p ++ [name] := by
  obtain ⟨g, hgoal, rfl⟩ := h.dir.goal
  exact place_of_resolve_join hgoal h.named hspot

theorem Ready.extend (h : Ready v up name p) {ns : Place} (hns : ∀ n ∈ ns, IsName n) :
    (∃ g, v.goal? (Path.extend (Path.join up name) ns) = some g ∧ g.place = p ++ [name] ++ ns) ∧
      ∀ q, q ∈ v.onWay (Path.extend (Path.join up name) ns) ↔
        q ∈ v.onWay up ∨ ∃ ms, ms <+: ns ∧ q = p ++ [name] ++ ms := by
  obtain ⟨g, hgoal, rfl⟩ := h.dir.goal
  obtain ⟨front, hpieces, -⟩ := Path.pieces_join_name h.named up
  have hstart : v.start (Path.extend (Path.join up name) ns) = v.start up := by
    rw [start, start, Path.isAbsolute_extend hpieces (Path.isIdle_name h.named) hns,
      Path.isAbsolute_join (Path.isAbsolute_name h.named)]
  have hsteps : Path.steps (Path.extend (Path.join up name) ns) = Path.steps up ++ name :: ns := by
    rw [Path.steps_extend hns, Path.steps_join_name h.named, List.append_assoc, List.singleton_append]
  have hstep := Path.isStep_name h.named
  have hlink : ∀ t, v.at? (g.place ++ [name]) ≠ some (.link t) := fun t => by
    simpa using h.plain [] t
  have hstepns : ∀ n ∈ ns, IsStep n := fun n hn => Path.isStep_name (hns n hn)
  rw [goal?_eq] at hgoal
  constructor
  · refine ⟨⟨g.links, g.place ++ [name] ++ ns⟩, ?_, rfl⟩
    rw [goal?_eq, hstart, hsteps, course_append hgoal (by simp), course_step hstep hlink,
      (course_down hstepns h.plain).1]
    simp
  · intro q
    rw [onWay, hstart, hsteps, passes_append hgoal, passes_step hstep hlink, List.mem_append,
      List.mem_cons, (course_down hstepns h.plain).2, onWay]
    refine or_congr_right ⟨?_, ?_⟩
    · rintro (rfl | ⟨ms, -, hms, rfl⟩)
      · exact ⟨[], by simp, by simp⟩
      · exact ⟨ms, hms, rfl⟩
    · rintro ⟨ms, hms, rfl⟩
      by_cases hnil : ms = []
      · exact .inl (by simp [hnil])
      · exact .inr ⟨ms, hnil, hms, rfl⟩

theorem Ready.makeDirs (h : Ready v up name p) {ns : Place} (hns : ∀ n ∈ ns, IsName n) :
    Builds (fun q => ∃ ms, ms <+: ns ∧ q = p ++ [name] ++ ms) v
      (v.makeDirs (Path.extend (Path.join up name) ns)).2 := by
  have hbuilds := (Advances.refl v).makeDirs (Path.extend (Path.join up name) ns)
  refine ⟨hbuilds.cwd, fun q => ?_, hbuilds.distinct⟩
  rcases hbuilds.made q with hsame | ⟨hfree, hmade, hq⟩
  · exact .inl hsame
  · rcases ((h.extend hns).2 q).mp hq with hway | hbelow
    · rcases (h.dir.clear q hway).open_ with hdir | ⟨t, ht, -⟩
      · simp [hfree] at hdir
      · simp [hfree] at ht
    · exact .inr ⟨hfree, hmade, hbelow⟩

theorem Ready.builds {ns : Place} (h : Ready u up name p)
    (hv : Builds (fun q => ∃ ms, ms <+: ns ∧ q = p ++ [name] ++ ms) u v) :
    Alters (p ++ [name] <+: ·) u v ∧ Ready v up name p := by
  have halters : Alters (p ++ [name] <+: ·) u v := .builds hv fun q _ hq => by
    obtain ⟨ms, -, rfl⟩ := hq
    exact ⟨ms, rfl⟩
  refine ⟨halters, { h.toBench.alters halters with plain := fun rest t ht => ?_ }⟩
  rcases hv.made (p ++ [name] ++ rest) with hsame | ⟨-, hdir, -⟩
  · exact h.plain rest t (hsame ▸ ht)
  · rw [ht] at hdir
    cases hdir

theorem Ready.dir_of_makeDirs (h : Ready v up name p) {ns ms : Place} (hms : ∀ n ∈ ms, IsName n)
    (hok : u.makeDirs (Path.extend (Path.join up name) ms) = (.ok (), v)) (hns : ns <+: ms) :
    v.at? (p ++ [name] ++ ns) = some .dir := by
  obtain ⟨_, hleads⟩ := leadsToDir_of_makeDirs hok
  have hon := ((h.extend hms).2 (p ++ [name] ++ ns)).mpr (.inr ⟨ns, hns, rfl⟩)
  rcases (hleads.clear _ hon).open_ with hdir | ⟨link, hlink, -⟩
  · exact hdir
  · exact absurd hlink (h.plain ns link)

theorem Ready.put (h : Ready v up name p) (ns : Place) (bytes : ByteArray) :
    Alters (p ++ [name] <+: ·) v (v.put (p ++ [name] ++ ns) (.file bytes)) ∧
      Ready (v.put (p ++ [name] ++ ns) (.file bytes)) up name p := by
  have halters : Alters (p ++ [name] <+: ·) v (v.put (p ++ [name] ++ ns) (.file bytes)) :=
    .put ⟨ns, rfl⟩ _
  refine ⟨halters, { h.toBench.alters halters with plain := fun rest t ht => ?_ }⟩
  by_cases hrest : p ++ [name] ++ rest = p ++ [name] ++ ns
  · rw [hrest, at?_put_self v (by simp)] at ht
    cases ht
  · rw [at?_put_ne v hrest] at ht
    exact h.plain rest t ht

end Bench

/-! The files of a copy. -/

theorem makeDirs_world (path : String) (v : World) : (Act.makeDirs path v).2 = (v.makeDirs path).2 := by
  unfold Act.makeDirs
  split
  next v' heq => rw [heq]
  next e v' heq => rw [heq]

theorem makeDirs_ok {path : String} {v v' : World} (h : Act.makeDirs path v = (.ok (), v')) :
    v.makeDirs path = (.ok (), v') := by
  unfold Act.makeDirs at h
  split at h
  next u heq =>
    obtain rfl := (Prod.mk.inj h).2
    exact heq
  next => cases h

/-- A directory that is there is not made again. -/
theorem makeDirs_standing {path : String} {v : World} {p : Place} (hne : path ≠ "")
    (htrim : makeDir.trimSlashes path = path)
    (h : ∀ follow, v.resolve follow path = .ok (.taken p .dir)) :
    Act.makeDirs path v = (.ok (), v) := by
  have hisDir : v.isDir path = true := by simp only [isDir, World.find, h]
  have hmade : v.makeDirs path = (.ok (), v) := by
    rw [World.makeDirs, makeDirsWithin, if_neg (by simpa using hne), makeDir, htrim, h]
    simp [hisDir]
  rw [Act.makeDirs, hmade]

theorem makeDirs_free {path : String} {v : World} {p : Place} (hne : path ≠ "")
    (htrim : makeDir.trimSlashes path = path) (h : v.resolve false path = .ok (.free p)) :
    Act.makeDirs path v = (.ok (), v.put p .dir) := by
  have hmade : v.makeDirs path = (.ok (), v.put p .dir) := by
    rw [World.makeDirs, makeDirsWithin, if_neg (by simpa using hne), makeDir, htrim, h]
  rw [Act.makeDirs, hmade]

theorem change_ok {text : String} {f : World → Except OsError World} {v v' : World}
    (h : Act.change text f v = (.ok (), v')) : f v = .ok v' := by
  unfold Act.change at h
  split at h
  next u hu =>
    obtain rfl := (Prod.mk.inj h).2
    exact hu
  next => cases h

theorem change_error {text : String} {f : World → Except OsError World} {v v' : World} {e : Failure}
    (h : Act.change text f v = (.error e, v')) : v' = v ∧ ∀ u, f v ≠ .ok u := by
  unfold Act.change at h
  split at h
  next => cases h
  next e' he => exact ⟨(Prod.mk.inj h).2.symm, by simp [he]⟩

theorem change_world {text : String} {f : World → Except OsError World} {R : World → World → Prop}
    {v : World} (hrefl : R v v) (hf : ∀ v', f v = .ok v' → R v v') : R v (Act.change text f v).2 := by
  unfold Act.change
  split
  next v' hv => exact hf v' hv
  next => exact hrefl

theorem opened_ok {root : String} {f : PackageFile} {copy : Except OsError World} {v : World}
    (h : (if Listing.isOpen root f then copy else .error .nameTooLong) = .ok v) :
    Listing.isOpen root f = true ∧ copy = .ok v := by
  split at h
  next hopen => exact ⟨hopen, h⟩
  next => cases h

section Files
variable (root : String) {u v v' : World} {up name : String} {p : Place} {f : PackageFile} {ms : Place} {m : String}
  (hf : names f = ms ++ [m]) (hnamed : ∀ n ∈ names f, IsName n)
include hf hnamed

/-- A file is copied by making the directories that lead to it and writing it there. -/
theorem copyFile_eq (hname : IsName name) :
    copyFile root (Path.join up name) f = (do
      Act.makeDirs (Path.extend (Path.join up name) ms)
      Act.change ("cannot copy " ++ Path.join root f.path) fun w =>
        if Listing.isOpen root f then
          w.writeFile (Path.extend (Path.join up name) (ms ++ [m])) f.bytes
        else .error .nameTooLong) := by
  obtain ⟨front, hpieces, -⟩ := Path.pieces_join_name hname up
  have hidle := Path.isIdle_name hname
  have htarget : Path.join (Path.join up name) f.path =
      Path.extend (Path.join up name) (ms ++ [m]) := by
    rw [← hf, ← Path.join_intercalate hpieces hidle (by simp [hf]) hnamed, names,
      Path.intercalate_pieces]
  simp only [copyFile, htarget, Path.parent_extend hpieces hidle (hf ▸ hnamed)]

theorem copyFile_alters (h : Ready v up name p) :
    Alters (p ++ [name] <+: ·) v (copyFile root (Path.join up name) f v).2 ∧
      Ready (copyFile root (Path.join up name) f v).2 up name p := by
  have hms : ∀ n ∈ ms, IsName n := fun n hn => hnamed n (by simp [hf, hn])
  rw [copyFile_eq root hf hnamed h.named]
  -- Each of the two parts alters the copy only, and leaves its place ready.
  let R : World → World → Prop := fun a b =>
    Ready a up name p → Alters (p ++ [name] <+: ·) a b ∧ Ready b up name p
  have htrans : ∀ {a b c}, R a b → R b c → R a c := fun hab hbc ha => by
    obtain ⟨halters, hb⟩ := hab ha
    obtain ⟨halters', hc⟩ := hbc hb
    exact ⟨halters.trans halters', hc⟩
  refine Act.bind_keeps (R := R) htrans (fun h => ?_) (fun _ t _ => ?_) h
  · rw [makeDirs_world]
    exact h.builds (h.makeDirs hms)
  · refine change_world (fun h => ⟨.refl _ _, h⟩) fun t' hwrite h => ?_
    obtain ⟨g, hgoal, -, -, rfl⟩ := writeFile_ok (opened_ok hwrite).2
    obtain ⟨g', hgoal', hplace⟩ := (h.extend (hf ▸ hnamed)).1
    rw [hgoal] at hgoal'
    obtain rfl := Option.some.inj hgoal'
    rw [hplace]
    exact h.put _ _

variable {root} in
theorem copyFile_ok {done : Listing} (hdone : ∀ f' ∈ done, names f' ≠ names f)
    (h : Ready v up name p) (hcopy : IsCopy v (p ++ [name]) done)
    (hok : copyFile root (Path.join up name) f v = (.ok (), v')) :
    IsCopy v' (p ++ [name]) (done ++ [f]) := by
  have hms : ∀ n ∈ ms, IsName n := fun n hn => hnamed n (by simp [hf, hn])
  rw [copyFile_eq root hf hnamed h.named] at hok
  obtain ⟨_, t, hdirs, hwrite⟩ := Act.bind_ok hok
  have hbuilds := h.makeDirs hms
  have hdirs := makeDirs_ok hdirs
  rw [hdirs] at hbuilds
  obtain ⟨-, hready⟩ := h.builds hbuilds
  obtain ⟨g, hgoal, hne, hfree, rfl⟩ := writeFile_ok (opened_ok (change_ok hwrite)).2
  obtain ⟨g', hgoal', hplace⟩ := (hready.extend (hf ▸ hnamed)).1
  rw [hgoal] at hgoal'
  obtain rfl := Option.some.inj hgoal'
  rw [hplace] at hne hfree ⊢
  have hproper : ∀ ns, (ns <+: names f ∧ ns ≠ names f) ↔ ns <+: ms := fun ns => by
    rw [hf]
    exact proper_concat_iff
  intro ns n
  rw [copied_append, hproper]
  by_cases hself : ns = names f
  · -- The file itself. No earlier file needs a directory there, since none stands there.
    subst hself
    have hold : ¬ Copied done (names f) n := by
      rintro (⟨f', hf', heq, -⟩ | ⟨rfl, hlater⟩)
      · exact hdone f' hf' heq
      · have hat := (hcopy (names f) .dir).mpr (.inr ⟨rfl, hlater⟩)
        exact hfree (hf ▸ hbuilds.keeps hat)
    have hnot : ¬ names f <+: ms := fun hpre => ((hproper _).mpr hpre).2 rfl
    rw [hf, at?_put_self t hne, ← hf]
    simp [hold, hnot, eq_comm]
  · have hput : p ++ [name] ++ ns ≠ p ++ [name] ++ (ms ++ [m]) := fun heq =>
      hself (by rw [hf]; exact List.append_cancel_left heq)
    rw [at?_put_ne t hput]
    by_cases hpre : ns <+: ms
    · -- A directory on the way to the file. No earlier file stands there.
      have hdir := hready.dir_of_makeDirs hms hdirs hpre
      have hold : Copied done ns n → n = .dir := by
        intro hcopied
        have hat := hbuilds.keeps ((hcopy ns n).mpr hcopied)
        rw [hdir] at hat
        exact (Option.some.inj hat).symm
      rw [hdir]
      constructor
      · intro hn
        exact .inr (.inr ⟨(Option.some.inj hn).symm, hpre⟩)
      · rintro (hcopied | ⟨heq, -⟩ | ⟨rfl, -⟩)
        · rw [hold hcopied]
        · exact absurd heq.symm hself
        · rfl
    · have hsame : t.at? (p ++ [name] ++ ns) = v.at? (p ++ [name] ++ ns) := by
        rcases hbuilds.made (p ++ [name] ++ ns) with hsame | ⟨-, -, ns', hns', heq⟩
        · exact hsame
        · exact absurd (List.append_cancel_left heq ▸ hns') hpre
      rw [hsame, hcopy ns n]
      simp [hpre, Ne.symm hself]

end Files

section Stage
variable {v v' : World} {root up name : String} {p : Place} {files : Listing}

theorem stage_nil (root staging : String) : stage root [] staging = pure () := rfl

theorem stage_cons (root : String) (f : PackageFile) (files : Listing) (staging : String) :
    stage root (f :: files) staging =
      copyFile root staging f >>= fun _ => stage root files staging := rfl

theorem names_eq (f : PackageFile) : ∃ ms m, names f = ms ++ [m] :=
  (List.eq_nil_or_concat' (names f)).resolve_left (Path.pieces_ne_nil f.path)

/-- Whether or not all files could be copied, only the copy has changed. -/
theorem stage_alters (root : String) (hnamed : ∀ f ∈ files, ∀ n ∈ names f, IsName n) (h : Ready v up name p) :
    Alters (p ++ [name] <+: ·) v (stage root files (Path.join up name) v).2 ∧
      Ready (stage root files (Path.join up name) v).2 up name p := by
  induction files generalizing v with
  | nil => exact ⟨.refl _ v, h⟩
  | cons f files ih =>
    obtain ⟨ms, m, hf⟩ := names_eq f
    have hfirst := copyFile_alters root hf (hnamed f (by simp)) h
    rw [stage_cons]
    cases hcopy : copyFile root (Path.join up name) f v with
    | mk result t =>
      rw [hcopy] at hfirst
      cases result with
      | error e =>
        rw [Act.bind_of_error hcopy]
        exact hfirst
      | ok =>
        rw [Act.bind_of_ok hcopy]
        obtain ⟨halters, hready⟩ := ih (fun f hf => hnamed f (by simp [hf])) hfirst.2
        exact ⟨hfirst.1.trans halters, hready⟩

/-- All files have been copied, and nothing else is there. -/
theorem stage_ok {done : Listing} (hnamed : ∀ f ∈ files, ∀ n ∈ names f, IsName n)
    (hdistinct : ((done ++ files).map names).Nodup) (h : Ready v up name p)
    (hcopy : IsCopy v (p ++ [name]) done)
    (hok : stage root files (Path.join up name) v = (.ok (), v')) :
    IsCopy v' (p ++ [name]) (done ++ files) := by
  induction files generalizing v done with
  | nil =>
    obtain ⟨-, rfl⟩ := Act.pure_ok hok
    simpa using hcopy
  | cons f files ih =>
    rw [stage_cons] at hok
    obtain ⟨_, t, hfirst, hrest⟩ := Act.bind_ok hok
    obtain ⟨ms, m, hf⟩ := names_eq f
    have hready := (copyFile_alters root hf (hnamed f (by simp)) h).2
    rw [hfirst] at hready
    have hnew : ∀ f' ∈ done, names f' ≠ names f := by
      intro f' hf' heq
      rw [List.map_append, List.nodup_append] at hdistinct
      exact hdistinct.2.2 _ (List.mem_map.mpr ⟨f', hf', rfl⟩) _ (by simp) heq
    have hcopied := copyFile_ok hf (hnamed f (by simp)) hnew h hcopy hfirst
    rw [List.append_cons done f files] at hdistinct ⊢
    exact ih (fun f hf => hnamed f (by simp [hf])) hdistinct hready hcopied hrest

end Stage

theorem copyFile_isOpen {v v' : World} {root staging : String} {f : PackageFile}
    (hok : copyFile root staging f v = (.ok (), v')) : Listing.isOpen root f = true := by
  unfold copyFile at hok
  cases hparent : Path.parent (Path.join staging f.path) with
  | none =>
    simp only [hparent] at hok
    exact (opened_ok (change_ok hok)).1
  | some dir =>
    simp only [hparent] at hok
    obtain ⟨_, t, -, hwrite⟩ := Act.bind_ok hok
    exact (opened_ok (change_ok hwrite)).1

theorem stage_isOpen {v v' : World} {root staging : String} {files : Listing}
    (hok : stage root files staging v = (.ok (), v')) :
    ∀ f ∈ files, Listing.isOpen root f = true := by
  induction files generalizing v with
  | nil => simp
  | cons f files ih =>
    rw [stage_cons] at hok
    obtain ⟨_, t, hfirst, hrest⟩ := Act.bind_ok hok
    exact List.forall_mem_cons.mpr ⟨copyFile_isOpen hfirst, ih hrest⟩

theorem stage_isPath {v v' : World} {root up name : String} {files : Listing} (hname : IsName name)
    (hnamed : ∀ f ∈ files, ∀ n ∈ names f, IsName n) (hne : files ≠ [])
    (hok : stage root files (Path.join up name) v = (.ok (), v')) : IsPath (Path.join up name) := by
  cases files with
  | nil => exact absurd rfl hne
  | cons f files =>
    obtain ⟨ms, m, hf⟩ := names_eq f
    rw [stage_cons, copyFile_eq root hf (hnamed f (by simp)) hname] at hok
    obtain ⟨_, t, hfirst, -⟩ := Act.bind_ok hok
    obtain ⟨_, t', -, hwrite⟩ := Act.bind_ok hfirst
    obtain ⟨-, spot, hspot, -, -⟩ := writeFile_spot (opened_ok (change_ok hwrite)).2
    exact (isPath_of_resolve hspot).of_extend (Path.join_name_ne_empty hname up)

/-! A name in a directory. -/

/-- A path that goes on from a directory by a name leads where the name leads. -/
theorem resolve_join {v : World} {base name : String} {p : Place} {follow : Bool} {spot : Spot}
    (h : v.LeadsToDir base p) (hname : IsName name) (hpath : IsPath (Path.join base name))
    (hlast : ∀ links, Leads v follow false links p [name] [] spot) :
    v.resolve follow (Path.join base name) = .ok spot := by
  obtain ⟨front, hpieces, hfront⟩ := Path.pieces_join_name hname base
  have hstart : v.start (Path.join base name) = v.start base := by
    rw [start, start, Path.isAbsolute_join (Path.isAbsolute_name hname)]
  obtain ⟨trail, hleads⟩ := leads_of_walk ((leadsToDir_iff false hfront).mp h)
  rw [hpath.resolve_eq, Path.endsInSlash_join_name hname,
    Path.namesOf_eq hpieces hname.nonempty, hstart]
  exact walk_of_leads (leads_append hleads (by simp) (hlast _))

theorem resolve_join_free {v : World} {base name : String} {p : Place} (h : v.LeadsToDir base p)
    (hname : IsName name) (hpath : IsPath (Path.join base name)) (follow : Bool)
    (hat : v.at? (p ++ [name]) = none) :
    v.resolve follow (Path.join base name) = .ok (.free (p ++ [name])) :=
  resolve_join h hname hpath fun _ => .free (Path.isStep_name hname) hname.short hat

/-- What stands at the name is found there, if it is no link that is to be followed. -/
theorem resolve_join_taken {v : World} {base name : String} {p : Place} (h : v.LeadsToDir base p)
    (hname : IsName name) (hpath : IsPath (Path.join base name)) (follow : Bool) {n : Node}
    (hat : v.at? (p ++ [name]) = some n) (hlink : ∀ t, n = .link t → follow = false) :
    v.resolve follow (Path.join base name) = .ok (.taken (p ++ [name]) n) := by
  have hstep := Path.isStep_name hname
  refine resolve_join h hname hpath fun _ => ?_
  cases n with
  | dir => exact .down hstep hname.short hat .here
  | file bytes => exact .file hstep hname.short hat rfl
  | link t => exact .link hstep hname.short hat (hlink t rfl) rfl

/-! A name that is taken by what is no directory. -/

section Blocked
variable {v : World} {up name : String} {p : Place}

/-- What stands at the name and is not found there is a link. -/
theorem Bench.link_of_missing (h : Bench v up name p) {n : Node}
    (hat : v.at? (p ++ [name]) = some n) (hpath : IsPath (Path.join up name))
    (hmissing : v.pathExists (Path.join up name) = false) : ∃ t, n = .link t := by
  cases n with
  | link t => exact ⟨t, rfl⟩
  | dir | file =>
    have hfound := resolve_join_taken h.dir h.named hpath true hat (by simp)
    simp [pathExists, find, hfound] at hmissing

/-- Where a path leads on from a name, a directory is found at the name. -/
theorem Bench.pathExists_of_resolve (h : Bench v up name p) {ns : Place}
    (hns : ∀ n ∈ ns, IsName n) (hne : ns ≠ []) {follow : Bool} {spot : Spot}
    (hspot : v.resolve follow (Path.extend (Path.join up name) ns) = .ok spot) :
    v.pathExists (Path.join up name) = true := by
  obtain ⟨front, hpieces, -⟩ := Path.pieces_join_name h.named up
  have hidle := Path.isIdle_name h.named
  obtain ⟨ms, m, rfl⟩ := (List.eq_nil_or_concat' ns).resolve_left hne
  have hlong := Path.pieces_extend hns (Path.join up name)
  rw [← List.append_assoc] at hlong
  have hnames := Path.namesOf_eq hlong (hns m (by simp)).nonempty
  have hstart : v.start (Path.extend (Path.join up name) (ms ++ [m])) =
      v.start (Path.join up name) := by
    rw [start, start, Path.isAbsolute_extend hpieces hidle hns]
  obtain ⟨trail, hleads⟩ := leads_of_resolve hspot
  rw [hnames, hstart, List.append_assoc] at hleads
  obtain ⟨⟨r, hcourse⟩, hclear⟩ := clear_of_leads hleads (by simp)
  have hdir : v.LeadsToDir (Path.join up name) r.place :=
    (leadsToDir_iff false rfl).mpr (walk_dir_iff.mpr ⟨⟨r, hcourse, rfl⟩, hclear⟩)
  have hpath := (isPath_of_resolve hspot).of_extend (Path.join_name_ne_empty h.named up)
  simp [pathExists, find_dir_iff.mpr ⟨hpath, hdir⟩]

/-- No directory can be made at a name that is taken. -/
theorem Bench.makeDir_taken (h : Bench v up name p) (hat : v.at? (p ++ [name]) ≠ none) :
    ∃ e, v.makeDir (Path.join up name) = .error e ∧ e ≠ .notFound := by
  obtain ⟨n, hn⟩ := Option.ne_none_iff_exists'.mp hat
  have hempty : (Path.join up name == "") = false := by
    simpa using Path.join_name_ne_empty h.named up
  rw [makeDir, trimSlashes_eq_self (Path.endsInSlash_join_name h.named up)]
  by_cases hpath : IsPath (Path.join up name)
  · rw [resolve_join_taken h.dir h.named hpath false hn fun _ _ => rfl]
    exact ⟨_, rfl, by simp⟩
  · rw [resolve_eq, hempty]
    by_cases hzero : (Path.join up name).toList.contains '\x00' = true
    · exact ⟨.invalidName, by simp only [hzero]; rfl, by simp⟩
    · have hlong : (Path.join up name).utf8ByteSize ≥ 4096 := by
        by_contra hshort
        exact hpath ⟨hempty, by simpa using hzero, by omega⟩
      refine ⟨.nameTooLong, ?_, by simp⟩
      rw [if_neg (by simp), if_neg hzero, if_pos hlong]

/-- No directory is made below a name that is taken by something else. -/
theorem Bench.makeDirs_blocked (h : Bench v up name p) (hat : v.at? (p ++ [name]) ≠ none)
    (hmissing : v.pathExists (Path.join up name) = false) (fuel : Nat) {ns : Place}
    (hns : ∀ n ∈ ns, IsName n) :
    ∃ e, makeDirsWithin fuel v (Path.extend (Path.join up name) ns) = (.error e, v) := by
  obtain ⟨front, hpieces, -⟩ := Path.pieces_join_name h.named up
  induction fuel generalizing ns with
  | zero => exact ⟨_, rfl⟩
  | succ fuel ih =>
    by_cases hne : ns = []
    · obtain ⟨e, hdir, he⟩ := h.makeDir_taken hat
      rw [hne, Path.extend_nil]
      refine makeDirsWithin_error (Path.join_name_ne_empty h.named up) hdir ?_ fun heq => absurd heq he
      by_contra hisDir
      obtain ⟨found, hfind⟩ := find_of_isDir (by simpa using hisDir)
      simp [pathExists, hfind] at hmissing
    · have hunreached : ∀ follow spot,
          v.resolve follow (Path.extend (Path.join up name) ns) ≠ .ok spot := by
        intro follow spot hspot
        rw [h.pathExists_of_resolve hns hne hspot] at hmissing
        cases hmissing
      obtain ⟨ms, m, rfl⟩ := (List.eq_nil_or_concat' ns).resolve_left hne
      have hm : m ≠ "" := (hns m (by simp)).nonempty
      have hlong := Path.pieces_extend hns (Path.join up name)
      rw [← List.append_assoc] at hlong
      have hempty : Path.extend (Path.join up name) (ms ++ [m]) ≠ "" := by
        intro hempty
        rw [hempty, Path.pieces_empty] at hlong
        exact hm (by simpa using (congrArg List.getLast? hlong).symm)
      cases hmade : v.makeDir (Path.extend (Path.join up name) (ms ++ [m])) with
      | ok v' =>
        obtain ⟨q, hq, -⟩ := makeDir_ok hmade
        rw [trimSlashes_eq_self (Path.endsInSlash_eq_false hlong hm)] at hq
        exact absurd hq (hunreached false _)
      | error e =>
        refine makeDirsWithin_error hempty hmade ?_ fun _ => ?_
        · by_contra hisDir
          obtain ⟨q, hq⟩ := find_of_isDir (by simpa using hisDir)
          exact hunreached true _ (resolve_of_find hq)
        · have hms : ∀ n ∈ ms, IsName n := fun n hn => hns n (by simp [hn])
          obtain ⟨e', he'⟩ := ih hms
          exact ⟨_, e', Path.parent_extend hpieces (Path.isIdle_name h.named) hns, he'⟩

theorem stage_blocked (root : String) {files : Listing} (hnamed : ∀ f ∈ files, ∀ n ∈ names f, IsName n)
    (h : Bench v up name p) (hat : v.at? (p ++ [name]) ≠ none)
    (hmissing : v.pathExists (Path.join up name) = false) :
    (stage root files (Path.join up name) v).2 = v ∧
      ((stage root files (Path.join up name) v).1 = .ok () → files = []) := by
  cases files with
  | nil => exact ⟨rfl, fun _ => rfl⟩
  | cons f files =>
    obtain ⟨ms, m, hf⟩ := names_eq f
    have hms : ∀ n ∈ ms, IsName n := fun n hn => hnamed f (by simp) n (by simp [hf, hn])
    obtain ⟨e, hdirs⟩ := h.makeDirs_blocked hat hmissing
      ((Path.extend (Path.join up name) ms).length + 1) hms
    have hfail : Act.makeDirs (Path.extend (Path.join up name) ms) v =
        (.error ⟨["cannot create " ++ Path.extend (Path.join up name) ms, e.message]⟩, v) := by
      rw [Act.makeDirs, World.makeDirs, hdirs]
    rw [stage_cons, copyFile_eq root hf (hnamed f (by simp)) h.named,
      Act.bind_of_error (Act.bind_of_error hfail)]
    exact ⟨rfl, fun hok => by cases hok⟩

end Blocked

end Command
end SkillAudit
