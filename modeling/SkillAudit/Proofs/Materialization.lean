import Mathlib
import SkillAudit.Proofs.HubFetch
import SkillAudit.Proofs.PackageCopy
import SkillAudit.Proofs.PathEvaluation
import SkillAudit.Proofs.StandingFile

/-!
Packages on disk. A package from a hub is written only if all its paths are safe. What is written
stands below one name in a directory, and a file there has the content that the package gives last
for its path.
-/
namespace SkillAudit

namespace Path

/-- A path that goes on from another by steps down. -/
structure Descends (base path : String) (ns : List String) : Prop where
  absolute : isAbsolute path = isAbsolute base
  steps : steps path = Path.steps base ++ ns
  down : ∀ n ∈ ns, World.IsStep n

theorem Descends.join {base path rel : String} {ns ms : List String} (h : Descends base path ns)
    (habs : isAbsolute rel = false) (hrel : Path.steps rel = ms) (hms : ∀ m ∈ ms, World.IsStep m) :
    Descends base (Path.join path rel) (ns ++ ms) where
  absolute := (isAbsolute_join habs path).trans h.absolute
  steps := by rw [steps_join habs, h.steps, hrel, List.append_assoc]
  down := List.forall_mem_append.mpr ⟨h.down, hms⟩

theorem parent_ne_none {path : String} (h : steps path ≠ []) : parent path ≠ none := by
  cases hpieces : pieces path with
  | nil => exact absurd hpieces (pieces_ne_nil path)
  | cons first rest =>
    rcases Text.exists_last_not isIdle rest with hidle | ⟨mid, last, idles, rfl, hlast, hidle⟩
    · rw [parent_of_idle hpieces hidle]
      by_cases hfirst : first = ""
      · refine absurd (List.filter_eq_nil_iff.mpr fun p hp => ?_) h
        rw [hpieces] at hp
        rcases List.mem_cons.mp hp with rfl | hp
        · simp [hfirst, isIdle]
        · simp [hidle p hp]
      · simp [hfirst]
    · rw [parent_of_busy hpieces hlast hidle]
      simp

theorem Descends.parent {base path : String} {ns : List String} {n : String}
    (h : Descends base path (ns ++ [n])) :
    ∃ up, Path.parent path = some up ∧ Descends base up ns := by
  have hne : Path.steps path ≠ [] := by simp [h.steps]
  obtain ⟨up, hup⟩ := Option.ne_none_iff_exists'.mp (parent_ne_none hne)
  obtain ⟨hsteps, habs⟩ := steps_parent hup
  refine ⟨up, hup, habs.trans h.absolute, ?_, fun m hm => h.down m (by simp [hm])⟩
  rw [hsteps, h.steps, ← List.append_assoc, List.dropLast_concat]

end Path

namespace World
open SkillAudit.Path (Descends)

/-- A directory that a path leads to, with no link in it. -/
structure Shelter (v : World) (base : String) (p : Place) : Prop where
  dir : v.LeadsToDir base p
  plain : ∀ rest t, v.at? (p ++ rest) ≠ some (.link t)

section Shelter
variable {v v' : World} {base path : String} {p : Place} {ns : List String}

theorem Shelter.extend (h : v.Shelter base p) (hpath : Descends base path ns) :
    (∃ g, v.goal? path = some g ∧ g.place = p ++ ns) ∧
      ∀ q, q ∈ v.onWay path ↔ q ∈ v.onWay base ∨ ∃ ms, ms ≠ [] ∧ ms <+: ns ∧ q = p ++ ms := by
  have hscratch : v.Scratch base p := ⟨h.dir.goal, h.plain⟩
  refine ⟨(hscratch.extend hpath.down hpath.absolute hpath.steps).1, fun q => ?_⟩
  obtain ⟨g, hgoal, rfl⟩ := h.dir.goal
  rw [goal?_eq] at hgoal
  rw [onWay, start, hpath.absolute, hpath.steps, ← start, passes_append hgoal, List.mem_append,
    (course_down hpath.down h.plain).2, onWay]

/-- It stays one while no directory or link goes and no link comes. -/
theorem Shelter.of_changes (h : v.Shelter base p) (hcwd : v'.cwd = v.cwd)
    (hchange : ∀ q, v'.at? q = v.at? q ∨ (v.at? q ≠ some .dir ∧ (∀ t, v.at? q ≠ some (.link t)) ∧
      ∀ t, v'.at? q ≠ some (.link t))) : v'.Shelter base p := by
  refine ⟨(h.dir.of_same hcwd fun q hq => ?_).1, fun rest t ht => ?_⟩
  · rcases hchange q with hsame | ⟨hdir, hlink, -⟩
    · exact hsame
    · rcases (h.dir.clear q hq).open_ with hstands | ⟨t, hstands, -⟩
      · exact absurd hstands hdir
      · exact absurd hstands (hlink t)
  · rcases hchange (p ++ rest) with hsame | ⟨-, -, hlink⟩
    · exact h.plain rest t (hsame ▸ ht)
    · exact hlink t ht

theorem Shelter.builds {Q : Place → Prop} (h : v.Shelter base p) (hv : Builds Q v v') :
    v'.Shelter base p := by
  refine h.of_changes hv.cwd fun q => ?_
  rcases hv.made q with hsame | ⟨hfree, hmade, -⟩
  · exact .inl hsame
  · exact .inr (by simp [hfree, hmade])

theorem Shelter.makeDirs (h : v.Shelter base p) (hpath : Descends base path ns) :
    Builds (fun q => ∃ ms, ms ≠ [] ∧ ms <+: ns ∧ q = p ++ ms) v (v.makeDirs path).2 := by
  have hbuilds := (Advances.refl v).makeDirs path
  refine ⟨hbuilds.cwd, fun q => ?_, hbuilds.distinct⟩
  rcases hbuilds.made q with hsame | ⟨hfree, hmade, hq⟩
  · exact .inl hsame
  · rcases ((h.extend hpath).2 q).mp hq with hway | hbelow
    · rcases (h.dir.clear q hway).open_ with hstands | ⟨t, hstands, -⟩
      · simp [hfree] at hstands
      · simp [hfree] at hstands
    · exact .inr ⟨hfree, hmade, hbelow⟩

theorem Shelter.made (h : v.Shelter base p) (hpath : Descends base path ns)
    (hok : v.makeDirs path = (.ok (), v')) {ms : Place} (hne : ms ≠ []) (hms : ms <+: ns) :
    v'.at? (p ++ ms) = some .dir := by
  have hbuilds := h.makeDirs hpath
  rw [hok] at hbuilds
  have hafter := h.builds hbuilds
  obtain ⟨_, hleads⟩ := leadsToDir_of_makeDirs hok
  have hway := ((hafter.extend hpath).2 (p ++ ms)).mpr (.inr ⟨ms, hne, hms, rfl⟩)
  rcases (hleads.clear _ hway).open_ with hdir | ⟨t, hlink, -⟩
  · exact hdir
  · exact absurd hlink (hafter.plain ms t)

theorem Shelter.writeFile (h : v.Shelter base p) (hpath : Descends base path ns) {bytes : ByteArray}
    (hok : v.writeFile path bytes = .ok v') :
    p ++ ns ≠ [] ∧ v.at? (p ++ ns) ≠ some .dir ∧ v' = v.put (p ++ ns) (.file bytes) ∧
      v'.Shelter base p := by
  obtain ⟨g, hgoal, hne, hdir, rfl⟩ := writeFile_ok hok
  obtain ⟨g', hgoal', hplace⟩ := (h.extend hpath).1
  obtain rfl : g = g' := Option.some.inj (hgoal.symm.trans hgoal')
  rw [hplace] at hne hdir ⊢
  refine ⟨hne, hdir, rfl, h.of_changes rfl fun q => ?_⟩
  by_cases hq : q = p ++ ns
  · subst hq
    exact .inr ⟨hdir, h.plain ns, by simp [at?_put_self v hne]⟩
  · exact .inl (at?_put_ne v hq _)

end Shelter

/-- A path to a directory that is empty. -/
structure LeadsToEmpty (w : World) (base : String) (p : Place) : Prop where
  dir : w.LeadsToDir base p
  stands : w.at? p = some .dir
  empty : ∀ rest, rest ≠ [] → w.at? (p ++ rest) = none

theorem LeadsToEmpty.shelter {w : World} {base : String} {p : Place} (h : w.LeadsToEmpty base p) :
    w.Shelter base p := by
  refine ⟨h.dir, fun rest t => ?_⟩
  by_cases hrest : rest = []
  · simp [hrest, h.stands]
  · simp [h.empty rest hrest]

/-- A tree that has changed only below a name in such a directory. -/
structure Confined (w : World) (base : String) (p : Place) (name : String) (v : World) : Prop where
  shelter : v.Shelter base p
  alters : w.Alters (p ++ [name] <+: ·) v

section Confined
variable {w v v' : World} {base path name : String} {p : Place} {ns : List String}
  (h : w.Confined base p name v) (hpath : Descends base path (name :: ns))
include h hpath

theorem Confined.makeDirs : w.Confined base p name (v.makeDirs path).2 := by
  have hbuilds := h.shelter.makeDirs hpath
  refine ⟨h.shelter.builds hbuilds, h.alters.trans (.builds hbuilds fun q _ hq => ?_)⟩
  obtain ⟨ms, hne, hms, rfl⟩ := hq
  obtain ⟨n, rest, rfl⟩ := List.exists_cons_of_ne_nil hne
  obtain rfl := (List.cons_prefix_cons.mp hms).1
  exact ⟨rest, by simp⟩

theorem Confined.writeFile {bytes : ByteArray} (hok : v.writeFile path bytes = .ok v') :
    w.Confined base p name v' := by
  obtain ⟨-, -, rfl, hshelter⟩ := h.shelter.writeFile hpath hok
  exact ⟨hshelter, h.alters.trans (.put ⟨ns, by simp⟩ _)⟩

end Confined
end World

namespace RemoteFile

/-- A path that may lead out of a package, or names nothing in it. -/
def IsUnsafe (f : RemoteFile) : Prop :=
  f.path = "" ∨ (∃ c ∈ ['\x00', '\\', ':'], c ∈ f.path.toList) ∨ f.path.toList.head? = some '/' ∨
    ".." ∈ Path.pieces f.path ∨ ∀ n ∈ Path.pieces f.path, n ∈ ["", ".", ".."]

instance (f : RemoteFile) : Decidable f.IsUnsafe :=
  decidable_of_iff (f.path = "" ∨ ['\x00', '\\', ':'].any (f.path.toList.contains ·) = true ∨
    f.path.toList.head? = some '/' ∨ ".." ∈ Path.pieces f.path ∨
    ∀ n ∈ Path.pieces f.path, n ∈ ["", ".", ".."]) (by simp [IsUnsafe])

/-- The names of a path without its dots are its steps. -/
theorem names_filter (path : String) : (Path.names path).filter (· != ".") = Path.steps path := by
  unfold Path.names Path.steps
  cases Path.pieces path with
  | nil => rfl
  | cons first rest =>
    have hrest : (rest.filter fun p => !Path.isIdle p).filter (· != ".") =
        rest.filter fun p => !Path.isIdle p := by
      refine List.filter_eq_self.mpr fun n hn => ?_
      have hbusy := (List.mem_filter.mp hn).2
      simp only [Path.isIdle, Bool.not_or, Bool.and_eq_true] at hbusy
      exact hbusy.2
    simp only [List.filter_append, hrest, List.filter_cons]
    by_cases hempty : first = ""
    · simp [hempty, Path.isIdle]
    · by_cases hdot : first = "."
      · simp [hdot, Path.isIdle]
      · simp [hempty, hdot, Path.isIdle]

theorem isUnsafe_iff (f : RemoteFile) : f.IsUnsafe ↔
    (Path.isAbsolute f.path = true ∨ ∃ c ∈ ['\x00', '\\', ':'], c ∈ f.path.toList) ∨
      Path.steps f.path = [] ∨ ".." ∈ Path.steps f.path := by
  have hup : ".." ∈ Path.steps f.path ↔ ".." ∈ Path.pieces f.path := by
    simp [Path.steps, Path.isIdle]
  have hnone : Path.steps f.path = [] ↔ ∀ n ∈ Path.pieces f.path, n ∈ ["", "."] := by
    simp [Path.steps, Path.isIdle, List.filter_eq_nil_iff, or_iff_not_imp_left]
  have habs : Path.isAbsolute f.path = true ↔ f.path.toList.head? = some '/' := by
    simp [Path.isAbsolute]
  rw [hup, hnone, habs]
  constructor
  · rintro (hempty | hchar | hslash | hparent | hpieces)
    · exact .inr (.inl (by simp [hempty, Path.pieces_empty]))
    · exact .inl (.inr hchar)
    · exact .inl (.inl hslash)
    · exact .inr (.inr hparent)
    · by_cases hparent : ".." ∈ Path.pieces f.path
      · exact .inr (.inr hparent)
      · refine .inr (.inl fun n hn => ?_)
        have hne : n ≠ ".." := fun heq => hparent (heq ▸ hn)
        simpa [hne] using hpieces n hn
  · rintro ((hslash | hchar) | hpieces | hparent)
    · exact .inr (.inr (.inl hslash))
    · exact .inr (.inl hchar)
    · exact .inr (.inr (.inr (.inr fun n hn => List.mem_append_left [".."] (hpieces n hn))))
    · exact .inr (.inr (.inr (.inl hparent)))

theorem safeNames?_eq (f : RemoteFile) :
    f.safeNames? = if f.IsUnsafe then none else some (Path.steps f.path) := by
  have hchar : f.path.toList.any (['\x00', '\\', ':'].contains ·) = true ↔
      ∃ c ∈ ['\x00', '\\', ':'], c ∈ f.path.toList := by
    simp only [List.any_eq_true, List.contains_iff_mem, and_comm]
  simp only [safeNames?, names_filter, isUnsafe_iff, ← hchar, Bool.or_eq_true, List.isEmpty_iff,
    List.contains_iff_mem]
  by_cases hstart : Path.isAbsolute f.path = true ∨
      f.path.toList.any (['\x00', '\\', ':'].contains ·) = true
  · rw [if_pos hstart, if_pos (.inl hstart)]
  · by_cases hrest : Path.steps f.path = [] ∨ ".." ∈ Path.steps f.path
    · rw [if_neg hstart, if_pos hrest, if_pos (.inr hrest)]
    · rw [if_neg hstart, if_neg hrest, if_neg (not_or.mpr ⟨hstart, hrest⟩)]

end RemoteFile

namespace RemotePackage

theorem plan_safe {p : RemotePackage} (h : ∀ f ∈ p.files, ¬ f.IsUnsafe) :
    p.plan = .ok (p.files.map fun f => (Path.steps f.path, f)) := by
  unfold plan
  generalize p.files = files at h ⊢
  induction files with
  | nil => rfl
  | cons f files ih =>
    rw [List.forall_mem_cons] at h
    rw [List.mapM_cons, ih h.2, RemoteFile.safeNames?_eq, if_neg h.1]
    rfl

/-- The first path that is not safe is named. -/
theorem plan_refused {p : RemotePackage} {before after : List RemoteFile} {f : RemoteFile}
    (hfiles : p.files = before ++ f :: after) (hbefore : ∀ g ∈ before, ¬ g.IsUnsafe)
    (hf : f.IsUnsafe) : p.plan = .error (.unsafePath f.path) := by
  unfold plan
  rw [hfiles]
  clear hfiles
  induction before with
  | nil =>
    rw [List.nil_append, List.mapM_cons, RemoteFile.safeNames?_eq, if_pos hf]
    rfl
  | cons g before ih =>
    rw [List.forall_mem_cons] at hbefore
    rw [List.cons_append, List.mapM_cons, RemoteFile.safeNames?_eq, if_neg hbefore.1, ih hbefore.2]
    rfl

/-! Writing the files. -/

theorem put_cases (path : String) (bytes : ByteArray) (u : World) {act : Write Unit}
    (hact : act = do
      match (← get).writeFile path bytes with
      | .ok w => set w
      | .error e => throw (.file path e)) :
    (∃ e, act u = (.error (.file path e), u)) ∨
      ∃ v, u.writeFile path bytes = .ok v ∧ act u = (.ok (), v) := by
  rw [hact, Act.bind_of_ok (x := get) rfl]
  cases hfile : u.writeFile path bytes with
  | error e => exact .inl ⟨e, rfl⟩
  | ok v => exact .inr ⟨v, rfl, rfl⟩

/-- A file is written once the directories that lead to it are made. Where it is not, that is not for
its path. -/
theorem writeFile_cases (root : String) (names : List String) (f : RemoteFile) (w : World) :
    (∃ e v, writeFile root names f w = (.error e, v) ∧ ∀ x, e ≠ .unsafePath x) ∨
    ∃ bytes u v, f.bytes? = some bytes ∧
      (∀ up, Path.parent (Path.join root (String.intercalate "/" names)) = some up →
        w.makeDirs up = (.ok (), u)) ∧
      u.writeFile (Path.join root (String.intercalate "/" names)) bytes = .ok v ∧
      writeFile root names f w = (.ok (), v) := by
  unfold writeFile
  cases hbytes : f.bytes? with
  | none => exact .inl ⟨.badContent f.path, w, rfl, by simp⟩
  | some bytes =>
    simp only
    generalize Path.join root (String.intercalate "/" names) = path
    cases Path.parent path with
    | none =>
      rcases put_cases path bytes w rfl with ⟨e, hfails⟩ | ⟨v, hfile, hok⟩
      · exact .inl ⟨_, w, hfails, by simp⟩
      · exact .inr ⟨bytes, w, v, rfl, by simp, hfile, hok⟩
    | some up =>
      cases hdirs : w.makeDirs up with
      | mk result u =>
        cases result with
        | error e =>
          have hmade : Write.makeDirs up w = (.error (.file up e), u) := by
            simp only [Write.makeDirs, hdirs]
          exact .inl ⟨_, u, Act.bind_of_error hmade, by simp⟩
        | ok =>
          have hmade : Write.makeDirs up w = (.ok (), u) := by simp only [Write.makeDirs, hdirs]
          simp only [Act.bind_of_ok hmade]
          rcases put_cases path bytes u rfl with ⟨e, hfails⟩ | ⟨v, hfile, hok⟩
          · exact .inl ⟨_, u, hfails, by simp⟩
          · exact .inr ⟨bytes, u, v, rfl, by rintro _ ⟨⟩; exact hdirs, hfile, hok⟩

theorem writeFiles_cons (root : String) (x : List String × RemoteFile)
    (files : List (List String × RemoteFile)) :
    ((x :: files).forM fun (names, f) => writeFile root names f) =
      writeFile root x.1 x.2 >>= fun _ => files.forM fun (names, f) => writeFile root names f := rfl

/-- Once the paths have been checked, none is refused. -/
theorem writeFiles_checked {root : String} {files : List (List String × RemoteFile)} {w v : World}
    {x : String} :
    (files.forM fun (names, f) => writeFile root names f) w ≠ (.error (.unsafePath x), v) := by
  intro h
  induction files generalizing w with
  | nil => cases h
  | cons y files ih =>
    rw [writeFiles_cons] at h
    rcases Act.bind_error h with hfirst | ⟨_, u, -, hrest⟩
    · rcases writeFile_cases root y.1 y.2 w with ⟨e, u, hfails, he⟩ | ⟨_, _, _, -, -, -, hok⟩
      · rw [hfails] at hfirst
        exact he x (Except.error.inj (Prod.mk.inj hfirst).1)
      · rw [hok] at hfirst
        cases hfirst
    · exact ih hrest

theorem writeTo_refused {p : RemotePackage} {before after : List RemoteFile} {f : RemoteFile}
    (hfiles : p.files = before ++ f :: after) (hbefore : ∀ g ∈ before, ¬ g.IsUnsafe)
    (hf : f.IsUnsafe) (root : String) (w : World) :
    p.writeTo root w = (.error (.unsafePath f.path), w) := by
  rw [writeTo, plan_refused hfiles hbefore hf]
  rfl

theorem writeTo_safe {p : RemotePackage} (h : ∀ f ∈ p.files, ¬ f.IsUnsafe) (root : String) :
    p.writeTo root = Write.makeDirs root >>= fun _ =>
      (p.files.map fun f => (Path.steps f.path, f)).forM fun (names, f) =>
        writeFile root names f := by
  rw [writeTo, plan_safe h]

theorem unsafePath_iff (p : RemotePackage) (root : String) (w : World) :
    (∃ x, (p.writeTo root w).1 = .error (.unsafePath x)) ↔ ∃ f ∈ p.files, f.IsUnsafe := by
  constructor
  · rintro ⟨x, hx⟩
    by_contra hsafe
    rw [writeTo_safe (by simpa using hsafe)] at hx
    rcases Act.bind_error (Prod.ext hx rfl) with hdirs | ⟨_, u, -, hrest⟩
    · unfold Write.makeDirs at hdirs
      split at hdirs
      · cases hdirs
      · cases hdirs
    · exact writeFiles_checked hrest
  · rintro ⟨f, hf, hstrays⟩
    cases hfind : p.files.find? (fun f => f.IsUnsafe) with
    | none => simpa [hstrays] using List.find?_eq_none.mp hfind f hf
    | some first =>
      obtain ⟨hfirst, before, after, hfiles, hbefore⟩ := List.find?_eq_some_iff_append.mp hfind
      rw [writeTo_refused hfiles (by simpa using hbefore) (by simpa using hfirst)]
      exact ⟨first.path, rfl⟩

/-! What the files amount to. -/

/-- The file that is given last for some steps. -/
def lastAt? (files : List RemoteFile) (ns : Place) : Option RemoteFile :=
  (files.filter fun f => Path.steps f.path = ns).getLast?

/-- What some files amount to at steps below their package: the content that is given last, or a
directory that leads to a file. -/
def Holds (files : List RemoteFile) (ns : Place) : Node → Prop
  | .file bytes => (lastAt? files ns).bind (·.bytes?) = some bytes
  | .dir => ns = [] ∨ ∃ f ∈ files, ns <+: Path.steps f.path ∧ ns ≠ Path.steps f.path
  | .link _ => False

/-- Some files, and nothing else, stand at a place. -/
def IsWritten (v : World) (p : Place) (files : List RemoteFile) : Prop :=
  ∀ ns n, v.at? (p ++ ns) = some n ↔ Holds files ns n

theorem lastAt?_append (files : List RemoteFile) (f : RemoteFile) (ns : Place) :
    lastAt? (files ++ [f]) ns = if Path.steps f.path = ns then some f else lastAt? files ns := by
  by_cases h : Path.steps f.path = ns
  · simp [lastAt?, h]
  · simp [lastAt?, h]

theorem holds_self {files : List RemoteFile} {f : RemoteFile} {bytes : ByteArray}
    (hbytes : f.bytes? = some bytes) (hne : Path.steps f.path ≠ [])
    (hfree : ¬ Holds files (Path.steps f.path) .dir) (n : Node) :
    Holds (files ++ [f]) (Path.steps f.path) n ↔ n = .file bytes := by
  cases n with
  | file b => simp [Holds, lastAt?_append, hbytes, eq_comm]
  | link t => simp [Holds]
  | dir =>
    refine iff_of_false ?_ (by simp)
    rintro (hnil | ⟨g, hg, hto, hother⟩)
    · exact hne hnil
    · rcases List.mem_append.mp hg with hg | hg
      · exact hfree (.inr ⟨g, hg, hto, hother⟩)
      · exact hother (by rw [List.mem_singleton.mp hg])

theorem holds_else {files : List RemoteFile} {f : RemoteFile} {ns : Place}
    (hns : ns ≠ Path.steps f.path) (n : Node) :
    Holds (files ++ [f]) ns n ↔ Holds files ns n ∨ (n = .dir ∧ ns <+: Path.steps f.path) := by
  cases n with
  | file b => simp [Holds, lastAt?_append, hns.symm]
  | link t => simp [Holds]
  | dir =>
    simp only [Holds, List.mem_append, List.mem_singleton, or_and_right, exists_or, exists_eq_left,
      true_and, or_assoc]
    simp [hns]

section Written
variable {u v v' : World} {base name : String} {p r ms : Place} {m : String} {f : RemoteFile}

/-- A file that is written is put below the package, where the directories that lead to it have been
made. -/
theorem writeFile_put (h : v.Shelter base p) (hsteps : Path.steps f.path = ms ++ [m])
    (hpath : Path.Descends base
      (Path.join (Path.join base name) (String.intercalate "/" (Path.steps f.path)))
      (name :: Path.steps f.path))
    (hok : writeFile (Path.join base name) (Path.steps f.path) f v = (.ok (), v')) :
    ∃ bytes u, f.bytes? = some bytes ∧ v'.Shelter base p ∧
      World.Builds (fun q => ∃ ns, ns <+: ms ∧ q = p ++ [name] ++ ns) v u ∧
      (∀ ns, ns <+: ms → u.at? (p ++ [name] ++ ns) = some .dir) ∧
      u.at? (p ++ [name] ++ Path.steps f.path) ≠ some .dir ∧
      v' = u.put (p ++ [name] ++ Path.steps f.path) (.file bytes) := by
  rcases writeFile_cases (Path.join base name) (Path.steps f.path) f v with
    ⟨e, u, hfails, -⟩ | ⟨bytes, u, u', hbytes, hdirs, hfile, hdone⟩
  · rw [hfails] at hok
    cases hok
  · obtain rfl : u' = v' := by
      rw [hdone] at hok
      exact (Prod.mk.inj hok).2
    have hlong : name :: Path.steps f.path = (name :: ms) ++ [m] := by rw [hsteps, List.cons_append]
    obtain ⟨up, hup, hdescends⟩ := (hlong ▸ hpath).parent
    have hbuilds := h.makeDirs hdescends
    rw [hdirs up hup] at hbuilds
    obtain ⟨-, hfree, hput, hshelter⟩ := (h.builds hbuilds).writeFile hpath hfile
    rw [List.append_cons] at hfree hput
    refine ⟨bytes, u, hbytes, hshelter, hbuilds.mono fun q hq => ?_, fun ns hns => ?_, hfree, hput⟩
    · obtain ⟨qs, hne, hqs, rfl⟩ := hq
      obtain ⟨n, ns, rfl⟩ := List.exists_cons_of_ne_nil hne
      obtain ⟨rfl, hns⟩ := List.cons_prefix_cons.mp hqs
      exact ⟨ns, hns, by rw [List.append_cons]⟩
    · rw [← List.append_cons]
      exact h.made hdescends (hdirs up hup) (by simp) (List.cons_prefix_cons.mpr ⟨rfl, hns⟩)

/-- What is there then are the files before it and the further one. -/
theorem IsWritten.put {done : List RemoteFile} {bytes : ByteArray} (hwritten : IsWritten v r done)
    (hroot : r ≠ []) (hbytes : f.bytes? = some bytes) (hsteps : Path.steps f.path = ms ++ [m])
    (hbuilds : World.Builds (fun q => ∃ ns, ns <+: ms ∧ q = r ++ ns) v u)
    (hdir : ∀ ns, ns <+: ms → u.at? (r ++ ns) = some .dir)
    (hfree : u.at? (r ++ Path.steps f.path) ≠ some .dir) :
    IsWritten (u.put (r ++ Path.steps f.path) (.file bytes)) r (done ++ [f]) := by
  intro ns n
  by_cases hself : ns = Path.steps f.path
  · subst hself
    have hnodir : ¬ Holds done (Path.steps f.path) .dir := fun hold =>
      hfree (hbuilds.keeps ((hwritten _ _).mpr hold))
    rw [World.at?_put_self u (by simp [hroot]), holds_self hbytes (by simp [hsteps]) hnodir,
      Option.some_inj, eq_comm]
  · rw [World.at?_put_ne u (fun heq => hself (List.append_cancel_left heq)), holds_else hself]
    by_cases hpre : ns <+: ms
    · -- A directory on the way to the file: no earlier file stands there.
      have hold : Holds done ns n → n = .dir := fun hold => by
        have hat := hbuilds.keeps ((hwritten ns n).mpr hold)
        rw [hdir ns hpre] at hat
        exact (Option.some.inj hat).symm
      have hto : ns <+: Path.steps f.path := hsteps ▸ hpre.trans (List.prefix_append ms [m])
      rw [hdir ns hpre, Option.some_inj, eq_comm]
      exact ⟨fun hn => .inr ⟨hn, hto⟩, fun hn => hn.elim hold And.left⟩
    · have hsame : u.at? (r ++ ns) = v.at? (r ++ ns) := by
        rcases hbuilds.made (r ++ ns) with hsame | ⟨-, -, ns', hns', heq⟩
        · exact hsame
        · exact absurd (List.append_cancel_left heq ▸ hns') hpre
      have hnot : ¬ ns <+: Path.steps f.path := fun hto => by
        rw [hsteps, List.prefix_concat_iff, ← hsteps] at hto
        exact hto.elim hself hpre
      rw [hsame, hwritten ns n]
      simp [hnot]

end Written

theorem descends_directory (package : RemotePackage) (base : String) :
    Path.Descends base (Path.join base package.directory) [package.directory] :=
  ⟨(package.steps_directory base).1, (package.steps_directory base).2,
    by simpa using package.directory_step.1⟩

theorem descends_file (package : RemotePackage) (base : String) {f : RemoteFile}
    (hf : ¬ f.IsUnsafe) : Path.steps f.path ≠ [] ∧ Path.Descends base
      (Path.join (Path.join base package.directory) (String.intercalate "/" (Path.steps f.path)))
      (package.directory :: Path.steps f.path) := by
  have hnames : f.safeNames? = some (Path.steps f.path) := by rw [f.safeNames?_eq, if_neg hf]
  obtain ⟨hne, hsafe⟩ := RemoteFile.safeNames hnames
  obtain ⟨habs, hsteps⟩ := steps_intercalate hne hsafe
  exact ⟨hne, (package.descends_directory base).join habs hsteps fun n hn => (hsafe n hn).1⟩

section Package
variable {w v : World} {base : String} {p : Place} {package : RemotePackage}

/-- Whether or not all could be written, nothing has changed but below the package's directory. -/
theorem writeTo_confined (h : w.Shelter base p) :
    w.Confined base p package.directory (package.writeTo (Path.join base package.directory) w).2 := by
  have hdown : ∀ names f, RemoteFile.safeNames? f = some names → names ≠ [] ∧ Path.Descends base
      (Path.join (Path.join base package.directory) (String.intercalate "/" names))
      (package.directory :: names) := by
    intro names f hnames
    rw [f.safeNames?_eq] at hnames
    split at hnames
    next => cases hnames
    next hsafe =>
      obtain rfl := Option.some.inj hnames
      exact package.descends_file base hsafe
  refine writeTo_keeps package (fun h => ?_) (fun names f hnames u up hup h => ?_)
    (fun names f hnames u bytes u' hok h => ?_) ⟨h, .refl _ w⟩
  · exact h.makeDirs (package.descends_directory base)
  · obtain ⟨hne, hpath⟩ := hdown names f hnames
    obtain ⟨ms, m, rfl⟩ := (List.eq_nil_or_concat' names).resolve_left hne
    rw [← List.cons_append] at hpath
    obtain ⟨up', hup', hdescends⟩ := hpath.parent
    obtain rfl := Option.some.inj (hup.symm.trans hup')
    exact h.makeDirs hdescends
  · exact h.writeFile (hdown names f hnames).2 hok

theorem writeFiles_written {files done : List RemoteFile} (hsafe : ∀ f ∈ files, ¬ f.IsUnsafe)
    (h : w.Shelter base p) (hwritten : IsWritten w (p ++ [package.directory]) done)
    (hok : ((files.map fun f : RemoteFile => (Path.steps f.path, f)).forM fun (names, f) =>
      writeFile (Path.join base package.directory) names f) w = (.ok (), v)) :
    (∀ f ∈ files, f.bytes? ≠ none) ∧ IsWritten v (p ++ [package.directory]) (done ++ files) := by
  induction files generalizing w done with
  | nil =>
    obtain ⟨-, rfl⟩ := Act.pure_ok hok
    exact ⟨by simp, by rwa [List.append_nil]⟩
  | cons f files ih =>
    rw [List.forall_mem_cons] at hsafe
    rw [List.map_cons, writeFiles_cons] at hok
    obtain ⟨_, u, hfirst, hrest⟩ := Act.bind_ok hok
    obtain ⟨hne, hpath⟩ := package.descends_file base hsafe.1
    obtain ⟨ms, m, hsteps⟩ := (List.eq_nil_or_concat' (Path.steps f.path)).resolve_left hne
    obtain ⟨bytes, t, hbytes, hshelter, hbuilds, hdir, hfree, rfl⟩ :=
      writeFile_put h hsteps hpath hfirst
    have hmore := hwritten.put (by simp) hbytes hsteps hbuilds hdir hfree
    obtain ⟨hdecoded, hall⟩ := ih hsafe.2 hshelter hmore hrest
    rw [← List.append_cons] at hall
    exact ⟨List.forall_mem_cons.mpr ⟨by simp [hbytes], hdecoded⟩, hall⟩

/-- Where a package could be written, it is there as a whole, and nothing else. -/
theorem writeTo_written (h : w.Shelter base p)
    (hfree : ∀ ns, w.at? (p ++ [package.directory] ++ ns) = none)
    (hok : package.writeTo (Path.join base package.directory) w = (.ok (), v)) :
    (∀ f ∈ package.files, f.bytes? ≠ none) ∧
      IsWritten v (p ++ [package.directory]) package.files := by
  have hsafe : ∀ f ∈ package.files, ¬ f.IsUnsafe := by
    intro f hf hstrays
    obtain ⟨x, hx⟩ :=
      (unsafePath_iff package (Path.join base package.directory) w).mpr ⟨f, hf, hstrays⟩
    rw [hok] at hx
    cases hx
  rw [writeTo_safe hsafe] at hok
  obtain ⟨_, u, hdirs, hrest⟩ := Act.bind_ok hok
  have hdirs : w.makeDirs (Path.join base package.directory) = (.ok (), u) := by
    unfold Write.makeDirs at hdirs
    split at hdirs
    next u' heq =>
      obtain rfl := (Prod.mk.inj hdirs).2
      exact heq
    next => cases hdirs
  have hdescends := package.descends_directory base
  have hbuilds := h.makeDirs hdescends
  rw [hdirs] at hbuilds
  have hempty : IsWritten u (p ++ [package.directory]) [] := by
    intro ns n
    by_cases hns : ns = []
    · have hmade := h.made hdescends hdirs (List.cons_ne_nil _ _) List.prefix_rfl
      subst hns
      rw [List.append_nil, hmade]
      cases n <;> simp [Holds, lastAt?]
    · have hsame : u.at? (p ++ [package.directory] ++ ns) = none := by
        rcases hbuilds.made (p ++ [package.directory] ++ ns) with hsame | ⟨-, -, ms, -, hms, heq⟩
        · rw [hsame, hfree]
        · rw [List.append_assoc] at heq
          rw [← List.append_cancel_left heq] at hms
          exact absurd (List.cons_prefix_cons.mp hms).2 (by simpa using hns)
      rw [hsame]
      cases n <;> simp [Holds, lastAt?, hns]
  have hall := writeFiles_written hsafe (h.builds hbuilds) hempty hrest
  rwa [List.nil_append] at hall

end Package

theorem isPlainName_directory (package : RemotePackage) : isPlainName package.directory = true := by
  unfold directory
  cases hfind : [package.name, package.id].find? isPlainName with
  | some name => exact List.find?_some hfind
  | none => decide

theorem directory_plain (package : RemotePackage) : package.directory ∉ ["", ".", ".."] ∧
    ∀ c ∈ package.directory.toList, c ∉ ['/', '\\', '\x00'] := by
  have hplain := package.isPlainName_directory
  simp only [isPlainName, Bool.and_eq_true, bne_iff_ne, ne_eq, Bool.not_eq_true',
    List.any_eq_false] at hplain
  obtain ⟨⟨⟨hne, hhere⟩, hup⟩, hchars⟩ := hplain
  exact ⟨by simp [hne, hhere, hup], fun c hc => by simpa [and_assoc] using hchars c hc⟩

/-- A package is refused for the first of its paths that is not safe, and then nothing is written.
In an empty directory it changes nothing but what is below its own name there. Where all of it could
be written, every body was decoded, and the files below that name are those of the package, each
with the content that is given last for its steps. -/
theorem package_on_disk (package : RemotePackage) :
    (∀ root w,
      ((∃ x, (package.writeTo root w).1 = .error (.unsafePath x)) ↔
        ∃ f ∈ package.files, f.IsUnsafe) ∧
      ∀ before f after, package.files = before ++ f :: after → (∀ g ∈ before, ¬ g.IsUnsafe) →
        f.IsUnsafe → package.writeTo root w = (.error (.unsafePath f.path), w)) ∧
    (package.directory ∉ ["", ".", ".."] ∧
      ∀ c ∈ package.directory.toList, c ∉ ['/', '\\', '\x00']) ∧
    ∀ w base p, w.LeadsToEmpty base p →
      (∀ q, ¬ p ++ [package.directory] <+: q →
        (package.writeTo (Path.join base package.directory) w).2.at? q = w.at? q) ∧
      ∀ v, package.writeTo (Path.join base package.directory) w = (.ok (), v) →
        (∀ f ∈ package.files, f.bytes? ≠ none) ∧
        v.at? (p ++ [package.directory]) = some .dir ∧
        (∀ ns t, v.at? (p ++ [package.directory] ++ ns) ≠ some (.link t)) ∧
        ∀ ns bytes, v.at? (p ++ [package.directory] ++ ns) = some (.file bytes) ↔
          ∃ f, (package.files.filter fun f => Path.steps f.path = ns).getLast? = some f ∧
            f.bytes? = some bytes := by
  refine ⟨fun root w => ⟨unsafePath_iff package root w, fun before f after hfiles hbefore hf =>
    writeTo_refused hfiles hbefore hf root w⟩, package.directory_plain, fun w base p h => ?_⟩
  refine ⟨(writeTo_confined h.shelter).alters.same, fun v hok => ?_⟩
  have hfree : ∀ ns, w.at? (p ++ [package.directory] ++ ns) = none := fun ns => by
    rw [List.append_assoc]
    exact h.empty _ (by simp)
  obtain ⟨hdecoded, hwritten⟩ := writeTo_written h.shelter hfree hok
  refine ⟨hdecoded, ?_, fun ns t => (hwritten ns (.link t)).mp, fun ns bytes => ?_⟩
  · have hroot := (hwritten [] .dir).mpr (.inl rfl)
    rwa [List.append_nil] at hroot
  · rw [hwritten ns (.file bytes)]
    exact Option.bind_eq_some_iff

/-- One file in two spellings of its path, in a package that is named by its id. -/
def spelled : RemotePackage where
  id := "w"
  name := "../w"
  files := [⟨"./b", "x", .utf8⟩, ⟨"b//.", " eQ== ", .base64⟩]

/-- A directory with the package in it, and what the package has for the file. -/
def shelf (content : List Node) : World :=
  ⟨content.map ((["s", "w", "b"], ·)) ++ [(["s", "w"], .dir), (["s"], .dir)], []⟩

def bareShelf : World := ⟨[(["s"], .dir)], []⟩

theorem shelf_put {f : RemoteFile} {content : List Node} {bytes : ByteArray}
    (hbytes : f.bytes? = some bytes)
    (hdir : (shelf content).reaches true "s/w" = .ok (.taken ["s", "w"] .dir))
    (hput : (shelf content).writeFile "s/w/b" bytes = .ok (shelf [.file bytes])) :
    writeFile "s/w" ["b"] f (shelf content) = (.ok (), shelf [.file bytes]) := by
  have hisDir : (shelf content).isDir "s/w" = true := by
    simp only [World.isDir, World.find, World.resolve_eq_reaches, hdir]
  have hpath : Path.join "s/w" (String.intercalate "/" ["b"]) = "s/w/b" := by decide
  have hup : Path.parent "s/w/b" = some "s/w" := by decide
  have hmade : Write.makeDirs "s/w" (shelf content) = (.ok (), shelf content) := by
    simp only [Write.makeDirs, World.makeDirs_of_isDir (.inr hisDir)]
  simp only [writeFile, hbytes, hpath, hup]
  rw [Act.bind_of_ok hmade, Act.bind_of_ok (x := get) rfl]
  simp only [hput]
  rfl

theorem spelled_written : spelled.writeTo (Path.join "s" spelled.directory) bareShelf =
    (.ok (), shelf [.file ⟨#[121]⟩]) := by
  have hroot : Path.join "s" spelled.directory = "s/w" := by decide
  have hplan : spelled.plan =
      .ok [(["b"], ⟨"./b", "x", .utf8⟩), (["b"], ⟨"b//.", " eQ== ", .base64⟩)] := rfl
  have hdirs : Write.makeDirs "s/w" bareShelf = (.ok (), shelf []) := by cbv
  have hwrite : (shelf []).writeFile "s/w/b" ⟨#[120]⟩ = .ok (shelf [.file ⟨#[120]⟩]) := by
    have hreaches : (shelf []).reaches true "s/w/b" = .ok (.free ["s", "w", "b"]) := by decide
    simp only [World.writeFile, World.resolve_eq_reaches, hreaches]
    rfl
  have hoverwrite : (shelf [.file ⟨#[120]⟩]).writeFile "s/w/b" ⟨#[121]⟩ =
      .ok (shelf [.file ⟨#[121]⟩]) := by
    have hreaches : (shelf [.file ⟨#[120]⟩]).reaches true "s/w/b" =
        .ok (.taken ["s", "w", "b"] (.file ⟨#[120]⟩)) := by decide
    simp only [World.writeFile, World.resolve_eq_reaches, hreaches]
    rfl
  have hfirst := shelf_put (f := ⟨"./b", "x", .utf8⟩) (by decide +kernel) (by decide) hwrite
  have hsecond := shelf_put (f := ⟨"b//.", " eQ== ", .base64⟩) (by decide +kernel) (by decide) hoverwrite
  simp only [writeTo, hplan, hroot]
  rw [Act.bind_of_ok hdirs, writeFiles_cons, Act.bind_of_ok hfirst, writeFiles_cons,
    Act.bind_of_ok hsecond]
  rfl

theorem bareShelf_empty : bareShelf.LeadsToEmpty "s" ["s"] where
  dir := by
    have hreaches : bareShelf.reaches true "s" = .ok (.taken ["s"] .dir) := by decide
    have hfind : bareShelf.find "s" = .ok (["s"], .dir) := by
      simp only [World.find, World.resolve_eq_reaches, hreaches]
    exact (World.find_dir_iff.mp hfind).2
  stands := rfl
  empty rest hne := by
    have hother : rest.isEmpty = false := by simpa using hne
    simp [World.at?, bareShelf, List.lookup_cons, hother]

def straying : RemotePackage :=
  { spelled with files := [⟨"./b", "x", .utf8⟩, ⟨"b/../../c", "x", .utf8⟩, ⟨"/d", "x", .utf8⟩] }

/-- The second spelling gives the content, and of the two paths that are not safe the first is
named. -/
theorem package_on_disk_spelled :
    bareShelf.LeadsToEmpty "s" ["s"] ∧
    spelled.writeTo (Path.join "s" spelled.directory) bareShelf = (.ok (), shelf [.file ⟨#[121]⟩]) ∧
    (∃ f, (spelled.files.filter fun f => Path.steps f.path = ["b"]).getLast? = some f ∧
      f.bytes? = some ⟨#[121]⟩) ∧
    (∃ f ∈ straying.files, f.IsUnsafe) ∧
    straying.writeTo "s/w" bareShelf = (.error (.unsafePath "b/../../c"), bareShelf) := by
  obtain ⟨-, -, hwrite⟩ := package_on_disk spelled
  obtain ⟨hrefuse, -, -⟩ := package_on_disk straying
  obtain ⟨-, -, -, hfile⟩ := (hwrite bareShelf "s" ["s"] bareShelf_empty).2 _ spelled_written
  have hb : ¬ RemoteFile.IsUnsafe ⟨"./b", "x", .utf8⟩ := by decide
  have hc : RemoteFile.IsUnsafe ⟨"b/../../c", "x", .utf8⟩ := by decide
  exact ⟨bareShelf_empty, spelled_written, (hfile ["b"] ⟨#[121]⟩).mp rfl,
    ⟨_, by simp [straying], hc⟩,
    (hrefuse "s/w" bareShelf).2 [_] _ [⟨"/d", "x", .utf8⟩] rfl (by simpa using hb) hc⟩

end RemotePackage
end SkillAudit
