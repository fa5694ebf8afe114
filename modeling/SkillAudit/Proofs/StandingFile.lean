import Mathlib
import SkillAudit.Proofs.StatePlaces
import SkillAudit.Proofs.WayKept

/-!
State files that stand. A file that has been written, and whose lock has been taken, can be locked
and written again: no directory is missing, and nothing changes but what the file holds.
-/
namespace SkillAudit

namespace Path

theorem intercalate_prefix {sep : List Char} {xs : List (List Char)} (hne : xs ≠ [])
    (ys : List (List Char)) : sep.intercalate xs <+: sep.intercalate (xs ++ ys) := by
  induction xs with
  | nil => exact absurd rfl hne
  | cons x xs ih =>
    cases xs with
    | nil =>
      cases ys with
      | nil => simp
      | cons y ys => simp [List.intercalate_cons_cons]
    | cons x' xs =>
      rw [List.cons_append, List.cons_append, List.intercalate_cons_cons,
        List.intercalate_cons_cons]
      exact (List.prefix_append_right_inj _).mpr (ih (by simp))

theorem parent_prefix {path up : String} (h : parent path = some up) :
    up.toList <+: path.toList := by
  cases hpieces : pieces path with
  | nil => exact absurd hpieces (pieces_ne_nil path)
  | cons first rest =>
    rcases Text.exists_last_not isIdle rest with hidle | ⟨mid, last, idles, rfl, hlast, hidle⟩
    · rw [parent_of_idle hpieces hidle] at h
      split at h
      · cases h
      · obtain rfl := Option.some.inj h
        exact List.nil_prefix
    · rw [parent_of_busy hpieces hlast hidle] at h
      obtain rfl := Option.some.inj h
      have hpath : path.toList = "/".toList.intercalate ((pieces path).map String.toList) := by
        rw [← String.toList_intercalate, intercalate_pieces]
      rw [hpath, hpieces]
      split
      next hroot =>
        have hfirst : first = "" := by simpa using congrArg List.head? hroot
        cases hrest : mid ++ last :: idles with
        | nil => simp at hrest
        | cons next rest => simp [hfirst, List.intercalate_cons_cons]
      next =>
        obtain ⟨dropped, hkept⟩ := List.rdropWhile_prefix isIdle mid
        have hsplit : first :: (mid ++ last :: idles) =
            first :: Text.dropEndWhile isIdle mid ++ (dropped ++ last :: idles) := by
          rw [List.cons_append, ← List.append_assoc]
          exact congrArg (first :: · ++ last :: idles) hkept.symm
        rw [String.toList_intercalate, hsplit, List.map_append]
        exact intercalate_prefix (by simp) _

end Path

namespace World

theorem IsPath.shorten {path up : String} (h : IsPath path) (hne : up ≠ "")
    (hpre : up.toList <+: path.toList) : IsPath up := by
  obtain ⟨rest, hrest⟩ := hpre
  have hpath : path = up ++ String.ofList rest := by
    refine String.toList_injective ?_
    rw [String.toList_append, String.toList_ofList, hrest]
  have hzero := h.noZero
  have hshort := h.short
  rw [hpath] at hzero hshort
  simp only [String.toList_append, List.contains_append, Bool.or_eq_false_iff] at hzero
  rw [String.utf8ByteSize_append] at hshort
  exact ⟨by simpa using hne, hzero.1, by omega⟩

/-- What names lead to by following links, they lead to something without. -/
theorem leads_unfollowed {w : World} {slash : Bool} {links : Nat} {here : Place}
    {names : List String} {trail : List Place} {p : Place} {n : Node}
    (h : Leads w true slash links here names trail (.taken p n)) :
    ∃ trail' q m, Leads w false slash links here names trail' (.taken q m) := by
  generalize hs : Spot.taken p n = s at h
  induction h with
  | here => exact ⟨_, _, _, .here⟩
  | free => cases hs
  | link _ _ _ hfollow => cases hfollow
  | file hname hshort hat hslash => exact ⟨_, _, _, .file hname hshort hat hslash⟩
  | idle hname _ ih =>
    obtain ⟨_, _, _, h⟩ := ih hs
    exact ⟨_, _, _, .idle hname h⟩
  | up hidle hname _ ih =>
    obtain ⟨_, _, _, h⟩ := ih hs
    exact ⟨_, _, _, .up hidle hname h⟩
  | down hname hshort hat _ ih =>
    obtain ⟨_, _, _, h⟩ := ih hs
    exact ⟨_, _, _, .down hname hshort hat h⟩
  | @through _ _ _ _ rest _ _ hname hshort hat _ htarget _ ih =>
    by_cases hlast : (rest.isEmpty && !slash) = true
    · obtain ⟨hnil, hslash⟩ : rest = [] ∧ slash = false := by simpa using hlast
      subst hnil
      exact ⟨_, _, _, .link hname hshort hat rfl hslash⟩
    · obtain ⟨_, _, _, h⟩ := ih hs
      exact ⟨_, _, _, .through hname hshort hat (by simpa using hlast) htarget h⟩

section Directory
variable {w : World} {path up : String}

theorem isDir_parent {follow : Bool} {spot : Spot} (h : w.resolve follow path = .ok spot)
    (hparent : Path.parent path = some up) : up = "" ∨ w.isDir up = true := by
  by_cases hempty : up = ""
  · exact .inl hempty
  obtain ⟨hsteps, habs⟩ := Path.steps_parent hparent
  have hstart : w.start path = w.start up := by rw [start, start, habs]
  obtain ⟨trail, hleads⟩ := leads_of_resolve h
  rw [hstart] at hleads
  have hdir : ∃ p, w.LeadsToDir up p := by
    rcases Text.exists_last_not Path.isIdle (namesOf path) with
      hidle | ⟨front, last, idles, hnames, hlast, hidles⟩
    · have hnone : Path.steps up = [] := by
        rw [hsteps, ← Path.filter_namesOf, List.filter_eq_nil_iff.mpr fun p hp => by simp [hidle p hp]]
        rfl
      exact ⟨w.start up, ⟨⟨[], w.start up⟩, by rw [goal?_eq, hnone, course], rfl⟩,
        by simp [onWay, hnone, passes]⟩
    · rw [hnames] at hleads
      obtain ⟨⟨r, hcourse⟩, hclear⟩ := clear_of_leads hleads (by simp)
      have hfront : front.filter (fun n => !Path.isIdle n) = Path.steps up := by
        have htail : (last :: idles).filter (fun n => !Path.isIdle n) = [last] := by
          rw [List.filter_cons, if_pos (by simp [hlast]),
            List.filter_eq_nil_iff.mpr fun p hp => by simp [hidles p hp]]
        rw [hsteps, ← Path.filter_namesOf, hnames, List.filter_append, htail, List.dropLast_concat]
      exact ⟨r.place, (leadsToDir_iff false hfront).mpr
        (walk_dir_iff.mpr ⟨⟨r, hcourse, rfl⟩, hclear⟩)⟩
  obtain ⟨p, hdir⟩ := hdir
  have hpath := (isPath_of_resolve h).shorten hempty (Path.parent_prefix hparent)
  exact .inr (by simp only [isDir, find_dir_iff.mpr ⟨hpath, hdir⟩])

/-- A directory that stands is not made again. -/
theorem makeDirs_of_isDir (h : path = "" ∨ w.isDir path = true) :
    w.makeDirs path = (.ok (), w) := by
  rw [makeDirs, makeDirsWithin]
  by_cases hempty : path = ""
  · rw [if_pos (by simpa using hempty)]
  rw [if_neg (by simpa using hempty)]
  have hisDir := h.resolve_left hempty
  obtain ⟨p, hfind⟩ := find_of_isDir hisDir
  obtain ⟨hpath, hdir⟩ := find_dir_iff.mp hfind
  obtain ⟨habs, hsteps⟩ := trimSlashes_same path
  have htrimmed := hdir.congr habs hsteps
  have hisPath : IsPath (makeDir.trimSlashes path) := by
    refine hpath.shorten ?_ ?_
    · unfold makeDir.trimSlashes
      split
      next => exact hempty
      next hne => exact fun heq => hne (by simpa using congrArg String.toList heq)
    · unfold makeDir.trimSlashes
      split
      next => exact List.prefix_rfl
      next =>
        rw [String.toList_ofList]
        exact List.rdropWhile_prefix _ _
  obtain ⟨trail, hleads⟩ := leads_of_walk ((leadsToDir_iff
    (endsInSlash (makeDir.trimSlashes path)) (Path.filter_namesOf _)).mp htrimmed)
  obtain ⟨_, q, m, hleads'⟩ := leads_unfollowed hleads
  have hmade : w.makeDir path = .error .exists := by
    rw [makeDir, hisPath.resolve_eq, walk_of_leads hleads']
  simp only [hmade, hisDir, if_true]

end Directory

section Holds
variable {w : World} {path : String} {r : Route} {bytes : ByteArray}

theorem Holds.place_ne (h : w.Holds path r bytes) : r.place ≠ [] := by
  intro hnil
  have hat := h.at?
  rw [hnil] at hat
  cases hat

/-- A file that is replaced stands where it stood. -/
theorem Holds.put (h : w.Holds path r bytes) (new : ByteArray) :
    (w.put r.place (.file new)).Holds path r new := by
  have hput : w.Evolves [r.place] (w.put r.place (.file new)) :=
    .put h.place_ne (by simp [h.at?]) new
  have hlinks : ∀ q ∈ r.links, q ∉ [r.place] := by
    intro q hq heq
    rw [List.mem_singleton.mp heq] at hq
    exact h.own hq
  have hleads := leads_file h.leads (by simp) (fun q => hput.keeps q _ (.inr rfl))
    (fun q hq t => hput.keeps q _ (.inl (hlinks q hq))) (at?_put_self w h.place_ne (.file new)) false
  rw [← hput.start path] at hleads
  exact ⟨hput.route h.route hlinks, resolve_of_leads h.found (by rw [h.slash]; exact hleads)⟩

end Holds

/-- Names that do not end in a step down lead to a directory. -/
theorem dir_of_leads_last {w : World} {follow slash : Bool} {links : Nat} {here : Place}
    {front : List String} {last : String} {trail : List Place} {spot : Spot}
    (hlast : ¬ IsStep last) (h : Leads w follow slash links here (front ++ [last]) trail spot) :
    ∃ q, spot = .taken q .dir := by
  generalize hall : front ++ [last] = all at h
  induction h generalizing front with
  | here => exact ⟨_, rfl⟩
  | idle _ h ih | up _ _ h ih =>
    rcases List.append_eq_cons_iff.mp hall with ⟨rfl, heq⟩ | ⟨rest, rfl, hrest⟩
    · obtain ⟨rfl, rfl⟩ := List.cons.inj heq
      cases h
      exact ⟨_, rfl⟩
    · exact ih hrest.symm
  | free hname | file hname | link hname =>
    rcases List.append_eq_cons_iff.mp hall with ⟨rfl, heq⟩ | ⟨rest, rfl, hrest⟩
    · obtain ⟨rfl, -⟩ := List.cons.inj heq
      exact absurd hname hlast
    · simp at hrest
  | down hname _ _ _ ih =>
    rcases List.append_eq_cons_iff.mp hall with ⟨rfl, heq⟩ | ⟨rest, rfl, hrest⟩
    · obtain ⟨rfl, -⟩ := List.cons.inj heq
      exact absurd hname hlast
    · exact ih hrest.symm
  | @through _ _ _ target later _ _ hname _ _ _ _ _ ih =>
    rcases List.append_eq_cons_iff.mp hall with ⟨rfl, heq⟩ | ⟨rest, rfl, hrest⟩
    · obtain ⟨rfl, -⟩ := List.cons.inj heq
      exact absurd hname hlast
    · have hsplit : Path.pieces target ++ rest ++ [last] = Path.pieces target ++ later := by
        rw [hrest, List.append_assoc]
      exact ih hsplit

/-- Once a file stands where a free place was, the names lead to it. -/
theorem leads_put_file {w : World} {follow : Bool} {links : Nat} {here q : Place}
    {names : List String} {trail : List Place} (bytes : ByteArray)
    (h : Leads w follow false links here names trail (.free q)) :
    Leads (w.put q (.file bytes)) follow false links here names trail (.taken q (.file bytes)) := by
  obtain ⟨hfree, hne⟩ := leads_free h
  have hkeeps : ∀ p n, w.at? p = some n → (w.put q (.file bytes)).at? p = some n := by
    intro p n hp
    rwa [at?_put_ne w]
    rintro rfl
    simp [hfree] at hp
  generalize hs : Spot.free q = s at h
  induction h with
  | here | file | link => cases hs
  | free hname hshort =>
    cases hs
    exact .file hname hshort (at?_put_self w hne _) rfl
  | idle hname _ ih => exact .idle hname (ih hs)
  | up hidle hname _ ih => exact .up hidle hname (ih hs)
  | down hname hshort hat _ ih => exact .down hname hshort (hkeeps _ _ hat) (ih hs)
  | through hname hshort hat hgo htarget _ ih =>
    exact .through hname hshort (hkeeps _ _ hat) hgo htarget (ih hs)

theorem find_of_touch {w v : World} {path : String} (h : w.touch path = .ok v) :
    ∃ p bytes, v.find path = .ok (p, .file bytes) := by
  unfold touch at h
  split at h
  next => cases h
  next p bytes hp =>
    obtain rfl := Except.ok.inj h
    exact ⟨p, bytes, by simp only [find, hp]⟩
  next => cases h
  next p hp =>
    split at h
    next => cases h
    next hslash =>
      obtain rfl := Except.ok.inj h
      have hslash : endsInSlash path = false := by simpa [endsInSlash] using hslash
      obtain ⟨trail, hleads⟩ := leads_of_resolve hp
      rw [hslash] at hleads
      have hfound : (w.put p (.file .empty)).resolve true path = .ok (.taken p (.file .empty)) :=
        resolve_of_leads hp (by rw [hslash]; exact leads_put_file .empty hleads)
      exact ⟨p, .empty, by simp only [find, hfound]⟩

/-- What is no directory can be replaced, whether a file stands there or nothing. -/
theorem replaceFile_of_resolve {w : World} {path : String} {spot : Spot}
    (hslash : endsInSlash path = false) (h : w.resolve false path = .ok spot)
    (hdir : ∀ q, spot ≠ .taken q .dir) (new : ByteArray) :
    w.replaceFile path new = .ok (w.put spot.place (.file new)) := by
  have hempty := (isPath_of_resolve h).nonempty
  have hend : (path.toList.getLast? == some '/') = false := hslash
  have hdots : (Path.pieces path).getLast?.any (fun p => p == "." || p == "..") = false := by
    by_contra hdots
    obtain ⟨last, hmem, hlast⟩ : ∃ last, (Path.pieces path).getLast? = some last ∧
        (last = "." ∨ last = "..") := by simpa [Option.any_eq_true] using hdots
    obtain ⟨front, hpieces⟩ := List.getLast?_eq_some_iff.mp hmem
    have hstep : ¬ IsStep last := by
      rintro ⟨hbusy, hdown⟩
      rcases hlast with rfl | rfl
      · simp [walk.isIdle] at hbusy
      · simp at hdown
    have hne : last ≠ "" := by
      rcases hlast with rfl | rfl <;> decide
    obtain ⟨trail, hleads⟩ := leads_of_resolve h
    rw [Path.namesOf_eq hpieces hne] at hleads
    obtain ⟨q, hq⟩ := dir_of_leads_last hstep hleads
    exact hdir q hq
  have hroot : path.toList.all (· == '/') = false := by
    refine Bool.eq_false_iff.mpr fun hall => ?_
    cases hlast : path.toList.getLast? with
    | none =>
      obtain rfl : path = "" := by simpa using hlast
      simp at hempty
    | some c =>
      have hc := List.all_eq_true.mp hall c (List.mem_of_getLast? hlast)
      simp [hlast, beq_iff_eq.mp hc] at hend
  simp only [World.replaceFile, hempty, hdots, hroot, hend, h, Bool.false_eq_true, if_false]
  cases spot with
  | free q => rfl
  | taken q n =>
    cases n with
    | dir => exact absurd rfl (hdir q)
    | file _ => rfl
    | link _ => rfl

theorem Holds.replaceFile {w : World} {path : String} {r : Route} {bytes : ByteArray}
    (h : w.Holds path r bytes) (new : ByteArray) :
    w.replaceFile path new = .ok (w.put r.place (.file new)) :=
  replaceFile_of_resolve h.slash h.found (by simp) new

theorem link_of_course {w : World} {follow : Bool} {links : Nat} {here : Place}
    {names : List String} {r : Route} (h : w.course follow links here names = some r) :
    ∀ q ∈ r.links, ∃ t, w.at? q = some (.link t) := by
  fun_induction course w follow links here names generalizing r with
  | case1 links here =>
    obtain rfl := Option.some.inj h
    simp
  | case2 links here name rest hidle ih => exact ih h
  | case3 links here name rest hidle hup ih => exact ih h
  | case4 links here name rest hidle hup target hat hlast =>
    obtain rfl := Option.some.inj h
    simp
  | case5 => cases h
  | case6 here name rest hidle hup target hat hlast links ih =>
    obtain ⟨r', hr', rfl⟩ := Option.map_eq_some_iff.mp h
    exact List.forall_mem_cons.mpr ⟨⟨target, hat⟩, ih hr'⟩
  | case7 links here name rest hidle hup hat ih => exact ih h

/-! Paths at which a file can be written. -/

/-- A walk that ends where a file can be put: one stands there, or nothing does. -/
def Spot.Admits (spot : Spot) (q : Place) : Prop :=
  spot = .free q ∨ ∃ bytes, spot = .taken q (.file bytes)

/-- A path that leads through directories that stand to a place for a file. -/
structure Usable (w : World) (follow : Bool) (path : String) (q : Place) : Prop where
  slash : endsInSlash path = false
  found : ∃ spot, w.resolve follow path = .ok spot ∧ spot.Admits q

/-- Nothing has gone from a place: what stood there stands there, but that a file may hold something
else. -/
def Stays (w v : World) (q : Place) : Prop :=
  ∀ n, w.at? q = some n →
    v.at? q = some n ∨ ∃ old new, n = .file old ∧ v.at? q = some (.file new)

/-- A place that is free, or has become that of a file. -/
def Admits (w : World) (q : Place) : Prop := w.at? q = none ∨ ∃ bytes, w.at? q = some (.file bytes)

theorem Stays.dir {w v : World} {q : Place} (h : Stays w v q) (hat : w.at? q = some .dir) :
    v.at? q = some .dir := by
  rcases h _ hat with hsame | ⟨_, _, hfile, -⟩
  · exact hsame
  · cases hfile

theorem Stays.link {w v : World} {q : Place} {t : String} (h : Stays w v q)
    (hat : w.at? q = some (.link t)) : v.at? q = some (.link t) := by
  rcases h _ hat with hsame | ⟨_, _, hfile, -⟩
  · exact hsame
  · cases hfile

theorem Stays.file {w v : World} {q : Place} {bytes : ByteArray} (h : Stays w v q)
    (hat : w.at? q = some (.file bytes)) : ∃ new, v.at? q = some (.file new) := by
  rcases h _ hat with hsame | ⟨_, new, -, hnew⟩
  · exact ⟨_, hsame⟩
  · exact ⟨new, hnew⟩

/-- Names lead to the place for a file while nothing goes from the places they pass and no directory
comes where the file may be put. -/
theorem leads_admits {w v : World} {follow : Bool} {links : Nat} {here q : Place}
    {names : List String} {trail : List Place} {spot : Spot}
    (h : Leads w follow false links here names trail spot) (hspot : spot.Admits q)
    (hstays : ∀ p ∈ w.passes links here names, Stays w v p) (hend : w.at? q = none → v.Admits q) :
    ∃ spot', Leads v follow false links here names trail spot' ∧ spot'.Admits q := by
  induction h with
  | here =>
    rcases hspot with hspot | ⟨_, hspot⟩ <;> cases hspot
  | link =>
    rcases hspot with hspot | ⟨_, hspot⟩ <;> cases hspot
  | free hname hshort hat =>
    rcases hspot with hspot | ⟨_, hspot⟩
    · cases hspot
      rcases hend hat with hfree | ⟨bytes, hfile⟩
      · exact ⟨_, .free hname hshort hfree, .inl rfl⟩
      · exact ⟨_, .file hname hshort hfile rfl, .inr ⟨bytes, rfl⟩⟩
    · cases hspot
  | file hname hshort hat =>
    rcases hspot with hspot | ⟨_, hspot⟩
    · cases hspot
    · cases hspot
      obtain ⟨new, hnew⟩ := (hstays _ (mem_passes_head hname)).file hat
      exact ⟨_, .file hname hshort hnew rfl, .inr ⟨new, rfl⟩⟩
  | idle hname _ ih =>
    rw [passes_idle hname] at hstays
    obtain ⟨spot', h, hspot'⟩ := ih hspot hstays
    exact ⟨spot', .idle hname h, hspot'⟩
  | up hidle hname _ ih =>
    rw [passes_up hname] at hstays
    obtain ⟨spot', h, hspot'⟩ := ih hspot hstays
    exact ⟨spot', .up hidle hname h, hspot'⟩
  | down hname hshort hat _ ih =>
    rw [passes_step hname (by simp [hat])] at hstays
    obtain ⟨spot', h, hspot'⟩ := ih hspot fun p hp => hstays p (by simp [hp])
    exact ⟨spot', .down hname hshort ((hstays _ (by simp)).dir hat) h, hspot'⟩
  | through hname hshort hat hgo htarget _ ih =>
    rw [passes_over hname hat] at hstays
    obtain ⟨spot', h, hspot'⟩ := ih hspot fun p hp => hstays p (by simp [hp])
    exact ⟨spot', .through hname hshort ((hstays _ (by simp)).link hat) hgo htarget h, hspot'⟩

/-- Names that lead to a free place lead there whether links are followed at the end or not. -/
theorem leads_free_followed {w : World} {slash : Bool} {links : Nat} {here q : Place}
    {names : List String} {trail : List Place}
    (h : Leads w false slash links here names trail (.free q)) :
    Leads w true slash links here names trail (.free q) := by
  generalize hs : Spot.free q = s at h
  induction h with
  | here | file | link => cases hs
  | free hname hshort hat => exact .free hname hshort hat
  | idle hname _ ih => exact .idle hname (ih hs)
  | up hidle hname _ ih => exact .up hidle hname (ih hs)
  | down hname hshort hat _ ih => exact .down hname hshort hat (ih hs)
  | through hname hshort hat _ htarget _ ih =>
    exact .through hname hshort hat (by simp) htarget (ih hs)

section Usable
variable {w v : World} {follow : Bool} {path : String} {q : Place}

theorem Usable.leads (h : w.Usable follow path q) : ∃ trail spot,
    Leads w follow false linkLimit (w.start path) (namesOf path) trail spot ∧ spot.Admits q := by
  obtain ⟨spot, hspot, hadmits⟩ := h.found
  obtain ⟨trail, hleads⟩ := leads_of_resolve hspot
  rw [h.slash] at hleads
  exact ⟨trail, spot, hleads, hadmits⟩

theorem Usable.admits (h : w.Usable follow path q) : w.Admits q ∧ q ≠ [] := by
  obtain ⟨trail, spot, hleads, rfl | ⟨bytes, rfl⟩⟩ := h.leads
  · obtain ⟨hfree, hne⟩ := leads_free hleads
    exact ⟨.inl hfree, hne⟩
  · rcases leads_taken hleads with hdir | ⟨hat, hne⟩
    · cases hdir
    · exact ⟨.inr ⟨bytes, hat⟩, hne⟩

theorem Usable.course (h : w.Usable follow path q) : ∃ links,
    w.course follow linkLimit (w.start path) (namesOf path) = some ⟨links, q⟩ := by
  obtain ⟨trail, spot, hleads, hspot⟩ := h.leads
  have hplace : spot.place = q := by
    rcases hspot with rfl | ⟨_, rfl⟩ <;> rfl
  exact ⟨trail, hplace ▸ course_of_leads hleads⟩

theorem Usable.keeps (h : w.Usable follow path q) (hcwd : v.cwd = w.cwd)
    (hstays : ∀ p ∈ w.onWay path, Stays w v p) (hend : w.at? q = none → v.Admits q) :
    v.Usable follow path q := by
  obtain ⟨spot, hspot, -⟩ := h.found
  obtain ⟨trail, spot₁, hleads, hadmits⟩ := h.leads
  rw [onWay_eq] at hstays
  obtain ⟨spot', hleads', hadmits'⟩ := leads_admits hleads hadmits hstays hend
  rw [← start_of_cwd hcwd] at hleads'
  exact ⟨h.slash, spot', resolve_of_leads hspot (by rwa [h.slash]), hadmits'⟩

theorem Usable.touch (h : w.Usable true path q) : ∃ v, w.touch path = .ok v := by
  obtain ⟨spot, hspot, rfl | ⟨bytes, rfl⟩⟩ := h.found
  · have hslash : (path.toList.getLast? == some '/') = false := h.slash
    simp only [World.touch, hspot, hslash, Bool.false_eq_true, if_false]
    exact ⟨_, rfl⟩
  · simp only [World.touch, hspot]
    exact ⟨_, rfl⟩

theorem Usable.replaceFile (h : w.Usable false path q) (new : ByteArray) :
    w.replaceFile path new = .ok (w.put q (.file new)) := by
  obtain ⟨spot, hspot, rfl | ⟨bytes, rfl⟩⟩ := h.found
  · exact replaceFile_of_resolve h.slash hspot (by simp) new
  · exact replaceFile_of_resolve h.slash hspot (by simp) new

end Usable

end World

namespace Store
variable {w v : World} {path : String} {r : Route} {bytes : ByteArray}

/-- A state file that stands, and its lock. -/
structure Standing (w : World) (path : String) (r : Route) (bytes : ByteArray) : Prop where
  holds : w.Holds path r bytes
  lock : ∃ p old, w.find (lockPath path) = .ok (p, .file old)

theorem makeDirs_standing (h : path = "" ∨ w.isDir path = true) :
    Act.makeDirs path w = (.ok (), w) := by
  rw [Act.makeDirs, World.makeDirs_of_isDir h]

/-- A lock whose file stands is taken without a trace. -/
theorem lock_of_find {p : Place} {old : ByteArray}
    (hfind : w.find (lockPath path) = .ok (p, .file old)) : Store.lock path w = (.ok (), w) := by
  have hfound := World.resolve_of_find hfind
  have htouch : Act.change (lockPath path) (·.touch (lockPath path)) w = (.ok (), w) := by
    simp only [Act.change, World.touch, hfound]
  unfold Store.lock
  cases hparent : Path.parent (lockPath path) with
  | none => exact htouch
  | some dir =>
    exact (Act.bind_of_ok (makeDirs_standing (World.isDir_parent hfound hparent))).trans htouch

theorem Standing.lock_eq (h : Standing w path r bytes) : Store.lock path w = (.ok (), w) := by
  obtain ⟨p, old, hfind⟩ := h.lock
  exact lock_of_find hfind

/-- The directory of a state file is not made where its path leads somewhere. -/
theorem makeDirs_directoryOf {follow : Bool} {spot : World.Spot}
    (h : w.resolve follow path = .ok spot) : Act.makeDirs (directoryOf path) w = (.ok (), w) := by
  have hdot : w.isDir "." = true := by simp only [World.isDir, World.find_dot]
  apply makeDirs_standing
  unfold directoryOf
  cases hparent : Path.parent path with
  | none => exact .inr hdot
  | some dir =>
    by_cases hempty : dir = ""
    · simp [hempty, hdot]
    · simpa [hempty] using World.isDir_parent h hparent

/-- A file can be written where its path leads to a place without a directory. -/
theorem write_of_resolve {spot : World.Spot} (hslash : World.endsInSlash path = false)
    (h : w.resolve false path = .ok spot) (hdir : ∀ q, spot ≠ .taken q .dir) (new : ByteArray) :
    write path new w = (.ok (), w.put spot.place (.file new)) := by
  rw [write, Act.bind_of_ok (makeDirs_directoryOf h)]
  simp only [Act.change, World.replaceFile_of_resolve hslash h hdir new]

theorem Standing.write_eq (h : Standing w path r bytes) (new : ByteArray) :
    write path new w = (.ok (), w.put r.place (.file new)) := by
  rw [write, Act.bind_of_ok (makeDirs_directoryOf h.holds.found)]
  simp only [Act.change, h.holds.replaceFile new]

/-- A state file stands while nothing on the way to it and to its lock goes. -/
theorem Standing.keeps (h : Standing w path r bytes) (hcwd : v.cwd = w.cwd)
    (hfile : ∀ q ∈ w.onWay path, ∀ n, w.at? q = some n → v.at? q = some n)
    (hlock : ∀ q ∈ w.onWay (lockPath path), ∀ n, w.at? q = some n → v.at? q = some n) :
    Standing v path r bytes := by
  obtain ⟨p, old, hfind⟩ := h.lock
  exact ⟨h.holds.keeps_passed hcwd hfile, p, old, World.find_keeps_passed hcwd hlock hfind⟩

/-- Once it is replaced it stands again, unless it is on the way to its lock. -/
theorem Standing.put (h : Standing w path r bytes) (hlock : r.place ∉ w.onWay (lockPath path))
    (new : ByteArray) : Standing (w.put r.place (.file new)) path r new := by
  obtain ⟨p, old, hfind⟩ := h.lock
  have hcwd : (w.put r.place (.file new)).cwd = w.cwd := rfl
  refine ⟨h.holds.put new, p, old, World.find_keeps_passed hcwd (fun q hq n hat => ?_) hfind⟩
  rwa [World.at?_put_ne w (by rintro rfl; exact hlock hq)]

theorem find_of_lock (h : Store.lock path w = (.ok (), v)) :
    ∃ p old, v.find (lockPath path) = .ok (p, .file old) := by
  have hchange : ∃ u : World, u.touch (lockPath path) = .ok v := by
    unfold Store.lock at h
    cases hparent : Path.parent (lockPath path) with
    | none =>
      simp only [hparent] at h
      exact ⟨w, Act.change_ok h⟩
    | some dir =>
      simp only [hparent] at h
      obtain ⟨_, u, -, hchange⟩ := Act.bind_ok h
      exact ⟨u, Act.change_ok hchange⟩
  obtain ⟨u, htouch⟩ := hchange
  exact World.find_of_touch htouch

theorem lock_again (h : Store.lock path w = (.ok (), v)) : Store.lock path v = (.ok (), v) := by
  obtain ⟨p, old, hfind⟩ := find_of_lock h
  exact lock_of_find hfind

theorem standing_of_write (hlock : Store.lock path w = (.ok (), v)) {v' : World}
    (hwrite : write path bytes v = (.ok (), v')) (hr : w.route? path = some r)
    (hown : r.place ∉ r.links) (hbeside : r.place ∉ w.onWay (lockPath path)) :
    Standing v' path r bytes := by
  have hgrows := lock_grows hlock
  obtain ⟨p, old, hfind⟩ := find_of_lock hlock
  obtain ⟨hevolves, hholds⟩ := write_ok hwrite ((route?_of_grows hgrows path).trans hr) hown
  refine ⟨hholds, p, old, World.find_keeps_passed hevolves.cwd (fun q hq n hat => ?_) hfind⟩
  have hway : v.onWay (lockPath path) = w.onWay (lockPath path) :=
    (World.way_of_links hgrows.cwd fun q _ t => ⟨hgrows.link, hgrows.keeps q _⟩).2.1
  rw [hway] at hq
  refine hevolves.keeps q n (.inl ?_) hat
  rintro hmem
  rw [List.mem_singleton.mp hmem] at hq
  exact hbeside hq

/-! State files that can be kept. -/

/-- A state file that can be written, and whose lock can be taken, without a directory being made. -/
structure Ready (w : World) (path : String) : Prop where
  file : ∃ q, w.Usable false path q
  lock : ∃ q, w.Usable true (lockPath path) q

theorem Ready.directory (h : Ready w path) {up : String}
    (hup : up = directoryOf path ∨ Path.parent (lockPath path) = some up) :
    w.makeDirs up = (.ok (), w) := by
  obtain ⟨_, -, spot, hspot, -⟩ := h.file
  obtain ⟨_, -, lockSpot, hlock, -⟩ := h.lock
  rcases hup with rfl | hparent
  · have hmade := makeDirs_directoryOf hspot
    unfold Act.makeDirs at hmade
    split at hmade
    next heq =>
      cases hmade
      exact heq
    next => cases hmade
  · exact World.makeDirs_of_isDir (World.isDir_parent hlock hparent)

theorem Ready.lock_eq (h : Ready w path) :
    ∃ v, Store.lock path w = (.ok (), v) ∧ w.touch (lockPath path) = .ok v := by
  obtain ⟨q, husable⟩ := h.lock
  obtain ⟨v, hv⟩ := husable.touch
  have htouch : Act.change (lockPath path) (·.touch (lockPath path)) w = (.ok (), v) := by
    simp only [Act.change, hv]
  refine ⟨v, ?_, hv⟩
  unfold Store.lock
  cases hparent : Path.parent (lockPath path) with
  | none => exact htouch
  | some dir =>
    have hdirs : Act.makeDirs dir w = (.ok (), w) := by
      rw [Act.makeDirs, h.directory (.inr hparent)]
    exact (Act.bind_of_ok hdirs).trans htouch

theorem Ready.write_eq (h : Ready w path) (new : ByteArray) :
    ∃ v, write path new w = (.ok (), v) ∧ w.replaceFile path new = .ok v := by
  obtain ⟨q, husable⟩ := h.file
  obtain ⟨spot, hspot, -⟩ := husable.found
  refine ⟨_, ?_, husable.replaceFile new⟩
  rw [write, Act.bind_of_ok (makeDirs_directoryOf hspot)]
  simp only [Act.change, husable.replaceFile new]

theorem Ready.not_link (h : Ready w path) {r : Route} (hr : w.route? path = some r) {t : String} :
    w.at? r.place ≠ some (.link t) := by
  obtain ⟨q, husable⟩ := h.file
  obtain ⟨links, hcourse⟩ := husable.course
  obtain rfl := Option.some.inj (hcourse.symm.trans hr)
  rcases husable.admits.1 with hfree | ⟨bytes, hfile⟩
  · simp [hfree]
  · simp [hfile]

/-- A state file that can be written is there, or nothing is where its path leads. -/
theorem Ready.steady (h : Ready w path) : Steady w path := by
  obtain ⟨q, husable⟩ := h.file
  obtain ⟨trail, spot, hleads, rfl | ⟨bytes, rfl⟩⟩ := husable.leads
  · refine .inr fun g hg => .inl ?_
    have hgoal : w.goal? path = some ⟨trail, q⟩ :=
      World.course_of_leads (World.leads_free_followed hleads)
    obtain rfl := Option.some.inj (hgoal.symm.trans hg)
    exact (World.leads_free hleads).1
  · obtain ⟨spot, hspot, -⟩ := husable.found
    have hholds : w.Holds path ⟨trail, q⟩ bytes :=
      ⟨World.course_of_leads hleads, World.resolve_of_leads hspot (by rwa [husable.slash])⟩
    exact .inl ⟨_, hholds.find⟩

theorem Ready.keeps (h : Ready w path) (hcwd : v.cwd = w.cwd)
    (hstays : ∀ p, p ∈ w.onWay path ∨ p ∈ w.onWay (lockPath path) → w.Stays v p)
    (hend : ∀ q, w.Usable false path q ∨ w.Usable true (lockPath path) q → w.at? q = none →
      v.Admits q) : Ready v path := by
  obtain ⟨q, hfile⟩ := h.file
  obtain ⟨q', hlock⟩ := h.lock
  exact ⟨⟨q, hfile.keeps hcwd (fun p hp => hstays p (.inl hp)) (hend q (.inl hfile))⟩,
    q', hlock.keeps hcwd (fun p hp => hstays p (.inr hp)) (hend q' (.inr hlock))⟩

end Store

/-! State files in the current directory. -/

namespace LocalPath
variable {path name lockName : String} {names : List String} {w : World} (h : LocalPath path name)
  (hlock : LocalPath (Store.lockPath path) lockName) (hopen : Open w name)
  (hopenLock : Open w lockName)
include h

theorem usable (hopen : Open w name) (follow : Bool) : w.Usable follow path (w.cwd ++ [name]) := by
  refine ⟨h.slash, ?_⟩
  rcases hopen with hfree | ⟨bytes, hfile⟩
  · exact ⟨_, h.resolve_free w follow hfree, .inl rfl⟩
  · exact ⟨_, h.resolve_file w follow hfile, .inr ⟨bytes, rfl⟩⟩

include hlock hopen hopenLock

theorem ready : Store.Ready w path :=
  ⟨⟨_, h.usable hopen false⟩, _, hlock.usable hopenLock true⟩

theorem keeps (hname : name ∈ names) (hlockName : lockName ∈ names) :
    Store.Keeps (w.KeepsTo names) path where
  directory v up hup hv := by
    have hready : Store.Ready v path := h.ready hlock (hv.free _ hopen) (hv.free _ hopenLock)
    rwa [hready.directory hup]
  lock v v' hok hv := by
    rcases World.touch_ok hok with rfl | ⟨p, hp, rfl⟩
    · exact hv
    rcases hv.free _ hopenLock with hfree | ⟨bytes, hfile⟩
    · rw [hlock.resolve_free v true hfree] at hp
      cases hp
      exact hv.trans (.put hlockName v .empty)
    · rw [hlock.resolve_file v true hfile] at hp
      cases hp
  file v v' bytes hok hv := by
    rw [(h.usable (hv.free _ hopen) false).replaceFile bytes] at hok
    cases hok
    exact hv.trans (.put hname v bytes)

end LocalPath
end SkillAudit
