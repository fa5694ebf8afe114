import Mathlib
import SkillAudit.Proofs.Passage

/-!
Paths that differ in their last names. With another extension a path leads through the same
directories, and through the same links, to a name beside the one it had. And a file that one path
finds is not a directory on the way of another.
-/
namespace SkillAudit

theorem World.IsStep.nonempty {name : String} (h : World.IsStep name) : name ≠ "" := by
  rintro rfl
  exact absurd h.busy (by decide)

namespace Path

/-! Extensions. -/

/-- A name is its stem, or its stem and its extension with a dot between them. -/
theorem splitExtension_cases (name : String) :
    splitExtension name = (name, none) ∨
      ∃ stem extension, splitExtension name = (stem, some extension) ∧ stem ≠ "" ∧
        name = stem ++ "." ++ extension := by
  have hsplit : name.toList.reverse.takeWhile (· != '.') ++
      name.toList.reverse.dropWhile (· != '.') = name.toList.reverse :=
    List.takeWhile_append_dropWhile
  simp only [splitExtension]
  cases hdrop : name.toList.reverse.dropWhile (· != '.') with
  | nil => simp
  | cons dot before =>
    obtain rfl : dot = '.' := by
      have hhead := List.head?_dropWhile_not (· != '.') name.toList.reverse
      simpa [hdrop] using hhead
    cases before with
    | nil => simp
    | cons c cs =>
      rw [hdrop] at hsplit
      refine .inr ⟨_, _, rfl, fun hempty => ?_, String.toList_injective ?_⟩
      · simpa using congrArg String.toList hempty
      · have hname := congrArg List.reverse hsplit.symm
        rw [List.reverse_reverse] at hname
        exact hname.trans (by simp)

/-- With an extension the stem of a name is the name again, if the extension was that one. -/
theorem stem_append_eq_iff (name extension : String) :
    (splitExtension name).1 ++ "." ++ extension = name ↔
      (splitExtension name).2 = some extension := by
  rcases splitExtension_cases name with hsplit | ⟨stem, found, hsplit, -, hjoined⟩
  · rw [hsplit]
    refine iff_of_false (fun h => ?_) (by simp)
    have hlength := congrArg (List.length ∘ String.toList) h
    simp at hlength
  · rw [hsplit]
    constructor
    · intro h
      rw [hjoined] at h
      have hchars := congrArg String.toList h
      simp only [String.toList_append, List.append_assoc, List.append_cancel_left_eq] at hchars
      exact congrArg some (String.toList_injective hchars).symm
    · intro h
      rw [hjoined, Option.some.inj h]

theorem isStep_stem_append {name extension : String} (hname : name ≠ "") (hext : extension ≠ "") :
    World.IsStep ((splitExtension name).1 ++ "." ++ extension) := by
  have hstem : (splitExtension name).1 ≠ "" := by
    rcases splitExtension_cases name with hsplit | ⟨stem, found, hsplit, hstem, -⟩
    · rwa [hsplit]
    · rwa [hsplit]
  have hchars : ∀ s : String, s ≠ "" → 0 < s.toList.length := fun s hs =>
    List.length_pos_of_ne_nil fun hnil => hs (String.toList_injective hnil)
  have hlong : 3 ≤ ((splitExtension name).1 ++ "." ++ extension).toList.length := by
    have hfront := hchars _ hstem
    have hback := hchars _ hext
    simp only [String.toList_append, List.length_append]
    have hdot : ".".toList.length = 1 := rfl
    omega
  have hne : ∀ short : String, short.toList.length < 3 →
      (splitExtension name).1 ++ "." ++ extension ≠ short := by
    rintro short hshort rfl
    omega
  constructor
  · simp [World.walk.isIdle, hne "" (by decide), hne "." (by decide)]
  · simpa using hne ".." (by decide)

/-! The last name of a path. -/

/-- The pieces of a path around its last name. -/
theorem pieces_of_fileName {path name : String} (h : fileName path = some name) :
    World.IsStep name ∧ ∃ idles, pieces path = (meaningful path).dropLast ++ name :: idles ∧
      ∀ p ∈ idles, isIdle p = true := by
  cases hpieces : pieces path with
  | nil => exact absurd hpieces (pieces_ne_nil path)
  | cons first rest =>
    obtain ⟨hlast, hstep⟩ : (meaningful path).getLast? = some name ∧ World.IsStep name := by
      unfold fileName at h
      split at h
      next => cases h
      next p hp =>
        split at h
        next => cases h
        next hname =>
          obtain rfl := Option.some.inj h
          simp only [Bool.or_eq_true, beq_iff_eq, not_or] at hname
          exact ⟨hp, by simp [World.walk.isIdle, hname], by simp [hname]⟩
    refine ⟨hstep, ?_⟩
    have hkept : meaningful path = first :: Text.dropEndWhile isIdle rest := by
      rw [meaningful, hpieces]
    have hends : rest = Text.dropEndWhile isIdle rest ++ rest.rtakeWhile isIdle :=
      List.rdropWhile_append_rtakeWhile.symm
    refine ⟨rest.rtakeWhile isIdle, ?_, fun p hp => List.mem_rtakeWhile_imp hp⟩
    obtain ⟨front, hfront⟩ := List.getLast?_eq_some_iff.mp hlast
    calc first :: rest
        = meaningful path ++ rest.rtakeWhile isIdle := by rw [hkept, List.cons_append, ← hends]
      _ = front ++ name :: rest.rtakeWhile isIdle := by rw [hfront, List.append_assoc]; rfl
      _ = (meaningful path).dropLast ++ name :: rest.rtakeWhile isIdle := by
        rw [hfront, List.dropLast_concat]

theorem pieces_withExtension {path name extension : String} (h : fileName path = some name)
    (hext : extension ≠ "") (hslash : '/' ∉ extension.toList) :
    pieces (withExtension path extension) =
      (meaningful path).dropLast ++ [(splitExtension name).1 ++ "." ++ extension] := by
  obtain ⟨hstep, idles, hpieces, -⟩ := pieces_of_fileName h
  have hslashless : ∀ p ∈ pieces path, '/' ∉ p.toList := fun p hp => slashless_of_mem_pieces hp
  have hstem : '/' ∉ ((splitExtension name).1 ++ "." ++ extension).toList := by
    have hname : '/' ∉ name.toList := hslashless name (by simp [hpieces])
    rcases splitExtension_cases name with hsplit | ⟨stem, found, hsplit, -, hjoined⟩
    · simp [hsplit, hname, hslash]
    · rw [hjoined] at hname
      simp only [String.toList_append, List.mem_append, not_or] at hname
      simp [hsplit, hname, hslash]
  have hwritten : withExtension path extension = String.intercalate "/"
      ((meaningful path).dropLast ++ [(splitExtension name).1 ++ "." ++ extension]) := by
    have hup : (name == "..") = false := hstep.down
    simp only [withExtension, h, hup, Bool.false_eq_true, if_false, beq_iff_eq, hext]
    by_cases hfront : (meaningful path).dropLast = []
    · simp [hfront]
    · rw [String.intercalate_append_of_ne_nil hfront (by simp),
        String.intercalate_append_of_ne_nil hfront (by simp)]
      simp [String.append_assoc]
  rw [hwritten]
  refine pieces_intercalate (by simp) fun p hp => ?_
  rcases List.mem_append.mp hp with hp | hp
  · exact hslashless p (by simp [hpieces, hp])
  · rw [List.mem_singleton.mp hp]
    exact hstem

section Names
variable {path name : String} {front idles : List String} (hpieces : pieces path = front ++ name :: idles)
  (hname : World.IsStep name)
include hpieces hname

/-- Whether a path begins with a slash is seen in front of its last name. -/
theorem isAbsolute_of_pieces : isAbsolute path = (front.head? == some "") := by
  have hne : name ≠ "" := hname.nonempty
  cases front with
  | nil =>
    have habs := isAbsolute_iff hpieces
    simpa [hne] using habs
  | cons first front =>
    have habs := isAbsolute_iff hpieces
    rw [Bool.eq_iff_iff, habs]
    simp

theorem names_of_pieces (hidles : ∀ p ∈ idles, isIdle p = true) :
    names path = (front.take 1).filter (· != "") ++
      (front.drop 1).filter (fun p => !isIdle p) ++ [name] := by
  have hbusy : isIdle name = false := hname.busy
  have hrest : idles.filter (fun p => !isIdle p) = [] :=
    List.filter_eq_nil_iff.mpr fun p hp => by simp [hidles p hp]
  have hne : name ≠ "" := hname.nonempty
  rw [names, hpieces]
  cases front with
  | nil => simp [hne, hrest]
  | cons first front =>
    by_cases hfirst : first = "" <;> simp [hfirst, hbusy, hrest]

end Names

/-- With an extension a path stays the same, if it had that one or has no last name. -/
theorem same_withExtension_iff {path extension : String} (hext : extension ≠ "")
    (hslash : '/' ∉ extension.toList) :
    same (withExtension path extension) path = true ↔
      ∀ name, fileName path = some name → (splitExtension name).2 = some extension := by
  cases hfile : fileName path with
  | none => simp [same, withExtension, hfile]
  | some name =>
    obtain ⟨hstep, idles, hpieces, hidles⟩ := pieces_of_fileName hfile
    have hwritten := pieces_withExtension hfile hext hslash
    have hstep' : World.IsStep ((splitExtension name).1 ++ "." ++ extension) :=
      isStep_stem_append hstep.nonempty hext
    rw [same, isAbsolute_of_pieces hpieces hstep, isAbsolute_of_pieces hwritten hstep',
      names_of_pieces hpieces hstep hidles, names_of_pieces hwritten hstep' (by simp)]
    simp only [beq_self_eq_true, Bool.true_and, beq_iff_eq, List.append_cancel_left_eq,
      List.cons.injEq, and_true, Option.some.injEq, forall_eq']
    exact stem_append_eq_iff name extension

end Path

namespace World

/-! Names side by side. -/

/-- A last name is beside the place that the names in front of it lead to. -/
theorem course_concat (w : World) (links : Nat) (here : Place) (names : List String) {name : String}
    (hname : IsStep name) :
    w.course false links here (names ++ [name]) =
      (w.course true links here names).map fun d => ⟨d.links, d.place ++ [name]⟩ := by
  fun_induction course w true links here names with
  | case1 links here => rw [List.nil_append, course_last hname]; rfl
  | case2 links here first rest hidle ih => rw [List.cons_append, course_idle hidle, ih]
  | case3 links here first rest hidle hup ih => rw [List.cons_append, course_up hup, ih]
  | case4 links here first rest hidle hup target hat hlast => simp at hlast
  | case5 here first rest hidle hup target hat =>
    rw [List.cons_append, course]
    simp [hidle, hup, hat]
  | case6 here first rest hidle hup target hat hlast links ih =>
    have hfirst : IsStep first := ⟨by simpa using hidle, by simpa using hup⟩
    rw [List.cons_append, course_over hfirst hat (by simp)]
    simp only [dite_eq_ite] at ih ⊢
    rw [← List.append_assoc, ih, Option.map_map, Option.map_map]
    rfl
  | case7 links here first rest hidle hup hat ih =>
    have hfirst : IsStep first := ⟨by simpa using hidle, by simpa using hup⟩
    rw [List.cons_append, course_step hfirst hat, ih]

/-- Paths that differ in their last names lead to places side by side, through the same links. -/
theorem route?_beside {w : World} {a b name other : String} {front : List String} {r : Route}
    (ha : Path.pieces a = front ++ [name]) (hname : IsStep name)
    (hb : Path.pieces b = front ++ [other]) (hother : IsStep other) (hr : w.route? a = some r) :
    ∃ up, r.place = up ++ [name] ∧ w.route? b = some ⟨r.links, up ++ [other]⟩ := by
  have hstart : w.start b = w.start a := by
    rw [start, start, Path.isAbsolute_of_pieces ha hname, Path.isAbsolute_of_pieces hb hother]
  have hroute : ∀ {path last : String}, Path.pieces path = front ++ [last] → IsStep last →
      w.route? path = (w.course true linkLimit (w.start path) front).map
        fun d => ⟨d.links, d.place ++ [last]⟩ := by
    intro path last hpieces hlast
    rw [route?, Path.namesOf_eq hpieces hlast.nonempty, course_concat w _ _ _ hlast]
  rw [hroute ha hname] at hr
  obtain ⟨d, hd, rfl⟩ := Option.map_eq_some_iff.mp hr
  refine ⟨d.place, rfl, ?_⟩
  rw [hroute hb hother, hstart, hd]
  rfl

/-! Files that are not passed. -/

theorem leads_file_last {w : World} {follow slash : Bool} {links : Nat} {here p : Place}
    {names : List String} {trail : List Place} {bytes : ByteArray}
    (h : Leads w follow slash links here names trail (.taken p (.file bytes))) :
    ∃ front last, names = front ++ [last] ∧ IsStep last := by
  generalize hs : Spot.taken p (.file bytes) = s at h
  induction h with
  | here | free | link => cases hs
  | @file _ _ name _ hname => exact ⟨[], name, rfl, hname⟩
  | @idle _ _ name _ _ _ _ _ ih | @up _ _ name _ _ _ _ _ _ ih | @down _ _ name _ _ _ _ _ _ _ ih =>
    obtain ⟨front, last, rfl, hlast⟩ := ih hs
    exact ⟨name :: front, last, rfl, hlast⟩
  | @through _ _ name _ rest _ _ hname _ _ _ _ _ ih =>
    rcases List.eq_nil_or_concat' rest with rfl | ⟨front, last, rfl⟩
    · exact ⟨[], name, rfl, hname⟩
    · obtain ⟨front', last', hnames, hlast⟩ := ih hs
      rw [← List.append_assoc] at hnames
      obtain rfl : last = last' := by simpa using List.append_inj_right' hnames rfl
      exact ⟨name :: front, last, rfl, hlast⟩

theorem Holds.pieces {w : World} {path : String} {r : Route} {bytes : ByteArray}
    (h : w.Holds path r bytes) :
    ∃ front name, Path.pieces path = front ++ [name] ∧ IsStep name := by
  obtain ⟨front, name, hnames, hname⟩ := leads_file_last h.leads
  rcases List.eq_nil_or_concat' (Path.pieces path) with hnil | ⟨init, last, hpieces⟩
  · exact absurd hnil (Path.pieces_ne_nil path)
  by_cases hlast : last = ""
  · -- Nothing behind the last slash: the path is empty, or it means a directory.
    subst hlast
    rcases eq_or_ne init [] with rfl | hinit
    · rw [namesOf, hpieces] at hnames
      simp [Text.dropEndWhile] at hnames
    · have hpath : path = String.intercalate "/" init ++ "/" := by
        rw [← Path.intercalate_pieces path, hpieces,
          String.intercalate_append_of_ne_nil hinit (by simp)]
        simp
      have hslash := h.slash
      rw [hpath] at hslash
      simp [endsInSlash] at hslash
  · rw [Path.namesOf_eq hpieces hlast] at hnames
    rw [hnames] at hpieces
    exact ⟨front, name, hpieces, hname⟩

theorem walk_past_file {w : World} {slash : Bool} {links : Nat} {here p : Place}
    {names : List String} {trail : List Place} {bytes : ByteArray}
    (h : Leads w true slash links here names trail (.taken p (.file bytes))) {further : List String}
    (hfurther : further ≠ []) (follow' slash' : Bool) (links' : Nat) (spot : Spot) :
    w.walk follow' slash' links' here (names ++ further) ≠ .ok spot := by
  generalize hs : Spot.taken p (.file bytes) = s at h
  induction h generalizing links' with
  | here | free => cases hs
  | link _ _ _ hfollow => cases hfollow
  | idle hname h ih =>
    rw [List.cons_append, walk, if_pos hname]
    exact ih _ hs
  | up hidle hname h ih =>
    rw [List.cons_append, walk, if_neg (by simp [hidle]), if_pos hname]
    exact ih _ hs
  | down hname hshort hat h ih =>
    rw [List.cons_append, walk]
    simp only [hname.busy, hname.down, Nat.not_lt.mpr hshort, hat, Bool.false_eq_true, if_false]
    exact ih _ hs
  | file hname hshort hat hslash =>
    rw [List.cons_append, walk]
    simp [hname.busy, hname.down, Nat.not_lt.mpr hshort, hat, hfurther]
  | through hname hshort hat hgo htarget h ih =>
    rw [List.cons_append, walk]
    simp only [hname.busy, hname.down, Nat.not_lt.mpr hshort, hat, htarget, Bool.false_eq_true, if_false]
    cases links' with
    | zero => simp [hfurther]
    | succ links' =>
      have hrest := ih links' hs
      simpa [hfurther] using hrest

/-- A file that is found stands under the last name of its path, or a link there leads to it. -/
theorem leads_file_end {w : World} {slash : Bool} {links : Nat} {here p : Place}
    {names : List String} {trail : List Place} {bytes : ByteArray} {r : Route}
    (h : Leads w true slash links here names trail (.taken p (.file bytes)))
    (hr : w.course false links here names = some r) :
    p = r.place ∨ ∃ target links' trail', w.at? r.place = some (.link target) ∧
      Leads w true slash links' (if Path.isAbsolute target then [] else r.place.dropLast)
        (Path.pieces target) trail' (.taken p (.file bytes)) := by
  generalize hs : Spot.taken p (.file bytes) = s at h
  induction h generalizing r with
  | here | free => cases hs
  | link _ _ _ hfollow => cases hfollow
  | idle hname h ih =>
    rw [course_idle hname] at hr
    exact ih hr hs
  | up hidle hname h ih =>
    rw [course_up hname] at hr
    exact ih hr hs
  | down hname hshort hat h ih =>
    rw [course_step hname (by simp [hat])] at hr
    exact ih hr hs
  | file hname hshort hat hslash =>
    rw [course_last hname] at hr
    cases hs
    exact .inl (congrArg Route.place (Option.some.inj hr))
  | @through links here name target rest trail spot hname hshort hat hgo htarget h ih =>
    cases rest with
    | nil =>
      rw [course_last hname] at hr
      obtain rfl := Option.some.inj hr
      rw [List.append_nil] at h
      exact .inr ⟨target, links, trail, hat, by rwa [List.dropLast_concat]⟩
    | cons next rest =>
      rw [course_over hname hat (by simp)] at hr
      obtain ⟨r', hr', rfl⟩ := Option.map_eq_some_iff.mp hr
      simpa using ih hr' hs

theorem leads_of_mem_trail {w : World} {links : Nat} {here q : Place} {names : List String}
    {trail : List Place} {spot : Spot} {target : String}
    (h : Leads w false false links here names trail spot) (hq : q ∈ trail)
    (hat : w.at? q = some (.link target)) :
    ∃ links' further trail', further ≠ [] ∧
      Leads w false false links' (if Path.isAbsolute target then [] else q.dropLast)
        (Path.pieces target ++ further) trail' spot := by
  induction h with
  | here | free | file | link => cases hq
  | idle _ _ ih | up _ _ _ ih | down _ _ _ _ ih => exact ih hq
  | @through links here name found rest trail spot hname hshort hat' hgo htarget h ih =>
    rcases List.mem_cons.mp hq with rfl | hq
    · obtain rfl : found = target := by simpa [hat] using hat'.symm
      refine ⟨links, rest, trail, by simpa using hgo, ?_⟩
      rwa [List.dropLast_concat]
    · exact ih hq

/-- Where a file is found, its last name is not a link on the way to another file; and if that is
the other file, the same is read there. -/
theorem Holds.end_of_find {w : World} {a b : String} {r s : Route} {p : Place}
    {bytes found : ByteArray} (h : Holds w a r bytes) (hfind : w.find b = .ok (p, .file found))
    (hs : w.route? b = some s) : s.place ∉ r.links ∧ (s.place = r.place → found = bytes) := by
  obtain ⟨trail, hleads⟩ := leads_of_resolve (resolve_of_find hfind)
  rcases leads_file_end hleads hs with rfl | ⟨target, links, trail', hat, hbehind⟩
  · have hfile : w.at? s.place = some (.file found) := by
      rcases leads_taken hleads with hdir | ⟨hat, -⟩
      · cases hdir
      · exact hat
    refine ⟨fun hmem => ?_, fun heq => ?_⟩
    · obtain ⟨t, ht⟩ := link_of_leads h.leads _ hmem
      simp [hfile] at ht
    · rw [heq, h.at?] at hfile
      simpa using hfile.symm
  · refine ⟨fun hmem => ?_, fun heq => ?_⟩
    · obtain ⟨links', further, trail'', hfurther, hon⟩ := leads_of_mem_trail h.leads hmem hat
      exact walk_past_file hbehind hfurther _ _ _ _ (walk_of_leads hon)
    · rw [heq, h.at?] at hat
      cases hat

end World
end SkillAudit
