import Mathlib
import SkillAudit.Store

/-!
Where a path leads in a file tree, and which changes of the tree leave it there. A route goes on
through what is missing as though the directories had been made, so it is known before they are.
-/
namespace SkillAudit

/-- The links that a path leads over, and the place it leads to. -/
structure Route where
  links : List Place
  place : Place
  deriving DecidableEq, Repr

namespace World

/-- Follows names as `walk` does, through what is missing too. -/
def course (w : World) (follow : Bool) (links : Nat) (here : Place) (names : List String) :
    Option Route :=
  match names with
  | [] => some ⟨[], here⟩
  | name :: rest =>
    if walk.isIdle name then course w follow links here rest
    else if name == ".." then course w follow links here.dropLast rest
    else
      match w.at? (here ++ [name]) with
      | some (.link target) =>
        if rest.isEmpty && !follow then some ⟨[], here ++ [name]⟩
        else
          match links with
          | 0 => none
          | links + 1 =>
            (course w follow links (if Path.isAbsolute target then [] else here)
              (Path.pieces target ++ rest)).map fun r =>
                { r with links := (here ++ [name]) :: r.links }
      | _ => course w follow links (here ++ [name]) rest
termination_by (links, names.length)

/-- Where relative and absolute paths begin. -/
def start (w : World) (path : String) : Place := if Path.isAbsolute path then [] else w.cwd

def namesOf (path : String) : List String := Text.dropEndWhile (· == "") (Path.pieces path)

/-- The route of a path to what has its last name, a link or not. -/
def route? (w : World) (path : String) : Option Route :=
  w.course false linkLimit (w.start path) (namesOf path)

/-- The route of a path to what it means, links being followed to the end. -/
def goal? (w : World) (path : String) : Option Route :=
  w.course true linkLimit (w.start path) (namesOf path)

/-! Places. -/

/-- Which nodes are kept is decided by their places, so a look-up finds what it found or nothing. -/
theorem lookup_filter (f : Place → Bool) (nodes : List (Place × Node)) (q : Place) :
    (nodes.filter fun x => f x.1).lookup q = if f q then nodes.lookup q else none := by
  induction nodes with
  | nil => simp
  | cons x rest ih =>
    obtain ⟨k, n⟩ := x
    by_cases hq : q = k
    · subst hq
      cases hf : f q with
      | true => simp [hf]
      | false => simpa [hf] using ih
    · have hne : (q == k) = false := beq_eq_false_iff_ne.mpr hq
      cases hf : f k with
      | true => simp [hf, List.lookup_cons, hne, ih]
      | false => simp [hf, List.lookup_cons, hne, ih]

theorem at?_put_self (w : World) {p : Place} (hp : p ≠ []) (n : Node) :
    (w.put p n).at? p = some n := by
  simp [at?, put, hp]

theorem at?_put_ne (w : World) {p q : Place} (h : q ≠ p) (n : Node) :
    (w.put p n).at? q = w.at? q := by
  have hkept : (q != p) = true := by simpa using h
  simp only [at?, put, List.lookup_cons, beq_eq_false_iff_ne.mpr h, lookup_filter (· != p), hkept,
    if_true]

/-! Walks that succeed. -/

def Spot.place : Spot → Place
  | .taken p _ => p
  | .free p => p

structure IsStep (name : String) : Prop where
  busy : walk.isIdle name = false
  down : (name == "..") = false

/-- The walks that succeed, with the places of the links they follow. -/
inductive Leads (w : World) (follow slash : Bool) :
    Nat → Place → List String → List Place → Spot → Prop
  | here {links : Nat} {here : Place} : Leads w follow slash links here [] [] (.taken here .dir)
  | idle {links : Nat} {here : Place} {name : String} {rest : List String} {trail : List Place}
      {spot : Spot} (hname : walk.isIdle name = true)
      (h : Leads w follow slash links here rest trail spot) :
      Leads w follow slash links here (name :: rest) trail spot
  | up {links : Nat} {here : Place} {name : String} {rest : List String} {trail : List Place}
      {spot : Spot} (hidle : walk.isIdle name = false) (hname : (name == "..") = true)
      (h : Leads w follow slash links here.dropLast rest trail spot) :
      Leads w follow slash links here (name :: rest) trail spot
  | free {links : Nat} {here : Place} {name : String} (hname : IsStep name)
      (hshort : name.utf8ByteSize ≤ 255) (hat : w.at? (here ++ [name]) = none) :
      Leads w follow slash links here [name] [] (.free (here ++ [name]))
  | down {links : Nat} {here : Place} {name : String} {rest : List String} {trail : List Place}
      {spot : Spot} (hname : IsStep name) (hshort : name.utf8ByteSize ≤ 255)
      (hat : w.at? (here ++ [name]) = some .dir)
      (h : Leads w follow slash links (here ++ [name]) rest trail spot) :
      Leads w follow slash links here (name :: rest) trail spot
  | file {links : Nat} {here : Place} {name : String} {bytes : ByteArray} (hname : IsStep name)
      (hshort : name.utf8ByteSize ≤ 255) (hat : w.at? (here ++ [name]) = some (.file bytes))
      (hslash : slash = false) :
      Leads w follow slash links here [name] [] (.taken (here ++ [name]) (.file bytes))
  | link {links : Nat} {here : Place} {name target : String} (hname : IsStep name)
      (hshort : name.utf8ByteSize ≤ 255) (hat : w.at? (here ++ [name]) = some (.link target))
      (hfollow : follow = false) (hslash : slash = false) :
      Leads w follow slash links here [name] [] (.taken (here ++ [name]) (.link target))
  | through {links : Nat} {here : Place} {name target : String} {rest : List String}
      {trail : List Place} {spot : Spot} (hname : IsStep name) (hshort : name.utf8ByteSize ≤ 255)
      (hat : w.at? (here ++ [name]) = some (.link target))
      (hgo : (rest.isEmpty && !follow && !slash) = false) (htarget : (target == "") = false)
      (h : Leads w follow slash links (if Path.isAbsolute target then [] else here)
        (Path.pieces target ++ rest) trail spot) :
      Leads w follow slash (links + 1) here (name :: rest) ((here ++ [name]) :: trail) spot

theorem leads_of_walk {w : World} {follow slash : Bool} {links : Nat} {here : Place}
    {names : List String} {spot : Spot} (h : w.walk follow slash links here names = .ok spot) :
    ∃ trail, Leads w follow slash links here names trail spot := by
  fun_induction walk w follow slash links here names with
  | case1 links here =>
    obtain rfl := Except.ok.inj h
    exact ⟨[], .here⟩
  | case2 links here name rest hidle ih =>
    obtain ⟨trail, ht⟩ := ih h
    exact ⟨trail, .idle hidle ht⟩
  | case3 links here name rest hidle hup ih =>
    obtain ⟨trail, ht⟩ := ih h
    exact ⟨trail, .up (by simpa using hidle) hup ht⟩
  | case4 => cases h
  | case5 links here name rest hidle hup hshort place hat hlast =>
    obtain rfl := Except.ok.inj h
    obtain rfl := List.isEmpty_iff.mp hlast
    exact ⟨[], .free ⟨by simpa using hidle, by simpa using hup⟩ (Nat.not_lt.mp hshort) hat⟩
  | case6 => cases h
  | case7 links here name rest hidle hup hshort place hat ih =>
    obtain ⟨trail, ht⟩ := ih h
    exact ⟨trail, .down ⟨by simpa using hidle, by simpa using hup⟩ (Nat.not_lt.mp hshort) hat ht⟩
  | case8 links here name rest hidle hup hshort place bytes hat hlast =>
    obtain rfl := Except.ok.inj h
    simp only [Bool.and_eq_true, List.isEmpty_iff, Bool.not_eq_true'] at hlast
    obtain ⟨rfl, hslash⟩ := hlast
    exact ⟨[], .file ⟨by simpa using hidle, by simpa using hup⟩ (Nat.not_lt.mp hshort) hat hslash⟩
  | case9 => cases h
  | case10 links here name rest hidle hup hshort place target hat hlast =>
    obtain rfl := Except.ok.inj h
    simp only [Bool.and_eq_true, List.isEmpty_iff, Bool.not_eq_true'] at hlast
    obtain ⟨⟨rfl, hfollow⟩, hslash⟩ := hlast
    exact ⟨[], .link ⟨by simpa using hidle, by simpa using hup⟩ (Nat.not_lt.mp hshort) hat hfollow
      hslash⟩
  | case11 => cases h
  | case12 => cases h
  | case13 here name rest hidle hup hshort place target hat hgo links htarget ih =>
    obtain ⟨trail, ht⟩ := ih h
    exact ⟨_, .through ⟨by simpa using hidle, by simpa using hup⟩ (Nat.not_lt.mp hshort) hat
      (Bool.not_eq_true _ ▸ hgo) (Bool.not_eq_true _ ▸ htarget) (by simpa using ht)⟩

theorem walk_of_leads {w : World} {follow slash : Bool} {links : Nat} {here : Place}
    {names : List String} {trail : List Place} {spot : Spot}
    (h : Leads w follow slash links here names trail spot) :
    w.walk follow slash links here names = .ok spot := by
  induction h with
  | here => rw [walk]
  | idle hname h ih => rw [walk, if_pos hname, ih]
  | up hidle hname h ih => simp [walk, hidle, hname, ih]
  | free hname hshort hat => simp [walk, hname.busy, hname.down, Nat.not_lt.mpr hshort, hat]
  | down hname hshort hat h ih =>
    simp [walk, hname.busy, hname.down, Nat.not_lt.mpr hshort, hat, ih]
  | file hname hshort hat hslash =>
    simp [walk, hname.busy, hname.down, Nat.not_lt.mpr hshort, hat, hslash]
  | link hname hshort hat hfollow hslash =>
    simp [walk, hname.busy, hname.down, Nat.not_lt.mpr hshort, hat, hfollow, hslash]
  | through hname hshort hat hgo htarget h ih =>
    simp only [walk, hname.busy, hname.down, Nat.not_lt.mpr hshort, hat, hgo, htarget, if_false, ih,
      Bool.false_eq_true]

section Leads
variable {w w' : World} {follow slash : Bool} {links : Nat} {here : Place} {names : List String}
  {trail : List Place} {spot : Spot} {p : Place}

theorem leads_free (h : Leads w follow slash links here names trail (.free p)) :
    w.at? p = none ∧ p ≠ [] := by
  generalize hs : Spot.free p = s at h
  induction h with
  | free hname hshort hat => cases hs; exact ⟨hat, by simp⟩
  | here | file | link => cases hs
  | idle _ _ ih | up _ _ _ ih | down _ _ _ _ ih | through _ _ _ _ _ _ ih => exact ih hs

/-- What a walk finds stands where it ends; only a directory may be there without a name. -/
theorem leads_taken {n : Node} (h : Leads w follow slash links here names trail (.taken p n)) :
    n = .dir ∨ (w.at? p = some n ∧ p ≠ []) := by
  generalize hs : Spot.taken p n = s at h
  induction h with
  | here => cases hs; exact .inl rfl
  | file hname hshort hat | link hname hshort hat => cases hs; exact .inr ⟨hat, by simp⟩
  | free => cases hs
  | idle _ _ ih | up _ _ _ ih | down _ _ _ _ ih | through _ _ _ _ _ _ ih => exact ih hs

/-- The links that a walk follows stand where it passes them. -/
theorem link_of_leads (h : Leads w follow slash links here names trail spot) :
    ∀ q ∈ trail, ∃ t, w.at? q = some (.link t) := by
  induction h with
  | here | free | file | link => simp
  | idle _ _ ih | up _ _ _ ih | down _ _ _ _ ih => exact ih
  | through _ _ hat _ _ _ ih => exact List.forall_mem_cons.mpr ⟨⟨_, hat⟩, ih⟩

theorem slash_of_leads_file {bytes : ByteArray}
    (h : Leads w follow slash links here names trail (.taken p (.file bytes))) :
    slash = false := by
  generalize hs : Spot.taken p (.file bytes) = s at h
  induction h with
  | file _ _ _ hslash => exact hslash
  | here | free | link => cases hs
  | idle _ _ ih | up _ _ _ ih | down _ _ _ _ ih | through _ _ _ _ _ _ ih => exact ih hs

/-! Courses. -/

theorem course_last {name : String} (hname : IsStep name) :
    w.course false links here [name] = some ⟨[], here ++ [name]⟩ := by
  rw [course]
  simp only [hname.busy, hname.down, Bool.false_eq_true, if_false]
  split
  · simp
  · simp [course]

theorem course_step {name : String} {rest : List String} (hname : IsStep name)
    (hat : ∀ t, w.at? (here ++ [name]) ≠ some (.link t)) :
    w.course follow links here (name :: rest) = w.course follow links (here ++ [name]) rest := by
  rw [course]
  simp only [hname.busy, hname.down, Bool.false_eq_true, if_false]

theorem course_over {name target : String} {rest : List String} (hname : IsStep name)
    (hat : w.at? (here ++ [name]) = some (.link target)) (hgo : (rest.isEmpty && !follow) = false) :
    w.course follow (links + 1) here (name :: rest) =
      (w.course follow links (if Path.isAbsolute target then [] else here)
        (Path.pieces target ++ rest)).map fun r => { r with links := (here ++ [name]) :: r.links } := by
  rw [course]
  simp [hname.busy, hname.down, hat, hgo]

theorem course_of_leads (h : Leads w follow false links here names trail spot) :
    w.course follow links here names = some ⟨trail, spot.place⟩ := by
  induction h with
  | here => simp [course, Spot.place]
  | idle hname h ih => simp [course, hname, ih]
  | up hidle hname h ih => simp [course, hidle, hname, ih]
  | free hname hshort hat | file hname hshort hat =>
    rw [course_step hname (by simp [hat])]
    simp [course, Spot.place]
  | link hname hshort hat hfollow =>
    rw [hfollow]
    exact course_last hname
  | down hname hshort hat h ih => rw [course_step hname (by simp [hat]), ih]
  | through hname hshort hat hgo htarget h ih =>
    rw [course_over hname hat (by simpa using hgo), ih, Option.map_some]

/-- A course depends on the links it leads over, and on no other place being a link. -/
theorem course_congr {r : Route} (h : w.course follow links here names = some r)
    (hkept : ∀ q ∈ r.links, ∀ t, w.at? q = some (.link t) → w'.at? q = some (.link t))
    (hnew : ∀ q t, w'.at? q = some (.link t) → w.at? q = some (.link t)) :
    w'.course follow links here names = some r := by
  -- The links that have to stay are those of the route, which shrinks along the way.
  revert r
  fun_induction course w follow links here names with
  | case1 links here =>
    intro r h _
    simpa [course] using h
  | case2 links here name rest hidle ih =>
    intro r h hkept
    simpa [course, hidle] using ih h hkept
  | case3 links here name rest hidle hup ih =>
    intro r h hkept
    simpa [course, hidle, hup] using ih h hkept
  | case4 links here name rest hidle hup target hat hlast =>
    intro r h _
    obtain ⟨hrest, hfollow⟩ : rest = [] ∧ follow = false := by simpa using hlast
    obtain rfl := Option.some.inj h
    rw [hrest, hfollow]
    exact course_last ⟨by simpa using hidle, by simpa using hup⟩
  | case5 =>
    intro r h
    cases h
  | case6 here name rest hidle hup target hat hlast links ih =>
    intro r h hkept
    obtain ⟨r', hr', rfl⟩ := Option.map_eq_some_iff.mp h
    have hlink := hkept (here ++ [name]) (by simp) target hat
    have hrec := ih hr' (fun q hq => hkept q (by simp [hq]))
    rw [course_over ⟨by simpa using hidle, by simpa using hup⟩ hlink (by simpa using hlast)]
    exact Option.map_eq_some_iff.mpr ⟨r', by simpa using hrec, rfl⟩
  | case7 links here name rest hidle hup hat ih =>
    intro r h hkept
    rw [course_step ⟨by simpa using hidle, by simpa using hup⟩
      (fun t ht => hat t (hnew _ t ht))]
    exact ih h hkept

/-! Changes of the tree. -/

/-- Where a tree has something, a larger one has the same. -/
theorem leads_keeps {n : Node} (hkeeps : ∀ q m, w.at? q = some m → w'.at? q = some m)
    (h : Leads w follow slash links here names trail (.taken p n)) :
    Leads w' follow slash links here names trail (.taken p n) := by
  generalize hs : Spot.taken p n = s at h
  induction h with
  | here => exact .here
  | idle hname h ih => exact .idle hname (ih hs)
  | up hidle hname h ih => exact .up hidle hname (ih hs)
  | free => cases hs
  | down hname hshort hat h ih => exact .down hname hshort (hkeeps _ _ hat) (ih hs)
  | file hname hshort hat hslash => exact .file hname hshort (hkeeps _ _ hat) hslash
  | link hname hshort hat hfollow hslash =>
    exact .link hname hshort (hkeeps _ _ hat) hfollow hslash
  | through hname hshort hat hgo htarget h ih =>
    exact .through hname hshort (hkeeps _ _ hat) hgo htarget (ih hs)

/-- Once a file stands where a path leads, the path leads to it, as long as the directories and the
links on the way stay. -/
theorem leads_file (h : Leads w false false links here names trail spot)
    (hspot : ∀ q, spot ≠ .taken q .dir)
    (hdirs : ∀ q, w.at? q = some .dir → w'.at? q = some .dir)
    (hlinks : ∀ q ∈ trail, ∀ t, w.at? q = some (.link t) → w'.at? q = some (.link t))
    {bytes : ByteArray} (hfile : w'.at? spot.place = some (.file bytes)) (follow : Bool) :
    Leads w' follow false links here names trail (.taken spot.place (.file bytes)) := by
  induction h with
  | here => exact absurd rfl (hspot _)
  | idle hname h ih => exact .idle hname (ih hspot hlinks hfile)
  | up hidle hname h ih => exact .up hidle hname (ih hspot hlinks hfile)
  | free hname hshort | file hname hshort | link hname hshort =>
    exact .file hname hshort hfile rfl
  | down hname hshort hat h ih =>
    exact .down hname hshort (hdirs _ hat) (ih hspot hlinks hfile)
  | through hname hshort hat hgo htarget h ih =>
    refine .through hname hshort (hlinks _ (by simp) _ hat) ?_ htarget
      (ih hspot (fun q hq => hlinks q (by simp [hq])) hfile)
    simp_all

end Leads

/-- What a tree becomes while directories are made and locks are taken: all of it stays, and where
nothing stood there may be a directory or an empty file. -/
structure Grows (w w' : World) : Prop where
  cwd : w'.cwd = w.cwd
  keeps : ∀ p n, w.at? p = some n → w'.at? p = some n
  adds : ∀ p, w.at? p = none →
    w'.at? p = none ∨ w'.at? p = some .dir ∨ w'.at? p = some (.file .empty)

namespace Grows

theorem refl (w : World) : Grows w w where
  cwd := rfl
  keeps _ _ h := h
  adds _ h := .inl h

theorem trans {u v w : World} (h : Grows u v) (h' : Grows v w) : Grows u w where
  cwd := h'.cwd.trans h.cwd
  keeps p n hp := h'.keeps p n (h.keeps p n hp)
  adds p hp := by
    rcases h.adds p hp with hv | hv | hv
    · exact h'.adds p hv
    · exact .inr (.inl (h'.keeps p _ hv))
    · exact .inr (.inr (h'.keeps p _ hv))

theorem put {w : World} {p : Place} (hp : p ≠ []) (hfree : w.at? p = none) {n : Node}
    (hn : n = .dir ∨ n = .file .empty) : Grows w (w.put p n) where
  cwd := rfl
  keeps q m hq := by
    have hne : q ≠ p := by
      rintro rfl
      simp [hfree] at hq
    rw [at?_put_ne w hne, hq]
  adds q hq := by
    by_cases hqp : q = p
    · subst hqp
      rw [at?_put_self w hp]
      rcases hn with rfl | rfl
      · exact .inr (.inl rfl)
      · exact .inr (.inr rfl)
    · exact .inl (by rw [at?_put_ne w hqp, hq])

theorem link {w w' : World} (h : Grows w w') {q : Place} {t : String}
    (hq : w'.at? q = some (.link t)) : w.at? q = some (.link t) := by
  cases hw : w.at? q with
  | some n => rw [← h.keeps q n hw, hq]
  | none => rcases h.adds q hw with hn | hn | hn <;> simp [hq] at hn

end Grows

def endsInSlash (path : String) : Bool := path.toList.getLast? == some '/'

theorem resolve_eq (w : World) (follow : Bool) (path : String) :
    w.resolve follow path =
      if path == "" then .error .notFound
      else if path.toList.contains '\x00' then .error .invalidName
      else if path.utf8ByteSize ≥ 4096 then .error .nameTooLong
      else w.walk follow (endsInSlash path) linkLimit (w.start path) (namesOf path) := rfl

theorem resolve_dot (w : World) (follow : Bool) : w.resolve follow "." = .ok (.taken w.cwd .dir) := by
  have hleads : Leads w follow (endsInSlash ".") linkLimit (w.start ".") (namesOf ".") []
      (.taken w.cwd .dir) := .idle (by decide) .here
  rw [resolve_eq, if_neg (by decide), if_neg (by decide), if_neg (by decide), walk_of_leads hleads]

theorem find_dot (w : World) : w.find "." = .ok (w.cwd, .dir) := by
  rw [find, resolve_dot]

theorem leads_of_resolve {w : World} {follow : Bool} {path : String} {spot : Spot}
    (h : w.resolve follow path = .ok spot) :
    ∃ trail, Leads w follow (endsInSlash path) linkLimit (w.start path) (namesOf path) trail
      spot := by
  rw [resolve_eq] at h
  repeat' split at h
  · cases h
  · cases h
  · cases h
  · exact leads_of_walk h

/-- Whether a path can be followed does not depend on the tree, but for the walk. -/
theorem resolve_of_leads {w w' : World} {follow follow' : Bool} {path : String} {spot spot' : Spot}
    {trail : List Place} (h : w.resolve follow path = .ok spot)
    (hleads : Leads w' follow' (endsInSlash path) linkLimit (w'.start path) (namesOf path) trail
      spot') : w'.resolve follow' path = .ok spot' := by
  rw [resolve_eq] at h
  split at h
  next => cases h
  next hempty =>
    split at h
    next => cases h
    next hzero =>
      split at h
      next => cases h
      next hlong =>
        rw [resolve_eq, if_neg hempty, if_neg hzero, if_neg hlong, walk_of_leads hleads]

theorem resolve_free {w : World} {follow : Bool} {path : String} {p : Place}
    (h : w.resolve follow path = .ok (.free p)) : w.at? p = none ∧ p ≠ [] := by
  obtain ⟨trail, ht⟩ := leads_of_resolve h
  exact leads_free ht

theorem makeDir_ok {w w' : World} {path : String} (h : w.makeDir path = .ok w') :
    ∃ p, w.resolve false (makeDir.trimSlashes path) = .ok (.free p) ∧ w' = w.put p .dir := by
  unfold makeDir at h
  split at h
  next => cases h
  next => cases h
  next p hp => exact ⟨p, hp, (Except.ok.inj h).symm⟩

theorem makeDir_grows {w w' : World} {path : String} (h : w.makeDir path = .ok w') :
    Grows w w' := by
  obtain ⟨p, hp, rfl⟩ := makeDir_ok h
  obtain ⟨hfree, hne⟩ := resolve_free hp
  exact .put hne hfree (.inl rfl)

theorem makeDirsWithin_grows (fuel : Nat) (w : World) (path : String) :
    Grows w (makeDirsWithin fuel w path).2 := by
  fun_induction makeDirsWithin fuel w path with
  | case1 | case2 | case4 => exact .refl _
  | case3 fuel w path hne w' hdir => exact makeDir_grows hdir
  | case5 fuel w path hne hmissing up hup e w' hrec ih => simpa [hrec] using ih
  | case6 fuel w path hne hmissing up hup w' hrec w'' hdir ih =>
    rw [hrec] at ih
    exact ih.trans (makeDir_grows hdir)
  | case7 fuel w path hne hmissing up hup w' hrec e hdir hisDir ih => simpa [hrec] using ih
  | case8 fuel w path hne hmissing up hup w' hrec e hdir hisDir ih => simpa [hrec] using ih
  | case9 | case10 => exact .refl _

theorem touch_grows {w w' : World} {path : String} (h : w.touch path = .ok w') : Grows w w' := by
  unfold touch at h
  split at h
  next => cases h
  next =>
    obtain rfl := Except.ok.inj h
    exact .refl w
  next => cases h
  next p hp =>
    split at h
    · cases h
    · obtain rfl := Except.ok.inj h
      obtain ⟨hfree, hne⟩ := resolve_free hp
      exact .put hne hfree (.inr rfl)

end World

namespace Store

theorem makeDirs_grows (path : String) (w : World) : w.Grows (Act.makeDirs path w).2 := by
  have h := World.makeDirsWithin_grows (path.length + 1) w path
  unfold Act.makeDirs World.makeDirs
  split
  next w' heq => simpa [heq] using h
  next e w' heq => simpa [heq] using h

end Store
end SkillAudit
