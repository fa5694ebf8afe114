import Mathlib
import SkillAudit.Proofs.PathNames
import SkillAudit.Proofs.StateFile

/-!
The places that a path passes. They decide where the path leads and whether it leads to a directory,
and a directory that is made on the way to another stands at one of them.
-/
namespace SkillAudit.World

/-- The places that names step on, links being followed, through what is missing too. -/
def passes (w : World) (links : Nat) (here : Place) (names : List String) : List Place :=
  match names with
  | [] => []
  | name :: rest =>
    if walk.isIdle name then passes w links here rest
    else if name == ".." then passes w links here.dropLast rest
    else
      match w.at? (here ++ [name]) with
      | some (.link target) =>
        match links with
        | 0 => [here ++ [name]]
        | links + 1 => (here ++ [name]) ::
          passes w links (if Path.isAbsolute target then [] else here) (Path.pieces target ++ rest)
      | _ => (here ++ [name]) :: passes w links (here ++ [name]) rest
termination_by (links, names.length)

def onWay (w : World) (path : String) : List Place :=
  w.passes linkLimit (w.start path) (Path.steps path)

section Passes
variable {w : World} {links : Nat} {here : Place} {name : String} {rest : List String}

theorem passes_step (hname : IsStep name) (hat : ∀ t, w.at? (here ++ [name]) ≠ some (.link t)) :
    w.passes links here (name :: rest) =
      (here ++ [name]) :: w.passes links (here ++ [name]) rest := by
  rw [passes]
  simp only [hname.busy, hname.down, Bool.false_eq_true, if_false]

theorem passes_over {target : String} (hname : IsStep name)
    (hat : w.at? (here ++ [name]) = some (.link target)) :
    w.passes (links + 1) here (name :: rest) =
      (here ++ [name]) :: w.passes links (if Path.isAbsolute target then [] else here)
        (Path.pieces target ++ rest) := by
  rw [passes]
  simp [hname.busy, hname.down, hat]

theorem passes_stuck {target : String} (hname : IsStep name)
    (hat : w.at? (here ++ [name]) = some (.link target)) :
    w.passes 0 here (name :: rest) = [here ++ [name]] := by
  rw [passes]
  simp [hname.busy, hname.down, hat]

theorem passes_up (hname : (name == "..") = true) :
    w.passes links here (name :: rest) = w.passes links here.dropLast rest := by
  obtain rfl : name = ".." := by simpa using hname
  rw [passes]
  simp [walk.isIdle]

theorem passes_idle (hname : walk.isIdle name = true) :
    w.passes links here (name :: rest) = w.passes links here rest := by
  rw [passes]
  simp [hname]

theorem course_idle {follow : Bool} (hname : walk.isIdle name = true) :
    w.course follow links here (name :: rest) = w.course follow links here rest := by
  rw [course]
  simp [hname]

theorem course_up {follow : Bool} (hname : (name == "..") = true) :
    w.course follow links here (name :: rest) = w.course follow links here.dropLast rest := by
  obtain rfl : name = ".." := by simpa using hname
  rw [course]
  simp [walk.isIdle]

theorem course_stuck {target : String} (hname : IsStep name)
    (hat : w.at? (here ++ [name]) = some (.link target)) :
    w.course true 0 here (name :: rest) = none := by
  rw [course]
  simp [hname.busy, hname.down, hat]

end Passes

theorem mem_passes_head {w : World} {links : Nat} {here : Place} {name : String}
    {rest : List String} (hname : IsStep name) :
    here ++ [name] ∈ w.passes links here (name :: rest) := by
  by_cases hlink : ∃ t, w.at? (here ++ [name]) = some (.link t)
  · obtain ⟨t, ht⟩ := hlink
    cases links with
    | zero => simp [passes_stuck hname ht]
    | succ links => simp [passes_over hname ht]
  · rw [passes_step hname fun t ht => hlink ⟨t, ht⟩]
    simp

/-- A name is idle, or leads up, or is a step down. -/
theorem name_cases (name : String) :
    walk.isIdle name = true ∨ (name == "..") = true ∨ IsStep name := by
  cases hidle : walk.isIdle name with
  | true => exact .inl rfl
  | false =>
    cases hup : name == ".." with
    | true => exact .inr (.inl rfl)
    | false => exact .inr (.inr ⟨hidle, hup⟩)

/-- Idle names change neither where names lead nor what they pass. -/
theorem course_filter (w : World) (links : Nat) (here : Place) (names : List String) :
    w.course true links here (names.filter fun p => !Path.isIdle p) =
        w.course true links here names ∧
      w.passes links here (names.filter fun p => !Path.isIdle p) = w.passes links here names := by
  -- A link is replaced by what it says, which may have idle names as well.
  induction links using Nat.strong_induction_on generalizing here names with
  | _ links ihlinks =>
    induction names generalizing here with
    | nil => exact ⟨rfl, rfl⟩
    | cons name rest ih =>
      rcases name_cases name with hidle | hup | hstep
      · have hdrop : Path.isIdle name = true := hidle
        rw [List.filter_cons, if_neg (by simp [hdrop]), course_idle hidle, passes_idle hidle]
        exact ih here
      · have hkeep : Path.isIdle name = false := by
          obtain rfl : name = ".." := by simpa using hup
          decide
        rw [List.filter_cons, if_pos (by simp [hkeep]), course_up hup, course_up hup,
          passes_up hup, passes_up hup]
        exact ih here.dropLast
      · have hkeep : Path.isIdle name = false := hstep.busy
        rw [List.filter_cons, if_pos (by simp [hkeep])]
        by_cases hlink : ∃ t, w.at? (here ++ [name]) = some (.link t)
        · obtain ⟨t, ht⟩ := hlink
          cases links with
          | zero =>
            rw [course_stuck hstep ht, course_stuck hstep ht, passes_stuck hstep ht,
              passes_stuck hstep ht]
            exact ⟨rfl, rfl⟩
          | succ links =>
            obtain ⟨hc, hp⟩ := ihlinks links (by omega)
              (if Path.isAbsolute t then [] else here) (Path.pieces t ++ rest)
            obtain ⟨hc', hp'⟩ := ihlinks links (by omega)
              (if Path.isAbsolute t then [] else here)
              (Path.pieces t ++ rest.filter fun p => !Path.isIdle p)
            rw [List.filter_append, List.filter_filter] at hc' hp'
            simp only [Bool.and_self] at hc' hp'
            rw [List.filter_append] at hc hp
            rw [course_over hstep ht (by simp), course_over hstep ht (by simp),
              passes_over hstep ht, passes_over hstep ht, ← hc', ← hp', hc, hp]
            exact ⟨rfl, rfl⟩
        · have hat : ∀ t, w.at? (here ++ [name]) ≠ some (.link t) := fun t ht => hlink ⟨t, ht⟩
          rw [course_step hstep hat, course_step hstep hat, passes_step hstep hat,
            passes_step hstep hat, (ih _).1, (ih _).2]
          exact ⟨rfl, rfl⟩

theorem goal?_eq (w : World) (path : String) :
    w.goal? path = w.course true linkLimit (w.start path) (Path.steps path) := by
  rw [goal?, ← Path.filter_namesOf, (course_filter w _ _ _).1]

theorem onWay_eq (w : World) (path : String) :
    w.onWay path = w.passes linkLimit (w.start path) (namesOf path) := by
  rw [onWay, ← Path.filter_namesOf, (course_filter w _ _ _).2]

section Congr
variable {w w' : World} {links : Nat} {here : Place} {names : List String}

/-- Where names lead, and what they pass, depends on the links among the places they pass. -/
theorem course_eq_of_links
    (h : ∀ q ∈ w.passes links here names, ∀ t, w'.at? q = some (.link t) ↔ w.at? q = some (.link t)) :
    w'.course true links here names = w.course true links here names ∧
      w'.passes links here names = w.passes links here names := by
  fun_induction passes w links here names with
  | case1 => simp [course, passes]
  | case2 links here name rest hidle ih =>
    rw [course_idle hidle, course_idle hidle, passes_idle hidle]
    exact ih h
  | case3 links here name rest hidle hup ih =>
    rw [course_up hup, course_up hup, passes_up hup]
    exact ih h
  | case4 here name rest hidle hup target hat =>
    have hstep : IsStep name := ⟨by simpa using hidle, by simpa using hup⟩
    have hat' := (h _ (by simp) target).mpr hat
    rw [course_stuck hstep hat, course_stuck hstep hat', passes_stuck hstep hat']
    exact ⟨rfl, rfl⟩
  | case5 here name rest hidle hup target hat links ih =>
    have hstep : IsStep name := ⟨by simpa using hidle, by simpa using hup⟩
    have hat' := (h _ (by simp) target).mpr hat
    simp only [dite_eq_ite] at ih
    obtain ⟨hc, hp⟩ := ih fun q hq => h q (by simp [hq])
    rw [course_over hstep hat (by simp), course_over hstep hat' (by simp), passes_over hstep hat']
    exact ⟨by rw [hc], by rw [hp]⟩
  | case6 links here name rest hidle hup hat ih =>
    have hstep : IsStep name := ⟨by simpa using hidle, by simpa using hup⟩
    have hat' : ∀ t, w'.at? (here ++ [name]) ≠ some (.link t) := fun t ht =>
      hat t ((h _ (by simp) t).mp ht)
    obtain ⟨hc, hp⟩ := ih fun q hq => h q (by simp [hq])
    rw [course_step hstep hat, course_step hstep hat', passes_step hstep hat', hc, hp]
    exact ⟨rfl, rfl⟩

end Congr

section Append
variable {w : World} {links : Nat} {here : Place} {names further : List String} {r : Route}

/-- Further names lead on from where the first ones lead, with the links that are left. -/
theorem course_append {follow : Bool} (h : w.course true links here names = some r)
    (hfurther : (further.isEmpty && !follow) = false) :
    w.course follow links here (names ++ further) =
      (w.course follow (links - r.links.length) r.place further).map
        fun s => ⟨r.links ++ s.links, s.place⟩ := by
  fun_induction course w true links here names generalizing r with
  | case1 links here =>
    obtain rfl := Option.some.inj h
    simp
  | case2 links here name rest hidle ih =>
    rw [List.cons_append, course_idle hidle]
    exact ih h
  | case3 links here name rest hidle hup ih =>
    rw [List.cons_append, course_up hup]
    exact ih h
  | case4 links here name rest hidle hup target hat hlast => simp at hlast
  | case5 => cases h
  | case6 here name rest hidle hup target hat hlast links ih =>
    obtain ⟨r', hr', rfl⟩ := Option.map_eq_some_iff.mp h
    have hgo : ((rest ++ further).isEmpty && !follow) = false := by
      cases rest with
      | nil => exact hfurther
      | cons => simp
    simp only [dite_eq_ite] at ih hr'
    rw [List.cons_append, course_over ⟨by simpa using hidle, by simpa using hup⟩ hat hgo,
      ← List.append_assoc, ih hr', Option.map_map]
    simp [Function.comp_def]
  | case7 links here name rest hidle hup hat ih =>
    rw [List.cons_append, course_step ⟨by simpa using hidle, by simpa using hup⟩ hat]
    exact ih h

theorem passes_append (h : w.course true links here names = some r) (further : List String) :
    w.passes links here (names ++ further) =
      w.passes links here names ++ w.passes (links - r.links.length) r.place further := by
  fun_induction course w true links here names generalizing r with
  | case1 links here =>
    obtain rfl := Option.some.inj h
    simp [passes]
  | case2 links here name rest hidle ih =>
    rw [List.cons_append, passes_idle hidle, passes_idle hidle]
    exact ih h
  | case3 links here name rest hidle hup ih =>
    rw [List.cons_append, passes_up hup, passes_up hup]
    exact ih h
  | case4 links here name rest hidle hup target hat hlast => simp at hlast
  | case5 => cases h
  | case6 here name rest hidle hup target hat hlast links ih =>
    obtain ⟨r', hr', rfl⟩ := Option.map_eq_some_iff.mp h
    have hstep : IsStep name := ⟨by simpa using hidle, by simpa using hup⟩
    simp only [dite_eq_ite] at ih hr'
    rw [List.cons_append, passes_over hstep hat, passes_over hstep hat, ← List.append_assoc, ih hr']
    simp
  | case7 links here name rest hidle hup hat ih =>
    have hstep : IsStep name := ⟨by simpa using hidle, by simpa using hup⟩
    rw [List.cons_append, passes_step hstep hat, passes_step hstep hat, ih h, List.cons_append]

/-- What names pass, they pass when more follow. -/
theorem passes_subset (w : World) (links : Nat) (here : Place) (names further : List String) :
    w.passes links here names ⊆ w.passes links here (names ++ further) := by
  fun_induction passes w links here names with
  | case1 => simp
  | case2 links here name rest hidle ih => rwa [List.cons_append, passes_idle hidle]
  | case3 links here name rest hidle hup ih => rwa [List.cons_append, passes_up hup]
  | case4 here name rest hidle hup target hat =>
    rw [List.cons_append, passes_stuck ⟨by simpa using hidle, by simpa using hup⟩ hat]
    exact List.Subset.refl _
  | case5 here name rest hidle hup target hat links ih =>
    simp only [dite_eq_ite] at ih
    rw [List.cons_append, passes_over ⟨by simpa using hidle, by simpa using hup⟩ hat]
    exact List.cons_subset_cons _ (by rwa [← List.append_assoc])
  | case6 links here name rest hidle hup hat ih =>
    rw [List.cons_append, passes_step ⟨by simpa using hidle, by simpa using hup⟩ hat]
    exact List.cons_subset_cons _ ih

/-- Where no link is below, names lead straight down. -/
theorem course_down (hnames : ∀ name ∈ names, IsStep name)
    (hat : ∀ further, ∀ t, w.at? (here ++ further) ≠ some (.link t)) :
    w.course true links here names = some ⟨[], here ++ names⟩ ∧
      ∀ q, q ∈ w.passes links here names ↔ ∃ ms, ms ≠ [] ∧ ms <+: names ∧ q = here ++ ms := by
  induction names generalizing here with
  | nil => simp [course, passes]
  | cons name rest ih =>
    have hstep := hnames name (by simp)
    have hhere : ∀ t, w.at? (here ++ [name]) ≠ some (.link t) := hat [name]
    have hbelow : ∀ further t, w.at? (here ++ [name] ++ further) ≠ some (.link t) :=
      fun further t => by simpa using hat (name :: further) t
    obtain ⟨hc, hp⟩ := ih (fun n hn => hnames n (by simp [hn])) hbelow
    rw [course_step hstep hhere, passes_step hstep hhere, hc]
    refine ⟨by simp, fun q => ?_⟩
    rw [List.mem_cons, hp]
    constructor
    · rintro (rfl | ⟨ms, -, hms, rfl⟩)
      · exact ⟨[name], by simp, by simp, rfl⟩
      · exact ⟨name :: ms, by simp, by simpa using hms, by simp⟩
    · rintro ⟨ms, hne, hms, rfl⟩
      cases ms with
      | nil => exact absurd rfl hne
      | cons m ms =>
        obtain ⟨rfl, hrest⟩ := List.cons_prefix_cons.mp hms
        cases ms with
        | nil => exact .inl rfl
        | cons m' ms => exact .inr ⟨m' :: ms, by simp, hrest, by simp⟩

end Append

/-! Links that lead back. -/

section Back
variable {w : World} {links : Nat} {here : Place} {names : List String} {r : Route}

/-- With more links to follow, names lead to the same. -/
theorem course_mono {more : Nat} (h : w.course true links here names = some r)
    (hmore : links ≤ more) : w.course true more here names = some r ∧
      w.passes more here names = w.passes links here names := by
  fun_induction course w true links here names generalizing more r with
  | case1 links here => simpa [course, passes] using h
  | case2 links here name rest hidle ih =>
    rw [course_idle hidle, passes_idle hidle, passes_idle hidle]
    exact ih h hmore
  | case3 links here name rest hidle hup ih =>
    rw [course_up hup, passes_up hup, passes_up hup]
    exact ih h hmore
  | case4 links here name rest hidle hup target hat hlast => simp at hlast
  | case5 => cases h
  | case6 here name rest hidle hup target hat hlast links ih =>
    obtain ⟨r', hr', rfl⟩ := Option.map_eq_some_iff.mp h
    have hstep : IsStep name := ⟨by simpa using hidle, by simpa using hup⟩
    simp only [dite_eq_ite] at ih hr'
    obtain ⟨more, rfl⟩ : ∃ n, more = n + 1 := ⟨more - 1, by omega⟩
    obtain ⟨hcourse, hpasses⟩ := ih hr' (by omega : links ≤ more)
    rw [course_over hstep hat (by simp), passes_over hstep hat, passes_over hstep hat, hcourse,
      hpasses]
    exact ⟨rfl, rfl⟩
  | case7 links here name rest hidle hup hat ih =>
    have hstep : IsStep name := ⟨by simpa using hidle, by simpa using hup⟩
    obtain ⟨hcourse, hpasses⟩ := ih h hmore
    rw [course_step hstep hat, passes_step hstep hat, passes_step hstep hat, hcourse, hpasses]
    exact ⟨rfl, rfl⟩

/-- Where names lead somewhere, the first of them do. -/
theorem course_front {further : List String}
    (h : w.course true links here (names ++ further) = some r) :
    ∃ s, w.course true links here names = some s := by
  fun_induction course w true links here names generalizing r with
  | case1 links here => exact ⟨_, rfl⟩
  | case2 links here name rest hidle ih =>
    rw [List.cons_append, course_idle hidle] at h
    exact ih h
  | case3 links here name rest hidle hup ih =>
    rw [List.cons_append, course_up hup] at h
    exact ih h
  | case4 links here name rest hidle hup target hat hlast => simp at hlast
  | case5 here name rest hidle hup target hat =>
    rw [List.cons_append, course_stuck ⟨by simpa using hidle, by simpa using hup⟩ hat] at h
    cases h
  | case6 here name rest hidle hup target hat hlast links ih =>
    rw [List.cons_append, course_over ⟨by simpa using hidle, by simpa using hup⟩ hat (by simp)] at h
    obtain ⟨r', hr', -⟩ := Option.map_eq_some_iff.mp h
    simp only [dite_eq_ite] at ih ⊢
    obtain ⟨s, hs⟩ := ih (by rwa [List.append_assoc])
    exact ⟨_, by rw [hs]; rfl⟩
  | case7 links here name rest hidle hup hat ih =>
    rw [List.cons_append, course_step ⟨by simpa using hidle, by simpa using hup⟩ hat] at h
    exact ih h

/-- Names that pass a link go on with what the link says, and fewer links to follow. -/
theorem course_of_passed {at_ : Place} {name target : String}
    (hat : w.at? (at_ ++ [name]) = some (.link target))
    (h : w.course true links here names = some r) (hmem : at_ ++ [name] ∈ w.passes links here names) :
    ∃ fewer < links, ∃ rest s,
      w.course true fewer (if Path.isAbsolute target then [] else at_)
        (Path.pieces target ++ rest) = some s := by
  fun_induction course w true links here names generalizing r with
  | case1 links here => simp [passes] at hmem
  | case2 links here name' rest hidle ih => exact ih h (by rwa [passes_idle hidle] at hmem)
  | case3 links here name' rest hidle hup ih => exact ih h (by rwa [passes_up hup] at hmem)
  | case4 links here name' rest hidle hup target' hat' hlast => simp at hlast
  | case5 => cases h
  | case6 here name' rest hidle hup target' hat' hlast links ih =>
    obtain ⟨r', hr', -⟩ := Option.map_eq_some_iff.mp h
    simp only [dite_eq_ite] at ih hr'
    rw [passes_over ⟨by simpa using hidle, by simpa using hup⟩ hat', List.mem_cons] at hmem
    rcases hmem with heq | hmem
    · obtain ⟨rfl, hname⟩ := List.append_inj' heq rfl
      rw [← heq, hat] at hat'
      obtain rfl : target = target' := by simpa using hat'
      exact ⟨links, by omega, rest, r', hr'⟩
    · obtain ⟨fewer, hfewer, hrest⟩ := ih hr' hmem
      exact ⟨fewer, by omega, hrest⟩
  | case7 links here name' rest hidle hup hat' ih =>
    rw [passes_step ⟨by simpa using hidle, by simpa using hup⟩ hat', List.mem_cons] at hmem
    rcases hmem with heq | hmem
    · exact absurd (heq ▸ hat) (hat' target)
    · exact ih h hmem

/-- A link that leads somewhere does not lead over itself. -/
theorem not_mem_passes_self {name target : String}
    (hat : w.at? (here ++ [name]) = some (.link target))
    (h : w.course true links (if Path.isAbsolute target then [] else here) (Path.pieces target) =
      some r) :
    here ++ [name] ∉
      w.passes links (if Path.isAbsolute target then [] else here) (Path.pieces target) := by
  classical
  -- The fewest links with which it leads somewhere would not be the fewest.
  have hsome : ∃ n s, w.course true n (if Path.isAbsolute target then [] else here)
      (Path.pieces target) = some s := ⟨links, r, h⟩
  obtain ⟨s, hs⟩ := Nat.find_spec hsome
  obtain ⟨-, hpasses⟩ := course_mono hs (Nat.find_min' hsome ⟨r, h⟩)
  intro hmem
  rw [hpasses] at hmem
  obtain ⟨fewer, hfewer, rest, s', hs'⟩ := course_of_passed hat hs hmem
  exact Nat.find_min hsome hfewer (course_front hs')

end Back

/-! Paths to directories. -/

/-- A place that a walk to a directory may pass: a directory, or a link that means something. -/
structure Clear (w : World) (q : Place) : Prop where
  open_ : w.at? q = some .dir ∨ ∃ t, w.at? q = some (.link t) ∧ t ≠ ""
  short : ∀ name ∈ q.getLast?, name.utf8ByteSize ≤ 255

/-- A walk ends at a directory when nothing on the way stops it. -/
theorem walk_dir_iff {w : World} {slash : Bool} {links : Nat} {here : Place} {names : List String}
    {p : Place} : w.walk true slash links here names = .ok (.taken p .dir) ↔
      (∃ r, w.course true links here names = some r ∧ r.place = p) ∧
        ∀ q ∈ w.passes links here names, Clear w q := by
  fun_induction walk w true slash links here names with
  | case1 links here => simp [course, passes, eq_comm]
  | case2 links here name rest hidle ih => rw [ih, course_idle hidle, passes_idle hidle]
  | case3 links here name rest hidle hup ih => rw [ih, course_up hup, passes_up hup]
  | case4 links here name rest hidle hup hlong =>
    have hmem : here ++ [name] ∈ w.passes links here (name :: rest) :=
      mem_passes_head ⟨by simpa using hidle, by simpa using hup⟩
    simp only [reduceCtorEq, false_iff, not_and]
    intro _ hclear
    have hshort := (hclear _ hmem).short name (by simp)
    omega
  | case5 links here name rest hidle hup hshort place hat hlast
  | case6 links here name rest hidle hup hshort place hat hlast =>
    have hmem : place ∈ w.passes links here (name :: rest) :=
      mem_passes_head ⟨by simpa using hidle, by simpa using hup⟩
    simp only [Except.ok.injEq, reduceCtorEq, false_iff, not_and]
    intro _ hclear
    rcases (hclear _ hmem).open_ with hdir | ⟨t, ht, -⟩ <;> simp_all
  | case7 links here name rest hidle hup hshort place hat ih =>
    have hstep : IsStep name := ⟨by simpa using hidle, by simpa using hup⟩
    have hlink : ∀ t, w.at? (here ++ [name]) ≠ some (.link t) := by simp [place] at hat; simp [hat]
    have hclear : Clear w (here ++ [name]) := ⟨.inl hat, by simpa using hshort⟩
    rw [ih, course_step hstep hlink, passes_step hstep hlink]
    simp [place, hclear]
  | case8 links here name rest hidle hup hshort place bytes hat hlast
  | case9 links here name rest hidle hup hshort place bytes hat hlast =>
    have hmem : place ∈ w.passes links here (name :: rest) :=
      mem_passes_head ⟨by simpa using hidle, by simpa using hup⟩
    simp only [Except.ok.injEq, Spot.taken.injEq, reduceCtorEq, and_false, false_iff, not_and]
    intro _ hclear
    rcases (hclear _ hmem).open_ with hdir | ⟨t, ht, -⟩ <;> simp_all
  | case10 links here name rest hidle hup hshort place target hat hlast => simp at hlast
  | case11 here name rest hidle hup hshort place target hat hlast =>
    have hstep : IsStep name := ⟨by simpa using hidle, by simpa using hup⟩
    simp [course_stuck hstep hat]
  | case12 here name rest hidle hup hshort place target hat hlast links htarget =>
    have hmem : place ∈ w.passes (links + 1) here (name :: rest) :=
      mem_passes_head ⟨by simpa using hidle, by simpa using hup⟩
    simp only [reduceCtorEq, false_iff, not_and]
    intro _ hclear
    rcases (hclear _ hmem).open_ with hdir | ⟨t, ht, hne⟩ <;> simp_all
  | case13 here name rest hidle hup hshort place target hat hlast links htarget ih =>
    have hstep : IsStep name := ⟨by simpa using hidle, by simpa using hup⟩
    have hclear : Clear w (here ++ [name]) :=
      ⟨.inr ⟨target, hat, by simpa using htarget⟩, by simpa using hshort⟩
    simp only [dite_eq_ite] at ih
    rw [ih, course_over hstep hat (by simp), passes_over hstep hat]
    simp [hclear]

theorem clear_of_leads {w : World} {follow slash : Bool} {links : Nat} {here : Place}
    {names further : List String} {trail : List Place} {spot : Spot}
    (h : Leads w follow slash links here (names ++ further) trail spot) (hfurther : further ≠ []) :
    (∃ r, w.course true links here names = some r) ∧ ∀ q ∈ w.passes links here names, Clear w q := by
  generalize hall : names ++ further = all at h
  induction h generalizing names with
  | here => exact absurd (List.append_eq_nil_iff.mp hall).2 hfurther
  | idle hname h ih =>
    rcases List.append_eq_cons_iff.mp hall with ⟨rfl, -⟩ | ⟨rest, rfl, hrest⟩
    · simp [course, passes]
    · rw [course_idle hname, passes_idle hname]
      exact ih hrest.symm
  | up hidle hname h ih =>
    rcases List.append_eq_cons_iff.mp hall with ⟨rfl, -⟩ | ⟨rest, rfl, hrest⟩
    · simp [course, passes]
    · rw [course_up hname, passes_up hname]
      exact ih hrest.symm
  | free | file | link =>
    rcases List.append_eq_cons_iff.mp hall with ⟨rfl, -⟩ | ⟨rest, rfl, hrest⟩
    · simp [course, passes]
    · exact absurd (List.append_eq_nil_iff.mp hrest.symm).2 hfurther
  | down hname hshort hat h ih =>
    rcases List.append_eq_cons_iff.mp hall with ⟨rfl, -⟩ | ⟨rest, rfl, hrest⟩
    · simp [course, passes]
    · rw [course_step hname (by simp [hat]), passes_step hname (by simp [hat])]
      obtain ⟨hcourse, hclear⟩ := ih hrest.symm
      exact ⟨hcourse, List.forall_mem_cons.mpr ⟨⟨.inl hat, by simpa using hshort⟩, hclear⟩⟩
  | @through links here name target later _ _ hname hshort hat hgo htarget h ih =>
    rcases List.append_eq_cons_iff.mp hall with ⟨rfl, -⟩ | ⟨rest, rfl, hrest⟩
    · simp [course, passes]
    · rw [course_over hname hat (by simp), passes_over hname hat]
      have hsplit : Path.pieces target ++ rest ++ further = Path.pieces target ++ later := by
        rw [hrest, List.append_assoc]
      obtain ⟨⟨r, hcourse⟩, hclear⟩ := ih hsplit
      refine ⟨⟨_, by rw [hcourse]; rfl⟩, List.forall_mem_cons.mpr ⟨⟨.inr ⟨_, hat, ?_⟩, ?_⟩, hclear⟩⟩
      · simpa using htarget
      · simpa using hshort

/-- Names that lead to a directory can be followed by those that lead on from it. -/
theorem leads_append {w : World} {follow slash slash' : Bool} {links : Nat} {here p : Place}
    {names further : List String} {trail trail' : List Place} {spot : Spot}
    (h : Leads w true slash' links here names trail (.taken p .dir)) (hfurther : further ≠ [])
    (h' : Leads w follow slash (links - trail.length) p further trail' spot) :
    Leads w follow slash links here (names ++ further) (trail ++ trail') spot := by
  generalize hs : Spot.taken p .dir = s at h
  induction h with
  | here =>
    cases hs
    simpa using h'
  | free | file => cases hs
  | link _ _ _ hfollow => cases hfollow
  | idle hname _ ih => exact .idle hname (ih h' hs)
  | up hidle hname _ ih => exact .up hidle hname (ih h' hs)
  | down hname hshort hat _ ih => exact .down hname hshort hat (ih h' hs)
  | through hname hshort hat _ htarget _ ih =>
    rw [List.length_cons, Nat.add_sub_add_right] at h'
    have hrest := ih h' hs
    rw [List.append_assoc] at hrest
    exact .through hname hshort hat (by simp [hfurther]) htarget hrest

/-- Whether a path leads to a directory, its slashes and dots apart. -/
structure LeadsToDir (w : World) (path : String) (p : Place) : Prop where
  goal : ∃ g, w.goal? path = some g ∧ g.place = p
  clear : ∀ q ∈ w.onWay path, Clear w q

/-- Names that mean the steps of a path lead where the path leads. -/
theorem leadsToDir_iff {w : World} {path : String} {front : List String} {p : Place} (slash : Bool)
    (hfront : front.filter (fun n => !Path.isIdle n) = Path.steps path) :
    w.LeadsToDir path p ↔
      w.walk true slash linkLimit (w.start path) front = .ok (.taken p .dir) := by
  obtain ⟨hcourse, hpasses⟩ := course_filter w linkLimit (w.start path) front
  rw [walk_dir_iff, ← hcourse, ← hpasses, hfront, ← goal?_eq]
  exact ⟨fun h => ⟨h.goal, h.clear⟩, fun h => ⟨h.1, h.2⟩⟩

theorem isPath_of_resolve {w : World} {follow : Bool} {path : String} {spot : Spot}
    (h : w.resolve follow path = .ok spot) : IsPath path := by
  rw [resolve_eq] at h
  split at h
  next => cases h
  next hempty =>
    split at h
    next => cases h
    next hzero =>
      split at h
      next => cases h
      next hlong => exact ⟨by simpa using hempty, by simpa using hzero, by omega⟩

theorem IsPath.resolve_eq {path : String} (h : IsPath path) (w : World) (follow : Bool) :
    w.resolve follow path =
      w.walk follow (endsInSlash path) linkLimit (w.start path) (namesOf path) := by
  have hshort := h.short
  rw [World.resolve_eq, h.nonempty, h.noZero, if_neg (by simp), if_neg (by simp), if_neg (by omega)]

theorem IsPath.resolve {w : World} {follow : Bool} {path : String} {trail : List Place} {spot : Spot}
    (h : IsPath path) (hleads : Leads w follow (endsInSlash path) linkLimit (w.start path)
      (namesOf path) trail spot) : w.resolve follow path = .ok spot := by
  rw [h.resolve_eq, walk_of_leads hleads]

theorem find_dir_iff {w : World} {path : String} {p : Place} :
    w.find path = .ok (p, .dir) ↔ IsPath path ∧ w.LeadsToDir path p := by
  constructor
  · intro h
    have hfound := resolve_of_find h
    have hpath := isPath_of_resolve hfound
    rw [hpath.resolve_eq] at hfound
    exact ⟨hpath, (leadsToDir_iff _ (Path.filter_namesOf path)).mpr hfound⟩
  · rintro ⟨hpath, hdir⟩
    have hfound := (leadsToDir_iff (endsInSlash path) (Path.filter_namesOf path)).mp hdir
    rw [← hpath.resolve_eq] at hfound
    simp only [find, hfound]

/-- A path leads to the same directory while nothing changes on the way. -/
theorem LeadsToDir.of_same {w v : World} {path : String} {p : Place} (h : w.LeadsToDir path p)
    (hcwd : v.cwd = w.cwd) (hsame : ∀ q ∈ w.onWay path, v.at? q = w.at? q) :
    v.LeadsToDir path p ∧ v.onWay path = w.onWay path := by
  have hstart : v.start path = w.start path := by rw [start, start, hcwd]
  have hlinks : ∀ q ∈ w.passes linkLimit (w.start path) (Path.steps path), ∀ t,
      v.at? q = some (.link t) ↔ w.at? q = some (.link t) := fun q hq t => by rw [hsame q hq]
  obtain ⟨hcourse, hpasses⟩ := course_eq_of_links hlinks
  have hway : v.onWay path = w.onWay path := by rw [onWay, hstart, hpasses, onWay]
  refine ⟨⟨?_, ?_⟩, hway⟩
  · rw [goal?_eq, hstart, hcourse, ← goal?_eq]
    exact h.goal
  · intro q hq
    rw [hway] at hq
    obtain ⟨hopen, hshort⟩ := h.clear q hq
    exact ⟨by rwa [hsame q hq], hshort⟩

theorem LeadsToDir.join {w : World} {base name : String} {p : Place} (h : w.LeadsToDir base p)
    (hname : IsName name) (hat : w.at? (p ++ [name]) = some .dir) :
    w.LeadsToDir (Path.join base name) (p ++ [name]) := by
  obtain ⟨g, hgoal, rfl⟩ := h.goal
  have hlink : ∀ t, w.at? (g.place ++ [name]) ≠ some (.link t) := by simp [hat]
  have hstep := Path.isStep_name hname
  have hstart : w.start (Path.join base name) = w.start base := by
    rw [start, start, Path.isAbsolute_join (Path.isAbsolute_name hname)]
  rw [goal?_eq] at hgoal
  constructor
  · refine ⟨⟨g.links, g.place ++ [name]⟩, ?_, rfl⟩
    rw [goal?_eq, hstart, Path.steps_join_name hname, course_append hgoal (by simp),
      course_step hstep hlink]
    simp [course]
  · intro q hq
    rw [onWay, hstart, Path.steps_join_name hname, passes_append hgoal, passes_step hstep hlink]
      at hq
    rcases List.mem_append.mp hq with hq | hq
    · exact h.clear q hq
    · obtain rfl : q = g.place ++ [name] := by simpa [passes] using hq
      exact ⟨.inl hat, by simpa using hname.short⟩

end SkillAudit.World
