import Mathlib
import SkillAudit.Proofs.TreeChange

/-!
Paths that lead as before. Where a path leads depends on which of the places that it passes are
links, and what it finds on what stands at them.
-/
namespace SkillAudit.World

section Congr
variable {w v : World} {follow slash : Bool} {links : Nat} {here : Place} {names : List String}

/-- Where names lead, the last of them not being followed, depends on the links among the places they
pass. -/
theorem course_last_of_links
    (h : ∀ q ∈ w.passes links here names, ∀ t, v.at? q = some (.link t) ↔ w.at? q = some (.link t)) :
    v.course false links here names = w.course false links here names := by
  fun_induction passes w links here names with
  | case1 => simp [course]
  | case2 links here name rest hidle ih =>
    rw [course_idle hidle, course_idle hidle]
    exact ih h
  | case3 links here name rest hidle hup ih =>
    rw [course_up hup, course_up hup]
    exact ih h
  | case4 here name rest hidle hup target hat =>
    have hat' := (h _ (by simp) target).mpr hat
    rw [course, course]
    simp only [hidle, hup, hat, hat', Bool.false_eq_true, if_false]
  | case5 here name rest hidle hup target hat links ih =>
    have hstep : IsStep name := ⟨by simpa using hidle, by simpa using hup⟩
    have hat' := (h _ (by simp) target).mpr hat
    simp only [dite_eq_ite] at ih
    have hrest := ih fun q hq => h q (by simp [hq])
    cases rest with
    | nil => rw [course_last hstep, course_last hstep]
    | cons next rest =>
      rw [course_over hstep hat (by simp), course_over hstep hat' (by simp), hrest]
  | case6 links here name rest hidle hup hat ih =>
    have hstep : IsStep name := ⟨by simpa using hidle, by simpa using hup⟩
    have hat' : ∀ t, v.at? (here ++ [name]) ≠ some (.link t) := fun t ht =>
      hat t ((h _ (by simp) t).mp ht)
    rw [course_step hstep hat, course_step hstep hat']
    exact ih fun q hq => h q (by simp [hq])

/-- Names pass nothing new where a link at their end is gone, no link is new, and the others that
they lead over are kept. -/
theorem passes_subset_of_course {r : Route} (h : w.course false links here names = some r)
    (hkept : ∀ q ∈ r.links, ∀ t, w.at? q = some (.link t) → v.at? q = some (.link t))
    (hnew : ∀ q t, v.at? q = some (.link t) → w.at? q = some (.link t))
    (hend : ∀ t, v.at? r.place ≠ some (.link t)) :
    v.passes links here names ⊆ w.passes links here names := by
  revert r
  fun_induction course w false links here names with
  | case1 => simp [passes]
  | case2 links here name rest hidle ih =>
    intro r h hkept hend
    rw [passes_idle hidle, passes_idle hidle]
    exact ih h hkept hend
  | case3 links here name rest hidle hup ih =>
    intro r h hkept hend
    rw [passes_up hup, passes_up hup]
    exact ih h hkept hend
  | case4 links here name rest hidle hup target hat hlast =>
    intro r h _ hend
    have hstep : IsStep name := ⟨by simpa using hidle, by simpa using hup⟩
    obtain rfl : rest = [] := by simpa using hlast
    obtain rfl := Option.some.inj h
    rw [passes_step hstep hend, passes]
    simpa using mem_passes_head hstep
  | case5 =>
    intro r h
    cases h
  | case6 here name rest hidle hup target hat hlast links ih =>
    intro r h hkept hend
    have hstep : IsStep name := ⟨by simpa using hidle, by simpa using hup⟩
    obtain ⟨r', hr', rfl⟩ := Option.map_eq_some_iff.mp h
    have hlink := hkept (here ++ [name]) (by simp) target hat
    rw [passes_over hstep hlink, passes_over hstep hat]
    exact List.cons_subset_cons _ (by simpa using ih hr' (fun q hq => hkept q (by simp [hq])) hend)
  | case7 links here name rest hidle hup hat ih =>
    intro r h hkept hend
    have hstep : IsStep name := ⟨by simpa using hidle, by simpa using hup⟩
    rw [passes_step hstep fun t ht => hat t (hnew _ t ht), passes_step hstep hat]
    exact List.cons_subset_cons _ (ih h hkept hend)

/-- What names find, they find again where everything they pass is kept. -/
theorem leads_keeps_passed {trail : List Place} {p : Place} {n : Node}
    (h : Leads w follow slash links here names trail (.taken p n))
    (hkeeps : ∀ q ∈ w.passes links here names, ∀ m, w.at? q = some m → v.at? q = some m) :
    Leads v follow slash links here names trail (.taken p n) := by
  generalize hs : Spot.taken p n = s at h
  induction h with
  | here => exact .here
  | free => cases hs
  | idle hname h ih => exact .idle hname (ih (by rwa [passes_idle hname] at hkeeps) hs)
  | up hidle hname h ih => exact .up hidle hname (ih (by rwa [passes_up hname] at hkeeps) hs)
  | file hname hshort hat hslash =>
    exact .file hname hshort (hkeeps _ (mem_passes_head hname) _ hat) hslash
  | link hname hshort hat hfollow hslash =>
    exact .link hname hshort (hkeeps _ (mem_passes_head hname) _ hat) hfollow hslash
  | down hname hshort hat h ih =>
    rw [passes_step hname (by simp [hat])] at hkeeps
    exact .down hname hshort (hkeeps _ (by simp) _ hat) (ih (fun q hq => hkeeps q (by simp [hq])) hs)
  | through hname hshort hat hgo htarget h ih =>
    rw [passes_over hname hat] at hkeeps
    exact .through hname hshort (hkeeps _ (by simp) _ hat) hgo htarget
      (ih (fun q hq => hkeeps q (by simp [hq])) hs)

end Congr

section Path
variable {w v : World} {path : String} (hcwd : v.cwd = w.cwd)
include hcwd

theorem start_of_cwd (path : String) : v.start path = w.start path := by
  rw [start, start, hcwd]

/-- Where the places that a path passes are links to the same texts, it leads the same way. -/
theorem way_of_links
    (h : ∀ q ∈ w.onWay path, ∀ t, v.at? q = some (.link t) ↔ w.at? q = some (.link t)) :
    v.goal? path = w.goal? path ∧ v.onWay path = w.onWay path ∧
      v.route? path = w.route? path := by
  rw [onWay_eq] at h
  obtain ⟨hcourse, hpasses⟩ := course_eq_of_links h
  rw [goal?, goal?, route?, route?, onWay_eq, onWay_eq, start_of_cwd hcwd]
  exact ⟨hcourse, hpasses, course_last_of_links h⟩

/-- A path whose last name is a link leads the same way to it once it is something else. -/
theorem way_of_end {r : Route} (hroute : w.route? path = some r)
    (hkept : ∀ q ∈ r.links, ∀ t, w.at? q = some (.link t) → v.at? q = some (.link t))
    (hnew : ∀ q t, v.at? q = some (.link t) → w.at? q = some (.link t))
    (hend : ∀ t, v.at? r.place ≠ some (.link t)) :
    v.route? path = some r ∧ v.onWay path ⊆ w.onWay path := by
  rw [route?, onWay_eq, onWay_eq, start_of_cwd hcwd]
  exact ⟨course_congr hroute hkept hnew, passes_subset_of_course hroute hkept hnew hend⟩

section Keeps
variable (hkeeps : ∀ q ∈ w.onWay path, ∀ m, w.at? q = some m → v.at? q = some m)
include hkeeps

theorem resolve_keeps_passed {follow : Bool} {p : Place} {n : Node}
    (h : w.resolve follow path = .ok (.taken p n)) : v.resolve follow path = .ok (.taken p n) := by
  obtain ⟨trail, hleads⟩ := leads_of_resolve h
  rw [onWay_eq] at hkeeps
  have hleads' := leads_keeps_passed hleads hkeeps
  rw [← start_of_cwd hcwd] at hleads'
  exact resolve_of_leads h hleads'

theorem find_keeps_passed {found : Place × Node} (h : w.find path = .ok found) :
    v.find path = .ok found := by
  obtain ⟨p, n⟩ := found
  simp only [find, resolve_keeps_passed hcwd hkeeps (resolve_of_find h)]

theorem Holds.keeps_passed {r : Route} {bytes : ByteArray} (h : w.Holds path r bytes) :
    v.Holds path r bytes := by
  have hleads := h.leads
  rw [onWay_eq] at hkeeps
  have hleads' := leads_keeps_passed hleads hkeeps
  rw [← start_of_cwd hcwd] at hleads'
  exact ⟨course_of_leads hleads', resolve_of_leads h.found (by rwa [h.slash])⟩

end Keeps
end Path
end SkillAudit.World
