import Mathlib
import SkillAudit.CommandLine.Parse

/-!
The switch for the output format. A command line that does not name a format may name any of them in
front, and asks for the same otherwise.
-/
namespace SkillAudit.CommandLine

namespace Level
variable {l m n : Level}

/-- A level that has taken further switches, each with a value that is right. -/
def Extends (l m : Level) : Prop :=
  ∃ more, m.given = l.given ++ more ∧ ∀ x ∈ more, valueFault? x.1 x.2 = none

theorem Extends.trans (h : Extends l m) (h' : Extends m n) : Extends l n := by
  obtain ⟨first, hm, hfirst⟩ := h
  obtain ⟨second, hn, hsecond⟩ := h'
  refine ⟨first ++ second, by rw [hn, hm, List.append_assoc], ?_⟩
  intro x hx
  rcases List.mem_append.mp hx with hx | hx
  · exact hfirst x hx
  · exact hsecond x hx

theorem Extends.has_eq_false (h : Extends l m) {s : Switch} (hm : m.has s = false) :
    l.has s = false := by
  obtain ⟨more, hgiven, -⟩ := h
  simp only [has, hgiven, List.any_append, Bool.or_eq_false_iff] at hm
  exact hm.1

def formatted (l : Level) (f : OutputFormat) : Level :=
  { l with given := (.output, f.word) :: l.given }

end Level

/-- Reading that only adds to the switches, and does not see a format in front of them unless it
takes one itself. What is read is a level, and what stands beside it. -/
def Blind {α : Type} (read : Level → Except Stop α) (put : Level → α) : Prop :=
  ∀ l m, read l = .ok (put m) → l.Extends m ∧
    (m.has .output = false → ∀ f, read (l.formatted f) = .ok (put (m.formatted f)))

section Steps
variable {l m : Level}

theorem Blind.bind {α : Type} {step : Level → Except Stop Level} {read : Level → Except Stop α}
    {put : Level → α} (h : Blind step id) (h' : Blind read put) :
    Blind (fun l => step l >>= read) put := by
  intro l n hrun
  change step l >>= read = .ok (put n) at hrun
  cases hstep : step l with
  | error e =>
    rw [hstep] at hrun
    cases hrun
  | ok m =>
    rw [hstep] at hrun
    obtain ⟨hm, hfront⟩ := h l m hstep
    obtain ⟨hn, hfront'⟩ := h' m n hrun
    refine ⟨hm.trans hn, ?_⟩
    intro hnone f
    show step (l.formatted f) >>= read = _
    rw [hfront (hn.has_eq_false hnone) f]
    exact hfront' hnone f

end Steps

section Front
variable {l m : Level} (f : OutputFormat)

end Front

theorem bind_ok {α β : Type} {x : Except Stop α} {k : α → Except Stop β} {b : β}
    (h : x >>= k = .ok b) : ∃ a, x = .ok a ∧ k a = .ok b := by
  cases x with
  | error e => cases h
  | ok a => exact ⟨a, rfl, h⟩

end SkillAudit.CommandLine
