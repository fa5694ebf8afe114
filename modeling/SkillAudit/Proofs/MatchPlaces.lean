import Mathlib
import SkillAudit.Regex.Search

/-!
Where matches are. The machine counts bytes while it goes from character to character, so a match begins and
ends between two characters of the text, whatever the program is.
-/
namespace SkillAudit.Regex
open String (utf8Len)

/-- An offset between two characters of a text, or at one of its ends. -/
def Between (cs : List Char) (offset : Nat) : Prop :=
  ∃ front back, cs = front ++ back ∧ offset = utf8Len front

def Place.In (p : Place) (cs : List Char) : Prop :=
  ∃ front, cs = front ++ p.rest ∧ p.offset = utf8Len front

theorem Place.In.between {p : Place} {cs : List Char} (h : p.In cs) : Between cs p.offset := by
  obtain ⟨front, hcs, hoffset⟩ := h
  exact ⟨front, p.rest, hcs, hoffset⟩

theorem Place.in_start (cs : List Char) : (Place.start cs).In cs := ⟨[], rfl, rfl⟩

theorem Place.In.next {p : Place} {cs rest : List Char} {c : Char} (h : p.In cs)
    (hrest : p.rest = c :: rest) (prev : Option Char) :
    Place.In ⟨prev, rest, p.offset + c.utf8Size⟩ cs := by
  obtain ⟨front, hcs, hoffset⟩ := h
  refine ⟨front ++ [c], ?_, ?_⟩
  · rw [hcs, hrest, List.append_assoc, List.singleton_append]
  · simp [hoffset]

/-- Noted positions of which the first is where a match began. -/
def Begun (cs : List Char) (saves : List (Nat × Nat)) : Prop :=
  ∃ start, saves.getLast? = some (0, start) ∧ Between cs start

theorem Begun.cons {cs : List Char} {saves : List (Nat × Nat)} (h : Begun cs saves) (s : Nat × Nat) :
    Begun cs (s :: saves) := by
  obtain ⟨start, hlast, hstart⟩ := h
  refine ⟨start, ?_, hstart⟩
  rw [List.getLast?_cons, hlast]
  rfl

theorem Begun.lookup {cs : List Char} {saves : List (Nat × Nat)} (h : Begun cs saves) :
    Between cs ((saves.reverse.lookup 0).getD 0) := by
  obtain ⟨start, hlast, hstart⟩ := h
  obtain ⟨front, rfl⟩ := List.getLast?_eq_some_iff.mp hlast
  simpa using hstart

section Search
variable {re : Regex} {cs : List Char} {prev next : Option Char} {offset : Nat}

def AllBegun (cs : List Char) (threads : List Thread) : Prop := ∀ t ∈ threads, Begun cs t.saves

theorem AllBegun.push {q : Queue} {t : Thread} (h : AllBegun cs q.threads.toList)
    (ht : Begun cs t.saves) : AllBegun cs (q.threads.push t).toList := by
  intro u hu
  rw [Array.toList_push, List.mem_append, List.mem_singleton] at hu
  rcases hu with hu | rfl
  · exact h u hu
  · exact ht

theorem allBegun_follow {fuel : Nat} {stack : List Thread} {q : Queue} (hstack : AllBegun cs stack)
    (hq : AllBegun cs q.threads.toList) :
    AllBegun cs (follow re prev next offset fuel stack q).threads.toList := by
  induction fuel generalizing stack q with
  | zero => exact hq
  | succ fuel ih =>
    cases stack with
    | nil => exact hq
    | cons t stack =>
      obtain ⟨ht, hstack⟩ := List.forall_mem_cons.mp hstack
      have hgo : ∀ {t' : Thread}, Begun cs t'.saves → AllBegun cs (t' :: stack) := fun h =>
        List.forall_mem_cons.mpr ⟨h, hstack⟩
      rw [follow]
      split
      · exact ih hstack hq
      · split
        · exact ih hstack hq
        · exact ih hstack (hq.push ht)
        · exact ih hstack (hq.push ht)
        · exact ih (hgo ht) hq
        · exact ih (List.forall_mem_cons.mpr ⟨ht, hgo ht⟩) hq
        · exact ih (hgo (ht.cons _)) hq
        · split
          · exact ih (hgo ht) hq
          · exact ih hstack hq

/-- A match that begins and ends at places of the text. -/
structure Found.In (f : Found) (cs : List Char) : Prop where
  begun : Begun cs f.saves
  stop : f.stop.In cs

theorem in_advance {here after : Place} {c : Option Char} {threads : List Thread} {q : Queue}
    {found : Option Found} (hhere : here.In cs) (hthreads : AllBegun cs threads)
    (hq : AllBegun cs q.threads.toList) (hfound : ∀ f ∈ found, f.In cs) :
    AllBegun cs (advance re here after c threads q found).1.threads.toList ∧
      ∀ f ∈ (advance re here after c threads q found).2, f.In cs := by
  induction threads generalizing q with
  | nil => exact ⟨hq, hfound⟩
  | cons t threads ih =>
    obtain ⟨ht, hthreads⟩ := List.forall_mem_cons.mp hthreads
    have hone : AllBegun cs [⟨t.pc + 1, t.saves⟩] := by
      intro u hu
      obtain rfl := List.mem_singleton.mp hu
      exact ht
    rw [advance]
    split
    · refine ⟨hq, fun f hf => ?_⟩
      obtain rfl := Option.some_inj.mp hf
      exact ⟨ht, hhere⟩
    · split
      · split
        · exact ih hthreads (allBegun_follow hone hq)
        · exact ih hthreads hq
      · exact ih hthreads hq
    · exact ih hthreads hq

/-- A new thread begins where it starts. -/
theorem allBegun_seed (hoffset : Between cs offset) {q : Queue} (hq : AllBegun cs q.threads.toList) :
    AllBegun cs (follow re prev next offset (followFuel re) [⟨0, [(0, offset)]⟩] q).threads.toList := by
  refine allBegun_follow (fun t ht => ?_) hq
  obtain rfl := List.mem_singleton.mp ht
  exact ⟨offset, rfl, hoffset⟩

theorem in_run {rest : List Char} {q : Queue} {found : Option Found}
    (hplace : Place.In ⟨prev, rest, offset⟩ cs) (hq : AllBegun cs q.threads.toList)
    (hfound : ∀ f ∈ found, f.In cs) : ∀ f ∈ run re rest prev offset q found, f.In cs := by
  have hnone : ∀ marks, AllBegun cs (Queue.mk #[] marks).threads.toList := fun _ t ht => by cases ht
  have hnothing : ∀ f ∈ (none : Option Found), f.In cs := fun f hf => by cases hf
  induction rest generalizing prev offset q found with
  | nil =>
    simp only [run]
    split
    · exact (in_advance hplace (allBegun_seed hplace.between hq) (hnone _) hnothing).2
    · exact (in_advance hplace hq (hnone _) hfound).2
  | cons c rest ih =>
    have hnext := hplace.next rfl (some c)
    -- One round: the threads consume the character, and the search goes on after it.
    have hround : ∀ {q : Queue} {found : Option Found}, AllBegun cs q.threads.toList →
        (∀ f ∈ found, f.In cs) →
        ∀ f ∈ run re rest (some c) (offset + c.utf8Size)
          (advance re ⟨prev, c :: rest, offset⟩ ⟨some c, rest, offset + c.utf8Size⟩ (some c)
            q.threads.toList ⟨#[], q.marks⟩ found).1
          (advance re ⟨prev, c :: rest, offset⟩ ⟨some c, rest, offset + c.utf8Size⟩ (some c)
            q.threads.toList ⟨#[], q.marks⟩ found).2, f.In cs := by
      intro q found hq hfound
      obtain ⟨hthreads, hfound⟩ := in_advance hplace hq (hnone _) hfound
      exact ih hnext hthreads hfound
    simp only [run]
    split
    · split
      · exact hfound
      · split
        · exact ih hnext hq hnothing
        · exact hround (allBegun_seed hplace.between hq) hnothing
    · split
      · exact hround (allBegun_seed hplace.between hq) hnothing
      · exact hround hq hfound

theorem in_findFrom {p : Place} (hp : p.In cs) {f : Found} (h : findFrom re p = some f) : f.In cs :=
  in_run hp (fun t ht => by cases ht) (fun f hf => by cases hf) f h

/-- A match of which both ends are between two characters. -/
structure Match.In (m : Match) (cs : List Char) : Prop where
  start : Between cs m.start
  stop : Between cs m.stop

theorem Found.In.toMatch {f : Found} (h : f.In cs) : f.toMatch.In cs :=
  ⟨h.begun.lookup, h.stop.between⟩

theorem in_findAllFrom {fuel : Nat} {p : Place} {last : Option Nat} {done : List Match}
    (hp : p.In cs) (hdone : ∀ m ∈ done, m.In cs) : ∀ m ∈ findAllFrom re fuel p last done, m.In cs := by
  have hreverse : ∀ {done : List Match}, (∀ m ∈ done, m.In cs) → ∀ m ∈ done.reverse, m.In cs :=
    fun h m hm => h m (List.mem_reverse.mp hm)
  induction fuel generalizing p last done with
  | zero => exact hreverse hdone
  | succ fuel ih =>
    rw [findAllFrom]
    split
    · exact hreverse hdone
    next f hf =>
      have hfound := in_findFrom hp hf
      split
      · split
        · exact hreverse hdone
        next c rest hrest => exact ih (hp.next hrest (some c)) hdone
      · exact ih hfound.stop (List.forall_mem_cons.mpr ⟨hfound.toMatch, hdone⟩)

theorem in_findAll {m : Match} (h : m ∈ re.findAll cs) : m.In cs :=
  in_findAllFrom (Place.in_start cs) (by simp) m h

theorem in_find? {m : Match} (h : re.find? cs = some m) : m.In cs := by
  obtain ⟨f, hf, rfl⟩ := Option.map_eq_some_iff.mp h
  exact (in_findFrom (Place.in_start cs) hf).toMatch

end Search
end SkillAudit.Regex
