import Mathlib
import SkillAudit.Text.Lines

/-! The lines of a text: none holds a line feed, and lines that are written one by one are read. -/
namespace SkillAudit.Text

/-- A list without separators is a last piece, and any other one is a piece, a separator and a list. -/
theorem separated_induction {α : Type} (sep : α) {P : List α → Prop}
    (last : ∀ piece, sep ∉ piece → P piece)
    (cut : ∀ piece rest, sep ∉ piece → P rest → P (piece ++ sep :: rest)) (l : List α) : P l := by
  induction hlength : l.length using Nat.strong_induction_on generalizing l with
  | h n ih =>
    by_cases hmem : sep ∈ l
    · obtain ⟨piece, rest, rfl, hpiece⟩ := List.eq_append_cons_of_mem hmem
      refine cut piece rest hpiece (ih rest.length ?_ rest rfl)
      rw [← hlength, List.length_append, List.length_cons]
      omega
    · exact last l hmem

theorem feed_not_mem_dropReturn {line : List Char} (h : '\n' ∉ line) : '\n' ∉ dropReturn line := by
  unfold dropReturn
  split
  · exact fun hmem => h (List.mem_cons_of_mem _ hmem)
  · exact h

theorem feed_not_mem_lines_go {cs reversed : List Char} {done : List String}
    (hreversed : '\n' ∉ reversed) (hdone : ∀ l ∈ done, '\n' ∉ l.toList) :
    ∀ l ∈ lines.go cs reversed done, '\n' ∉ l.toList := by
  fun_induction lines.go cs reversed done with
  | case1 done => simpa using hdone
  | case2 reversed done hne =>
    intro l hl
    simp only [List.reverse_cons, List.mem_append, List.mem_reverse, List.mem_singleton] at hl
    rcases hl with hl | rfl
    · exact hdone l hl
    · simpa using hreversed
  | case3 c rest reversed done hc ih =>
    refine ih (by simp) fun l hl => ?_
    rcases List.mem_cons.mp hl with rfl | hl
    · simpa using feed_not_mem_dropReturn hreversed
    · exact hdone l hl
  | case4 c rest reversed done hc ih =>
    have hne : '\n' ≠ c := fun heq => hc (by simp [← heq])
    exact ih (by simp [hne, hreversed]) hdone

theorem feed_not_mem_lines {s l : String} (h : l ∈ lines s) : '\n' ∉ l.toList :=
  feed_not_mem_lines_go (by simp) (by simp) l h

theorem lines_go_feed {line : List Char} (h : '\n' ∉ line) (rest reversed : List Char)
    (done : List String) : lines.go (line ++ '\n' :: rest) reversed done =
      lines.go rest [] (String.ofList (dropReturn (line.reverse ++ reversed)).reverse :: done) := by
  induction line generalizing reversed with
  | nil => simp [lines.go]
  | cons c line ih =>
    rw [List.mem_cons, not_or] at h
    have hc : (c == '\n') = false := by simpa using Ne.symm h.1
    rw [List.cons_append, lines.go, hc, ih h.2]
    simp

theorem lines_go_join {ls : List String} (hfeed : ∀ l ∈ ls, '\n' ∉ l.toList)
    (hreturn : ∀ l ∈ ls, l.toList.getLast? ≠ some '\r') (done : List String) :
    lines.go (ls.flatMap fun l => l.toList ++ ['\n']) [] done = done.reverse ++ ls := by
  induction ls generalizing done with
  | nil => simp [lines.go]
  | cons l ls ih =>
    rw [List.forall_mem_cons] at hfeed hreturn
    have hkept : dropReturn l.toList.reverse = l.toList.reverse := by
      unfold dropReturn
      split
      next reversed heq =>
        rw [← List.head?_reverse, heq] at hreturn
        exact absurd rfl hreturn.1
      next => rfl
    rw [List.flatMap_cons, List.append_assoc, List.singleton_append, lines_go_feed hfeed.1,
      List.append_nil, hkept, ih hfeed.2 hreturn.2]
    simp

theorem lines_join {ls : List String} (hfeed : ∀ l ∈ ls, '\n' ∉ l.toList)
    (hreturn : ∀ l ∈ ls, l.toList.getLast? ≠ some '\r') :
    lines (String.join (ls.map (· ++ "\n"))) = ls := by
  have hlist : (String.join (ls.map (· ++ "\n"))).toList = ls.flatMap fun l => l.toList ++ ['\n'] := by
    simp [List.flatMap_map]
  rw [lines, hlist, lines_go_join hfeed hreturn, List.reverse_nil, List.nil_append]

end SkillAudit.Text
