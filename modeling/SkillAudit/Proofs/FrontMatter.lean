import Mathlib
import SkillAudit.Package.Manifest
import SkillAudit.Proofs.TextLines

/-!
The block at the start of a manifest. Lines are told apart by their place in the text alone, and the
block is what stands before the first of them that closes it. The offset at which it is cut counts
bytes, and always falls between two characters.
-/
namespace SkillAudit.Manifest

/-! Lines with their ends, from the front of a text. -/

theorem linesWithEnds_go_done (cs line : List Char) (done : List (List Char)) :
    linesWithEnds.go cs line done = done.reverse ++ linesWithEnds.go cs line [] := by
  induction cs generalizing line done with
  | nil => cases line <;> simp [linesWithEnds.go]
  | cons c rest ih =>
    simp only [linesWithEnds.go]
    split
    · rw [ih [] (_ :: done), ih [] [_]]
      simp
    · exact ih (c :: line) done

theorem linesWithEnds_go_line {line : List Char} (h : '\n' ∉ line) (cs front : List Char)
    (done : List (List Char)) :
    linesWithEnds.go (line ++ cs) front done = linesWithEnds.go cs (line.reverse ++ front) done := by
  induction line generalizing front with
  | nil => rfl
  | cons c line ih =>
    obtain ⟨hc, hline⟩ : '\n' ≠ c ∧ '\n' ∉ line := by simpa using h
    simp only [List.cons_append, linesWithEnds.go, beq_iff_eq, Ne.symm hc, if_false]
    rw [ih hline]
    simp

theorem linesWithEnds_last {line : List Char} (h : '\n' ∉ line) (hne : line ≠ []) :
    linesWithEnds line = [line] := by
  have hgo := linesWithEnds_go_line h [] [] []
  simp only [List.append_nil] at hgo
  rw [linesWithEnds, hgo]
  cases hline : line.reverse with
  | nil => exact absurd (List.reverse_eq_nil_iff.mp hline) hne
  | cons c front => simp [linesWithEnds.go, ← hline]

theorem linesWithEnds_feed {line : List Char} (h : '\n' ∉ line) (rest : List Char) :
    linesWithEnds (line ++ '\n' :: rest) = (line ++ ['\n']) :: linesWithEnds rest := by
  rw [linesWithEnds, linesWithEnds_go_line h]
  simp only [linesWithEnds.go, beq_self_eq_true, if_true]
  rw [linesWithEnds_go_done]
  simp [linesWithEnds]

/-- A text is empty, or a line without an end, or begins with a line that has one. -/
theorem line_induction {P : List Char → Prop} (nil : P [])
    (last : ∀ line, '\n' ∉ line → line ≠ [] → P line)
    (feed : ∀ line rest, '\n' ∉ line → P rest → P (line ++ '\n' :: rest)) (cs : List Char) : P cs := by
  induction cs using Text.separated_induction '\n' with
  | last line h =>
    by_cases hne : line = []
    · exact hne ▸ nil
    · exact last line h hne
  | cut line rest h ih => exact feed line rest h ih

theorem flatten_linesWithEnds (cs : List Char) : (linesWithEnds cs).flatten = cs := by
  induction cs using line_induction with
  | nil => rfl
  | last line h hne => simp [linesWithEnds_last h hne]
  | feed line rest h ih => simp [linesWithEnds_feed h, ih]

/-- After a line feed the lines are those of what follows. -/
theorem linesWithEnds_append {front : List Char} (h : front = [] ∨ front.getLast? = some '\n')
    (cs : List Char) : linesWithEnds (front ++ cs) = linesWithEnds front ++ linesWithEnds cs := by
  induction front using line_induction with
  | nil => rfl
  | last line hline hne =>
    have hlast := h.resolve_left hne
    exact absurd (List.mem_of_getLast? hlast) hline
  | feed line rest hline ih =>
    have hrest : rest = [] ∨ rest.getLast? = some '\n' := by
      cases rest with
      | nil => exact .inl rfl
      | cons c rest => simpa [List.getLast?_append] using h
    rw [List.append_assoc, List.cons_append, linesWithEnds_feed hline, linesWithEnds_feed hline,
      ih hrest, List.cons_append]

/-- Where a line stands among the lines of a text. -/
theorem linesWithEnds_parts {cs line : List Char} {done rest : List (List Char)}
    (h : linesWithEnds cs = done ++ line :: rest) :
    (done = [] ∨ done.flatten.getLast? = some '\n') ∧ '\n' ∉ line.dropLast ∧
      (line.getLast? = some '\n' ∨ line ≠ [] ∧ rest = []) := by
  induction cs using line_induction generalizing done with
  | nil => simp [linesWithEnds, linesWithEnds.go] at h
  | last only honly hne =>
    rw [linesWithEnds_last honly hne] at h
    obtain ⟨rfl, rfl, rfl⟩ : done = [] ∧ only = line ∧ rest = [] := by
      cases done with
      | nil => simpa [eq_comm] using h
      | cons d done => simp at h
    exact ⟨.inl rfl, fun hmem => honly (List.dropLast_subset _ hmem), .inr ⟨hne, rfl⟩⟩
  | feed first others hfirst ih =>
    rw [linesWithEnds_feed hfirst] at h
    cases done with
    | nil =>
      obtain ⟨rfl, rfl⟩ := List.cons.inj h
      exact ⟨.inl rfl, by simpa using hfirst, .inl (by simp)⟩
    | cons d done =>
      obtain ⟨rfl, hothers⟩ := List.cons.inj h
      obtain ⟨hdone, hline⟩ := ih hothers
      refine ⟨.inr ?_, hline⟩
      rcases hdone with rfl | hlast
      · simp
      · rw [List.flatten_cons, List.getLast?_append, hlast]
        rfl

theorem ne_nil_of_mem_linesWithEnds {cs line : List Char} (h : line ∈ linesWithEnds cs) :
    line ≠ [] := by
  obtain ⟨done, rest, hlines⟩ := List.append_of_mem h
  obtain ⟨-, -, hend | hend⟩ := linesWithEnds_parts hlines
  · rintro rfl
    cases hend
  · exact hend.1

/-! Lines by their place in a text. -/

/-- `line` stands in `text` between `before` and `after`: it begins the text or follows a line feed,
and goes up to the next line feed, or to the end of the text. -/
structure IsLine (text before line after : String) : Prop where
  parts : text = before ++ line ++ after
  starts : before = "" ∨ before.toList.getLast? = some '\n'
  inner : '\n' ∉ line.toList.dropLast
  ends : line.toList.getLast? = some '\n' ∨ line ≠ "" ∧ after = ""

theorem isLine_iff {text before line after : String} :
    IsLine text before line after ↔
      ∃ done rest, linesWithEnds text.toList = done ++ line.toList :: rest ∧
        before.toList = done.flatten ∧ after.toList = rest.flatten := by
  constructor
  · intro h
    have hstarts : before.toList = [] ∨ before.toList.getLast? = some '\n' := by
      simpa using h.starts
    refine ⟨linesWithEnds before.toList, linesWithEnds after.toList, ?_,
      (flatten_linesWithEnds _).symm, (flatten_linesWithEnds _).symm⟩
    rw [h.parts, String.toList_append, String.toList_append, List.append_assoc,
      linesWithEnds_append hstarts]
    congr 1
    by_cases hfeed : line.toList.getLast? = some '\n'
    · obtain ⟨front, hfront⟩ := List.getLast?_eq_some_iff.mp hfeed
      have hinner : '\n' ∉ front := by simpa [hfront] using h.inner
      rw [hfront, List.append_assoc, List.singleton_append, linesWithEnds_feed hinner]
    · obtain ⟨hne, rfl⟩ := h.ends.resolve_left hfeed
      have hne : line.toList ≠ [] := by simpa using hne
      have hline : '\n' ∉ line.toList := by
        intro hmem
        rw [← List.dropLast_append_getLast hne, List.mem_append, List.mem_singleton] at hmem
        rcases hmem with hmem | hmem
        · exact h.inner hmem
        · exact hfeed (hmem ▸ List.getLast?_eq_some_getLast hne)
      rw [String.toList_empty, List.append_nil, linesWithEnds_last hline hne]
      rfl
  · rintro ⟨done, rest, hlines, hbefore, hafter⟩
    obtain ⟨hstarts, hinner, hends⟩ := linesWithEnds_parts hlines
    have hparts := flatten_linesWithEnds text.toList
    rw [hlines, List.flatten_append, List.flatten_cons] at hparts
    constructor
    · rw [← String.toList_inj, ← hparts, String.toList_append, String.toList_append, hbefore, hafter,
        List.append_assoc]
    · rw [hbefore, ← String.toList_eq_nil_iff, hbefore]
      rcases hstarts with rfl | hlast
      · exact .inl rfl
      · exact .inr hlast
    · exact hinner
    · rcases hends with hfeed | ⟨hne, rfl⟩
      · exact .inl hfeed
      · exact .inr ⟨by simpa using hne, by simpa using hafter⟩

/-! What opens the block, and what closes it. -/

/-- A text that opens a block: perhaps a byte-order mark, three dashes and the end of their line, and
then `rest`. -/
def Opens (text rest : String) : Prop :=
  ∃ mark ∈ ["", "\ufeff"], ∃ feed ∈ ["\n", "\r\n"], text = mark ++ "---" ++ feed ++ rest

/-- A line of three dashes, blanks after them apart. -/
def Closes (line : String) : Prop := Text.trimEnd line = "---"

theorem isRule_iff {line : String} : isRule line.toList = true ↔ Closes line := by
  rw [Closes, Text.trimEnd, isRule, beq_iff_eq, ← String.toList_inj, String.toList_ofList]
  rfl

theorem closing_line_iff {text : String} :
    (∃ before line after, IsLine text before line after ∧ Closes line) ↔
      ∃ l ∈ linesWithEnds text.toList, isRule l = true := by
  constructor
  · rintro ⟨before, line, after, hline, hcloses⟩
    obtain ⟨done, rest, hlines, -, -⟩ := isLine_iff.mp hline
    exact ⟨line.toList, by simp [hlines], isRule_iff.mpr hcloses⟩
  · rintro ⟨l, hl, hrule⟩
    obtain ⟨done, rest, hlines⟩ := List.append_of_mem hl
    refine ⟨String.ofList done.flatten, String.ofList l, String.ofList rest.flatten,
      isLine_iff.mpr ⟨done, rest, ?_⟩, isRule_iff.mp ?_⟩
    · simpa using hlines
    · simpa using hrule

def Follows (cs rest : List Char) : Prop :=
  cs = "---\n".toList ++ rest ∨ cs = "---\r\n".toList ++ rest

theorem follows_iff {cs rest : List Char} :
    ("---\n".toList.isPrefixOf? cs).or ("---\r\n".toList.isPrefixOf? cs) = some rest ↔
      Follows cs rest := by
  rw [Option.or_eq_some_iff, List.isPrefixOf?_eq_some_iff_append_eq,
    List.isPrefixOf?_eq_some_iff_append_eq]
  constructor
  · rintro (h | ⟨-, h⟩)
    · exact .inl h.symm
    · exact .inr h.symm
  · rintro (rfl | rfl)
    · exact .inl rfl
    · exact .inr ⟨rfl, rfl⟩

theorem afterRule_eq_some_iff {cs rest : List Char} :
    afterRule cs = some rest ↔
      Follows cs rest ∨ ∃ marked, cs = '\ufeff' :: marked ∧ Follows marked rest := by
  unfold afterRule
  split
  next marked =>
    have hplain : ¬ Follows ('\ufeff' :: marked) rest := by simp [Follows]
    have hmarked : (∃ others, '\ufeff' :: marked = '\ufeff' :: others ∧ Follows others rest) ↔
        Follows marked rest := by simp
    rw [or_iff_right hplain, hmarked, ← follows_iff]
    cases hfront : "---\n".toList.isPrefixOf? marked <;>
      simp only [hfront, Option.none_or, Option.some_or]
  next hplain =>
    have hmark : ¬ ∃ marked, cs = '\ufeff' :: marked ∧ Follows marked rest := by
      rintro ⟨marked, hcs, -⟩
      exact hplain marked hcs
    rw [or_iff_left hmark, ← follows_iff]
    cases hfront : "---\n".toList.isPrefixOf? cs <;>
      simp only [hfront, Option.none_or, Option.some_or]

theorem opens_iff {text rest : String} :
    Opens text rest ↔ afterRule text.toList = some rest.toList := by
  simp only [afterRule_eq_some_iff, Opens, Follows, ← String.toList_inj, String.toList_append]
  simp [and_or_left, exists_or, or_or_or_comm]

/-- The offset of the first rule is the length in bytes of the lines before it. -/
theorem ruleOffset?_eq_some_iff {lines : List (List Char)} {offset stop : Nat} :
    ruleOffset? lines offset = some stop ↔
      ∃ done line rest, lines = done ++ line :: rest ∧ isRule line = true ∧
        (∀ l ∈ done, isRule l = false) ∧ stop = offset + String.utf8Len done.flatten := by
  induction lines generalizing offset with
  | nil => simp [ruleOffset?]
  | cons first others ih =>
    rw [ruleOffset?]
    split
    next hrule =>
      constructor
      · intro h
        exact ⟨[], first, others, rfl, hrule, by simp, by simpa using h.symm⟩
      · rintro ⟨done, line, rest, hlines, -, hdone, rfl⟩
        cases done with
        | nil => simp
        | cons d done =>
          obtain ⟨rfl, -⟩ := List.cons.inj hlines
          rw [hdone first (by simp)] at hrule
          cases hrule
    next hrule =>
      have hsize := String.utf8ByteSize_ofList first
      rw [ih]
      constructor
      · rintro ⟨done, line, rest, rfl, hline, hdone, rfl⟩
        refine ⟨first :: done, line, rest, rfl, hline, ?_, ?_⟩
        · simpa [hrule] using hdone
        · simp [hsize, Nat.add_assoc]
      · rintro ⟨done, line, rest, hlines, hline, hdone, rfl⟩
        cases done with
        | nil =>
          obtain ⟨rfl, -⟩ := List.cons.inj hlines
          exact absurd hline hrule
        | cons d done =>
          obtain ⟨rfl, hothers⟩ := List.cons.inj hlines
          exact ⟨done, line, rest, hothers, hline, fun l hl => hdone l (by simp [hl]),
            by simp [hsize, Nat.add_assoc]⟩

theorem extract_front (front rest : List Char) :
    String.Pos.Raw.extract (String.ofList (front ++ rest)) 0 ⟨String.utf8Len front⟩ =
      String.ofList front := by
  have hvalid := String.extract_of_valid [] front rest
  simpa using hvalid

/-- The block by the lines after the opening rule. -/
theorem frontMatter_lines {text block : String} :
    frontMatter text = some block ↔
      ∃ rest, Opens text rest ∧ ∃ done line others,
        linesWithEnds rest.toList = done ++ line :: others ∧ isRule line = true ∧
        (∀ l ∈ done, isRule l = false) ∧ block.toList = done.flatten := by
  -- The cut falls on the end of a line, so it takes the lines before it whole.
  have hcut : ∀ (rest : String) (done : List (List Char)) (line : List Char)
      (others : List (List Char)), linesWithEnds rest.toList = done ++ line :: others →
      String.Pos.Raw.extract rest 0 ⟨0 + String.utf8Len done.flatten⟩ =
        String.ofList done.flatten := by
    intro rest done line others hlines
    have hrest := flatten_linesWithEnds rest.toList
    rw [hlines, List.flatten_append] at hrest
    rw [← String.ofList_toList (s := rest), ← hrest, Nat.zero_add, extract_front]
  constructor
  · intro h
    obtain ⟨cs, hopens, h⟩ := Option.bind_eq_some_iff.mp h
    obtain ⟨stop, hstop, hblock⟩ := Option.map_eq_some_iff.mp h
    obtain ⟨done, line, others, hlines, hrule, hdone, rfl⟩ := ruleOffset?_eq_some_iff.mp hstop
    have hcs : cs = (String.ofList cs).toList := String.toList_ofList.symm
    rw [hcs] at hopens hlines
    refine ⟨String.ofList cs, opens_iff.mpr hopens, done, line, others, hlines, hrule, hdone, ?_⟩
    rw [← hblock, hcut _ done line others hlines, String.toList_ofList]
  · rintro ⟨rest, hopens, done, line, others, hlines, hrule, hdone, hblock⟩
    have hstop : ruleOffset? (linesWithEnds rest.toList) 0 =
        some (0 + String.utf8Len done.flatten) :=
      ruleOffset?_eq_some_iff.mpr ⟨done, line, others, hlines, hrule, hdone, rfl⟩
    refine Option.bind_eq_some_iff.mpr ⟨rest.toList, opens_iff.mp hopens,
      Option.map_eq_some_iff.mpr ⟨_, hstop, ?_⟩⟩
    rw [String.ofList_toList, hcut rest done line others hlines, ← hblock, String.ofList_toList]

theorem frontMatter_isSome_iff {text : String} :
    (frontMatter text).isSome = true ↔
      ∃ rest, Opens text rest ∧ ∃ before line after, IsLine rest before line after ∧ Closes line := by
  simp only [closing_line_iff]
  constructor
  · intro h
    obtain ⟨block, hblock⟩ := Option.isSome_iff_exists.mp h
    obtain ⟨rest, hopens, done, line, others, hlines, hrule, -, -⟩ := frontMatter_lines.mp hblock
    exact ⟨rest, hopens, line, by simp [hlines], hrule⟩
  · rintro ⟨rest, hopens, line, hline, hrule⟩
    have hfound : ((linesWithEnds rest.toList).find? isRule).isSome = true :=
      List.find?_isSome.mpr ⟨line, hline, hrule⟩
    obtain ⟨first, hfirst⟩ := Option.isSome_iff_exists.mp hfound
    obtain ⟨hrule, front, behind, hparts, hfront⟩ := List.find?_eq_some_iff_append.mp hfirst
    have hblock : frontMatter text = some (String.ofList front.flatten) :=
      frontMatter_lines.mpr ⟨rest, hopens, front, first, behind, hparts, hrule,
        by simpa using hfront, String.toList_ofList⟩
    rw [hblock]
    rfl

/-- The block ends before the first line that closes it. -/
theorem frontMatter_eq_some_iff {text block : String} :
    frontMatter text = some block ↔
      ∃ rest line after, Opens text rest ∧ IsLine rest block line after ∧ Closes line ∧
        ∀ before' line' after', IsLine rest before' line' after' → Closes line' →
          block.utf8ByteSize ≤ before'.utf8ByteSize := by
  rw [frontMatter_lines]
  constructor
  · rintro ⟨rest, hopens, done, line, others, hlines, hrule, hdone, hblock⟩
    refine ⟨rest, String.ofList line, String.ofList others.flatten, hopens,
      isLine_iff.mpr ⟨done, others, ?_⟩, isRule_iff.mp ?_, ?_⟩
    · simpa using ⟨hlines, hblock⟩
    · simpa using hrule
    · intro before' line' after' hline' hcloses'
      obtain ⟨done', others', hlines', hbefore', -⟩ := isLine_iff.mp hline'
      rw [hlines, List.append_eq_append_iff] at hlines'
      rw [← String.ofList_toList (s := block), ← String.ofList_toList (s := before'), hblock, hbefore',
        String.utf8ByteSize_ofList, String.utf8ByteSize_ofList]
      rcases hlines' with ⟨between, rfl, -⟩ | ⟨between, rfl, hbetween⟩
      · simp
      · cases between with
        | nil => simp
        | cons first between =>
          obtain ⟨rfl, -⟩ := List.cons.inj hbetween
          have hearlier := hdone line'.toList (by simp)
          rw [isRule_iff.mpr hcloses'] at hearlier
          cases hearlier
  · rintro ⟨rest, line, after, hopens, hline, hcloses, hfirst⟩
    obtain ⟨done, others, hlines, hblock, -⟩ := isLine_iff.mp hline
    refine ⟨rest, hopens, done, line.toList, others, hlines, isRule_iff.mpr hcloses, ?_, hblock⟩
    intro early hearly
    by_contra hrule
    -- An earlier rule would stand before the block ends, and no line is empty.
    obtain ⟨front, behind, rfl⟩ := List.append_of_mem hearly
    have hstands : IsLine rest (String.ofList front.flatten) (String.ofList early)
        (String.ofList (behind ++ line.toList :: others).flatten) := by
      refine isLine_iff.mpr ⟨front, behind ++ line.toList :: others, ?_, ?_, ?_⟩
      · simpa using hlines
      · simp
      · simp
    have hle := hfirst _ _ _ hstands (isRule_iff.mp (by simpa using hrule))
    have hne : early ≠ [] := ne_nil_of_mem_linesWithEnds (by rw [hlines]; simp)
    have hpos : String.utf8Len early ≠ 0 := mt String.utf8Len_eq_zero.mp hne
    rw [← String.ofList_toList (s := block), hblock, String.utf8ByteSize_ofList,
      String.utf8ByteSize_ofList] at hle
    simp only [List.flatten_append, List.flatten_cons, String.utf8Len_append] at hle
    omega

/-- Whole lines of which none closes the block are taken as they are. -/
theorem frontMatter_whole {block : String} (hends : block = "" ∨ block.toList.getLast? = some '\n')
    (hopen : ¬ ∃ before line after, IsLine block before line after ∧ Closes line) (body : String) :
    frontMatter ("---\n" ++ block ++ "---\n" ++ body) = some block := by
  have hends : block.toList = [] ∨ block.toList.getLast? = some '\n' := by simpa using hends
  refine frontMatter_lines.mpr ⟨block ++ "---\n" ++ body, ⟨"", by simp, "\n", by simp, ?_⟩,
    linesWithEnds block.toList, "---\n".toList, linesWithEnds body.toList, ?_, by decide, ?_,
    (flatten_linesWithEnds _).symm⟩
  · simp [← String.toList_inj]
  · have hrule : linesWithEnds ("---".toList ++ '\n' :: body.toList) =
        ("---".toList ++ ['\n']) :: linesWithEnds body.toList := linesWithEnds_feed (by decide) _
    rw [String.toList_append, String.toList_append, List.append_assoc, linesWithEnds_append hends]
    exact congrArg _ hrule
  · intro l hl
    by_contra hrule
    exact hopen (closing_line_iff.mpr ⟨l, hl, by simpa using hrule⟩)

/-- A text has a block if it opens one, perhaps after a byte-order mark, and a later line closes it.
The block is exactly what stands between the opening line and the first line that closes it; and
whole lines of which none closes a block are read back from between two rules, whatever follows. -/
theorem frontMatter_exact (text block : String) :
    ((frontMatter text).isSome = true ↔
      ∃ rest, Opens text rest ∧ ∃ before line after, IsLine rest before line after ∧ Closes line) ∧
    (frontMatter text = some block ↔
      ∃ rest line after, Opens text rest ∧ IsLine rest block line after ∧ Closes line ∧
        ∀ before' line' after', IsLine rest before' line' after' → Closes line' →
          block.utf8ByteSize ≤ before'.utf8ByteSize) ∧
    ((block = "" ∨ block.toList.getLast? = some '\n') →
      (¬ ∃ before line after, IsLine block before line after ∧ Closes line) →
      ∀ body, frontMatter ("---\n" ++ block ++ "---\n" ++ body) = some block) :=
  ⟨frontMatter_isSome_iff, frontMatter_eq_some_iff, frontMatter_whole⟩

/-- Dashes after other text, after a blank or with a fourth one close nothing, and a rule in what follows
is not looked at. -/
theorem frontMatter_exact_dashes :
    (¬ ∃ before line after, IsLine "né: ---\n ---\r\n----\n" before line after ∧ Closes line) ∧
    frontMatter ("---\n" ++ "né: ---\n ---\r\n----\n" ++ "---\n" ++ "---") =
      some "né: ---\n ---\r\n----\n" := by
  have hopen : ¬ ∃ before line after,
      IsLine "né: ---\n ---\r\n----\n" before line after ∧ Closes line := by
    rw [closing_line_iff]
    decide
  exact ⟨hopen, (frontMatter_exact "" "né: ---\n ---\r\n----\n").2.2 (.inr rfl) hopen "---"⟩

end SkillAudit.Manifest
