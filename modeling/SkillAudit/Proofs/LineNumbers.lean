import Mathlib
import SkillAudit.Flow.Graph
import SkillAudit.Proofs.LossyText
import SkillAudit.Proofs.MatchPlaces
import SkillAudit.Proofs.ScanComposition

/-!
Lines of a report. The line of an offset is looked for by halving among the line starts of the text, and is
one more than the number of line feeds before it. What is reported is a match, which begins between two
characters, so the bytes before it are read as the text before it and hold the same line feeds.
-/
namespace SkillAudit.Text
open String (utf8EncodeChar utf8Len)

namespace LineIndex

/-! Looking for an offset among the line starts. -/

theorem getD_starts {starts : Array Nat} {i : Nat} (h : i < starts.toList.length) :
    starts.getD i 0 = starts.toList[i] := by
  have h : i < starts.size := h
  simp [Array.getD_eq_getD_getElem?, h]

theorem getD_lt_getD {starts : Array Nat} (h : starts.toList.Pairwise (· < ·)) {i j : Nat}
    (hij : i < j) (hj : j < starts.size) : starts.getD i 0 < starts.getD j 0 := by
  have hj : j < starts.toList.length := hj
  rw [getD_starts (hij.trans hj), getD_starts hj]
  exact List.pairwise_iff_getElem.mp h i j (hij.trans hj) hj hij

/-- The first `n` starts are those up to an offset. -/
structure Parts (starts : Array Nat) (offset n : Nat) : Prop where
  le_size : n ≤ starts.size
  below : ∀ j < n, starts.getD j 0 ≤ offset
  above : ∀ j, n ≤ j → j < starts.size → offset < starts.getD j 0

theorem Parts.countP_eq {starts : Array Nat} {offset n : Nat} (h : Parts starts offset n) :
    starts.toList.countP (· ≤ offset) = n := by
  have hfront : (starts.toList.take n).countP (· ≤ offset) = n := by
    have hall : ∀ s ∈ starts.toList.take n, decide (s ≤ offset) = true := by
      intro s hs
      obtain ⟨j, hj, rfl⟩ := List.mem_iff_getElem.mp hs
      rw [List.length_take, lt_min_iff] at hj
      rw [List.getElem_take, decide_eq_true_iff, ← getD_starts hj.2]
      exact h.below j hj.1
    rw [List.countP_eq_length.mpr hall, List.length_take]
    exact min_eq_left h.le_size
  have hback : (starts.toList.drop n).countP (· ≤ offset) = 0 := by
    refine List.countP_eq_zero.mpr fun s hs => ?_
    obtain ⟨j, hj, rfl⟩ := List.mem_iff_getElem.mp hs
    have hj : n + j < starts.toList.length := by
      rw [List.length_drop] at hj
      omega
    rw [List.getElem_drop, decide_eq_true_iff, ← getD_starts hj, not_le]
    exact h.above (n + j) (by omega) hj
  rw [← List.take_append_drop n starts.toList, List.countP_append, hfront, hback, Nat.add_zero]

/-- The search finds an offset that is a start, and else the place at which it would be one. All starts
before the range are lower than the offset, and all after it are higher. -/
theorem search_cases {starts : Array Nat} (h : starts.toList.Pairwise (· < ·)) (offset : Nat)
    {low high : Nat} (hle : low ≤ high) (hsize : high ≤ starts.size)
    (hlow : ∀ j < low, starts.getD j 0 < offset)
    (hhigh : ∀ j, high ≤ j → j < starts.size → offset < starts.getD j 0) :
    (∃ i, search starts offset low high = .ok i ∧ i < starts.size ∧ starts.getD i 0 = offset) ∨
    ∃ i, search starts offset low high = .error i ∧ Parts starts offset i := by
  fun_induction search starts offset low high with
  | case1 low high hlt middle start heq => exact .inl ⟨middle, rfl, by omega, heq⟩
  | case2 low high hlt middle start hne hbelow ih =>
    refine ih (by omega) hsize (fun j hj => ?_) hhigh
    rcases Nat.lt_or_ge j middle with hj' | hj'
    · exact (getD_lt_getD h hj' (by omega)).trans hbelow
    · obtain rfl : j = middle := by omega
      exact hbelow
  | case3 low high hlt middle start hne hbelow ih =>
    have habove : offset < starts.getD middle 0 := by omega
    refine ih (by omega) (by omega) hlow (fun j hj hjsize => ?_)
    rcases Nat.lt_or_ge middle j with hj' | hj'
    · exact habove.trans (getD_lt_getD h hj' hjsize)
    · obtain rfl : j = middle := by omega
      exact habove
  | case4 low high hge =>
    exact .inr ⟨low, rfl, by omega, fun j hj => (hlow j hj).le, fun j hj => hhigh j (by omega)⟩

theorem parts_lineOf {index : LineIndex} (h : index.starts.toList.Pairwise (· < ·)) (offset : Nat) :
    Parts index.starts offset (index.lineOf offset) := by
  have hsearch := search_cases h offset (Nat.zero_le index.starts.size) (le_refl _)
    (by omega) (by omega)
  rcases hsearch with ⟨i, hsearch, hi, heq⟩ | ⟨i, hsearch, hparts⟩
  · have hline : index.lineOf offset = i + 1 := by rw [lineOf, hsearch]
    rw [hline]
    refine ⟨hi, fun j hj => ?_, fun j hj hjsize => heq ▸ getD_lt_getD h hj hjsize⟩
    rcases Nat.lt_or_ge j i with hji | hji
    · exact heq ▸ (getD_lt_getD h hji hi).le
    · obtain rfl : j = i := by omega
      exact heq.le
  · have hline : index.lineOf offset = i := by rw [lineOf, hsearch]
    rwa [hline]

/-! The line starts of a text. -/

theorem afterFeeds_done (cs : List Char) (offset : Nat) (done : List Nat) :
    afterFeeds cs offset done = done.reverse ++ afterFeeds cs offset [] := by
  induction cs generalizing offset done with
  | nil => simp [afterFeeds]
  | cons c cs ih =>
    simp only [afterFeeds]
    rw [ih, ih _ (if c == '\n' then _ else _)]
    split <;> simp

theorem afterFeeds_cons (c : Char) (cs : List Char) (offset : Nat) :
    afterFeeds (c :: cs) offset [] = (if c = '\n' then [offset + c.utf8Size] else []) ++
      afterFeeds cs (offset + c.utf8Size) [] := by
  rw [afterFeeds, afterFeeds_done]
  by_cases hc : c = '\n'
  · simp [hc]
  · simp [hc]

theorem lt_of_mem_afterFeeds {cs : List Char} {offset start : Nat}
    (h : start ∈ afterFeeds cs offset []) : offset < start := by
  induction cs generalizing offset with
  | nil => cases h
  | cons c cs ih =>
    have hpos := c.utf8Size_pos
    rw [afterFeeds_cons, List.mem_append] at h
    rcases h with h | h
    · split_ifs at h
      · rw [List.mem_singleton] at h
        omega
      · cases h
    · have hlt := ih h
      omega

theorem ascending_afterFeeds (cs : List Char) (offset : Nat) :
    (afterFeeds cs offset []).Pairwise (· < ·) := by
  induction cs generalizing offset with
  | nil => exact .nil
  | cons c cs ih =>
    rw [afterFeeds_cons]
    split_ifs
    · exact .cons (fun start hstart => lt_of_mem_afterFeeds hstart) (ih _)
    · exact ih _

/-- The starts up to a place, when the bytes of `cs` begin at `base`, are as many as the line feeds
before it. -/
theorem countP_afterFeeds (cs : List Char) (base offset : Nat) :
    (afterFeeds cs base []).countP (· ≤ offset) =
      ((cs.flatMap utf8EncodeChar).take (offset - base)).count 10 := by
  induction cs generalizing base with
  | nil => simp [afterFeeds]
  | cons c cs ih =>
    rw [afterFeeds_cons, List.countP_append, ih, List.flatMap_cons, List.take_append,
      List.count_append, String.length_utf8EncodeChar, ← Nat.sub_sub]
    congr 1
    by_cases hc : c = '\n'
    · subst hc
      have hbytes : utf8EncodeChar '\n' = [10] := rfl
      have hsize : '\n'.utf8Size = 1 := rfl
      rw [if_pos rfl, hbytes, hsize]
      rcases Nat.lt_or_ge base offset with hlt | hge
      · obtain ⟨k, rfl⟩ := Nat.exists_eq_add_of_lt hlt
        simp [Nat.add_assoc]
      · rw [Nat.sub_eq_zero_of_le hge]
        simpa using Nat.lt_succ_of_le hge
    · rw [if_neg hc, List.countP_nil]
      refine (List.count_eq_zero.mpr fun hmem => ?_).symm
      exact Utf8.feed_not_mem_encode hc (List.mem_of_mem_take hmem)

theorem lineOf_ofText (text : String) (offset : Nat) :
    (ofText text).lineOf offset = 1 + ((bytes text).take offset).count 10 := by
  have hascends : (ofText text).starts.toList.Pairwise (· < ·) := by
    exact .cons (fun start hstart => lt_of_mem_afterFeeds hstart) (ascending_afterFeeds _ 0)
  rw [← (parts_lineOf hascends offset).countP_eq, bytes_eq]
  have hcount := countP_afterFeeds text.toList 0 offset
  simp only [ofText, ofChars, List.countP_cons, hcount]
  simp [Nat.add_comm]

end LineIndex

/-! Places in a text, and the bytes it was read from. -/

theorem length_encode (cs : List Char) : (cs.flatMap utf8EncodeChar).length = utf8Len cs := by
  induction cs with
  | nil => rfl
  | cons c cs ih => simp [ih, Nat.add_comm]

/-- A place at some offset of the text that the bytes are read as, and its line among the bytes: the bytes
before the place are read as the text before it, and hold a line feed for each earlier line. -/
def OnLine (bytes : List UInt8) (offset line : Nat) : Prop :=
  ∃ before after, bytes = before ++ after ∧
    Utf8.lossyChars bytes = Utf8.lossyChars before ++ Utf8.lossyChars after ∧
    offset = utf8Len (Utf8.lossyChars before) ∧ line = 1 + before.count 10

theorem onLine_lineOf {bytes : List UInt8} {offset : Nat}
    (h : Regex.Between (Utf8.lossyChars bytes) offset) :
    OnLine bytes offset ((LineIndex.ofChars (Utf8.lossyChars bytes)).lineOf offset) := by
  obtain ⟨front, back, hchars, rfl⟩ := h
  obtain ⟨before, after, rfl, hbefore, hafter⟩ :=
    (hchars ▸ Utf8.decodes_lossyChars bytes).cut
  refine ⟨before, after, rfl, ?_, ?_, ?_⟩
  · rw [hchars, Utf8.decodes_iff.mp hbefore, Utf8.decodes_iff.mp hafter]
  · rw [Utf8.decodes_iff.mp hbefore]
  · have hline := LineIndex.lineOf_ofText (String.ofList (front ++ back)) (utf8Len front)
    rw [LineIndex.ofText, bytes_eq, String.toList_ofList, List.flatMap_append, ← length_encode,
      List.take_left, ← (Utf8.decodes_encode front).count_feed, hbefore.count_feed,
      length_encode] at hline
    rw [hchars, hline]

end SkillAudit.Text

namespace SkillAudit
open String (utf8Len)

/-- Where an import begins is between two characters: a match without the blanks at its front. -/
theorem Import.between_contentStart {m : Regex.Match} {text : String} (h : m.In text.toList) :
    Regex.Between text.toList (contentStart m text) := by
  obtain ⟨⟨front, back, hcut, hstart⟩, ⟨front', back', hcut', hstop⟩⟩ := h
  rcases Nat.lt_or_ge m.start m.stop with hlt | hge
  · have hmore : ∃ mid, front' = front ++ mid ∧ back = mid ++ back' := by
      rcases List.append_eq_append_iff.mp (hcut.symm.trans hcut') with h | ⟨mid, rfl, -⟩
      · exact h
      · rw [hstart, hstop, String.utf8Len_append] at hlt
        omega
    obtain ⟨mid, rfl, rfl⟩ := hmore
    have htext : m.text text = String.ofList mid := by
      have hvalid := String.extract_of_valid front mid back'
      rw [← String.utf8Len_append, ← hcut', String.ofList_toList] at hvalid
      rwa [Regex.Match.text, Regex.slice, hstart, hstop]
    have hsplit := List.takeWhile_append_dropWhile (p := Text.isBlank) (l := mid)
    refine ⟨front ++ mid.takeWhile Text.isBlank, mid.dropWhile Text.isBlank ++ back', ?_, ?_⟩
    · rw [hcut, List.append_assoc, ← List.append_assoc (mid.takeWhile _), hsplit]
    · have hsize : utf8Len mid = utf8Len (mid.takeWhile Text.isBlank) +
          utf8Len (mid.dropWhile Text.isBlank) := by
        rw [← String.utf8Len_append, hsplit]
      simp only [contentStart, htext, Text.trimStart, String.toList_ofList, String.utf8ByteSize_ofList]
      rw [hstart, String.utf8Len_append]
      omega
  · have htext : m.text text = "" := by
      simp [Regex.Match.text, Regex.slice, String.Pos.Raw.extract, hge]
    have hsame : contentStart m text = m.start := by
      rw [contentStart, htext]
      rfl
    exact ⟨front, back, hcut, hsame.trans hstart⟩

theorem PackageFile.toList_text? {f : PackageFile} {limit : Nat} {text : String}
    (h : f.text? limit = some text) : text.toList = Text.Utf8.lossyChars f.bytes.toList := by
  rw [f.text?_eq] at h
  split_ifs at h
  rw [← Option.some_inj.mp h, Text.Utf8.lossy, String.toList_ofList]

/-- A place between two characters of a file is on the line that is given for it. -/
theorem PackageFile.onLine_lineOf {f : PackageFile} {limit offset : Nat} {text : String}
    (h : f.text? limit = some text) (hoffset : Regex.Between text.toList offset) :
    Text.OnLine f.bytes.toList offset ((Text.LineIndex.ofChars text.toList).lineOf offset) := by
  rw [toList_text? h] at hoffset ⊢
  exact Text.onLine_lineOf hoffset

section Reports
variable {limit : Nat} {files : Listing}

theorem Scan.match_of_mem_ruleFindings {rule : Rule} {path text : String} {chars : List Char}
    {index : Text.LineIndex} {finding : Finding}
    (h : finding ∈ ruleFindings rule path text chars index) :
    ∃ m ∈ rule.regex.findAll chars, finding.file = path ∧ finding.ruleId = rule.spec.id ∧
      finding.matchText = clip (m.text text) ∧ finding.line = index.lineOf m.start := by
  obtain ⟨m, hm, hfinding⟩ := List.mem_filterMap.mp h
  split_ifs at hfinding
  have heq := Option.some_inj.mp hfinding
  refine ⟨m, hm, ?_, ?_, ?_, ?_⟩
  all_goals rw [← heq]

/-- Every finding is a match of a rule in a file, on its line. -/
theorem Scan.onLine_of_mem_findings {rules : RuleSet} {finding : Finding}
    (h : finding ∈ (Scan.files rules limit files).findings) :
    ∃ f ∈ files, finding.file = f.path ∧ ∃ text, f.text? limit = some text ∧
      ∃ rule ∈ rules.applicable f.path, ∃ m ∈ rule.regex.findAll text.toList,
        finding.ruleId = rule.spec.id ∧ finding.matchText = clip (m.text text) ∧
        Text.OnLine f.bytes.toList m.start finding.line := by
  obtain ⟨⟨path, text⟩, hread, hfinding⟩ := List.mem_flatMap.mp h
  obtain ⟨f, hf, hmap⟩ := List.mem_filterMap.mp hread
  obtain ⟨text', htext, heq⟩ := Option.map_eq_some_iff.mp hmap
  obtain ⟨rfl, rfl⟩ := Prod.mk.inj heq
  obtain ⟨rule, hrule, hfinding⟩ := List.mem_flatMap.mp hfinding
  obtain ⟨m, hm, hfile, hid, hmatch, hline⟩ := match_of_mem_ruleFindings hfinding
  refine ⟨f, hf, hfile, text', htext, rule, hrule, m, hm, hid, hmatch, ?_⟩
  rw [hline]
  exact f.onLine_lineOf htext (Regex.in_findAll hm).start

theorem Flow.file_of_mem_scripts {s : Script} (h : s ∈ scripts limit files) :
    ∃ f ∈ files, s.path = f.path ∧ f.text? limit = some s.text := by
  obtain ⟨f, hf, hs⟩ := List.mem_filterMap.mp h
  split at hs
  · cases hs
  · split_ifs at hs
    obtain ⟨text, htext, rfl⟩ := Option.map_eq_some_iff.mp hs
    exact ⟨f, hf, rfl, htext⟩

/-- The evidence for a capability is the first match of its pattern, on its line. -/
theorem Flow.onLine_of_mem_found {f : PackageFile} {text : String} (h : f.text? limit = some text)
    {c : Capability} {e : Evidence} (he : (c, e) ∈ (Capabilities.ofText text).found) :
    ∃ re m, (c, re) ∈ Capability.regexes ∧ re.find? text.toList = some m ∧
      e.text = Text.trim (m.text text) ∧ Text.OnLine f.bytes.toList m.start e.line := by
  simp only [Capabilities.ofText, List.mem_filterMap, Option.map_eq_some_iff] at he
  obtain ⟨⟨c', re⟩, hre, m, hm, heq⟩ := he
  obtain ⟨rfl, rfl⟩ := Prod.mk.inj heq
  exact ⟨re, m, hre, hm, rfl, f.onLine_lineOf h (Regex.in_find? hm).start⟩

/-- An import is a match of one of the forms, and on the line of its first character that is not
blank. -/
theorem Flow.onLine_of_mem_imports {f : PackageFile} {text : String} (h : f.text? limit = some text)
    {i : Import} (hi : i ∈ Import.ofText f.path text) :
    ∃ form re, ∃ m ∈ re.findAll text.toList, (form, re) ∈ Import.Form.regexes ∧
      i.specifier = (m.named re text "spec").getD "" ∧
      Text.OnLine f.bytes.toList (Import.contentStart m text) i.line := by
  simp only [Import.ofText, Import.ofForm, List.mem_map, List.mem_mergeSort, List.mem_flatMap] at hi
  obtain ⟨_, ⟨⟨form, re⟩, hre, m, hm, rfl⟩, rfl⟩ := hi
  exact ⟨form, re, m, hm, hre, rfl,
    f.onLine_lineOf h (Import.between_contentStart (Regex.in_findAll hm))⟩

end Reports

/-- Lines are those of the bytes. The line of an offset is one more than the number of line feeds before
it; the text of a file is read from its bytes with a replacement for each run that is not UTF-8, and its
lines are those between the line feeds among the bytes, each read on its own. So every finding, all
evidence for a capability and every import is reported on the line on which its first byte is. -/
theorem reported_lines_physical (rules : RuleSet) (limit : Nat) (files : Listing) :
    (∀ text offset, (Text.LineIndex.ofText text).lineOf offset =
      1 + ((Text.bytes text).take offset).count 10) ∧
    (∀ (f : PackageFile) text, f.text? limit = some text →
      Text.Utf8.Decodes f.bytes.toList text.toList ∧
      text.toList.splitOn '\n' = (f.bytes.toList.splitOn 10).map Text.Utf8.lossyChars) ∧
    (∀ finding ∈ (Scan.files rules limit files).findings,
      ∃ f ∈ files, finding.file = f.path ∧ ∃ text, f.text? limit = some text ∧
        ∃ rule ∈ rules.applicable f.path, ∃ m ∈ rule.regex.findAll text.toList,
          finding.ruleId = rule.spec.id ∧ finding.matchText = Scan.clip (m.text text) ∧
          Text.OnLine f.bytes.toList m.start finding.line) ∧
    (∀ unread, ∀ shown ∈ (Flow.Graph.ofListing limit files unread).capabilities,
      ∃ f ∈ files, shown.1 = f.path ∧ ∃ text, f.text? limit = some text ∧
        ∀ c e, (c, e) ∈ shown.2.found →
          ∃ re m, (c, re) ∈ Capability.regexes ∧ re.find? text.toList = some m ∧
            e.text = Text.trim (m.text text) ∧ Text.OnLine f.bytes.toList m.start e.line) ∧
    (∀ s ∈ Flow.scripts limit files,
      ∃ f ∈ files, s.path = f.path ∧ f.text? limit = some s.text ∧
        ∀ i ∈ Import.ofText s.path s.text,
          ∃ form re, ∃ m ∈ re.findAll s.text.toList, (form, re) ∈ Import.Form.regexes ∧
            i.specifier = (m.named re s.text "spec").getD "" ∧
            Text.OnLine f.bytes.toList (Import.contentStart m s.text) i.line) := by
  refine ⟨Text.LineIndex.lineOf_ofText, fun f text htext => ?_,
    fun finding => Scan.onLine_of_mem_findings, fun unread shown hshown => ?_, fun s hs => ?_⟩
  · rw [f.toList_text? htext]
    exact ⟨Text.Utf8.decodes_lossyChars _, Text.Utf8.splitOn_lossyChars _⟩
  · obtain ⟨s, hs, rfl⟩ := List.mem_map.mp (Dict.mem_of_mem_ofList hshown)
    obtain ⟨f, hf, hpath, htext⟩ := Flow.file_of_mem_scripts hs
    exact ⟨f, hf, hpath, s.text, htext, fun c e he => Flow.onLine_of_mem_found htext he⟩
  · obtain ⟨f, hf, hpath, htext⟩ := Flow.file_of_mem_scripts hs
    refine ⟨f, hf, hpath, htext, fun i hi => ?_⟩
    rw [hpath] at hi
    exact Flow.onLine_of_mem_imports htext hi

/-- A character that is broken off by a line feed, a byte with which none begins, and a letter. -/
def brokenFile : PackageFile := ⟨"a", ⟨#[0xE2, 10, 0xFF, 120, 10]⟩⟩

/-- The letter is reported on the second line, after seven bytes of text that are read from three. -/
theorem reported_lines_physical_broken :
    brokenFile.text? 100 = some "\ufffd\n\ufffdx\n" ∧
    "\ufffd\n\ufffdx\n".toList.splitOn '\n' =
      (brokenFile.bytes.toList.splitOn 10).map Text.Utf8.lossyChars ∧
    (Scan.files ⟨"1", [Gate.markRule]⟩ 100 [brokenFile]).findings.map (·.line) = [2] ∧
    Text.OnLine brokenFile.bytes.toList 7 2 := by
  obtain ⟨-, hlines, hfindings, -⟩ := reported_lines_physical ⟨"1", [Gate.markRule]⟩ 100 [brokenFile]
  have htext : brokenFile.text? 100 = some "\ufffd\n\ufffdx\n" := by cbv
  have hreport : (Scan.files ⟨"1", [Gate.markRule]⟩ 100 [brokenFile]).findings =
      [⟨"mark", .critical, "general", "a", 2, "x", 100⟩] := by cbv
  have hmatch : Gate.markRule.regex.findAll "\ufffd\n\ufffdx\n".toList = [⟨7, 8, [(0, 7)]⟩] := by cbv
  refine ⟨htext, (hlines brokenFile _ htext).2, by rw [hreport]; rfl, ?_⟩
  obtain ⟨f, hf, -, text, hread, rule, hrule, m, hm, -, -, hline⟩ :=
    hfindings ⟨"mark", .critical, "general", "a", 2, "x", 100⟩ (by rw [hreport]; simp)
  obtain rfl := List.mem_singleton.mp hf
  obtain rfl := List.mem_singleton.mp (List.mem_of_mem_filter hrule)
  obtain rfl := Option.some_inj.mp (htext.symm.trans hread)
  rw [hmatch] at hm
  obtain rfl := List.mem_singleton.mp hm
  exact hline

end SkillAudit
