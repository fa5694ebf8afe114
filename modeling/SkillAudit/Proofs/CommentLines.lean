import Mathlib
import SkillAudit.Behaviour.Monitor
import SkillAudit.Proofs.FileTree
import SkillAudit.Proofs.TextLines

/-!
Comments and the behaviours of a package. Of a comment nothing is looked at but that it is one: no
sign is found on its line, and the signs of the whole file are sought in a text where its line is
empty. So scripts that differ in their comments only have the same findings.
-/
namespace SkillAudit.Behaviour

/-- Lines that are the same, or comments both. -/
def SameCode (language : Language) (line line' : String) : Prop :=
  line = line' ∨ (language.isComment line = true ∧ language.isComment line' = true)

def codeOf (language : Language) (line : String) : String :=
  if language.isComment line then "" else line

section Script
variable {language : Language} {path text text' : String}

theorem codeLines_congr
    (h : List.Forall₂ (SameCode language) (Text.lines text) (Text.lines text')) :
    codeLines language text = codeLines language text' := by
  unfold codeLines
  generalize Text.lines text = ls, Text.lines text' = ls' at h
  induction h with
  | nil => rfl
  | @cons line line' _ _ hline _ ih =>
    rw [List.map_cons, List.map_cons, ih]
    rcases hline with rfl | ⟨hcomment, hcomment'⟩
    · rfl
    · simp [hcomment, hcomment']

theorem textFindings_congr
    (h : List.Forall₂ (SameCode language) (Text.lines text) (Text.lines text')) :
    textFindings language path text = textFindings language path text' := by
  unfold textFindings
  rw [codeLines_congr h]

/-- Between its line feeds, the code of a script has its lines, with nothing in place of a comment. -/
theorem splitAt_codeText (language : Language) (text : String) :
    Text.splitAt '\n' (String.ofList (codeText (codeLines language text))) =
      (Text.lines text).map (codeOf language) ++ [""] := by
  have hfeed : ∀ l ∈ Text.lines text, '\n' ∉ l.toList := fun l => Text.feed_not_mem_lines
  rw [Text.splitAt, Text.splitWhen_eq, String.toList_ofList, codeText, codeLines]
  generalize Text.lines text = ls at hfeed
  induction ls with
  | nil => simp
  | cons l ls ih =>
    rw [List.forall_mem_cons] at hfeed
    have hcode : ((if language.isComment l = true then none else some l).getD "").toList =
        (codeOf language l).toList := by
      unfold codeOf
      split <;> rfl
    have hclean : ∀ c ∈ (codeOf language l).toList, (c == '\n') = false := by
      intro c hc
      rw [beq_eq_false_iff_ne]
      rintro rfl
      unfold codeOf at hc
      split at hc
      · simp at hc
      · exact hfeed.1 hc
    rw [List.map_cons, List.flatMap_cons, hcode, List.append_assoc, List.singleton_append,
      List.splitOnP_append_cons _ _ (by simp), List.splitOnP_eq_singleton hclean,
      List.singleton_append, List.map_cons, ih hfeed.2, String.ofList_toList]
    simp

theorem line_of_mem_lineFindings {number : Nat} {line : String} {f : BehaviourFinding}
    (h : f ∈ lineFindings language path number line) : f.line = number := by
  obtain ⟨x, -, hx⟩ := List.mem_filterMap.mp h
  obtain ⟨m, -, rfl⟩ := Option.map_eq_some_iff.mp hx
  rfl

theorem line_of_mem_fileFindings {code : List Char} {f : BehaviourFinding}
    (h : f ∈ fileFindings language path code) : f.line = 0 := by
  obtain ⟨x, -, hx⟩ := List.mem_filterMap.mp h
  simp only [Option.bind_eq_bind, Option.bind_eq_some_iff] at hx
  obtain ⟨first, -, second, -, hx⟩ := hx
  rw [← Option.some.inj hx]

/-- What is found on the lines is found on a line that is no comment. -/
theorem mem_linesFindings {f : BehaviourFinding}
    (h : f ∈ linesFindings language path (codeLines language text)) :
    ∃ n line, (Text.lines text)[n]? = some line ∧ language.isComment line = false ∧
      f.line = n + 1 := by
  obtain ⟨⟨line?, number⟩, hmem, hf⟩ := List.mem_flatMap.mp h
  obtain ⟨hle, hat⟩ := List.mem_zipIdx_iff_le_and_getElem?_sub.mp hmem
  cases line? with
  | none => cases hf
  | some line =>
    rw [codeLines, List.getElem?_map] at hat
    obtain ⟨line', hline, hkept⟩ := Option.map_eq_some_iff.mp hat
    split at hkept
    next => cases hkept
    next hcomment =>
      obtain rfl := Option.some.inj hkept
      refine ⟨number - 1, line', hline, by simpa using hcomment, ?_⟩
      rw [line_of_mem_lineFindings hf]
      simp only at hle
      omega

theorem ofListing_script {limit : Nat} {before after : Listing} {f : PackageFile}
    (htext : f.text? limit = some text) (hlang : Language.ofFile? f.path text = some language) :
    ofListing limit (before ++ f :: after) =
      .ofFindings ((scripts limit before).flatMap (fun (l, path, text) => textFindings l path text) ++
        textFindings language f.path text ++
        (scripts limit after).flatMap fun (l, path, text) => textFindings l path text)
      ((scripts limit before).length + 1 + (scripts limit after).length) := by
  have hscripts : scripts limit (before ++ f :: after) =
      scripts limit before ++ (language, f.path, text) :: scripts limit after := by
    simp [scripts, htext, hlang]
  rw [ofListing, hscripts]
  simp only [List.flatMap_append, List.flatMap_cons, List.append_assoc, List.length_append,
    List.length_cons]
  congr 1
  omega

end Script

/-- Two scripts of one language that differ in their comments only have the same findings, and so
have packages in which one takes the place of the other. No finding has the number of a comment's
line, and one of the whole file is found in a text that has nothing in place of the comments. -/
theorem comments_do_not_count {language : Language} {path text text' : String}
    (hlang : Language.ofFile? path text = some language)
    (hlang' : Language.ofFile? path text' = some language)
    (hlines : List.Forall₂ (SameCode language) (Text.lines text) (Text.lines text')) :
    textFindings language path text = textFindings language path text' ∧
    (∀ limit before after f f', f.path = path → f'.path = path → f.text? limit = some text →
      f'.text? limit = some text' →
      ofListing limit (before ++ f :: after) = ofListing limit (before ++ f' :: after)) ∧
    ∃ code : List Char,
      Text.splitAt '\n' (String.ofList code) = (Text.lines text).map (codeOf language) ++ [""] ∧
      ∀ finding ∈ textFindings language path text,
        (finding.line = 0 ∧ finding ∈ fileFindings language path code) ∨
        ∃ n line, (Text.lines text)[n]? = some line ∧ language.isComment line = false ∧
          finding.line = n + 1 := by
  have hsame : textFindings language path text = textFindings language path text' :=
    textFindings_congr hlines
  refine ⟨hsame, ?_, codeText (codeLines language text), splitAt_codeText language text, ?_⟩
  · rintro limit before after f f' rfl hpath htext htext'
    rw [← hpath] at hlang'
    rw [ofListing_script htext hlang, ofListing_script htext' hlang', hpath, hsame]
  · intro finding hfinding
    rcases List.mem_append.mp hfinding with hline | hfile
    · exact .inr (mem_linesFindings hline)
    · exact .inl ⟨line_of_mem_fileFindings hfile, hfile⟩

/-- The comment of a script is taken away, and its lines end in another way. -/
theorem comments_do_not_count_python :
    Text.lines "#!/bin/python\n# eval(\nx\n" = ["#!/bin/python", "# eval(", "x"] ∧
    Text.lines "#!/bin/python\r\n\t#\r\nx" = ["#!/bin/python", "\t#", "x"] ∧
    textFindings .python "run" "#!/bin/python\n# eval(\nx\n" =
      textFindings .python "run" "#!/bin/python\r\n\t#\r\nx" := by
  have hbefore : Text.lines "#!/bin/python\n# eval(\nx\n" = ["#!/bin/python", "# eval(", "x"] := by
    decide
  have hafter : Text.lines "#!/bin/python\r\n\t#\r\nx" = ["#!/bin/python", "\t#", "x"] := by decide
  have hcomments : SameCode .python "# eval(" "\t#" := .inr ⟨by decide, by decide⟩
  refine ⟨hbefore, hafter, (comments_do_not_count (by decide) (by decide) ?_).1⟩
  rw [hbefore, hafter]
  exact .cons (.inl rfl) (.cons hcomments (.cons (.inl rfl) .nil))

end SkillAudit.Behaviour
