import Mathlib
import SkillAudit.Command.Run
import SkillAudit.Proofs.VersionDiff

/-!
Versions that score lower than the one before. The score counts every match, while findings are new
only where their rule did not match on their line at all: a lower score comes with a new finding, or
with further matches on a line that had one.
-/
namespace SkillAudit

namespace RuleSet

theorem compileRule_spec {s : Rule.Spec} {rule : Rule} (h : compileRule s = .ok rule) :
    rule.spec = s := by
  unfold compileRule at h
  simp only at h
  split at h
  · obtain rfl := Except.ok.inj h
    rfl
  · cases h

/-- No two rules that are prepared together have one name. -/
theorem compileRules_distinct {specs : List Rule.Spec} {seen : List String} {done rules : List Rule}
    (h : compileRules specs seen done = .ok rules) (hseen : ∀ rule ∈ done, rule.spec.id ∈ seen)
    (hdone : (done.map (·.spec.id)).Nodup) : (rules.map (·.spec.id)).Nodup := by
  induction specs generalizing seen done with
  | nil =>
    obtain rfl := Except.ok.inj h
    rwa [List.map_reverse, List.nodup_reverse]
  | cons s rest ih =>
    rw [compileRules] at h
    split at h
    next => cases h
    next hnew =>
      split at h
      next => cases h
      next rule hrule =>
        have hspec := compileRule_spec hrule
        refine ih h (fun other hother => ?_) ?_
        · rcases List.mem_cons.mp hother with rfl | hmem
          · simp [hspec]
          · exact List.mem_cons_of_mem _ (hseen other hmem)
        · refine List.nodup_cons.mpr ⟨fun hmem => hnew ?_, hdone⟩
          obtain ⟨other, hother, heq⟩ := List.mem_map.mp hmem
          have hid : other.spec.id = s.id := heq.trans (congrArg Rule.Spec.id hspec)
          rw [List.contains_iff_mem, ← hid]
          exact hseen other hother

theorem ofSpecs_distinct {version : String} {specs : List Rule.Spec} {set : RuleSet}
    (h : ofSpecs version specs = .ok set) : (set.rules.map (·.spec.id)).Nodup := by
  unfold ofSpecs at h
  cases hrules : compileRules specs [] [] with
  | error e =>
    rw [hrules] at h
    cases h
  | ok rules =>
    rw [hrules] at h
    obtain rfl := Except.ok.inj h
    exact compileRules_distinct hrules (by simp) (by simp)

def weightOf (set : RuleSet) (id : String) : Nat :=
  ((set.rules.find? (·.spec.id == id)).map (·.spec.weight.toNat)).getD 0

theorem weightOf_id {set : RuleSet} (hids : (set.rules.map (·.spec.id)).Nodup) {rule : Rule}
    (hrule : rule ∈ set.rules) : set.weightOf rule.spec.id = rule.spec.weight.toNat := by
  unfold weightOf
  cases hfind : set.rules.find? (·.spec.id == rule.spec.id) with
  | none =>
    have hnot := List.find?_eq_none.mp hfind rule hrule
    simp at hnot
  | some other =>
    have hid : other.spec.id = rule.spec.id := by simpa using List.find?_some hfind
    have heq := List.inj_on_of_nodup_map hids (List.mem_of_find?_eq_some hfind) hrule hid
    simp [heq]

end RuleSet

/-- How often findings have a key: how often a rule matches on a line. -/
def Finding.occurrences (findings : List Finding) (key : String × String × Nat) : Nat :=
  findings.countP (·.key = key)

section Weights
open Finding
variable {old new : List Finding} {w : String × String × Nat → Nat}

theorem occurrences_eq_zero {findings : List Finding} {key : String × String × Nat} :
    occurrences findings key = 0 ↔ key ∉ findings.map Finding.key := by
  simp [occurrences, List.countP_eq_zero]

theorem total_eq_sum {findings : List Finding}
    (h : ∀ f ∈ findings, f.weight.toNat = w f.key) :
    total findings = ∑ k ∈ (findings.map Finding.key).toFinset, occurrences findings k • w k := by
  have hkeys : findings.map (·.weight.toNat) = (findings.map Finding.key).map w := by
    rw [List.map_map]
    exact List.map_congr_left h
  rw [total, hkeys, Finset.sum_list_map_count]
  refine Finset.sum_congr rfl fun k _ => congrArg (· • w k) ?_
  unfold List.count occurrences
  rw [List.countP_map]
  exact List.countP_congr fun f _ => by simp

/-- Findings weigh no more than others if no key of any weight occurs more often. -/
theorem total_le_of_occurrences (hold : ∀ f ∈ old, f.weight.toNat = w f.key)
    (hnew : ∀ f ∈ new, f.weight.toNat = w f.key)
    (h : ∀ f ∈ new, 0 < f.weight.toNat → occurrences new f.key ≤ occurrences old f.key) :
    total new ≤ total old := by
  rw [total_eq_sum hold, total_eq_sum hnew]
  calc ∑ k ∈ (new.map Finding.key).toFinset, occurrences new k • w k
      ≤ ∑ k ∈ (new.map Finding.key).toFinset, occurrences old k • w k := by
        refine Finset.sum_le_sum fun k hk => ?_
        obtain ⟨f, hf, rfl⟩ := List.mem_map.mp (List.mem_toFinset.mp hk)
        rcases Nat.eq_zero_or_pos (w f.key) with hzero | hpos
        · simp [hzero]
        · exact Nat.mul_le_mul_right _ (h f hf (hnew f hf ▸ hpos))
    _ ≤ ∑ k ∈ (old.map Finding.key).toFinset, occurrences old k • w k := by
        refine Finset.sum_le_sum_of_ne_zero fun k _ hne => ?_
        rw [List.mem_toFinset]
        by_contra hnot
        exact hne (by simp [occurrences_eq_zero.mpr hnot])

end Weights

namespace Scan

theorem weight_eq {rules : RuleSet} (hids : (rules.rules.map (·.spec.id)).Nodup) {limit : Nat}
    {listing : Listing} :
    ∀ f ∈ (files rules limit listing).findings, f.weight.toNat = rules.weightOf f.key.1 := by
  intro f hf
  rw [findings_files, List.mem_flatMap] at hf
  obtain ⟨file, -, hf⟩ := hf
  obtain ⟨rule, hrule, hf⟩ := List.mem_flatMap.mp hf
  obtain ⟨m, -, hm⟩ := List.mem_filterMap.mp hf
  split at hm
  · cases hm
  · obtain rfl := Option.some.inj hm
    exact (RuleSet.weightOf_id hids (List.mem_filter.mp hrule).1).symm

end Scan

namespace Diff
open Finding

theorem mem_newFindings {rules : RuleSet} {limit : Nat} {old new : Listing} {f : Finding} :
    f ∈ (ofListings rules limit old new).newFindings ↔ f ∈ (Scan.files rules limit new).findings ∧
      occurrences (Scan.files rules limit old).findings f.key = 0 := by
  simp only [ofListings, missingFrom, List.mem_filter, occurrences_eq_zero]
  refine and_congr_right fun _ => ?_
  simp

/-- Where the score is lower, a rule that costs something matches more often on some line. -/
theorem more_matches {rules : RuleSet} (hids : (rules.rules.map (·.spec.id)).Nodup) {limit : Nat}
    {old new : Listing} (hdelta : 0 < (ofListings rules limit old new).riskDelta) :
    ∃ f ∈ (Scan.files rules limit new).findings, 0 < f.weight.toNat ∧
      occurrences (Scan.files rules limit old).findings f.key <
        occurrences (Scan.files rules limit new).findings f.key := by
  by_contra hnone
  have hfew : ∀ f ∈ (Scan.files rules limit new).findings, 0 < f.weight.toNat →
      occurrences (Scan.files rules limit new).findings f.key ≤
        occurrences (Scan.files rules limit old).findings f.key := by
    intro f hf hpos
    by_contra hmore
    exact hnone ⟨f, hf, hpos, by omega⟩
  have hle := total_le_of_occurrences (w := fun k => rules.weightOf k.1) (Scan.weight_eq hids)
    (Scan.weight_eq hids) hfew
  have hscores : (ofListings rules limit old new).riskDelta =
      ((Scan.files rules limit old).score.toNat : Int) - (Scan.files rules limit new).score.toNat := rfl
  rw [hscores, Scan.score_files, Scan.score_files] at hdelta
  omega

/-- A file whose lines stay the same shows no new signal. -/
theorem fileChanges_of_lines {limit : Nat} {old new : Listing} {path : String}
    (h : ∀ after ∈ textAt? limit new path,
      Text.lines ((textAt? limit old path).getD "") = Text.lines after) :
    fileChanges limit old new path = [] := by
  unfold fileChanges
  cases hafter : textAt? limit new path with
  | none => rfl
  | some after =>
    have hlines := h after hafter
    have hnone : ∀ re : Regex, firstNewLine re ((textAt? limit old path).getD "") after = none := by
      intro re
      rw [firstNewLine, hlines, Option.map_eq_none_iff, List.findIdx?_eq_none_iff]
      intro line hline
      by_cases hmatch : re.isMatch line.toList = true
      · have hknown : Text.trim line ∈
            ((Text.lines after).filter (re.isMatch ·.toList)).map Text.trim :=
          List.mem_map.mpr ⟨line, List.mem_filter.mpr ⟨hline, hmatch⟩, rfl⟩
        simp [hmatch, hknown]
      · simp [hmatch]
    simp [hnone]

end Diff

namespace Program

/-- A request to compare two directories by some rules, in files up to a limit. -/
structure Compares (s : Setting) (r : CommandLine.Request) (w : World) (rules : RuleSet) (limit : Nat)
    (old new : String) : Prop where
  command : r.command = .diff old new
  context : ∃ c, contextOf s w r = .ok c ∧ c.rules w = (.ok rules, w) ∧ c.policy.maxFileSize = limit
  old : w.isDir old = true
  new : w.isDir new = true

/-- A comparison exits with 1 where it shows new findings or new signals, and with 0 elsewhere. -/
theorem Compares.exit {s : Setting} {r : CommandLine.Request} {w : World} {rules : RuleSet}
    {limit : Nat} {old new : String} (h : Compares s r w rules limit old new) :
    (runRequest s r w).1.exit =
      if (Diff.ofPaths rules limit w old new).newFindings = [] ∧
        (Diff.ofPaths rules limit w old new).sensitiveChanges = [] then 0 else 1 := by
  obtain ⟨c, hcontext, hrules, rfl⟩ := h.context
  have hdirs : [old, new].find? (fun dir => !w.isDir dir) = none := by simp [h.old, h.new]
  have hdiff : ∃ text, Command.diff c old new w = (.ok ⟨text,
      !(Diff.ofPaths rules c.policy.maxFileSize w old new).newFindings.isEmpty ||
        !(Diff.ofPaths rules c.policy.maxFileSize w old new).sensitiveChanges.isEmpty⟩, w) := by
    rw [Command.diff, Act.bind_of_ok (x := get) rfl]
    simp only [hdirs]
    rw [Act.bind_of_ok hrules]
    exact ⟨_, rfl⟩
  obtain ⟨text, hdiff⟩ := hdiff
  simp only [runRequest, hcontext, h.command, perform, hdiff]
  by_cases hnew : (Diff.ofPaths rules c.policy.maxFileSize w old new).newFindings = []
  · simp [hnew]
  · simp [hnew]

end Program

namespace Diff
open Finding

/-- A version that scores lower has a new finding, and comparing it with the one before exits with 1,
unless some rule matches more often on a line on which it has matched before. -/
theorem lower_score_flagged {version : String} {specs : List Rule.Spec} {rules : RuleSet}
    (hrules : RuleSet.ofSpecs version specs = .ok rules) (limit : Nat) (w : World) (old new : String)
    (hdelta : 0 < (ofPaths rules limit w old new).riskDelta) :
    ((ofPaths rules limit w old new).newFindings ≠ [] ∧
      ∀ s r, Program.Compares s r w rules limit old new → (Program.runRequest s r w).1.exit = 1) ∨
    ∃ f ∈ (Scan.path rules limit w new).findings, 0 < f.weight.toNat ∧
      0 < occurrences (Scan.path rules limit w old).findings f.key ∧
      occurrences (Scan.path rules limit w old).findings f.key <
        occurrences (Scan.path rules limit w new).findings f.key := by
  obtain ⟨f, hf, hpos, hmore⟩ := more_matches (RuleSet.ofSpecs_distinct hrules) hdelta
  rcases Nat.eq_zero_or_pos (occurrences (Scan.path rules limit w old).findings f.key) with
    hzero | hbefore
  · have hnew : (ofPaths rules limit w old new).newFindings ≠ [] :=
      List.ne_nil_of_mem (mem_newFindings.mpr ⟨hf, hzero⟩)
    refine .inl ⟨hnew, fun s r hcompares => ?_⟩
    rw [hcompares.exit, if_neg fun h => hnew h.1]
  · exact .inr ⟨f, hf, hpos, hbefore, hmore⟩

def blankSpec : Rule.Spec := ⟨"blank", "blank", "general", .low, 10, "\\s", false, []⟩

def blankRule (word asciiWord : Regex.CharTest) : Rule :=
  ⟨blankSpec, ⟨#[.char (.ofSet .space), .accept], [], false, .ofSet .space, word, asciiWord⟩⟩

def blankRules : RuleSet := ⟨"unversioned", [blankRule (.ofSet .word) (.ofSet .asciiWord)]⟩

theorem ofSpecs_blank : RuleSet.ofSpecs "unversioned" [blankSpec] = .ok blankRules := rfl

def blankText : String :=
  "[[rule]]\nid = 'blank'\ntitle = 'blank'\nseverity = 'low'\nweight = 10\npattern = '\\s'\n"

def blankConfig : String := "[paths]\nrules = 'r'\n"

/-- Three versions of a package: with a line, with another end of that line, and with a second
line. -/
def edited : World where
  nodes := [
    (["c"], .file blankConfig.toUTF8), (["r"], .file blankText.toUTF8),
    (["p"], .dir), (["p", "m"], .file ⟨#[10]⟩),
    (["q"], .dir), (["q", "m"], .file ⟨#[13, 10]⟩),
    (["n"], .dir), (["n", "m"], .file ⟨#[10, 10]⟩)]
  cwd := []

theorem eq_ok_of_toOption {ε α : Type} {x : Except ε α} {a : α} (h : x.toOption = some a) :
    x = .ok a := by
  cases x with
  | error e => cases h
  | ok b => rw [Option.some.inj h]

theorem ofToml_blank : RuleSet.ofToml blankText = .ok blankRules := by
  have hrules : (Rule.Document.parse blankText).toOption.map (fun d => (d.version, d.rules)) =
      some (none, [blankSpec]) := by
    decide +kernel
  obtain ⟨⟨version, specs⟩, hdocument, hpair⟩ := Option.map_eq_some_iff.mp hrules
  obtain ⟨rfl, rfl⟩ := Prod.mk.inj hpair
  simp only [RuleSet.ofToml, eq_ok_of_toOption hdocument]
  exact ofSpecs_blank

theorem parse_blankConfig : Config.parse blankConfig = .ok { paths := { rules := some "r" } } :=
  eq_ok_of_toOption (by decide +kernel)

def editedSetting : Setting := { environment := ⟨[("HOME", "h")]⟩, now := .newYear }

def editedRequest (new : String) : CommandLine.Request :=
  ⟨some "c", none, false, false, false, .diff "p" new⟩

def editedContext : Command.Context where
  config := { paths := { rules := some "r" } }
  paths := {
    skillsDir := "h/.local/share/skillgate/skills"
    ledger := "h/.local/share/skillgate/ledger.json"
    ledgerMarkdown := some "h/.local/share/skillgate/ledger.md"
    watchState := "h/.local/share/skillgate/watch-state.json"
    pending := "h/.local/share/skillgate/pending.json"
    rules := some "r" }
  format := .pretty
  screen := ⟨editedSetting.environment.wantsColours editedSetting.terminal⟩
  now := editedSetting.now
  input := editedSetting.input
  send := editedSetting.send
  scratch := editedSetting.scratch

theorem resolvePaths_edited : editedContext.config.resolvePaths editedSetting.environment =
    .ok editedContext.paths :=
  eq_ok_of_toOption (by decide +kernel)

theorem contextOf_edited (new : String) :
    Program.contextOf editedSetting edited (editedRequest new) = .ok editedContext := by
  have hread : edited.readText "c" = .ok blankConfig :=
    LocalPath.readText (show LocalPath "c" "c" by decide) edited rfl
  have hconfig : Program.loadConfig editedSetting.environment edited (some "c") =
      .ok editedContext.config := by
    have hpath : Program.configPath? editedSetting.environment edited (some "c") = some "c" := rfl
    simp only [Program.loadConfig, hpath, hread, parse_blankConfig]
    rfl
  simp only [Program.contextOf, editedRequest, hconfig]
  simp only [bind, Except.bind, Bool.false_eq_true, if_false, resolvePaths_edited]
  rfl

theorem edited_rules : editedContext.rules edited = (.ok blankRules, edited) :=
  Command.Context.rules_of_text rfl
    (LocalPath.readText (show LocalPath "r" "r" by decide) edited rfl) ofToml_blank

def blankAt (line : Nat) : Finding := ⟨"blank", .low, "general", "m", line, "", 10⟩

/-- A version at a path with one file, and what the rule finds in it. -/
structure EditedTo (root : String) (bytes : ByteArray) (found : List Finding) : Prop where
  directory : edited.isDir root = true
  listing : Listing.ofPath edited root = [⟨"m", bytes⟩]
  findings : (Scan.path blankRules 1048576 edited root).findings = found

theorem EditedTo.of_reaches {root : String} {p : Place} {bytes : ByteArray} {found : List Finding}
    (h : edited.reaches true root = .ok (.taken p .dir))
    (hbelow : edited.below p = [(["m"], .file bytes)])
    (hshort : Path.isShort (Path.join root "m") = true)
    (hfound : ∀ word asciiWord, (Scan.files ⟨"unversioned", [blankRule word asciiWord]⟩ 1048576
      [⟨"m", bytes⟩]).findings = found) : EditedTo root bytes found where
  directory := by simp only [World.isDir, World.find, World.resolve_eq_reaches, h]
  listing := Listing.ofPath_of_single h hbelow (by decide) hshort
  findings := by
    rw [Scan.path_findings, Listing.ofPath_of_single h hbelow (by decide) hshort]
    exact hfound _ _

set_option maxRecDepth 4000 in
/-- The first version has a blank, the others have two. -/
theorem edited_versions : EditedTo "p" ⟨#[10]⟩ [blankAt 1] ∧
    EditedTo "q" ⟨#[13, 10]⟩ [blankAt 1, blankAt 1] ∧ EditedTo "n" ⟨#[10, 10]⟩ [blankAt 1, blankAt 2] :=
  ⟨.of_reaches (p := ["p"]) (by decide) rfl (by decide) fun _ _ => by cbv,
    .of_reaches (p := ["q"]) (by decide) rfl (by decide) fun _ _ => by cbv,
    .of_reaches (p := ["n"]) (by decide) rfl (by decide) fun _ _ => by cbv⟩

theorem edited_first : EditedTo "p" ⟨#[10]⟩ [blankAt 1] :=
  edited_versions.1

theorem edited_end : EditedTo "q" ⟨#[13, 10]⟩ [blankAt 1, blankAt 1] :=
  edited_versions.2.1

theorem edited_line : EditedTo "n" ⟨#[10, 10]⟩ [blankAt 1, blankAt 2] :=
  edited_versions.2.2

section Edit
variable {new : String} {bytes : ByteArray} {found : List Finding} (h : EditedTo new bytes found)
include h

theorem EditedTo.compares :
    Program.Compares editedSetting (editedRequest new) edited blankRules 1048576 "p" new where
  command := rfl
  context := ⟨editedContext, contextOf_edited new, edited_rules, rfl⟩
  old := edited_first.directory
  new := h.directory

theorem EditedTo.riskDelta :
    (ofPaths blankRules 1048576 edited "p" new).riskDelta = 90 - ((100 - total found : Nat) : Int) := by
  have hscores : (ofPaths blankRules 1048576 edited "p" new).riskDelta =
      ((Scan.path blankRules 1048576 edited "p").score.toNat : Int) -
        (Scan.path blankRules 1048576 edited new).score.toNat := rfl
  have hold := edited_first.findings
  have hnew := h.findings
  simp only [Scan.path] at hold hnew
  rw [hscores, Scan.path, Scan.path, Scan.score_files, Scan.score_files, hold, hnew]
  rfl

end Edit

/-- Another end of the line is a second match on it: the version scores lower, shows no new finding
and no new signal, and comparing it with the one before exits with 0. -/
theorem lower_score_unflagged :
    RuleSet.ofSpecs "unversioned" [blankSpec] = .ok blankRules ∧
    0 < (ofPaths blankRules 1048576 edited "p" "q").riskDelta ∧
    (ofPaths blankRules 1048576 edited "p" "q").newFindings = [] ∧
    Program.Compares editedSetting (editedRequest "q") edited blankRules 1048576 "p" "q" ∧
    (Program.runRequest editedSetting (editedRequest "q") edited).1.exit = 0 := by
  have hnew : (ofPaths blankRules 1048576 edited "p" "q").newFindings = [] := by
    refine List.eq_nil_iff_forall_not_mem.mpr fun f hf => ?_
    obtain ⟨hf, hzero⟩ := mem_newFindings.mp hf
    have hold := edited_first.findings
    have hend := edited_end.findings
    simp only [Scan.path] at hold hend
    rw [hend] at hf
    rw [hold] at hzero
    have hkey : f = blankAt 1 := by simpa using hf
    subst hkey
    simp [occurrences] at hzero
  have hsensitive : (ofPaths blankRules 1048576 edited "p" "q").sensitiveChanges = [] := by
    refine List.flatMap_eq_nil_iff.mpr fun path _ => fileChanges_of_lines fun after hafter => ?_
    rw [edited_end.listing] at hafter
    rw [edited_first.listing]
    by_cases hpath : path = "m"
    · subst hpath
      have htext : textAt? 1048576 [⟨"m", ⟨#[13, 10]⟩⟩] "m" = some "\r\n" := by cbv
      rw [htext] at hafter
      obtain rfl := Option.some.inj hafter
      cbv
    · have hnone : textAt? 1048576 [⟨"m", ⟨#[13, 10]⟩⟩] path = none := by
        simp [textAt?, Ne.symm hpath]
      rw [hnone] at hafter
      cases hafter
  refine ⟨ofSpecs_blank, ?_, hnew, edited_end.compares, ?_⟩
  · rw [edited_end.riskDelta]
    decide
  · rw [edited_end.compares.exit, if_pos ⟨hnew, hsensitive⟩]

/-- A second line is a new finding, and the comparison exits with 1. -/
theorem lower_score_flagged_second_line :
    RuleSet.ofSpecs "unversioned" [blankSpec] = .ok blankRules ∧
    0 < (ofPaths blankRules 1048576 edited "p" "n").riskDelta ∧
    (ofPaths blankRules 1048576 edited "p" "n").newFindings ≠ [] ∧
    Program.Compares editedSetting (editedRequest "n") edited blankRules 1048576 "p" "n" ∧
    (Program.runRequest editedSetting (editedRequest "n") edited).1.exit = 1 := by
  have hdelta : 0 < (ofPaths blankRules 1048576 edited "p" "n").riskDelta := by
    rw [edited_line.riskDelta]
    decide
  have hcompares := edited_line.compares
  rcases lower_score_flagged ofSpecs_blank 1048576 edited "p" "n" hdelta with
    ⟨hnew, hexit⟩ | ⟨f, hf, -, hbefore, hmore⟩
  · exact ⟨ofSpecs_blank, hdelta, hnew, hcompares, hexit _ _ hcompares⟩
  · rw [edited_line.findings] at hf hmore
    rw [edited_first.findings] at hbefore hmore
    obtain rfl | rfl : f = blankAt 1 ∨ f = blankAt 2 := by simpa using hf
    · exact absurd hmore (by decide)
    · exact absurd hbefore (by decide)

end Diff
end SkillAudit
