import Mathlib
import SkillAudit.Command.Scan
import SkillAudit.Proofs.CommandContext

/-!
Reports that hold paths of the file tree. A format that shows values refuses a path that is no text;
the others show what they can of it.
-/
namespace SkillAudit

namespace OsPath

def IsText (p : OsPath) : Prop := ∃ path, p = .ofText path

theorem toJson_ofText (path : String) : (ofText path).toJson = .ok (.text path) := by
  simp only [toJson, ofText, Store.fromUTF8?_toUTF8]

theorem toJson_of_not_isText {p : OsPath} (h : ¬ p.IsText) : p.toJson = .error fault := by
  unfold toJson
  cases htext : String.fromUTF8? p.bytes with
  | none => rfl
  | some path =>
    unfold String.fromUTF8? at htext
    split at htext
    next hvalid => exact absurd ⟨String.fromUTF8 p.bytes hvalid, rfl⟩ h
    next => cases htext

end OsPath

namespace Assessment

theorem isText_ofPath (policy : Policy) (rules : RuleSet) (w : World) (root : String)
    (source : Option String) : (ofPath policy rules w root source).path.IsText := ⟨root, rfl⟩

theorem isText_map_ofPath (policy : Policy) (rules : RuleSet) (w : World) (roots : List String) :
    ∀ a ∈ roots.map fun root => ofPath policy rules w root none, a.path.IsText := by
  intro a ha
  obtain ⟨root, -, rfl⟩ := List.mem_map.mp ha
  exact isText_ofPath ..

theorem toJson_of_isText {a : Assessment} (h : a.path.IsText) : ∃ value, a.toJson = .ok value := by
  obtain ⟨path, hpath⟩ := h
  unfold toJson
  rw [hpath, OsPath.toJson_ofText]
  exact ⟨_, rfl⟩

theorem toJson_of_not_isText {a : Assessment} (h : ¬ a.path.IsText) :
    a.toJson = .error OsPath.fault := by
  unfold toJson
  rw [OsPath.toJson_of_not_isText h]
  rfl

theorem mapM_toJson_of_isText {packages : List Assessment} (h : ∀ a ∈ packages, a.path.IsText) :
    ∃ values, packages.mapM toJson = .ok values := by
  induction packages with
  | nil => exact ⟨[], rfl⟩
  | cons a rest ih =>
    obtain ⟨value, hvalue⟩ := toJson_of_isText (h a List.mem_cons_self)
    obtain ⟨values, hvalues⟩ := ih fun b hb => h b (List.mem_cons_of_mem _ hb)
    rw [List.mapM_cons, hvalue, hvalues]
    exact ⟨_, rfl⟩

theorem mapM_toJson_of_not_isText {packages : List Assessment}
    (h : ∃ a ∈ packages, ¬ a.path.IsText) : packages.mapM toJson = .error OsPath.fault := by
  obtain ⟨a, ha, hpath⟩ := h
  induction packages with
  | nil => cases ha
  | cons b rest ih =>
    rw [List.mapM_cons]
    by_cases hb : b.path.IsText
    · obtain ⟨value, hvalue⟩ := toJson_of_isText hb
      have hmem : a ∈ rest := by
        rcases List.mem_cons.mp ha with rfl | hmem
        · exact absurd hb hpath
        · exact hmem
      rw [hvalue, ih hmem]
      rfl
    · rw [toJson_of_not_isText hb]
      rfl

end Assessment

namespace Command

theorem liftExcept_eq {α : Type} (result : Except Failure α) (w : World) :
    (liftExcept result : Act α) w = (result, w) := by
  cases result <;> rfl

theorem liftExcept_world {α : Type} (result : Except Failure α) (w : World) :
    ((liftExcept result : Act α) w).2 = w := by
  rw [liftExcept_eq]

theorem Context.render_of_error (c : Context) (e pretty compact : String) :
    c.render (.error e) pretty compact =
      if c.format.isStructured then .error (.ofText e) else .ok (c.text .null pretty compact) := by
  unfold Context.render OutputFormat.render
  cases c.format.isStructured <;> rfl

section Reports
variable {c : Context} {a : Assessment} {packages : List Assessment}

theorem Assessed.report_shown (h : c.format.isStructured = true → a.path.IsText) :
    ∃ text, report c a = .ok ⟨text, !a.passed⟩ := by
  unfold report
  by_cases hpath : a.path.IsText
  · obtain ⟨value, hvalue⟩ := Assessment.toJson_of_isText hpath
    rw [hvalue]
    exact ⟨_, rfl⟩
  · rw [Assessment.toJson_of_not_isText hpath, Context.render_of_error, if_neg (mt h hpath)]
    exact ⟨_, rfl⟩

theorem batchReport_shown (h : c.format.isStructured = true → ∀ a ∈ packages, a.path.IsText) :
    ∃ text, batchReport c packages =
      .ok ⟨text, decide ((packages.filter (!·.passed)).length > 0)⟩ := by
  unfold batchReport
  by_cases hpaths : ∀ a ∈ packages, a.path.IsText
  · obtain ⟨values, hvalues⟩ := Assessment.mapM_toJson_of_isText hpaths
    rw [hvalues]
    exact ⟨_, rfl⟩
  · have hstray : ∃ a ∈ packages, ¬ a.path.IsText := by simpa using hpaths
    simp only [Assessment.mapM_toJson_of_not_isText hstray, bind, Except.bind]
    rw [Context.render_of_error, if_neg (mt h hpaths)]
    exact ⟨_, rfl⟩

end Reports
end Command
end SkillAudit
