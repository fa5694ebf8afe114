import Mathlib
import SkillAudit.Command.Context
import SkillAudit.Proofs.StateFile

/-!
What commands do before they act: the rules, the ledger and the root of a package are read, and the
file tree stays as it is.
-/
namespace SkillAudit

namespace Package
variable {w : World} {path root manifest : String}

theorem isPackage_of_locate? (h : locate? w path manifest = some root) :
    isPackage w root manifest = true ∧ (root = path ∨ root ∈ subdirectories w path) := by
  unfold locate? at h
  split at h
  next hpackage =>
    obtain rfl := Option.some.inj h
    exact ⟨hpackage, .inl rfl⟩
  next =>
    split at h
    next only honly =>
      obtain rfl := Option.some.inj h
      have hmem : only ∈ (subdirectories w path).filter (isPackage w · manifest) := by simp [honly]
      obtain ⟨hsub, hpackage⟩ := List.mem_filter.mp hmem
      exact ⟨hpackage, .inr hsub⟩
    next => cases h

theorem locate?_root (h : locate? w path manifest = some root) :
    locate? w root manifest = some root := by
  rw [locate?, if_pos (isPackage_of_locate? h).1]

end Package

namespace Command.Context
variable {c : Context} {w w' : World}

theorem rules_world (c : Context) (w : World) : (c.rules w).2 = w := by
  unfold rules
  cases c.paths.rules with
  | none => cases RuleSet.builtin <;> rfl
  | some path =>
    simp only
    rw [Act.bind_of_ok (x := get) rfl]
    cases w.readText path with
    | error e => rfl
    | ok text =>
      simp only
      cases RuleSet.ofToml text <;> rfl

theorem rules_ok {rules : RuleSet} (h : c.rules w = (.ok rules, w')) : w' = w := by
  have hworld := c.rules_world w
  rwa [h] at hworld

theorem rules_of_text {path text : String} {rules : RuleSet} (hpath : c.paths.rules = some path)
    (hread : w.readText path = .ok text) (hparse : RuleSet.ofToml text = .ok rules) :
    c.rules w = (.ok rules, w) := by
  simp only [Context.rules, hpath]
  rw [Act.bind_of_ok (x := get) rfl]
  simp only [hread, hparse]
  rfl

theorem locate_eq (c : Context) (path : String) (w : World) :
    c.locate path w =
      match Package.locate? w path c.policy.manifestFile with
      | some root => (.ok root, w)
      | none => (.error (.ofAudit (.notPackage path c.policy.manifestFile)), w) := by
  rw [locate, Act.bind_of_ok (x := get) rfl]
  cases Package.locate? w path c.policy.manifestFile <;> rfl

theorem locate_ok {path root : String} (h : c.locate path w = (.ok root, w')) :
    Package.locate? w path c.policy.manifestFile = some root ∧ w' = w := by
  rw [locate_eq] at h
  split at h
  next found hfound =>
    obtain ⟨hroot, rfl⟩ := Prod.mk.inj h
    exact ⟨by rw [hfound, Except.ok.inj hroot], rfl⟩
  next => cases h

/-- The gate works with the policy of the settings and the ledger at their paths. -/
theorem gate_cases (c : Context) (w : World) :
    (∃ e, c.gate w = (.error e, w)) ∨
      ∃ g l, c.gate w = (.ok (g, l), w) ∧ g.policy = c.policy ∧
        l = Ledger.load w c.paths.ledger c.paths.ledgerMarkdown := by
  have hworld := c.rules_world w
  unfold gate
  cases hrules : c.rules w with
  | mk result v =>
    rw [hrules] at hworld
    obtain rfl : v = w := hworld
    cases result with
    | error e => exact .inl ⟨e, Act.bind_of_error hrules⟩
    | ok rules =>
      rw [Act.bind_of_ok hrules, Act.bind_of_ok (x := c.ledger) rfl]
      unfold Gate.ofPolicy
      cases c.policy.validate with
      | error e => exact .inl ⟨_, rfl⟩
      | ok => exact .inr ⟨_, _, rfl, rfl, rfl⟩

theorem gate_ok {g : Gate} {l : Ledger} (h : c.gate w = (.ok (g, l), w')) :
    g.policy = c.policy ∧ l = Ledger.load w c.paths.ledger c.paths.ledgerMarkdown := by
  rcases c.gate_cases w with ⟨e, he⟩ | ⟨g', l', hgate, hpolicy, hl⟩
  · rw [he] at h
    cases h
  · rw [hgate] at h
    cases h
    exact ⟨hpolicy, hl⟩

/-- A rule document without rules, under a policy without a fault. -/
theorem gate_of_empty {path : String} (hpath : c.paths.rules = some path)
    (hread : w.readText path = .ok "") (hpolicy : c.policy.validate = .ok ()) :
    c.gate w = (.ok (⟨c.policy, ⟨"unversioned", []⟩⟩,
      .load w c.paths.ledger c.paths.ledgerMarkdown), w) := by
  have hempty : RuleSet.ofToml "" = .ok ⟨"unversioned", []⟩ := rfl
  have hrules := rules_of_text hpath hread hempty
  rw [Context.gate, Act.bind_of_ok hrules, Act.bind_of_ok (x := c.ledger) rfl, Gate.ofPolicy, hpolicy]
  rfl

end Command.Context
end SkillAudit
