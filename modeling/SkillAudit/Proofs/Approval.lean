import Mathlib
import SkillAudit.Ledger.Basic

/-!
Which approval in a list of entries stands. The latest entry for a name decides, and revoking flips
the last approval of a name, which need not be its latest entry.
-/
namespace SkillAudit

def LedgerEntry.Approves (e : LedgerEntry) (name : String) : Prop :=
  e.name = name ∧ e.status = .approved

def LedgerEntry.revoked (now : Instant) (e : LedgerEntry) : LedgerEntry :=
  { e with status := .revoked, revokedAt := some now }

namespace Ledger

def approvedIn (es : List LedgerEntry) (name : String) : Option String :=
  ((es.reverse.find? (·.name == name)).filter (·.status == .approved)).map (·.hash)

theorem approvedHash?_eq (l : Ledger) (name : String) :
    l.approvedHash? name = approvedIn l.entries name := rfl

theorem approvedHash?_eq_some_iff {l : Ledger} {name hash : String} :
    l.approvedHash? name = some hash ↔
      ∃ e, l.latest? name = some e ∧ e.status = .approved ∧ e.hash = hash := by
  unfold approvedHash?
  cases l.latest? name with
  | none => simp
  | some e => by_cases he : e.status = .approved <;> simp [Option.filter, he]

theorem approvedHash?_eq_none_iff {l : Ledger} {name : String} :
    l.approvedHash? name = none ↔ ∀ e, l.latest? name = some e → e.status ≠ .approved := by
  unfold approvedHash?
  cases l.latest? name with
  | none => simp
  | some e => by_cases he : e.status = .approved <;> simp [Option.filter, he]

section Approval
variable (l : Ledger) (name hash : String)

theorem approval_approved (hash : Option String) :
    (l.approval name hash).approved = (l.approvedHash? name).isSome := by
  unfold approval approvedHash?
  cases l.latest? name with
  | none => rfl
  | some e => by_cases he : e.status = .approved <;> simp [Option.filter, he]

theorem approval_hashMatch :
    (l.approval name (some hash)).hashMatch = (l.approvedHash? name).map (· == hash) := by
  unfold approval approvedHash?
  cases l.latest? name with
  | none => rfl
  | some e => by_cases he : e.status = .approved <;> simp [Option.filter, he]

theorem approval_matches_iff :
    (l.approval name (some hash)).hashMatch = some true ↔ l.approvedHash? name = some hash := by
  rw [approval_hashMatch]
  cases l.approvedHash? name <;> simp

end Approval

/-! Adding an entry. -/

theorem approvedIn_append (es : List LedgerEntry) (e : LedgerEntry) (name : String) :
    approvedIn (es ++ [e]) name =
      if e.name = name then if e.status = .approved then some e.hash else none
      else approvedIn es name := by
  unfold approvedIn
  by_cases hname : e.name = name
  · by_cases hstatus : e.status = .approved <;> simp [hname, hstatus, Option.filter]
  · simp [hname]

/-! Revoking. -/

/-- Revoking flips the last approval of a name and leaves every other entry as it is. -/
def Revokes (now : Instant) (name : String) (es es' : List LedgerEntry) : Prop :=
  ∃ before e after, es = before ++ e :: after ∧ e.Approves name ∧
    (∀ x ∈ after, ¬ x.Approves name) ∧ es' = before ++ e.revoked now :: after

section Revoke
variable {now : Instant} {name : String} {es es' : List LedgerEntry}

/-- The search goes backwards; what it has passed holds no approval of the name. -/
theorem revokeLast_go (back after : List LedgerEntry)
    (hafter : ∀ x ∈ after, ¬ x.Approves name) :
    (revokeLast.go now name back after = none → ∀ x ∈ back, ¬ x.Approves name) ∧
      ∀ es', revokeLast.go now name back after = some es' →
        Revokes now name (back.reverse ++ after) es' := by
  induction back generalizing after with
  | nil => simp [revokeLast.go]
  | cons e before ih =>
    unfold revokeLast.go
    split
    next he =>
      simp only [Bool.and_eq_true, beq_iff_eq] at he
      refine ⟨by simp, fun es' hes' => ?_⟩
      obtain rfl := Option.some.inj hes'
      exact ⟨before.reverse, e, after, by simp, he, hafter, rfl⟩
    next he =>
      have hne : ¬ e.Approves name := by simpa [LedgerEntry.Approves] using he
      obtain ⟨hnone, hsome⟩ := ih (e :: after) (by simpa using ⟨hne, hafter⟩)
      refine ⟨fun h => by simpa using ⟨hne, hnone h⟩, fun es' h => ?_⟩
      simpa using hsome es' h

theorem revokeLast_none (h : revokeLast now name es = none) : ∀ x ∈ es, ¬ x.Approves name := by
  have hgo := (revokeLast_go es.reverse [] (by simp)).1 h
  simpa using hgo

theorem revokeLast_some (h : revokeLast now name es = some es') : Revokes now name es es' := by
  have hgo := (revokeLast_go es.reverse [] (by simp)).2 es' h
  simpa using hgo

theorem revokeLast_go_append (back rest after : List LedgerEntry)
    (h : ∀ x ∈ back, ¬ x.Approves name) :
    revokeLast.go now name (back ++ rest) after =
      revokeLast.go now name rest (back.reverse ++ after) := by
  induction back generalizing after with
  | nil => rfl
  | cons e back ih =>
    have hne : ¬ (e.name == name && e.status == .approved) = true := by
      simpa [LedgerEntry.Approves] using h e (by simp)
    rw [List.cons_append, revokeLast.go, if_neg hne, ih _ fun x hx => h x (by simp [hx])]
    simp

/-- Revoking has one outcome, and the search finds it. -/
theorem Revokes.revokeLast (h : Revokes now name es es') :
    Ledger.revokeLast now name es = some es' := by
  obtain ⟨before, e, after, rfl, ⟨hname, hstatus⟩, hafter, rfl⟩ := h
  rw [Ledger.revokeLast, List.reverse_append, List.reverse_cons, List.append_assoc,
    List.singleton_append, revokeLast_go_append _ _ _ (by simpa using hafter), revokeLast.go]
  simp [hname, hstatus, LedgerEntry.revoked]

theorem approvedIn_eq_none (h : ∀ x ∈ es, ¬ x.Approves name) : approvedIn es name = none := by
  unfold approvedIn
  cases hfind : es.reverse.find? (·.name == name) with
  | none => rfl
  | some e =>
    have hname : e.name = name := by simpa using List.find?_some hfind
    have hmem : e ∈ es := by simpa using List.mem_of_find?_eq_some hfind
    have hstatus : e.status ≠ .approved := fun hs => h e hmem ⟨hname, hs⟩
    simp [Option.filter, hstatus]

/-- No approval of a name stands once it has been revoked, although older ones may be left. -/
theorem approvedIn_revokes_self (h : Revokes now name es es') : approvedIn es' name = none := by
  obtain ⟨before, e, after, -, ⟨hname, -⟩, hafter, rfl⟩ := h
  have hlast : approvedIn (e.revoked now :: after) name = none := by
    refine approvedIn_eq_none ?_
    simpa [LedgerEntry.Approves, LedgerEntry.revoked] using hafter
  have hfind : (e.revoked now :: after).reverse.find? (·.name == name) ≠ none := by
    simp [LedgerEntry.revoked, hname]
  unfold approvedIn at hlast ⊢
  rw [List.reverse_append, List.find?_append]
  cases hx : (e.revoked now :: after).reverse.find? (·.name == name) with
  | none => exact absurd hx hfind
  | some x =>
    rw [hx] at hlast
    exact hlast

theorem approvedIn_revokes_ne {other : String} (hne : name ≠ other)
    (h : Revokes now name es es') : approvedIn es' other = approvedIn es other := by
  obtain ⟨before, e, after, rfl, ⟨hname, -⟩, -, rfl⟩ := h
  have hother : e.name ≠ other := hname ▸ hne
  simp [approvedIn, LedgerEntry.revoked, hother]

end Revoke
end Ledger
end SkillAudit
