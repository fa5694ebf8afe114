import Mathlib
import SkillAudit.Proofs.Approval
import SkillAudit.Proofs.LocalLedger

/-!
Several views of one ledger. Views grow stale while others write, but every change reads the store
again, so the calls take effect one after the other as on a single list of entries.
-/
namespace SkillAudit.Ledger

/-- A call, with the index of the view it is made on. -/
inductive Call where
  | load
  | reload (view : Nat)
  | add (view : Nat) (now : Instant) (e : LedgerEntry)
  | revoke (view : Nat) (now : Instant) (name : String)

inductive Answer where
  | done
  | entry (e : LedgerEntry)
  | found (b : Bool)

/-- What a call answers and does to a list of entries. -/
inductive Effect : List LedgerEntry → Call → Answer → List LedgerEntry → Prop
  | load {es : List LedgerEntry} : Effect es .load .done es
  | reload {es : List LedgerEntry} {i : Nat} : Effect es (.reload i) .done es
  | add {es : List LedgerEntry} {i : Nat} {now : Instant} {e : LedgerEntry} :
      Effect es (.add i now e) (.entry (stamped now e)) (es ++ [stamped now e])
  | revoke {es es' : List LedgerEntry} {i : Nat} {now : Instant} {name : String}
      (h : Revokes now name es es') : Effect es (.revoke i now name) (.found true) es'
  | spare {es : List LedgerEntry} {i : Nat} {now : Instant} {name : String}
      (h : ∀ e ∈ es, ¬ e.Approves name) : Effect es (.revoke i now name) (.found false) es

/-- Calls with their answers, one after the other on one list. -/
inductive Effects (es : List LedgerEntry) : List (Call × Answer) → List LedgerEntry → Prop
  | nil : Effects es [] es
  | snoc {trace : List (Call × Answer)} {es₁ es₂ : List LedgerEntry} {c : Call} {a : Answer}
      (h : Effects es trace es₁) (hstep : Effect es₁ c a es₂) : Effects es (trace ++ [(c, a)]) es₂

def Writes : Call × Answer → Prop
  | (.add .., _) => True
  | (.revoke .., .found true) => True
  | _ => False

/-- The views that have been taken, and the tree. -/
structure Views where
  views : List Ledger
  world : World

inductive Step (store : String) (table : Option String) : Views → Call → Answer → Views → Prop
  | load {v : Views} :
      Step store table v .load .done ⟨v.views ++ [Ledger.load v.world store table], v.world⟩
  | reload {v : Views} {i : Nat} {l l' : Ledger} {w : World} (hl : v.views[i]? = some l)
      (hok : Ledger.reload (l, v.world) = (.ok (), (l', w))) :
      Step store table v (.reload i) .done ⟨v.views.set i l', w⟩
  | add {v : Views} {i : Nat} {now : Instant} {e a : LedgerEntry} {l l' : Ledger} {w : World}
      (hl : v.views[i]? = some l) (hok : Ledger.add now e (l, v.world) = (.ok a, (l', w))) :
      Step store table v (.add i now e) (.entry a) ⟨v.views.set i l', w⟩
  | revoke {v : Views} {i : Nat} {now : Instant} {name : String} {b : Bool} {l l' : Ledger}
      {w : World} (hl : v.views[i]? = some l)
      (hok : Ledger.revoke now name (l, v.world) = (.ok b, (l', w))) :
      Step store table v (.revoke i now name) (.found b) ⟨v.views.set i l', w⟩

/-- Calls that succeed, from a tree of which no view has been taken. -/
inductive Calls (store : String) (table : Option String) (w : World) :
    List (Call × Answer) → Views → Prop
  | nil : Calls store table w [] ⟨[], w⟩
  | snoc {trace : List (Call × Answer)} {v v' : Views} {c : Call} {a : Answer}
      (h : Calls store table w trace v) (hstep : Step store table v c a v') :
      Calls store table w (trace ++ [(c, a)]) v'

/-! What calls do to entries. -/

/-- Every entry stays in its place, and all of it but for an approval being revoked. -/
def Keeps (es es' : List LedgerEntry) : Prop :=
  ∀ (i : Nat) (e : LedgerEntry), es[i]? = some e →
    es'[i]? = some e ∨ (e.status = .approved ∧ ∃ now, es'[i]? = some (e.revoked now))

theorem Keeps.refl (es : List LedgerEntry) : Keeps es es := fun _ _ h => .inl h

theorem Keeps.trans {es₁ es₂ es₃ : List LedgerEntry} (h : Keeps es₁ es₂) (h' : Keeps es₂ es₃) :
    Keeps es₁ es₃ := by
  intro i e he
  rcases h i e he with he₂ | ⟨hstatus, now, he₂⟩
  · exact h' i e he₂
  · rcases h' i _ he₂ with he₃ | ⟨hrevoked, -⟩
    · exact .inr ⟨hstatus, now, he₃⟩
    · cases hrevoked

theorem keeps_append (es : List LedgerEntry) (e : LedgerEntry) : Keeps es (es ++ [e]) := by
  intro i x hx
  exact .inl (by rw [List.getElem?_append_left (List.getElem?_eq_some_iff.mp hx).1, hx])

theorem Revokes.keeps {now : Instant} {name : String} {es es' : List LedgerEntry}
    (h : Revokes now name es es') : Keeps es es' := by
  obtain ⟨before, e, after, rfl, ⟨-, hstatus⟩, -, rfl⟩ := h
  have hset : before ++ e.revoked now :: after =
      (before ++ e :: after).set before.length (e.revoked now) := by simp
  rw [hset]
  intro i x hx
  by_cases hi : before.length = i
  · subst hi
    obtain rfl : e = x := by simpa using hx
    exact .inr ⟨hstatus, now, by simp⟩
  · exact .inl (by rw [List.getElem?_set_ne hi, hx])

theorem Effect.keeps {es es' : List LedgerEntry} {c : Call} {a : Answer} (h : Effect es c a es') :
    Keeps es es' := by
  cases h with
  | load | reload | spare => exact .refl es
  | add => exact keeps_append es _
  | revoke h => exact h.keeps

theorem Effects.keeps {es es' : List LedgerEntry} {trace : List (Call × Answer)}
    (h : Effects es trace es') : Keeps es es' := by
  induction h with
  | nil => exact .refl es
  | snoc h hstep ih => exact ih.trans hstep.keeps

theorem Revokes.approves {now : Instant} {name : String} {es es' : List LedgerEntry}
    (h : Revokes now name es es') : ∃ e ∈ es, e.Approves name := by
  obtain ⟨before, e, after, rfl, he, -, -⟩ := h
  exact ⟨e, by simp, he⟩

theorem Effect.unique {es es₁ es₂ : List LedgerEntry} {c : Call} {a b : Answer}
    (h : Effect es c a es₁) (h' : Effect es c b es₂) : a = b ∧ es₁ = es₂ := by
  cases h with
  | load | reload | add =>
    cases h'
    exact ⟨rfl, rfl⟩
  | revoke h =>
    cases h' with
    | revoke h' => exact ⟨rfl, Option.some.inj (h.revokeLast.symm.trans h'.revokeLast)⟩
    | spare hnone =>
      obtain ⟨e, he, happroves⟩ := h.approves
      exact absurd happroves (hnone e he)
  | spare hnone =>
    cases h' with
    | spare => exact ⟨rfl, rfl⟩
    | revoke h' =>
      obtain ⟨e, he, happroves⟩ := h'.approves
      exact absurd happroves (hnone e he)

theorem Effects.unique {es es₁ es₂ : List LedgerEntry} {trace : List (Call × Answer)}
    (h : Effects es trace es₁) (h' : Effects es trace es₂) : es₁ = es₂ := by
  -- Traces grow at their end, so that is where the second one has to be taken apart.
  induction h generalizing es₂ with
  | nil =>
    generalize ht : ([] : List (Call × Answer)) = t at h'
    cases h' with
    | nil => rfl
    | snoc => simp at ht
  | @snoc trace es' es'' c a h hstep ih =>
    generalize ht : trace ++ [(c, a)] = t at h'
    cases h' with
    | nil => simp at ht
    | snoc h' hstep' =>
      obtain ⟨rfl, hlast⟩ := List.append_inj' ht rfl
      cases hlast
      rw [← ih h'] at hstep'
      exact (hstep.unique hstep').2

/-! What calls do to the store. -/

/-- What holds of the views of a ledger after the calls in a trace, made on the entries `es`. -/
structure Agrees (store : String) (table : Option String) (es : List LedgerEntry)
    (trace : List (Call × Answer)) (v : Views) : Prop where
  site : Site v.world store table
  views : ∀ l ∈ v.views, l.path = store ∧ l.tablePath = table
  effects : Effects es trace (Content.load v.world store).entries
  /-- Once something has been written, the table shows what the store holds. -/
  shown : (∃ x ∈ trace, Writes x) → ∀ path ∈ table,
    Store.read? v.world path = some (markdown (Content.load v.world store).entries)

section Step
variable {store : String} {table : Option String} {es : List LedgerEntry}
  {trace : List (Call × Answer)} {v v' : Views} {c : Call} {a : Answer}

theorem views_set {l l' : Ledger} {views : List Ledger} {i : Nat}
    (h : ∀ l ∈ views, l.path = store ∧ l.tablePath = table) (hl : views[i]? = some l)
    (hpath : l'.path = l.path) (htable : l'.tablePath = l.tablePath) :
    ∀ l ∈ views.set i l', l.path = store ∧ l.tablePath = table := by
  intro m hm
  rcases List.mem_or_eq_of_mem_set hm with hm | rfl
  · exact h m hm
  · rw [hpath, htable]
    exact h l (List.mem_of_getElem? hl)

theorem Agrees.grows (h : Agrees store table es trace v) {w : World} (hw : v.world.Grows w)
    {views : List Ledger} (hviews : ∀ l ∈ views, l.path = store ∧ l.tablePath = table)
    (heffect : Effect (Content.load v.world store).entries c a (Content.load v.world store).entries)
    (hwrites : ¬ Writes (c, a)) : Agrees store table es (trace ++ [(c, a)]) ⟨views, w⟩ := by
  have hload : Content.load w store = Content.load v.world store := h.site.load_grows hw
  refine ⟨h.site.grows hw, hviews, ?_, ?_⟩
  · simp only [hload]
    exact .snoc h.effects heffect
  · rintro ⟨x, hx, hwrote⟩ path hpath
    have hx' : x ∈ trace := by
      rcases List.mem_append.mp hx with hx | hx
      · exact hx
      · rw [List.mem_singleton.mp hx] at hwrote
        exact absurd hwrote hwrites
    simp only [hload]
    exact Store.read?_of_grows hw (h.shown ⟨x, hx', hwrote⟩ path hpath)

theorem Agrees.saved (h : Agrees store table es trace v) {w : World} {es' : List LedgerEntry}
    (hsaved : Saved w store table es') {views : List Ledger}
    (hviews : ∀ l ∈ views, l.path = store ∧ l.tablePath = table)
    (heffect : Effect (Content.load v.world store).entries c a es') :
    Agrees store table es (trace ++ [(c, a)]) ⟨views, w⟩ := by
  have hentries : (Content.load w store).entries = es' := by rw [hsaved.stored]; rfl
  refine ⟨hsaved.site, hviews, ?_, fun _ => ?_⟩
  · simp only [hentries]
    exact .snoc h.effects heffect
  · simp only [hentries]
    exact hsaved.shown

theorem Agrees.step (h : Agrees store table es trace v) (hstep : Step store table v c a v') :
    Agrees store table es (trace ++ [(c, a)]) v' := by
  cases hstep with
  | load =>
    refine h.grows (.refl _) (fun l hl => ?_) .load (fun hw => hw)
    rcases List.mem_append.mp hl with hl | hl
    · exact h.views l hl
    · rw [List.mem_singleton.mp hl]
      exact ⟨rfl, rfl⟩
  | reload hl hok =>
    cases hok
    exact h.grows (.refl _) (views_set h.views hl rfl rfl) .reload (fun hw => hw)
  | add hl hok =>
    obtain ⟨hpath, htable⟩ := h.views _ (List.mem_of_getElem? hl)
    have hsite := h.site
    rw [← hpath, ← htable] at hsite
    obtain ⟨rfl, -, rfl, hsaved⟩ := add_ok hok hsite
    rw [hpath, htable] at hsaved
    exact h.saved hsaved (views_set h.views hl rfl rfl) .add
  | revoke hl hok =>
    obtain ⟨hpath, htable⟩ := h.views _ (List.mem_of_getElem? hl)
    have hsite := h.site
    rw [← hpath, ← htable] at hsite
    have hrevoke := revoke_ok hok hsite
    rw [hpath, htable] at hrevoke
    split at hrevoke
    next hnone =>
      obtain ⟨rfl, rfl, hgrows⟩ := hrevoke
      exact h.grows hgrows (views_set h.views hl hpath.symm htable.symm) (.spare (revokeLast_none hnone))
        (fun hw => hw)
    next es' hsome =>
      obtain ⟨rfl, -, rfl, hsaved⟩ := hrevoke
      exact h.saved hsaved (views_set h.views hl hpath.symm htable.symm) (.revoke (revokeLast_some hsome))

end Step

/-! Calls in an empty directory. -/

def approvalOf (name : String) : LedgerEntry :=
  ⟨name, none, none, 100, .low, "", none, .approved, .human, none, none, none⟩

theorem empty_open : ∀ name ∈ plainNames, Open .empty name := by
  have hfree : ∀ name ∈ plainNames, World.empty.at? [name] = none := by decide
  exact fun name hname => .inl (hfree name hname)

theorem load_empty : Content.load .empty "ledger.json" = .current [] :=
  load_of_missing (store_local.missing .empty rfl)

/-! Calls in any order. -/

/-- Calls on any views of a ledger, in any order, do to the store what they do one after the other to
one list of entries: no entry is lost, doubled or moved, none changes but an approval that is
revoked, and the table shows what the store holds. -/
theorem calls_agree {store : String} {table : Option String} {w : World} {v : Views}
    {trace : List (Call × Answer)} (hsite : Site w store table)
    (h : Calls store table w trace v) :
    (∀ es, Effects (Content.load w store).entries trace es ↔
        es = (Content.load v.world store).entries) ∧
      Keeps (Content.load w store).entries (Content.load v.world store).entries ∧
      ((∃ x ∈ trace, Writes x) → ∀ path ∈ table,
        Store.read? v.world path = some (markdown (Content.load v.world store).entries)) := by
  have hagrees : Agrees store table (Content.load w store).entries trace v := by
    induction h with
    | nil => exact ⟨hsite, by simp, .nil, by simp⟩
    | snoc h hstep ih => exact ih.step hstep
  refine ⟨fun es => ⟨fun hes => hes.unique hagrees.effects, ?_⟩, hagrees.effects.keeps, hagrees.shown⟩
  rintro rfl
  exact hagrees.effects

/-- Two views are taken before either writes, and the store has the entries of both. -/
theorem calls_agree_stale_view : ∃ v,
    Calls "ledger.json" (some "LEDGER.md") .empty
      [(.load, .done), (.load, .done),
        (.add 0 .newYear (approvalOf "a"), .entry (stamped .newYear (approvalOf "a"))),
        (.add 1 .newYear (approvalOf "b"), .entry (stamped .newYear (approvalOf "b")))] v ∧
    [stamped .newYear (approvalOf "a"), stamped .newYear (approvalOf "b")] =
      (Content.load v.world "ledger.json").entries := by
  have hsite : Site .empty "ledger.json" (some "LEDGER.md") := site_plain empty_open
  obtain ⟨l₁, w₁, hadd₁, hkeeps⟩ := add_plain empty_open table_plain
    (congrArg Content.newerSchema load_empty) .newYear (approvalOf "a")
  have hsaved := (add_ok hadd₁ hsite).2.2.2
  obtain ⟨l₂, w₂, hadd₂, -⟩ := add_plain
    (fun name hname => hkeeps.free name (empty_open name hname)) table_plain
    (congrArg Content.newerSchema hsaved.stored) .newYear (approvalOf "b")
  have hcalls : Calls "ledger.json" (some "LEDGER.md") .empty _ _ :=
    .snoc (.snoc (.snoc (.snoc .nil .load) .load) (.add (i := 0) rfl hadd₁))
      (.add (i := 1) rfl hadd₂)
  refine ⟨_, hcalls, ((calls_agree hsite hcalls).1 _).mp ?_⟩
  rw [load_empty]
  exact .snoc (.snoc (.snoc (.snoc .nil .load) .load) .add) .add

/-- With the table on the store, under another path of it, an entry is lost. -/
theorem entry_lost_with_table_on_store : ∃ v,
    Calls "ledger.json" (some "./ledger.json") .empty
      [(.load, .done),
        (.add 0 .newYear (approvalOf "a"), .entry (stamped .newYear (approvalOf "a")))] v ∧
    (Content.load v.world "ledger.json").entries = [] ∧
    ¬ Effects (Content.load .empty "ledger.json").entries
      [(.load, .done),
        (.add 0 .newYear (approvalOf "a"), .entry (stamped .newYear (approvalOf "a")))] [] := by
  have hpath : LocalPath "./ledger.json" "ledger.json" := by decide
  obtain ⟨l, w, hadd, -⟩ := add_plain empty_open
    (fun path h => ⟨"ledger.json", by cases h; decide⟩ : ∀ path ∈ some "./ledger.json", _)
    (congrArg Content.newerSchema load_empty) .newYear (approvalOf "a")
  have hload := add_shared store_local rfl hpath hadd
  have hcalls : Calls "ledger.json" (some "./ledger.json") .empty _ _ :=
    .snoc (.snoc .nil .load) (.add (i := 0) rfl hadd)
  refine ⟨_, hcalls, congrArg Content.entries hload, fun heffects => ?_⟩
  have hone := Effects.unique heffects (.snoc (.snoc .nil .load) .add)
  simp at hone

end SkillAudit.Ledger
