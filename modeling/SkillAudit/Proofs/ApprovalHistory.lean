import Mathlib
import SkillAudit.Proofs.GateCheck

/-!
Approvals over time. A package passes without a scan exactly when its name and content were approved
and nothing has ended that approval since, in any run of checks, approvals, revocations and
comparisons from a missing store.
-/
namespace SkillAudit.Gate

inductive Event where
  | checked (d : Decision)
  | approved (d : Decision)
  | revoked (name : String)
  | verified (o : VerifyOutcome)

/-- The events after which no earlier approval of a name stands. -/
def Event.Ends (name : String) : Event → Prop
  | .checked d => d.verdict = .block ∧ d.name = name
  | .approved d => d.name = name
  | .revoked n => n = name
  | .verified _ => False

def Stands (events : List Event) (name hash : String) : Prop :=
  ∃ before d after, events = before ++ .approved d :: after ∧ d.name = name ∧ d.hash = hash ∧
    ∀ e ∈ after, ¬ e.Ends name

/-- Runs of operations that succeed, each from any view of the store. In between, all of the tree
may change but what the store holds and where it is. -/
inductive Run (store : String) (table : Option String) (u : World) : List Event → World → Prop
  | start : Run store table u [] u
  | check {events : List Event} {w : World} (h : Run store table u events w) {g : Gate}
      {now : Instant} {path : String} {options : Options} {content : Ledger.Content} {d : Decision}
      {s : Ledger × World}
      (hok : g.check now path options (⟨store, table, content⟩, w) = (.ok d, s)) :
      Run store table u (events ++ [.checked d]) s.2
  | approve {events : List Event} {w : World} (h : Run store table u events w)
      {now : Instant} {d : Decision} {purpose source : Option String} {content : Ledger.Content}
      {e : LedgerEntry} {s : Ledger × World}
      (hok : approve now d purpose source (⟨store, table, content⟩, w) = (.ok e, s)) :
      Run store table u (events ++ [.approved d]) s.2
  | revoke {events : List Event} {w : World} (h : Run store table u events w)
      {now : Instant} {name : String} {content : Ledger.Content} {answer : Bool}
      {s : Ledger × World}
      (hok : Ledger.revoke now name (⟨store, table, content⟩, w) = (.ok answer, s)) :
      Run store table u (events ++ [.revoked name]) s.2
  | verify {events : List Event} {w : World} (h : Run store table u events w) {g : Gate}
      {path : String} {content : Ledger.Content} {o : VerifyOutcome} {s : Ledger × World}
      (hok : g.verify path (⟨store, table, content⟩, w) = (.ok o, s)) :
      Run store table u (events ++ [.verified o]) s.2
  | elsewhere {events : List Event} {w w' : World} (h : Run store table u events w)
      (hload : Ledger.Content.load w' store = Ledger.Content.load w store)
      (hsite : Ledger.Site w store table → Ledger.Site w' store table) :
      Run store table u events w'

/-- The last event decides whether an approval stands, or those before it do. -/
theorem stands_append {events : List Event} {e : Event} {name hash : String} :
    Stands (events ++ [e]) name hash ↔
      (∃ d, e = .approved d ∧ d.name = name ∧ d.hash = hash) ∨
        (Stands events name hash ∧ ¬ e.Ends name) := by
  constructor
  · rintro ⟨before, d, after, hsplit, hname, hhash, hafter⟩
    rcases after.eq_nil_or_concat with rfl | ⟨after, last, rfl⟩
    · obtain ⟨-, hlast⟩ := List.append_inj' hsplit rfl
      exact .inl ⟨d, by simpa using hlast, hname, hhash⟩
    · rw [List.concat_eq_append, ← List.cons_append, ← List.append_assoc] at hsplit
      obtain ⟨hevents, hlast⟩ := List.append_inj' hsplit rfl
      obtain rfl : e = last := by simpa using hlast
      exact .inr ⟨⟨before, d, after, hevents, hname, hhash, fun x hx => hafter x (by simp [hx])⟩,
        hafter e (by simp)⟩
  · rintro (⟨d, rfl, hname, hhash⟩ | ⟨⟨before, d, after, rfl, hname, hhash, hafter⟩, hlast⟩)
    · exact ⟨events, d, [], rfl, hname, hhash, by simp⟩
    · refine ⟨before, d, after ++ [e], by simp, hname, hhash, fun x hx => ?_⟩
      rcases List.mem_append.mp hx with hx | hx
      · exact hafter x hx
      · rwa [List.mem_singleton.mp hx]

/-- What a store has to do with the events so far: the approval that stands is the one it has. -/
structure Records (events : List Event) (w : World) (store : String) (table : Option String) :
    Prop where
  site : Ledger.Site w store table
  current : (Ledger.Content.load w store).newerSchema = none
  stands : ∀ name hash,
    Ledger.approvedIn (Ledger.Content.load w store).entries name = some hash ↔
      Stands events name hash

section Step
variable {events : List Event} {w : World} {store : String} {table : Option String}

theorem records_missing (hsite : Ledger.Site w store table) (h : w.pathExists store = false) :
    Records [] w store table := by
  have hload := Ledger.load_of_missing h
  refine ⟨hsite, by rw [hload]; rfl, fun name hash => ?_⟩
  simp [hload, Ledger.Content.current, Ledger.approvedIn, Stands]

theorem Records.saved (h : Records events w store table) {w' : World} {e : LedgerEntry}
    {event : Event}
    (hsaved : Ledger.Saved w' store table ((Ledger.Content.load w store).entries ++ [e]))
    (hstands : ∀ name hash, Stands (events ++ [event]) name hash ↔
      if e.name = name then e.status = .approved ∧ e.hash = hash else Stands events name hash) :
    Records (events ++ [event]) w' store table := by
  refine ⟨hsaved.site, by rw [hsaved.stored]; rfl, fun name hash => ?_⟩
  rw [hsaved.stored, Ledger.Content.current, hstands]
  simp only [Ledger.approvedIn_append]
  by_cases hname : e.name = name
  · by_cases hstatus : e.status = .approved <;> simp [hname, hstatus]
  · simpa [hname] using h.stands name hash

theorem Records.check (h : Records events w store table) {g : Gate} {now : Instant} {path : String}
    {options : Options} {content : Ledger.Content} {d : Decision} {s : Ledger × World}
    (hok : g.check now path options (⟨store, table, content⟩, w) = (.ok d, s)) :
    Records (events ++ [.checked d]) s.2 store table := by
  obtain ⟨l', w'⟩ := s
  obtain ⟨root, -, hd, -⟩ := check_ok_iff.mp hok
  by_cases hblock : d.verdict = .block
  · refine h.saved (check_entered hok h.site hblock).2 fun name hash => ?_
    rw [stands_append]
    by_cases hname : d.name = name
    · simp [hname, hblock, Event.Ends, Ledger.stamped, entryOf]
    · simp [hname, hblock, Event.Ends, Ledger.stamped, entryOf]
  · have hw : w' = w := check_untouched hok hblock
    subst hw
    refine ⟨h.site, h.current, fun name hash => ?_⟩
    rw [stands_append, h.stands]
    simp [hblock, Event.Ends]

theorem Records.approve (h : Records events w store table) {now : Instant} {d : Decision}
    {purpose source : Option String} {content : Ledger.Content} {e : LedgerEntry}
    {s : Ledger × World}
    (hok : Gate.approve now d purpose source (⟨store, table, content⟩, w) = (.ok e, s)) :
    Records (events ++ [.approved d]) s.2 store table := by
  obtain ⟨l', w'⟩ := s
  obtain ⟨rfl, -, -, hsaved⟩ := Ledger.add_ok hok h.site
  refine h.saved hsaved fun name hash => ?_
  rw [stands_append]
  by_cases hname : d.name = name
  · simp [hname, Event.Ends, Ledger.stamped, entryOf]
  · simp [hname, Event.Ends, Ledger.stamped, entryOf]

/-- Revoking ends the approval of the name, whether or not its latest entry was one. -/
theorem Records.revoke (h : Records events w store table) {now : Instant} {name : String}
    {content : Ledger.Content} {answer : Bool} {s : Ledger × World}
    (hok : Ledger.revoke now name (⟨store, table, content⟩, w) = (.ok answer, s)) :
    Records (events ++ [.revoked name]) s.2 store table := by
  obtain ⟨l', w'⟩ := s
  have hstep := Ledger.revoke_ok hok h.site
  -- With or without an entry to revoke, the name has no approval then and the others keep theirs.
  have hstands : ∀ es, Ledger.approvedIn es name = none →
      (∀ other, name ≠ other → Ledger.approvedIn es other =
        Ledger.approvedIn (Ledger.Content.load w store).entries other) → ∀ other hash,
      Ledger.approvedIn es other = some hash ↔ Stands (events ++ [.revoked name]) other hash := by
    intro es hself hother other hash
    rw [stands_append]
    by_cases hname : name = other
    · subst hname
      simp [hself, Event.Ends]
    · rw [hother other hname, h.stands]
      simp [hname, Event.Ends]
  cases hlast : Ledger.revokeLast now name (Ledger.Content.load w store).entries with
  | none =>
    simp only [hlast] at hstep
    obtain ⟨-, -, hgrows⟩ := hstep
    have hload := h.site.load_grows hgrows
    refine ⟨h.site.grows hgrows, by rw [hload, h.current], ?_⟩
    rw [hload]
    exact hstands _ (Ledger.approvedIn_eq_none (Ledger.revokeLast_none hlast)) fun _ _ => rfl
  | some es =>
    simp only [hlast] at hstep
    obtain ⟨-, -, -, hsaved⟩ := hstep
    have hrevokes := Ledger.revokeLast_some hlast
    refine ⟨hsaved.site, by rw [hsaved.stored]; rfl, ?_⟩
    rw [hsaved.stored]
    exact hstands es (Ledger.approvedIn_revokes_self hrevokes)
      fun _ hne => Ledger.approvedIn_revokes_ne hne hrevokes

theorem Records.verified (h : Records events w store table) (o : VerifyOutcome) :
    Records (events ++ [.verified o]) w store table := by
  refine ⟨h.site, h.current, fun name hash => ?_⟩
  rw [stands_append, h.stands]
  simp [Event.Ends]

end Step

theorem Run.records {store : String} {table : Option String} {u w : World} {events : List Event}
    (hsite : Ledger.Site u store table) (hmissing : u.pathExists store = false)
    (h : Run store table u events w) : Records events w store table := by
  induction h with
  | start => exact records_missing hsite hmissing
  | check h hok ih => exact ih.check hok
  | approve h hok ih => exact ih.approve hok
  | revoke h hok ih => exact ih.revoke hok
  | @verify _ w h g path content o s hok ih =>
    have hsame := verify_untouched g path ⟨store, table, content⟩ w
    rw [hok] at hsame
    rw [hsame]
    exact ih.verified o
  | elsewhere h hload hsite' ih =>
    exact ⟨hsite' ih.site, by rw [hload, ih.current], by rw [hload]; exact ih.stands⟩

/-- A decision to allow a package that was approved is made without a scan. -/
theorem check_passes_iff {g : Gate} {now : Instant} {path : String} {options : Options}
    {l : Ledger} {w : World} {d : Decision} {s : Ledger × World}
    (h : g.check now path options (l, w) = (.ok d, s)) :
    d.verdict = .allow ∧ d.previouslyApproved = true ↔
      (Ledger.load w l.path l.tablePath).approvedHash? d.name = some d.hash := by
  obtain ⟨root, -, hd, -⟩ := check_ok_iff.mp h
  rcases decision_cases g w (.load w l.path l.tablePath) root options with
    ⟨e, hhash, hpass⟩ | ⟨hhash, hscan⟩
  · have happroved : (Ledger.load w l.path l.tablePath).approvedHash? d.name = some d.hash := by
      rw [hd, decision_name, decision_hash, hhash]
    refine iff_of_true ?_ happroved
    rw [hd, hpass]
    exact ⟨rfl, rfl⟩
  · have happroved : (Ledger.load w l.path l.tablePath).approvedHash? d.name ≠ some d.hash := by
      rwa [hd, decision_name, decision_hash]
    refine iff_of_false ?_ happroved
    rintro ⟨hallow, hbefore⟩
    have hsome : d.previouslyApproved =
        ((Ledger.load w l.path l.tablePath).approvedHash? d.name).isSome := by
      rw [← Ledger.approval_approved _ _ (some d.hash), hd, decision_name, decision_hash, hscan]
      rfl
    rw [hbefore] at hsome
    obtain ⟨hash, hash_eq⟩ := Option.isSome_iff_exists.mp hsome.symm
    have hne : hash ≠ d.hash := fun heq => happroved (heq ▸ hash_eq)
    rw [check_verdict hd, hash_eq] at hallow
    simp [hne] at hallow

/-! An approval beside a package. -/

/-- Leaves every package without an approval to a reviewer. -/
def reviewGate : Gate := ⟨{ reviewThreshold := 0, requireApprovalForAll := true }, ⟨"1", []⟩⟩

def asP : Options := { name := some "p" }

theorem reviewGate_judgeScore (score : UInt32) :
    (judgeScore reviewGate.policy score).1 = .review := by
  have hscore : ¬ score < reviewGate.policy.reviewThreshold := by
    simp [reviewGate]
  rw [judgeScore, if_neg hscore]
  rfl

theorem reviewGate_check {w : World} {bytes : ByteArray} (h : HasPackage w bytes) (l : Ledger) :
    reviewGate.check Instant.newYear "p" asP (l, w) =
      (.ok (reviewGate.decision w (.load w l.path l.tablePath) "p" asP),
        (.load w l.path l.tablePath, w)) := by
  refine check_ok_iff.mpr ⟨"p", h.locate?, rfl, ?_⟩
  have hpass : (reviewGate.decision w (.load w l.path l.tablePath) "p" asP).verdict ≠ .block := by
    intro hblock
    have hscore := ((check_block_iff rfl).mp hblock).2
    simp [reviewGate] at hscore
  rw [if_neg hpass]

/-- A package is checked, approved and checked again. -/
theorem reviewGate_run (table : Option String)
    (htable : ∀ path ∈ table, ∃ name ∈ Ledger.plainNames, LocalPath path name) :
    ∃ d l w d', Run "ledger.json" table bench [.checked d, .approved d] w ∧
      (∃ e, approve Instant.newYear d none none (.load bench "ledger.json" table, bench) =
        (.ok e, (l, w))) ∧
      reviewGate.check Instant.newYear "p" asP (.load w "ledger.json" table, w) =
        (.ok d', (.load w "ledger.json" table, w)) ∧
      d'.name = d.name ∧ d'.hash = d.hash := by
  let d := reviewGate.decision bench (.load bench "ledger.json" table) "p" asP
  have hcheck := reviewGate_check bench_hasPackage (.load bench "ledger.json" table)
  obtain ⟨l, w, hadd, hkeeps⟩ := Ledger.add_plain bench_open htable
    (congrArg Ledger.Content.newerSchema bench_load) Instant.newYear
    (entryOf d .approved .human none none)
  obtain ⟨hpackage, hfiles⟩ := bench_hasPackage.keepsTo hkeeps (by decide)
  refine ⟨d, l, w, _, .approve (.check .start hcheck) hadd, ⟨_, hadd⟩,
    reviewGate_check hpackage (.load w "ledger.json" table), ?_, ?_⟩
  · rw [decision_name, decision_name]
    rfl
  · rw [decision_hash, decision_hash, Fingerprint.ofPath, Fingerprint.ofPath, hfiles]

/-- In every run from a missing store, a check passes a package without a scan exactly when an
approval of its name and content stands. -/
theorem passes_iff_stands {store : String} {table : Option String} {u w : World}
    {events : List Event} (hsite : Ledger.Site u store table) (hmissing : u.pathExists store = false)
    (hrun : Run store table u events w) {g : Gate} {now : Instant} {path : String}
    {options : Options} {content : Ledger.Content} {d : Decision} {s : Ledger × World}
    (hok : g.check now path options (⟨store, table, content⟩, w) = (.ok d, s)) :
    (((Ledger.load w store table).approval d.name (some d.hash)).hashMatch = some true ↔
      Stands events d.name d.hash) ∧
    (d.verdict = .allow ∧ d.previouslyApproved = true ↔ Stands events d.name d.hash) := by
  have hstands := (hrun.records hsite hmissing).stands d.name d.hash
  exact ⟨(Ledger.approval_matches_iff _ _ _).trans hstands, (check_passes_iff hok).trans hstands⟩

/-- A package that is approved after a check passes the next one. -/
theorem passes_iff_stands_approved : ∃ d w d' s,
    Run "ledger.json" (some "LEDGER.md") bench [.checked d, .approved d] w ∧
    reviewGate.check Instant.newYear "p" asP (.load w "ledger.json" (some "LEDGER.md"), w) = (.ok d', s) ∧
    d'.verdict = .allow ∧ d'.previouslyApproved = true := by
  obtain ⟨d, l, w, d', hrun, -, hcheck, hname, hhash⟩ :=
    reviewGate_run (some "LEDGER.md") Ledger.table_plain
  have hsite := Ledger.site_plain bench_open
  have hmissing := Ledger.store_local.missing bench rfl
  refine ⟨d, w, d', _, hrun, hcheck, (passes_iff_stands hsite hmissing hrun hcheck).2.mpr ?_⟩
  exact ⟨[.checked d], d, [], rfl, hname.symm, hhash.symm, by simp⟩

/-- Where the table is put in the place of the store, an approval that stands is not honoured. -/
theorem approval_forgotten_with_table_on_store : ∃ events w d s,
    bench.pathExists "ledger.json" = false ∧
    Run "ledger.json" (some "ledger.json") bench events w ∧
    reviewGate.check Instant.newYear "p" asP (.load w "ledger.json" (some "ledger.json"), w) = (.ok d, s) ∧
    Stands events d.name d.hash ∧ d.verdict = .review := by
  obtain ⟨d, l, w, d', hrun, ⟨e, hadd⟩, hcheck, hname, hhash⟩ :=
    reviewGate_run (some "ledger.json") Ledger.store_plain
  have hload := Ledger.add_shared Ledger.store_local rfl Ledger.store_local hadd
  have hnone : (Ledger.load w "ledger.json" (some "ledger.json")).approvedHash? d'.name = none := by
    have hentries : (Ledger.load w "ledger.json" (some "ledger.json")).entries = [] :=
      congrArg Ledger.Content.entries hload
    rw [Ledger.approvedHash?_eq, hentries]
    rfl
  obtain ⟨root, -, hd, -⟩ := check_ok_iff.mp hcheck
  refine ⟨_, w, d', _, Ledger.store_local.missing bench rfl, hrun, hcheck,
    ⟨[.checked d], d, [], rfl, hname.symm, hhash.symm, by simp⟩, ?_⟩
  have hverdict := check_verdict hd
  simp only [Ledger.load] at hverdict hnone
  rw [hverdict, hnone]
  exact reviewGate_judgeScore _

end SkillAudit.Gate
