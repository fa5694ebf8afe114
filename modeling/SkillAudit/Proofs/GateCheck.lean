import Mathlib
import SkillAudit.Gate.Check
import SkillAudit.Proofs.Approval
import SkillAudit.Proofs.FileTree
import SkillAudit.Proofs.LocalLedger

/-!
What a check decides, and what it does to the ledger. The latest entry of the name comes first, then
the score; only a blocked package leaves a trace, and never one that grants or ends an approval.
-/
namespace SkillAudit.Gate

def nameOf (g : Gate) (w : World) (root : String) (options : Options) : String :=
  options.name.getD (Package.describe w root g.policy.manifestFile).name

/-- The score of the package at a root, less its flows. -/
def scoreOf (g : Gate) (w : World) (root : String) : UInt32 :=
  (Assessment.ofPath g.policy g.rules w root none).score

/-- The decision on the package at a root, before anything is written. -/
def decision (g : Gate) (w : World) (l : Ledger) (root : String) (options : Options) : Decision :=
  let name := g.nameOf w root options
  let version := (Package.describe w root g.policy.manifestFile).version
  let hash := (Fingerprint.ofPath w root).hash
  let approval := l.approval name (some hash)
  match approval.hashMatch, approval.entry with
  | some true, some e => passed name version hash e
  | _, _ => g.scanned w root name version hash approval options.installed

def settle (now : Instant) (source : Option String) (d : Decision) : Ledger.Act Decision := do
  if d.verdict == .block then
    discard (Ledger.add now (entryOf d .blocked .auto none source))
  return d

theorem settle_eq (now : Instant) (source : Option String) (d : Decision) (s : Ledger × World) :
    settle now source d s =
      if d.verdict = .block then
        match Ledger.add now (entryOf d .blocked .auto none source) s with
        | (.ok _, t) => (.ok d, t)
        | (.error e, t) => (.error e, t)
      else (.ok d, s) := by
  unfold settle
  by_cases hblock : d.verdict = .block
  · have hdiscard := Act.discard_eq (Ledger.add now (entryOf d .blocked .auto none source)) s
    simp only [hblock, beq_self_eq_true, if_true]
    cases hadd : Ledger.add now (entryOf d .blocked .auto none source) s with
    | mk result t =>
      rw [hadd] at hdiscard
      cases result with
      | ok e => exact Act.bind_of_ok hdiscard
      | error e => exact Act.bind_of_error hdiscard
  · simp only [hblock, if_false, beq_iff_eq]
    rfl

theorem settle_match (now : Instant) (source : Option String) (hashMatch : Option Bool)
    (entry : Option LedgerEntry) (pass : LedgerEntry → Decision)
    (hpass : ∀ e, (pass e).verdict = .allow) (d : Decision) :
    (match hashMatch, entry with
      | some true, some e => pure (pass e)
      | _, _ => settle now source d) =
      settle now source (match hashMatch, entry with
        | some true, some e => pass e
        | _, _ => d) := by
  split
  next e =>
    simp only [settle, hpass]
    rfl
  next => rfl

theorem locate_eq (g : Gate) (path : String) (l : Ledger) (w : World) :
    g.locate path (l, w) =
      match Package.locate? w path g.policy.manifestFile with
      | none => (.error (.notPackage path g.policy.manifestFile), (l, w))
      | some root => (.ok root, (l, w)) := by
  rw [locate, Act.bind_of_ok (x := get) rfl]
  cases Package.locate? w path g.policy.manifestFile with
  | none => rfl
  | some root => rfl

/-- A check reads the store again and decides; it writes only when it blocks. -/
theorem check_eq (g : Gate) (now : Instant) (path : String) (options : Options) (l : Ledger)
    (w : World) :
    g.check now path options (l, w) =
      match Package.locate? w path g.policy.manifestFile with
      | none => (.error (.notPackage path g.policy.manifestFile), (l, w))
      | some root =>
        settle now options.source (g.decision w (.load w l.path l.tablePath) root options)
          (.load w l.path l.tablePath, w) := by
  have hlocate := locate_eq g path l w
  cases hroot : Package.locate? w path g.policy.manifestFile with
  | none =>
    rw [hroot] at hlocate
    exact Act.bind_of_error hlocate
  | some root =>
    rw [hroot] at hlocate
    rw [check, Act.bind_of_ok hlocate, Act.bind_of_ok (x := get) rfl,
      Act.bind_of_ok (x := Ledger.reload) rfl, Act.bind_of_ok (x := get) rfl]
    exact congrFun (settle_match now options.source _ _ (passed _ _ _) (fun _ => rfl) _) _

section Check
variable {g : Gate} {now : Instant} {path : String} {options : Options} {l : Ledger} {w : World}
  {d : Decision} {s : Ledger × World}

theorem check_ok_iff : g.check now path options (l, w) = (.ok d, s) ↔
    ∃ root, Package.locate? w path g.policy.manifestFile = some root ∧
      d = g.decision w (.load w l.path l.tablePath) root options ∧
      (if d.verdict = .block then
        ∃ e, Ledger.add now (entryOf d .blocked .auto none options.source)
          (.load w l.path l.tablePath, w) = (.ok e, s)
      else s = (.load w l.path l.tablePath, w)) := by
  rw [check_eq]
  cases Package.locate? w path g.policy.manifestFile with
  | none =>
    constructor
    · intro h
      cases h
    · rintro ⟨root, hroot, -⟩
      cases hroot
  | some root =>
    simp only [settle_eq, Option.some.injEq, exists_eq_left']
    generalize g.decision w (.load w l.path l.tablePath) root options = d'
    constructor
    · intro h
      by_cases hblock : d'.verdict = .block
      · rw [if_pos hblock] at h
        cases hadd : Ledger.add now (entryOf d' .blocked .auto none options.source)
            (.load w l.path l.tablePath, w) with
        | mk result t =>
          rw [hadd] at h
          cases result with
          | error e => cases h
          | ok e =>
            cases h
            exact ⟨rfl, by rw [if_pos hblock]; exact ⟨e, hadd⟩⟩
      · rw [if_neg hblock] at h
        cases h
        exact ⟨rfl, by rw [if_neg hblock]⟩
    · rintro ⟨rfl, h⟩
      by_cases hblock : d.verdict = .block
      · rw [if_pos hblock] at h ⊢
        obtain ⟨e, hadd⟩ := h
        rw [hadd]
      · rw [if_neg hblock] at h ⊢
        rw [h]

end Check

theorem verify_untouched (g : Gate) (path : String) (l : Ledger) (w : World) :
    (g.verify path (l, w)).2.2 = w := by
  have hlocate := locate_eq g path l w
  cases hroot : Package.locate? w path g.policy.manifestFile with
  | none =>
    rw [hroot] at hlocate
    rw [verify, Act.bind_of_error hlocate]
  | some root =>
    rw [hroot] at hlocate
    rw [verify, Act.bind_of_ok hlocate, Act.bind_of_ok (x := get) rfl,
      Act.bind_of_ok (x := Ledger.reload) rfl, Act.bind_of_ok (x := get) rfl]
    rfl

/-! What is decided. -/

section Decision
variable (g : Gate) (w : World) (l : Ledger) (root : String) (options : Options)

/-- A package that is approved with its present content passes; any other is scanned. -/
theorem decision_cases :
    (∃ e, l.approvedHash? (g.nameOf w root options) = some (Fingerprint.ofPath w root).hash ∧
      g.decision w l root options = passed (g.nameOf w root options)
        (Package.describe w root g.policy.manifestFile).version (Fingerprint.ofPath w root).hash e) ∨
    (l.approvedHash? (g.nameOf w root options) ≠ some (Fingerprint.ofPath w root).hash ∧
      g.decision w l root options = g.scanned w root (g.nameOf w root options)
        (Package.describe w root g.policy.manifestFile).version (Fingerprint.ofPath w root).hash
        (l.approval (g.nameOf w root options) (some (Fingerprint.ofPath w root).hash))
        options.installed) := by
  simp only [decision]
  split
  next e hmatch hentry => exact .inl ⟨e, (l.approval_matches_iff _ _).mp hmatch, rfl⟩
  next hno =>
    refine .inr ⟨fun hhash => ?_, rfl⟩
    have hmatch := (l.approval_matches_iff _ _).mpr hhash
    cases hlatest : l.latest? (g.nameOf w root options) with
    | none => simp [Ledger.approvedHash?, hlatest] at hhash
    | some e => exact hno e hmatch hlatest

theorem decision_name : (g.decision w l root options).name = g.nameOf w root options := by
  rcases decision_cases g w l root options with ⟨e, -, hd⟩ | ⟨-, hd⟩
  · rw [hd]; rfl
  · rw [hd]; rfl

theorem decision_hash : (g.decision w l root options).hash = (Fingerprint.ofPath w root).hash := by
  rcases decision_cases g w l root options with ⟨e, -, hd⟩ | ⟨-, hd⟩
  · rw [hd]; rfl
  · rw [hd]; rfl

/-- An approved package passes with its approved content and is for review with any other; one that
is not approved is judged by its score. -/
theorem decision_verdict :
    (g.decision w l root options).verdict =
      match l.approvedHash? (g.nameOf w root options) with
      | some hash => if hash = (Fingerprint.ofPath w root).hash then .allow else .review
      | none => (judgeScore g.policy (g.scoreOf w root)).1 := by
  rcases decision_cases g w l root options with ⟨e, hhash, hd⟩ | ⟨hhash, hd⟩
  · rw [hd, hhash]
    simp [passed]
  · have hverdict : (g.decision w l root options).verdict =
        (judge g.policy (l.approval (g.nameOf w root options) (some (Fingerprint.ofPath w root).hash))
          (Fingerprint.ofPath w root).hash (g.scoreOf w root)).1 := by
      rw [hd]; rfl
    rw [hverdict, judge, Ledger.approval_hashMatch]
    cases happroved : l.approvedHash? (g.nameOf w root options) with
    | none => rfl
    | some hash =>
      have hne : hash ≠ (Fingerprint.ofPath w root).hash := fun heq => hhash (by rw [happroved, heq])
      simp [hne]

/-- But for the difference from the installed copy, the decision depends on nothing that is known of
an installation except the name. -/
theorem decision_congr {options' : Options} (h : options'.name = options.name) :
    { g.decision w l root options' with diff := none } =
      { g.decision w l root options with diff := none } := by
  have hname : g.nameOf w root options' = g.nameOf w root options := by simp [nameOf, h]
  simp only [decision, hname]
  split <;> rfl

end Decision

theorem judgeScore_block_iff (p : Policy) (score : UInt32) :
    (judgeScore p score).1 = .block ↔ score < p.reviewThreshold := by
  unfold judgeScore
  by_cases hscore : score < p.reviewThreshold
  · simp [hscore]
  · simp only [hscore, if_false, iff_false]
    split
    · simp
    · split <;> simp

theorem judgeScore_allow {p : Policy} {score : UInt32} (h : (judgeScore p score).1 = .allow) :
    p.autoAllowThreshold ≤ score ∧ p.requireApprovalForAll = false := by
  unfold judgeScore at h
  split at h
  · cases h
  · split at h
    · cases h
    next hall =>
      split at h
      next hscore => exact ⟨hscore, by simpa using hall⟩
      next => cases h

/-- The entry of a blocked package changes no approval, its own name having none. -/
theorem approvedIn_blocked {es : List LedgerEntry} {d : Decision} (now : Instant)
    (source : Option String) (h : Ledger.approvedIn es d.name = none) (name : String) :
    Ledger.approvedIn (es ++ [Ledger.stamped now (entryOf d .blocked .auto none source)]) name =
      Ledger.approvedIn es name := by
  have hname : (Ledger.stamped now (entryOf d .blocked .auto none source)).name = d.name := rfl
  rw [Ledger.approvedIn_append, hname]
  by_cases heq : d.name = name
  · rw [if_pos heq, ← heq, h]
    rfl
  · rw [if_neg heq]

/-- A check under another source or beside another copy succeeds as well, with the same decision but
for the difference from the copy. -/
theorem check_congr {g : Gate} {now : Instant} {path : String} {options options' : Options}
    {l : Ledger} {w : World} {d : Decision} {s : Ledger × World}
    (h : g.check now path options (l, w) = (.ok d, s)) (hname : options'.name = options.name) :
    ∃ d' s', g.check now path options' (l, w) = (.ok d', s') ∧
      { d' with diff := none } = { d with diff := none } := by
  obtain ⟨root, hroot, rfl, hs⟩ := check_ok_iff.mp h
  have hsame := decision_congr g w (.load w l.path l.tablePath) root options hname
  have hverdict : (g.decision w (.load w l.path l.tablePath) root options').verdict =
      (g.decision w (.load w l.path l.tablePath) root options).verdict := by
    simpa only using congrArg Decision.verdict hsame
  by_cases hblock : (g.decision w (.load w l.path l.tablePath) root options).verdict = .block
  · rw [if_pos hblock] at hs
    obtain ⟨e, hadd⟩ := hs
    -- The entry has another source; whether an entry can be added does not depend on what it says.
    obtain ⟨e', s', hadd'⟩ := Ledger.add_succeeds hadd (entryOf
      (g.decision w (.load w l.path l.tablePath) root options') .blocked .auto none options'.source)
    refine ⟨_, s', check_ok_iff.mpr ⟨root, hroot, rfl, ?_⟩, hsame⟩
    rw [hverdict, if_pos hblock]
    exact ⟨e', hadd'⟩
  · refine ⟨_, (.load w l.path l.tablePath, w), check_ok_iff.mpr ⟨root, hroot, rfl, ?_⟩, hsame⟩
    rw [hverdict, if_neg hblock]

section Effect
variable {g : Gate} {now : Instant} {path root : String} {options : Options} {l l' : Ledger}
  {w w' : World} {d : Decision}

/-- The verdict of a check, by the approval of the name and then by the score. -/
theorem check_verdict (hd : d = g.decision w (.load w l.path l.tablePath) root options) :
    d.verdict =
      match (Ledger.load w l.path l.tablePath).approvedHash? d.name with
      | some hash => if hash = d.hash then .allow else .review
      | none => (judgeScore g.policy (g.scoreOf w root)).1 := by
  rw [hd, decision_name, decision_hash, decision_verdict]

/-- Only a package that is not approved is blocked. -/
theorem check_block_iff (hd : d = g.decision w (.load w l.path l.tablePath) root options) :
    d.verdict = .block ↔ (Ledger.load w l.path l.tablePath).approvedHash? d.name = none ∧
      g.scoreOf w root < g.policy.reviewThreshold := by
  rw [check_verdict hd]
  cases (Ledger.load w l.path l.tablePath).approvedHash? d.name with
  | none => simp [judgeScore_block_iff]
  | some hash =>
    simp only
    split <;> simp

theorem check_untouched (h : g.check now path options (l, w) = (.ok d, (l', w')))
    (hother : d.verdict ≠ .block) : w' = w := by
  obtain ⟨root, -, -, hs⟩ := check_ok_iff.mp h
  rw [if_neg hother] at hs
  exact congrArg Prod.snd hs

/-- A blocked package gets one entry, which the table shows. -/
theorem check_entered (h : g.check now path options (l, w) = (.ok d, (l', w')))
    (hsite : Ledger.Site w l.path l.tablePath) (hblock : d.verdict = .block) :
    (Ledger.Content.load w l.path).newerSchema = none ∧
      Ledger.Saved w' l.path l.tablePath ((Ledger.load w l.path l.tablePath).entries ++
        [Ledger.stamped now (entryOf d .blocked .auto none options.source)]) := by
  obtain ⟨root, -, -, hs⟩ := check_ok_iff.mp h
  rw [if_pos hblock] at hs
  obtain ⟨e, hadd⟩ := hs
  obtain ⟨rfl, hnewer, -, hsaved⟩ := Ledger.add_ok hadd hsite
  exact ⟨hnewer, hsaved⟩

/-- A check grants and ends no approval. -/
theorem check_approvals (h : g.check now path options (l, w) = (.ok d, (l', w')))
    (hsite : Ledger.Site w l.path l.tablePath) (name : String) :
    (Ledger.load w' l.path l.tablePath).approvedHash? name =
      (Ledger.load w l.path l.tablePath).approvedHash? name := by
  by_cases hblock : d.verdict = .block
  · obtain ⟨root, -, hd, -⟩ := check_ok_iff.mp h
    have hnone := ((check_block_iff hd).mp hblock).1
    have hstored := (check_entered h hsite hblock).2.stored
    simp only [Ledger.approvedHash?_eq, Ledger.entries, Ledger.load, hstored,
      Ledger.Content.current] at hnone ⊢
    exact approvedIn_blocked now options.source hnone name
  · rw [check_untouched h hblock]

end Effect

/-! A package beside a ledger. -/

/-- The directory `p` of the current directory holds a manifest. -/
structure HasPackage (w : World) (bytes : ByteArray) : Prop where
  dir : w.at? (w.cwd ++ ["p"]) = some .dir
  manifest : w.at? (w.cwd ++ ["p"] ++ ["SKILL.md"]) = some (.file bytes)

namespace HasPackage
variable {w w' : World} {bytes : ByteArray}

theorem find (h : HasPackage w bytes) :
    w.find (Path.join "p" "SKILL.md") = .ok (w.cwd ++ ["p"] ++ ["SKILL.md"], .file bytes) := by
  have hpath : Path.join "p" "SKILL.md" = "p/SKILL.md" := by decide
  have hleads : World.Leads w true (World.endsInSlash "p/SKILL.md") World.linkLimit
      (w.start "p/SKILL.md") (World.namesOf "p/SKILL.md") []
      (.taken (w.cwd ++ ["p"] ++ ["SKILL.md"]) (.file bytes)) :=
    .down ⟨by decide, by decide⟩ (by decide) h.dir
      (.file ⟨by decide, by decide⟩ (by decide) h.manifest (by decide))
  have hresolve : w.resolve true "p/SKILL.md" =
      .ok (.taken (w.cwd ++ ["p"] ++ ["SKILL.md"]) (.file bytes)) := by
    rw [World.resolve_eq, if_neg (by decide), if_neg (by decide), if_neg (by decide),
      World.walk_of_leads hleads]
  simp only [World.find, hpath, hresolve]

theorem locate? (h : HasPackage w bytes) : Package.locate? w "p" "SKILL.md" = some "p" := by
  have hfile : Package.isPackage w "p" "SKILL.md" = true := by
    simp only [Package.isPackage, World.isFile, h.find]
  rw [Package.locate?, if_pos hfile]

theorem ofPath (h : HasPackage w bytes) : Listing.ofPath w "p" =
    (Listing.ofPlace w (w.cwd ++ ["p"])).filter (Listing.isOpen "p") := by
  have hpath : LocalPath "p" "p" := by decide
  have hresolve : w.resolve true "p" = .ok (.taken (w.cwd ++ ["p"]) .dir) :=
    hpath.resolve w (.down hpath.step hpath.nameShort h.dir .here)
  exact Listing.ofPath_of_find (by simp only [World.find, hresolve])

/-- A package of nothing but the manifest is within reach. -/
theorem ofPath_of_ofPlace (h : HasPackage w bytes)
    (hplace : Listing.ofPlace w (w.cwd ++ ["p"]) = [⟨"SKILL.md", bytes⟩]) :
    Listing.ofPath w "p" = [⟨"SKILL.md", bytes⟩] := by
  have hshort : Path.isShort (Path.join "p" "SKILL.md") = true := by decide
  have hopen : Listing.isOpen "p" ⟨"SKILL.md", bytes⟩ = true := hshort
  rw [h.ofPath, hplace, List.filter_cons_of_pos hopen, List.filter_nil]

/-- Files of other names do not touch a package. -/
theorem keepsTo {names : List String} (h : HasPackage w bytes) (hkeeps : World.KeepsTo names w w')
    (hname : "p" ∉ names) :
    HasPackage w' bytes ∧ Listing.ofPath w' "p" = Listing.ofPath w "p" := by
  have hspares := hkeeps.spares "p" hname
  have hkept : HasPackage w' bytes := by
    constructor
    · rw [hkeeps.cwd, hspares.at? _ List.prefix_rfl, h.dir]
    · rw [hkeeps.cwd, hspares.at? _ (List.prefix_append _ _), h.manifest]
  refine ⟨hkept, ?_⟩
  rw [hkept.ofPath, h.ofPath, Listing.ofPlace, Listing.ofPlace, hkeeps.cwd, hspares.below]

end HasPackage

def bench : World := ⟨[(["p"], .dir), (["p", "SKILL.md"], .file ⟨#[120]⟩)], []⟩

theorem bench_hasPackage : HasPackage bench ⟨#[120]⟩ := ⟨rfl, rfl⟩

theorem bench_ofPath : Listing.ofPath bench "p" = [⟨"SKILL.md", ⟨#[120]⟩⟩] :=
  bench_hasPackage.ofPath_of_ofPlace (by cbv)

theorem bench_open : ∀ name ∈ Ledger.plainNames, Open bench name := by
  have hfree : ∀ name ∈ Ledger.plainNames, bench.at? (bench.cwd ++ [name]) = none := by decide
  exact fun name hname => .inl (hfree name hname)

theorem bench_load : Ledger.Content.load bench "ledger.json" = .current [] :=
  Ledger.load_of_missing (Ledger.store_local.missing bench rfl)

def markRule : Rule :=
  let test : Regex.CharTest := ⟨.empty, #[(120, 120)]⟩
  ⟨⟨"mark", "mark", "general", .critical, 100, "x", false, []⟩,
    ⟨#[.char test, .accept], [], false, test, test, test⟩⟩

def markGate : Gate := ⟨{}, ⟨"1", [markRule]⟩⟩

theorem markGate_scoreOf : markGate.scoreOf bench "p" = 0 := by
  have hscore : (Scan.path markGate.rules markGate.policy.maxFileSize bench "p").score = 0 := by
    change (Scan.files _ _ (Listing.ofPath bench "p")).score = 0
    rw [bench_ofPath]
    cbv
  simp only [scoreOf, Assessment.ofPath, hscore, Assessment.adjust]
  simp

/-- The package is blocked, wherever in the current directory the table is. -/
theorem markGate_check (table : Option String)
    (htable : ∀ path ∈ table, ∃ name ∈ Ledger.plainNames, LocalPath path name) :
    ∃ d l' w', markGate.check Instant.newYear "p" {} (.load bench "ledger.json" table, bench) =
      (.ok d, (l', w')) ∧ d.verdict = .block := by
  let d := markGate.decision bench (.load bench "ledger.json" table) "p" {}
  have hblock : d.verdict = .block := by
    refine (check_block_iff (l := .load bench "ledger.json" table) rfl).mpr ⟨?_, ?_⟩
    · simp [Ledger.load, bench_load, Ledger.approvedHash?_eq, Ledger.entries, Ledger.approvedIn,
        Ledger.Content.current]
    · rw [markGate_scoreOf]
      decide
  obtain ⟨l', w', hadd, -⟩ := Ledger.add_plain bench_open htable
    (congrArg Ledger.Content.newerSchema bench_load) Instant.newYear
    (entryOf d .blocked .auto none none)
  refine ⟨d, l', w', check_ok_iff.mpr ⟨"p", bench_hasPackage.locate?, rfl, ?_⟩, hblock⟩
  rw [if_pos hblock]
  exact ⟨_, hadd⟩

/-! What a check promises. -/

/-- What is promised of a check of the package with its root at `root` that succeeds. -/
structure Checked (g : Gate) (now : Instant) (path root : String) (options : Options) (l : Ledger)
    (w : World) (d : Decision) (w' : World) : Prop where
  name : d.name = g.nameOf w root options
  hash : d.hash = (Fingerprint.ofPath w root).hash
  /-- Changed content of an approved package is for review, whatever its score. -/
  changed : ∀ e, (Ledger.load w l.path l.tablePath).latest? d.name = some e →
    e.status = .approved → e.hash ≠ d.hash → d.verdict = .review
  allowed : d.verdict = .allow →
    (∃ e, (Ledger.load w l.path l.tablePath).latest? d.name = some e ∧ e.status = .approved ∧
      e.hash = d.hash) ∨
    (g.policy.autoAllowThreshold ≤ g.scoreOf w root ∧ g.policy.requireApprovalForAll = false)
  blocked : d.verdict = .block ↔
    (∀ e, (Ledger.load w l.path l.tablePath).latest? d.name = some e → e.status ≠ .approved) ∧
      g.scoreOf w root < g.policy.reviewThreshold
  /-- A block appends one entry, and the table shows it. -/
  entered : Ledger.Site w l.path l.tablePath → d.verdict = .block →
    Ledger.Saved w' l.path l.tablePath ((Ledger.load w l.path l.tablePath).entries ++
      [Ledger.stamped now (entryOf d .blocked .auto none options.source)])
  untouched : d.verdict ≠ .block → w' = w
  approvals : Ledger.Site w l.path l.tablePath → ∀ name,
    (Ledger.load w' l.path l.tablePath).approvedHash? name =
      (Ledger.load w l.path l.tablePath).approvedHash? name
  /-- Where the package comes from and what it replaces do not count. -/
  independent : ∀ options' : Options, options'.name = options.name →
    ∃ d' s', g.check now path options' (l, w) = (.ok d', s') ∧
      { d' with diff := none } = { d with diff := none }

/-- A check decides by the latest entry and then by the score; it grants and ends no approval, and
writes nothing but the entry of a blocked package. -/
theorem check_decides {g : Gate} {now : Instant} {path : String} {options : Options} {l l' : Ledger}
    {w w' : World} {d : Decision} (h : g.check now path options (l, w) = (.ok d, (l', w'))) :
    ∃ root, Package.locate? w path g.policy.manifestFile = some root ∧
      Checked g now path root options l w d w' := by
  obtain ⟨root, hroot, hd, -⟩ := check_ok_iff.mp h
  have hverdict := check_verdict hd
  exact ⟨root, hroot, {
    name := by rw [hd, decision_name]
    hash := by rw [hd, decision_hash]
    changed := by
      intro e hlatest hstatus hne
      have happroved := Ledger.approvedHash?_eq_some_iff.mpr ⟨e, hlatest, hstatus, rfl⟩
      rw [hverdict, happroved]
      exact if_neg hne
    allowed := by
      intro hallow
      rw [hverdict] at hallow
      cases happroved : (Ledger.load w l.path l.tablePath).approvedHash? d.name with
      | none =>
        rw [happroved] at hallow
        exact .inr (judgeScore_allow hallow)
      | some hash =>
        rw [happroved] at hallow
        by_cases heq : hash = d.hash
        · exact .inl (Ledger.approvedHash?_eq_some_iff.mp (heq ▸ happroved))
        · simp [heq] at hallow
    blocked := by rw [check_block_iff hd, Ledger.approvedHash?_eq_none_iff]
    entered := fun hsite hblock => (check_entered h hsite hblock).2
    untouched := check_untouched h
    approvals := check_approvals h
    independent := fun options' hname => check_congr h hname }⟩

/-- A package is blocked, and its entry is the only one. -/
theorem check_decides_block : ∃ d l' w',
    markGate.check Instant.newYear "p" {} (.load bench "ledger.json" (some "LEDGER.md"), bench) =
      (.ok d, (l', w')) ∧ d.verdict = .block ∧
    Ledger.Saved w' "ledger.json" (some "LEDGER.md")
      [Ledger.stamped Instant.newYear (entryOf d .blocked .auto none none)] := by
  obtain ⟨d, l', w', hcheck, hblock⟩ := markGate_check (some "LEDGER.md") Ledger.table_plain
  obtain ⟨root, -, hchecked⟩ := check_decides hcheck
  have hentered := hchecked.entered (Ledger.site_plain bench_open) hblock
  have hentries : (Ledger.load bench "ledger.json" (some "LEDGER.md")).entries = [] := by
    rw [Ledger.entries, Ledger.load, bench_load]
    rfl
  simp only [Ledger.load] at hentered hentries
  rw [hentries] at hentered
  exact ⟨d, l', w', hcheck, hblock, hentered⟩

/-- Where the table is put in the place of the store, a blocked package leaves no entry. -/
theorem block_unrecorded_with_table_on_store : ∃ d l' w',
    markGate.check Instant.newYear "p" {} (.load bench "ledger.json" (some "ledger.json"), bench) =
      (.ok d, (l', w')) ∧ d.verdict = .block ∧
    (Ledger.load w' "ledger.json" (some "ledger.json")).entries = [] := by
  obtain ⟨d, l', w', hcheck, hblock⟩ := markGate_check (some "ledger.json") Ledger.store_plain
  obtain ⟨root, -, -, hs⟩ := check_ok_iff.mp hcheck
  rw [if_pos hblock] at hs
  obtain ⟨e, hadd⟩ := hs
  have hload := Ledger.add_shared Ledger.store_local rfl Ledger.store_local hadd
  refine ⟨d, l', w', hcheck, hblock, ?_⟩
  rw [Ledger.entries, Ledger.load]
  exact congrArg Ledger.Content.entries hload

end SkillAudit.Gate
