import Mathlib
import SkillAudit.Proofs.ReviewsKept

/-!
From a review to an approval. What an installation leaves for review is stored as it was decided, and
waits while other names are dealt with. Its approval enters that decision in the ledger, and the
package then passes for as long as it is unchanged.
-/
namespace SkillAudit

/-- A package whose latest entry approves its content passes, with the score of the entry. -/
theorem Gate.decision_of_latest {g : Gate} {w : World} {l : Ledger} {root : String}
    {options : Options} {e : LedgerEntry} (hlatest : l.latest? (g.nameOf w root options) = some e)
    (hstatus : e.status = .approved) (hhash : e.hash = (Fingerprint.ofPath w root).hash) :
    g.decision w l root options = passed (g.nameOf w root options)
      (Package.describe w root g.policy.manifestFile).version (Fingerprint.ofPath w root).hash e := by
  have happroval : l.approval (g.nameOf w root options) (some (Fingerprint.ofPath w root).hash) =
      ⟨true, some e, some true⟩ := by
    simp [Ledger.approval, hlatest, hstatus, hhash]
  simp only [decision, happroval]

theorem Ledger.latest?_append {l : Ledger} {es : List LedgerEntry} {e : LedgerEntry}
    (h : l.entries = es ++ [e]) : l.latest? e.name = some e := by
  simp [latest?, h]

namespace Command
open World

/-! Commands under the same settings. -/

namespace Context

/-- Two commands that are given the same settings. -/
structure Shares (c' c : Context) : Prop where
  config : c'.config = c.config
  paths : c'.paths = c.paths

variable {c c' : Context} {w v : World}

theorem Shares.policy (h : c'.Shares c) : c'.policy = c.policy := by
  rw [Context.policy, Context.policy, h.config]

theorem Shares.rules (h : c'.Shares c) {rules : RuleSet} (hrules : c.rules w = (.ok rules, w))
    (hread : ∀ path ∈ c.paths.rules, v.readText path = w.readText path) :
    c'.rules v = (.ok rules, v) := by
  unfold Context.rules at hrules ⊢
  rw [h.paths]
  cases hpath : c.paths.rules with
  | none =>
    simp only [hpath] at hrules ⊢
    cases hbuiltin : RuleSet.builtin with
    | error e =>
      rw [hbuiltin] at hrules
      cases hrules
    | ok builtin =>
      rw [hbuiltin] at hrules
      cases hrules
      rfl
  | some path =>
    simp only [hpath] at hrules ⊢
    rw [Act.bind_of_ok (x := get) rfl] at hrules ⊢
    rw [hread path hpath]
    cases htext : w.readText path with
    | error e =>
      rw [htext] at hrules
      cases hrules
    | ok text =>
      simp only [htext] at hrules ⊢
      cases hparsed : RuleSet.ofToml text with
      | error e =>
        rw [hparsed] at hrules
        cases hrules
      | ok parsed =>
        rw [hparsed] at hrules
        cases hrules
        rfl

theorem rules_text {result : Gate × Ledger} (h : c.gate w = (.ok result, w)) :
    ∃ text, ∀ path ∈ c.paths.rules, w.readText path = .ok text := by
  obtain ⟨rules, u, hrules, -⟩ := Act.bind_ok h
  cases hpath : c.paths.rules with
  | none => exact ⟨"", by simp⟩
  | some path =>
    simp only [Context.rules, hpath] at hrules
    rw [Act.bind_of_ok (x := get) rfl] at hrules
    cases htext : w.readText path with
    | error e =>
      rw [htext] at hrules
      cases hrules
    | ok text => exact ⟨text, by simpa using htext⟩

/-- The gate is the same while the rules read the same. -/
theorem Shares.gate (h : c'.Shares c) {g : Gate} {l : Ledger} (hgate : c.gate w = (.ok (g, l), w))
    (hread : ∀ path ∈ c.paths.rules, v.readText path = w.readText path) :
    c'.gate v = (.ok (g, .load v c.paths.ledger c.paths.ledgerMarkdown), v) := by
  obtain ⟨rules, u, hrules, hrest⟩ := Act.bind_ok hgate
  obtain rfl := rules_ok hrules
  rw [Act.bind_of_ok (x := c.ledger) rfl] at hrest
  rw [Context.gate, Act.bind_of_ok (h.rules hrules hread), Act.bind_of_ok (x := c'.ledger) rfl,
    h.policy, h.paths]
  cases hpolicy : Gate.ofPolicy c.policy rules with
  | error e =>
    rw [hpolicy] at hrest
    cases hrest
  | ok g' =>
    rw [hpolicy] at hrest
    cases hrest
    rfl

end Context

/-! What an installation leaves for review. -/

theorem judge_read {c : Context} {path source : String} {name : Option String} {w v : World}
    {j : Judged} (h : judge c path source name w = (.ok j, v)) :
    j.source = source ∧ ∃ gate l, c.gate w = (.ok (gate, l), w) ∧
      j.decision = gate.decision w l j.root (options c w source j.root name) := by
  obtain ⟨gate, l, -, -, -, hgate, -, -, hdecision, hj⟩ := judge_inv h
  exact ⟨congrArg Judged.source hj, gate, l, hgate, hdecision⟩

section Left
variable {c : Context} {g : Route} {target : String} {name : Option String} {dryRun : Bool}
  {i : Installation} {w v : World}

/-- A package that is here and is to be reviewed is judged, and the decision is recorded. -/
theorem installation_review (hlocal : w.pathExists target = true)
    (h : installation c target name dryRun w = (.ok i, v)) (hreview : i.decision.verdict = .review) :
    ∃ j, judge c target target name w = (.ok j, w) ∧ j.decision = i.decision ∧
      Pending.record c.paths.pending c.now i.decision j.root (some target) w = (.ok (), v) := by
  rw [installation, Act.bind_of_ok (candidate_local hlocal)] at h
  obtain ⟨j, u, hj, h⟩ := Act.bind_ok h
  obtain ⟨⟨action, place⟩, u', hcarry, h⟩ := Act.bind_ok h
  obtain ⟨rfl, rfl⟩ := Act.pure_ok h
  have hverdict : j.decision.verdict = .review := hreview
  obtain ⟨-, -, -, -, -, hsame⟩ := judge_ok hj
  obtain rfl := hsame (by simp [hverdict])
  simp only [carryOut, hverdict, (judge_read hj).1] at hcarry
  obtain ⟨_, u'', hstate, hcarry⟩ := Act.bind_ok hcarry
  obtain ⟨-, rfl⟩ := Act.pure_ok hcarry
  refine ⟨j, hj, rfl, ?_⟩
  unfold Act.onState at hstate
  split at hstate
  next hrecord =>
    cases hstate
    exact hrecord
  next => cases hstate

variable {paths : Paths}

theorem Layout.place_not_mem_links (h : Layout paths g w) {r : Route}
    (hr : w.route? paths.pending = some r) : r.place ∉ r.links := by
  intro hmem
  obtain ⟨t, ht⟩ := link_of_course hr _ hmem
  exact (h.own r hr t ht).1 hmem

/-- A review that has been recorded waits, and the rules are what they were. -/
theorem Layout.recorded (h : Layout paths g w) {now : Instant} {d : Decision} {root : String}
    {source : Option String} (hrecord : Pending.record paths.pending now d root source w = (.ok (), v))
    (hfits : d.Fits) {rules : String} (hrules : ∀ path ∈ paths.rules, w.readText path = .ok rules)
    (hready : ∀ path ∈ paths.records, Store.Ready v path) :
    ∃ r, Awaits paths g r rules d.name ⟨d, root, source, now⟩ v := by
  have hlayout := Pending.record_keeps keeps_layout h now d root source
  rw [hrecord] at hlayout
  obtain ⟨_, u, hlock, hwrite⟩ := Act.bind_ok hrecord
  rw [Act.bind_of_ok (x := get) rfl] at hwrite
  have hgrows := Store.lock_grows hlock
  obtain ⟨r, hr⟩ := Store.route_of_write hwrite
  have hroute : w.route? paths.pending = some r := (Store.route?_of_grows hgrows _).symm.trans hr
  have hown := h.place_not_mem_links hroute
  have hapart := h.reviews r hroute
  obtain ⟨earlier, hstored⟩ := Pending.stored_of_record hrecord hroute hown
    (hapart _ (by simp [Paths.consulted])) hfits
  refine ⟨r, hlayout, ⟨_, hstored, ?_⟩, fun path hpath => ?_, hready⟩
  · rw [Dict.get?_insert, if_pos rfl]
  · obtain ⟨hevolves, -⟩ := Store.write_ok hwrite hr hown
    have hway : r.place ∉ w.onWay path :=
      hapart path (by simp [Paths.consulted, Option.mem_def.mp hpath])
    refine readText_keeps (hevolves.cwd.trans hgrows.cwd) (fun q hq n hat => ?_) (hrules path hpath)
    refine hevolves.keeps q n (.inl ?_) (hgrows.keeps q n hat)
    intro hmem
    exact hway (List.mem_singleton.mp hmem ▸ hq)

end Left

/-! Until a review is acted on. -/

/-- What may happen while a review waits: commands that concern other names, under whatever settings
have the same paths, and changes of the tree that leave alone what commands rely on. -/
inductive Meanwhile (paths : Paths) (n : String) (w : World) : World → Prop
  | refl : Meanwhile paths n w w
  | command {c : Context} {v : World} {command : CommandLine.Command} (h : Meanwhile paths n w v)
      (hpaths : c.paths = paths) (haside : Aside c v) (hother : Elsewhere c n v command) :
      Meanwhile paths n w (Program.perform c command v).2
  | change {v u : World} (h : Meanwhile paths n w v) (hu : Preserves paths v u) :
      Meanwhile paths n w u

theorem Awaits.meanwhile {paths : Paths} {g r : Route} {rules n : String} {review : PendingReview}
    {w v : World} (h : Awaits paths g r rules n review w) (hv : Meanwhile paths n w v) :
    Awaits paths g r rules n review v := by
  induction hv with
  | refl => exact h
  | command _ hpaths haside hother ih =>
    subst hpaths
    exact ih.perform haside hother
  | change _ hu ih => exact ih.preserved hu

/-! Approving. -/

section Approve
variable {paths : Paths} {g r : Route} {rules n : String} {review : PendingReview} {w : World}

theorem Awaits.site (h : Awaits paths g r rules n review w) :
    Ledger.Site w paths.ledger paths.ledgerMarkdown := by
  have hledger : paths.ledger ∈ paths.records := by simp [Paths.records]
  obtain ⟨q, hfile⟩ := (h.ready _ hledger).file
  obtain ⟨links, hroute⟩ := hfile.course
  -- A place for a file is no link, so it is not among the links of any route.
  have hlinkless : ∀ {q : Place} {path : String} {r : Route}, w.Admits q → w.route? path = some r →
      q ∉ r.links := by
    intro q path r hq hr hmem
    obtain ⟨t, ht⟩ := link_of_course hr q hmem
    rcases hq with hq | ⟨bytes, hq⟩ <;> simp [hq] at ht
  refine ⟨⟨links, q⟩, hroute, hlinkless hfile.admits.1 hroute, (h.ready _ hledger).steady,
    fun path hpath => ?_⟩
  have htable : path ∈ paths.records := by simp [Paths.records, Option.mem_def.mp hpath]
  obtain ⟨t, hshown⟩ := (h.ready _ htable).file
  obtain ⟨tlinks, htroute⟩ := hshown.course
  exact ⟨⟨tlinks, t⟩, htroute, hlinkless hshown.admits.1 htroute,
    h.layout.table path hpath _ _ hroute htroute, hlinkless hshown.admits.1 hroute,
    hlinkless hfile.admits.1 htroute⟩

/-- While a review waits an entry can be added, unless the store is of a later version. -/
theorem Awaits.add (h : Awaits paths g r rules n review w)
    (hnewer : (Ledger.Content.load w paths.ledger).newerSchema = none) (now : Instant)
    (e : LedgerEntry) : ∃ l v, Ledger.add now e
        (.load w paths.ledger paths.ledgerMarkdown, w) = (.ok (Ledger.stamped now e), (l, v)) ∧
      Awaits paths g r rules n review v ∧
      Ledger.Saved v paths.ledger paths.ledgerMarkdown
        ((Ledger.Content.load w paths.ledger).entries ++ [Ledger.stamped now e]) := by
  have hledger : paths.ledger ∈ paths.records := by simp [Paths.records]
  obtain ⟨u, hlock, htouch⟩ := (h.ready _ hledger).lock_eq
  have hu := (keeps_awaits hledger).lock _ _ htouch h
  obtain ⟨v, hstore, hreplaced⟩ := (hu.ready _ hledger).write_eq
    (Store.jsonText (Ledger.documentJson
      ((Ledger.Content.load u paths.ledger).entries ++ [Ledger.stamped now e]))).toUTF8
  have hv := (keeps_awaits hledger).file _ _ _ hreplaced hu
  have hcurrent : (Ledger.Content.load u paths.ledger).newerSchema = none := by
    rw [h.site.load_grows (Store.lock_grows hlock)]
    exact hnewer
  obtain ⟨s, hwritten⟩ : ∃ s, Ledger.writeFiles
      ((Ledger.load w paths.ledger paths.ledgerMarkdown).extended u (Ledger.stamped now e), u) =
        (.ok (), s) ∧ Awaits paths g r rules n review s.2 := by
    cases htable : paths.ledgerMarkdown with
    | none =>
      exact ⟨_, Ledger.writeFiles_ok_iff.mpr ⟨hcurrent, v, hstore, rfl⟩, hv⟩
    | some path =>
      have hpath : path ∈ paths.records := by simp [Paths.records, htable]
      obtain ⟨x, hshown, hreplaced⟩ := (hv.ready _ hpath).write_eq (Ledger.markdown
        ((Ledger.Content.load u paths.ledger).entries ++ [Ledger.stamped now e])).toUTF8
      exact ⟨_, Ledger.writeFiles_ok_iff.mpr ⟨hcurrent, v, hstore, x, hshown, rfl⟩,
        (keeps_awaits hpath).file _ _ _ hreplaced hv⟩
  obtain ⟨l, x⟩ := s
  have hadd : Ledger.add now e (.load w paths.ledger paths.ledgerMarkdown, w) =
      (.ok (Ledger.stamped now e), (l, x)) := Ledger.add_ok_iff.mpr ⟨rfl, u, hlock, hwritten.1⟩
  exact ⟨l, x, hadd, hwritten.2, (Ledger.add_ok hadd h.site).2.2.2⟩

/-- What an approval leaves: one more entry, which the table shows, and no review for its name. -/
structure Approved (paths : Paths) (e : LedgerEntry) (w v : World) : Prop where
  entered : Ledger.Content.load v paths.ledger =
    .current ((Ledger.Content.load w paths.ledger).entries ++ [e])
  shown : ∀ path ∈ paths.ledgerMarkdown, Store.read? v path =
    some (Ledger.markdown ((Ledger.Content.load w paths.ledger).entries ++ [e]))
  gone : Pending.get? v paths.pending e.name = none

/-- What a state file says is kept where nothing on its way goes. -/
theorem read?_keeps {v : World} {path text : String} (hcwd : v.cwd = w.cwd)
    (hkeeps : ∀ q ∈ w.onWay path, ∀ m, w.at? q = some m → v.at? q = some m)
    (h : Store.read? w path = some text) : Store.read? v path = some text := by
  rw [Store.read?, readText_keeps hcwd hkeeps (readText_of_read? h)]
  rfl

/-- Once a review is taken, the entries are still there. -/
theorem Awaits.taken (h : Awaits paths g r rules n review w) {es : List LedgerEntry}
    {e : LedgerEntry}
    (hsaved : Ledger.Saved w paths.ledger paths.ledgerMarkdown (es ++ [e])) :
    ∃ v, Pending.take paths.pending n w = (.ok (some review), v) ∧
      Ledger.Content.load v paths.ledger = .current (es ++ [e]) ∧
      (∀ path ∈ paths.ledgerMarkdown, Store.read? v path = some (Ledger.markdown (es ++ [e]))) ∧
      Pending.get? v paths.pending n = none ∧
      ∀ path ∈ paths.rules, v.readText path = .ok rules := by
  obtain ⟨reviews, hstored, hget⟩ := h.stored
  have hapart := h.layout.reviews r hstored.standing.holds.route
  have hcwd : (w.put r.place (.file (Pending.bytes (reviews.erase n)))).cwd = w.cwd := rfl
  -- The file of reviews is not on the way to anything else that is read.
  have hkeeps : ∀ path ∈ paths.consulted ++ paths.records, ∀ q ∈ w.onWay path, ∀ m,
      w.at? q = some m →
      (w.put r.place (.file (Pending.bytes (reviews.erase n)))).at? q = some m := by
    intro path hpath q hq m hat
    rwa [at?_put_ne w]
    rintro rfl
    exact hapart path hpath hq
  have hread : ∀ path ∈ paths.records, ∀ text, Store.read? w path = some text →
      Store.read? (w.put r.place (.file (Pending.bytes (reviews.erase n)))) path = some text :=
    fun path hpath text => read?_keeps hcwd (hkeeps path (List.mem_append_right _ hpath))
  refine ⟨_, hstored.take_eq hget, ?_, fun path hpath => ?_, ?_, fun path hpath => ?_⟩
  · have hentered := hsaved.stored
    unfold Ledger.Content.load at hentered ⊢
    cases htext : Store.read? w paths.ledger with
    | none => simp [htext, Ledger.Content.current] at hentered
    | some text =>
      rw [htext] at hentered
      rw [hread _ (by simp [Paths.records]) text htext]
      exact hentered
  · exact hread path (by simp [Paths.records, Option.mem_def.mp hpath]) _ (hsaved.shown path hpath)
  · have hlock := hapart (Store.lockPath paths.pending) (by simp [Paths.consulted])
    rw [Pending.get?, (hstored.put hlock (hstored.storable.erase n)).load, Dict.get?_erase,
      if_pos rfl]
  · have hmem : path ∈ paths.consulted ++ paths.records := by
      simp [Paths.consulted, Option.mem_def.mp hpath]
    exact readText_keeps hcwd (hkeeps path hmem) (h.rules path hpath)

/-- A review that waits can be approved, under the rules by which it was left. -/
theorem Awaits.approved {c : Context} (h : Awaits c.paths g r rules n review w)
    (hn : review.decision.name = n) {gate : Gate} {l : Ledger}
    (hgate : c.gate w = (.ok (gate, l), w))
    (hnewer : (Ledger.Content.load w c.paths.ledger).newerSchema = none) (purpose : Option String) :
    ∃ report v, Command.approve c n purpose w = (.ok report, v) ∧ report.failed = false ∧
      Approved c.paths (Ledger.stamped c.now
        (Gate.entryOf review.decision .approved .human purpose review.source)) w v ∧
      ∀ path ∈ c.paths.rules, v.readText path = .ok rules := by
  obtain ⟨reviews, hstored, hget⟩ := h.stored
  have hfound : Pending.get? w c.paths.pending n = some review := by
    rw [Pending.get?, hstored.load, hget]
  obtain ⟨-, rfl⟩ := Context.gate_ok hgate
  obtain ⟨l, u, hadd, hu, hsaved⟩ := h.add hnewer c.now
    (Gate.entryOf review.decision .approved .human purpose review.source)
  obtain ⟨v, htake, hentered, hshown, hgone, hrules⟩ := hu.taken hsaved
  have hledger : Act.onLedger (Ledger.load w c.paths.ledger c.paths.ledgerMarkdown)
      (Gate.approve c.now review.decision purpose review.source) w =
        (.ok (Ledger.stamped c.now
          (Gate.entryOf review.decision .approved .human purpose review.source), l), u) :=
    onLedger_ok hadd
  have hdiscard : discard (Act.onState (Pending.take c.paths.pending n)) u =
      ((.ok (), v) : Except Failure Unit × World) := by
    rw [Act.discard_eq, Act.onState, htake]
  have hname : (Ledger.stamped c.now
      (Gate.entryOf review.decision .approved .human purpose review.source)).name = n := hn
  obtain ⟨report, hreport, hfailed⟩ : ∃ report : Report,
      Command.approve c n purpose w = (.ok report, v) ∧ report.failed = false := by
    rw [Command.approve, Act.bind_of_ok (x := get) rfl, hfound]
    simp only
    rw [Act.bind_of_ok hgate, Act.bind_of_ok hledger, Act.bind_of_ok hdiscard]
    exact ⟨_, rfl, rfl⟩
  exact ⟨report, v, hreport, hfailed, ⟨hentered, hshown, hname ▸ hgone⟩, hrules⟩

end Approve

/-! Installing again. -/

/-- The package at a path is the one that was there. -/
structure Unmodified (manifest path : String) (w v : World) : Prop where
  located : Package.locate? v path manifest = Package.locate? w path manifest
  described : ∀ root, Package.locate? w path manifest = some root →
    Package.describe v root manifest = Package.describe w root manifest
  files : ∀ root, Package.locate? w path manifest = some root →
    Listing.ofPath v root = Listing.ofPath w root

/-- A package whose content was approved last is allowed as it was approved. -/
theorem judge_approved {c : Context} {gate : Gate} {l : Ledger} {w : World}
    {path source root : String} {name : Option String} {es : List LedgerEntry} {e : LedgerEntry}
    (hroot : Package.locate? w path c.policy.manifestFile = some root)
    (hsafe : isSafeName (packageName c w root name) = true) (hgate : c.gate w = (.ok (gate, l), w))
    (hentered : Ledger.Content.load w c.paths.ledger = .current (es ++ [e]))
    (hname : e.name = packageName c w root name) (hstatus : e.status = .approved)
    (hhash : e.hash = (Fingerprint.ofPath w root).hash) :
    ∃ j version, judge c path source name w = (.ok j, w) ∧
      j.decision = Gate.passed e.name version e.hash e := by
  obtain ⟨hpolicy, rfl⟩ := Context.gate_ok hgate
  have hentries : (Ledger.load w c.paths.ledger c.paths.ledgerMarkdown).entries = es ++ [e] := by
    rw [Ledger.entries, Ledger.load, hentered]
    rfl
  have hlatest : (Ledger.load w c.paths.ledger c.paths.ledgerMarkdown).latest?
      (gate.nameOf w root (options c w source root name)) = some e := by
    have hnamed : gate.nameOf w root (options c w source root name) = e.name := hname.symm
    rw [hnamed]
    exact Ledger.latest?_append hentries
  have hdecision := Gate.decision_of_latest hlatest hstatus hhash
  refine ⟨_, (Package.describe w root gate.policy.manifestFile).version,
    judge_of_decision hroot hsafe hgate ?_, ?_⟩
  · simp [hdecision, Gate.passed]
  · rw [hname, hhash]
    exact hdecision

/-- An approval changes nothing but the ledger, its table and the reviews. -/
theorem approve_keeps {P : World → Prop} {c : Context} (hledger : Store.Keeps P c.paths.ledger)
    (htable : ∀ path ∈ c.paths.ledgerMarkdown, Store.Keeps P path)
    (hpending : Store.Keeps P c.paths.pending) (n : String) (purpose : Option String) {w : World}
    (h : P w) : P (Command.approve c n purpose w).2 := by
  rw [Command.approve, Act.bind_of_ok (x := get) rfl]
  cases Pending.get? w c.paths.pending n with
  | none => exact h
  | some review =>
    simp only
    rcases c.gate_cases w with ⟨e, he⟩ | ⟨gate, l, hgate, -, rfl⟩
    · rwa [Act.bind_of_error he]
    rw [Act.bind_of_ok hgate]
    refine Act.bind_holds ?_ fun _ u _ hu => Act.bind_holds ?_ fun _ _ _ hv => hv
    · rw [onLedger_world, Gate.approve]
      exact (Ledger.add_confined _ hledger htable _ _).world h
    · rw [Act.discard_world, onState_world]
      exact Pending.take_keeps hpending hu n

/-! State in one directory. -/

/-- State in the current directory: every path is a name there, and none is that of a link. -/
structure Flat (paths : Paths) (w : World) : Prop where
  names : ∀ path ∈ paths.followed, LocalPath path path
  plain : ∀ path ∈ paths.followed, (w.at? (w.cwd ++ [path])).bind Node.target? = none

namespace Flat
variable {paths : Paths} {w : World} (h : Flat paths w) {path : String} {q : Place}
include h

theorem noLink (hpath : path ∈ paths.followed) (t : String) :
    w.at? (w.cwd ++ [path]) ≠ some (.link t) := by
  intro hat
  have hplain := h.plain path hpath
  rw [hat] at hplain
  cases hplain

theorem way (hpath : path ∈ paths.followed) : w.onWay path = [w.cwd ++ [path]] :=
  (h.names path hpath).onWay (h.noLink hpath)

theorem ends (hq : Ends paths w q) :
    ∃ path ∈ paths.stateFiles ++ paths.stateFiles.map Store.lockPath, q = w.cwd ++ [path] := by
  obtain ⟨path, hpath, ⟨r, hr, rfl⟩ | ⟨r, hr, rfl⟩⟩ := hq
  · rw [(h.names _ (Paths.stateFile_followed hpath).1).route w] at hr
    obtain rfl := Option.some.inj hr
    exact ⟨path, List.mem_append_left _ hpath, rfl⟩
  · have hlock := (Paths.stateFile_followed hpath).2
    rw [(h.names _ hlock).goal w (h.noLink hlock)] at hr
    obtain rfl := Option.some.inj hr
    exact ⟨_, List.mem_append_right _ (List.mem_map_of_mem hpath), rfl⟩

theorem bears (hq : Bears paths w q) : ∃ path ∈ paths.followed, q = w.cwd ++ [path] := by
  rcases hq with ⟨path, hpath, hq⟩ | hq
  · rw [h.way hpath] at hq
    exact ⟨path, hpath, List.mem_singleton.mp hq⟩
  · obtain ⟨path, hpath, rfl⟩ := h.ends hq
    refine ⟨path, ?_, rfl⟩
    rw [Paths.followed, List.append_assoc]
    exact List.mem_append_right _ hpath

theorem put (name : String) (bytes : ByteArray) :
    Flat paths (w.put (w.cwd ++ [name]) (.file bytes)) := by
  refine ⟨h.names, fun path hpath => ?_⟩
  have hcwd : (w.put (w.cwd ++ [name]) (.file bytes)).cwd = w.cwd := rfl
  rw [hcwd]
  by_cases hsame : w.cwd ++ [path] = w.cwd ++ [name]
  · rw [hsame, at?_put_self w (by simp)]
    rfl
  · rw [at?_put_ne w hsame]
    exact h.plain path hpath

/-- A state file is on the way to nothing but itself. -/
theorem not_mem_onWay (hpath : path ∈ paths.stateFiles) {r : Route} (hr : w.route? path = some r)
    {other : String} (hother : other ∈ paths.followed) (hne : path ≠ other) :
    r.place ∉ w.onWay other := by
  rw [(h.names _ (Paths.stateFile_followed hpath).1).route w] at hr
  obtain rfl := Option.some.inj hr
  rw [h.way hother, List.mem_singleton]
  exact fun hway => hne (by simpa using hway)

theorem layout (hreal : w.IsReal) (hdistinct : (paths.skillsDir :: paths.rules.toList ++
      paths.stateFiles ++ paths.stateFiles.map Store.lockPath).Nodup) :
    Layout paths ⟨[], w.cwd ++ [paths.skillsDir]⟩ w := by
  obtain ⟨hfront, -, hlocks⟩ := List.nodup_append.mp hdistinct
  obtain ⟨hshelf, hfiles, hrules⟩ := List.nodup_append.mp hfront
  have hpending : paths.pending ∉ paths.records := (List.nodup_cons.mp hfiles).1
  have hledger := (List.nodup_cons.mp (List.nodup_cons.mp hfiles).2).1
  have hconsulted : ∀ path ∈ paths.stateFiles, ∀ other ∈ paths.consulted, path ≠ other := by
    intro path hpath other hother
    rcases List.mem_cons.mp hother with rfl | hother
    · exact hlocks path (by simp [hpath]) _ (List.mem_map_of_mem List.mem_cons_self)
    · exact (hrules other (List.mem_cons_of_mem _ hother) path hpath).symm
  constructor
  case real => exact hreal
  case directory =>
    have hdir : paths.skillsDir ∈ paths.followed := by simp [Paths.followed]
    exact (h.names _ hdir).goal w (h.noLink hdir)
  case own =>
    intro r hr t ht
    have hmem : paths.pending ∈ paths.stateFiles := List.mem_cons_self
    have hfollowed := (Paths.stateFile_followed hmem).1
    rw [(h.names _ hfollowed).route w] at hr
    obtain rfl := Option.some.inj hr
    exact absurd ht (h.noLink hfollowed t)
  case records =>
    intro path hpath r hr other hother
    have hmem := Paths.mem_stateFiles hpath
    refine h.not_mem_onWay hmem hr (mem_followed hother) ?_
    rcases List.mem_cons.mp hother with rfl | hother
    · exact fun heq => hpending (heq ▸ hpath)
    · exact hconsulted path hmem other hother
  case reviews =>
    intro r hr other hother
    rcases List.mem_append.mp hother with hother | hother
    · exact h.not_mem_onWay List.mem_cons_self hr (mem_followed (List.mem_cons_of_mem _ hother))
        (hconsulted _ List.mem_cons_self other hother)
    · exact h.not_mem_onWay List.mem_cons_self hr
        (Paths.stateFile_followed (Paths.mem_stateFiles hother)).1 fun heq => hpending (heq ▸ hother)
  case table =>
    intro path hpath r t hr ht hplace
    have hmem : path ∈ paths.stateFiles := by
      simp [Paths.stateFiles, Paths.records, Option.mem_def.mp hpath]
    have hne : path ≠ paths.ledger := by
      rintro rfl
      exact hledger (by simp [Option.mem_def.mp hpath])
    have hstore : paths.ledger ∈ paths.followed :=
      (Paths.stateFile_followed (by simp [Paths.stateFiles, Paths.records])).1
    refine h.not_mem_onWay hmem ht hstore hne ?_
    rw [(h.names _ hstore).route w] at hr
    obtain rfl := Option.some.inj hr
    rw [h.way hstore, hplace]
    exact List.mem_singleton_self _
  case shelf =>
    intro q hq hway
    obtain ⟨path, hpath, rfl⟩ := h.ends hq
    rw [h.way (by simp [Paths.followed]), List.mem_singleton] at hway
    obtain rfl : path = paths.skillsDir := by simpa using hway
    rcases List.mem_append.mp hpath with hpath | hpath
    · exact hrules _ List.mem_cons_self _ hpath rfl
    · exact hlocks _ (by simp) _ hpath rfl
  case packages =>
    intro q hq n hbelow
    have hlength := hbelow.length_le
    rcases hq with rfl | hq
    · simp at hlength
    · obtain ⟨path, -, rfl⟩ := h.bears hq
      simp at hlength

end Flat

/-- The review workflow closes. What an installation leaves for review waits while other names are
dealt with; its approval enters the decision as it was made and takes the review; and the unmodified
package is then allowed with the same hash and score. -/
theorem review_closes {c c₁ : Context} {g : Route} {target : String} {name : Option String}
    {dryRun : Bool} {i : Installation} {w w₁ v : World} (hlayout : Layout c.paths g w)
    (hlocal : w.pathExists target = true)
    (hinstall : installation c target name dryRun w = (.ok i, w₁))
    (hreview : i.decision.verdict = .review) (hfits : i.decision.Fits)
    (hready : ∀ path ∈ c.paths.records, Store.Ready w₁ path)
    (hmeanwhile : Meanwhile c.paths i.decision.name w₁ v)
    (hnewer : (Ledger.Content.load v c.paths.ledger).newerSchema = none) (hsame : c₁.Shares c)
    (purpose : Option String) :
    ∃ report v', Program.perform c₁ (.approve i.decision.name purpose) v = (.ok report, v') ∧
      report.failed = false ∧
      Approved c.paths (Ledger.stamped c₁.now
        (Gate.entryOf i.decision .approved .human purpose (some target))) v v' ∧
      ∀ c₂ : Context, c₂.Shares c → Unmodified c.policy.manifestFile target w v' →
        ∃ j, judge c₂ target target name v' = (.ok j, v') ∧ j.decision.verdict = .allow ∧
          j.decision.previouslyApproved = true ∧ j.decision.name = i.decision.name ∧
          j.decision.score = i.decision.score ∧ j.decision.hash = i.decision.hash := by
  obtain ⟨j, hj, hdecision, hrecord⟩ := installation_review hlocal hinstall hreview
  obtain ⟨hroot, hsafe, -, hname, hhash, -⟩ := judge_ok hj
  obtain ⟨-, gate, l, hgate, -⟩ := judge_read hj
  rw [hdecision] at hname hhash
  obtain ⟨rules, hrules⟩ := Context.rules_text hgate
  obtain ⟨r, hawaits⟩ := hlayout.recorded hrecord hfits hrules hready
  have hv := hawaits.meanwhile hmeanwhile
  have hgate₁ := hsame.gate hgate fun path hpath => (hv.rules path hpath).trans (hrules path hpath).symm
  rw [← hsame.paths] at hv hnewer
  obtain ⟨report, v', happrove, hreport, happroved, hread⟩ := hv.approved rfl hgate₁ hnewer purpose
  rw [hsame.paths] at happroved hread
  refine ⟨report, v', happrove, hreport, happroved, fun c₂ hsame₂ hunmodified => ?_⟩
  have hgate₂ := hsame₂.gate hgate fun path hpath =>
    (hread path hpath).trans (hrules path hpath).symm
  have hnamed : packageName c₂ v' j.root name = packageName c w j.root name := by
    rw [packageName, packageName, hsame₂.policy, hunmodified.described _ hroot]
  have hprint : Fingerprint.ofPath v' j.root = Fingerprint.ofPath w j.root := by
    rw [Fingerprint.ofPath, Fingerprint.ofPath, hunmodified.files _ hroot]
  obtain ⟨j', version, hjudge, hpassed⟩ := @judge_approved c₂ gate _ v' target target j.root name _ _
    (by rw [hsame₂.policy, hunmodified.located, hroot]) (by rw [hnamed, hsafe]) hgate₂
    (by rw [hsame₂.paths]; exact happroved.entered) (by rw [hnamed]; exact hname) rfl
    (by rw [hprint]; exact hhash)
  refine ⟨j', hjudge, ?_⟩
  rw [hpassed]
  exact ⟨rfl, rfl, rfl, rfl, rfl⟩

/-! A review in the shop. -/

/-- A place to install from under the policy of the shop, with no rules, no approvals and no copy of
the package. -/
structure Stand (c : Context) (w : World) : Prop where
  policy : c.policy = (shopContext "s" true).policy
  directory : c.paths.skillsDir = "s"
  gate : c.gate w = (.ok (⟨c.policy, ⟨"unversioned", []⟩⟩,
    .load w c.paths.ledger c.paths.ledgerMarkdown), w)
  unapproved : Ledger.Content.load w c.paths.ledger = .current []
  package : Gate.HasPackage w ⟨#[120]⟩
  files : Listing.ofPath w "p" = [⟨"SKILL.md", ⟨#[120]⟩⟩]
  free : w.isDir (Path.join "s" "p") = false

/-- The package is for review, and the numbers in the decision are small. -/
theorem Stand.judge {c : Context} {w : World} (h : Stand c w) :
    ∃ d, Command.judge c "p" "p" (some "p") w =
        (.ok (judged c w "p" "p" (some "p") d), w) ∧ d.verdict = .review ∧ d.Fits := by
  have hnew : ∀ name,
      (Ledger.load w c.paths.ledger c.paths.ledgerMarkdown).approvedHash? name = none := by
    simp [Ledger.load, h.unapproved, Ledger.approvedHash?_eq, Ledger.entries, Ledger.approvedIn,
      Ledger.Content.current]
  have hinstalled : (options c w "p" "p" (some "p")).installed = none := by
    simp [options, packageName, h.directory, h.free]
  obtain ⟨d, hd⟩ : ∃ d, d = Gate.decision ⟨c.policy, ⟨"unversioned", []⟩⟩ w
    (.load w c.paths.ledger c.paths.ledgerMarkdown) "p" (options c w "p" "p" (some "p")) := ⟨_, rfl⟩
  have hverdict : d.verdict = .review := by
    rw [hd, Gate.decision_verdict, hnew, h.policy]
    simp [Gate.judgeScore, shopContext, Context.policy]
  have hroot : Package.locate? w "p" c.policy.manifestFile = some "p" := by
    rw [h.policy]
    exact h.package.locate?
  have hother : d.verdict ≠ .block := by simp [hverdict]
  refine ⟨d, ?_, hverdict, ?_⟩
  · rw [hd] at hother ⊢
    exact judge_of_decision hroot (show isSafeName "p" = true by decide) h.gate hother
  rcases Gate.decision_cases ⟨c.policy, ⟨"unversioned", []⟩⟩ w
    (.load w c.paths.ledger c.paths.ledgerMarkdown) "p" (options c w "p" "p" (some "p")) with
    ⟨e, happroved, -⟩ | ⟨-, hscanned⟩
  · rw [hnew] at happroved
    cases happroved
  rw [hd, hscanned, hinstalled, h.policy]
  constructor
  case findings =>
    have hscan : (Scan.path ⟨"unversioned", []⟩
        (shopContext "s" true).policy.maxFileSize w "p").findings = [] := by
      rw [Scan.path, h.files]
      cbv
    simp [Gate.scanned, hscan]
  case flowFindings =>
    have hflow : (Flow.ofPath (shopContext "s" true).policy.maxFileSize w "p").findings = [] := by
      rw [Flow.ofPath, h.files]
      cbv
    have henabled : (shopContext "s" true).policy.enableFlowAnalysis = true := rfl
    simp [Gate.scanned, hflow, henabled]
  case diff => simp [Gate.scanned, Gate.diff?]

theorem shop_stand : Stand (shopContext "s" true) shop where
  policy := rfl
  directory := rfl
  gate := shop_stall.gate "s" true
  unapproved := Ledger.load_of_missing (Ledger.store_local.missing shop shop_stall.ledger)
  package := shop_hasPackage
  files := shop_hasPackage.ofPath_of_ofPlace (by cbv)
  free := by
    have hfree := shop_resolve shop true (Path.join "s" "p") "p" (by decide) rfl (by decide) rfl
      (.free ⟨by decide, by decide⟩ (by decide) rfl)
    simp only [isDir, World.find, hfree]

def shopNames : List String :=
  ["ledger.json", "ledger.json.lock", "watch.json", "watch.json.lock", "pending.json",
    "pending.json.lock"]

theorem shop_open : ∀ name ∈ shopNames, Open shop name := by
  have hfree : ∀ name ∈ shopNames, shop.at? (shop.cwd ++ [name]) = none := by decide
  exact fun name hname => .inl (hfree name hname)

theorem shop_flat : Flat (shopContext "s" true).paths shop := ⟨by decide, by decide⟩

def reviewedShop (bytes : ByteArray) : World :=
  (shop.put ["pending.json.lock"] (.file .empty)).put ["pending.json"] (.file bytes)

theorem reviewedShop_keepsTo (bytes : ByteArray) : shop.KeepsTo shopNames (reviewedShop bytes) := by
  have hlock : "pending.json.lock" ∈ shopNames := by decide
  have hfile : "pending.json" ∈ shopNames := by decide
  exact .trans (.put hlock shop .empty)
    (.put hfile (shop.put ["pending.json.lock"] (.file .empty)) bytes)

theorem reviewedShop_flat (bytes : ByteArray) :
    Flat (shopContext "s" true).paths (reviewedShop bytes) :=
  (shop_flat.put "pending.json.lock" .empty).put "pending.json" bytes

/-- While nothing else changes, the state files of the shop can be kept. -/
theorem shop_keeps {w : World} (h : shop.KeepsTo shopNames w) :
    ∀ path ∈ (shopContext "s" true).paths.stateFiles,
      Store.Ready w path ∧ Store.Keeps (w.KeepsTo shopNames) path := by
  have hnames : ∀ path ∈ (shopContext "s" true).paths.stateFiles, LocalPath path path ∧
      LocalPath (Store.lockPath path) (Store.lockPath path) ∧ path ∈ shopNames ∧
      Store.lockPath path ∈ shopNames := by decide
  intro path hpath
  obtain ⟨hfile, hlock, hname, hlockName⟩ := hnames path hpath
  have hopen := h.free _ (shop_open _ hname)
  have hopenLock := h.free _ (shop_open _ hlockName)
  exact ⟨hfile.ready hlock hopen hopenLock, hfile.keeps hlock hopen hopenLock hname hlockName⟩

theorem shop_unmodified {w : World} (h : shop.KeepsTo shopNames w) :
    Unmodified "SKILL.md" "p" shop w := by
  obtain ⟨hpackage, hfiles⟩ := shop_hasPackage.keepsTo h (by decide)
  have hlocated := shop_hasPackage.locate?
  constructor
  case located => exact hpackage.locate?.trans hlocated.symm
  case described =>
    intro root hroot
    obtain rfl := Option.some.inj (hlocated.symm.trans hroot)
    simp only [Package.describe, Manifest.read, readText, readFile, hpackage.find,
      shop_hasPackage.find]
  case files =>
    intro root hroot
    obtain rfl := Option.some.inj (hlocated.symm.trans hroot)
    exact hfiles

def hubContext : Context := { shopContext "s" true with scratch := "hub" }

theorem hubContext_aside (bytes : ByteArray) : Aside hubContext (reviewedShop bytes) := by
  have hlocal : LocalPath "hub" "hub" := by decide
  have hfree : ∀ rest, (reviewedShop bytes).at? ("hub" :: rest) = none := by
    intro rest
    rw [reviewedShop, at?_put_ne _ (by simp), at?_put_ne _ (by simp)]
    simp [shop, at?]
  have hplain : ∀ t, (reviewedShop bytes).at? ((reviewedShop bytes).cwd ++ ["hub"]) ≠
      some (.link t) := by
    intro t
    change (reviewedShop bytes).at? ["hub"] ≠ some (.link t)
    simp [hfree]
  have hother : "hub" ∉ (shopContext "s" true).paths.followed := by decide
  have hway : (reviewedShop bytes).onWay hubContext.scratch = [["hub"]] := hlocal.onWay hplain
  refine ⟨["hub"], ⟨⟨_, hlocal.goal _ hplain, rfl⟩, by simp [hfree]⟩, fun q hq hbelow => ?_,
    fun q hq hmem => ?_⟩
  · obtain ⟨path, hpath, rfl⟩ := (reviewedShop_flat bytes).bears hq
    have hname : "hub" = path := by simpa [reviewedShop, put, shop] using hbelow
    exact hother (hname ▸ hpath)
  · obtain ⟨path, hpath, rfl⟩ := (reviewedShop_flat bytes).bears (.inr hq)
    rw [hway] at hmem
    have hname : path = "hub" := by simpa [reviewedShop, put, shop] using hmem
    exact hother (hname ▸ hpath)

/-- A package is left for review, approved after the state has been shown, and then allowed. -/
theorem review_closes_shop : ∃ i w₁ report v' j,
    installation (shopContext "s" true) "p" (some "p") false shop = (.ok i, w₁) ∧
    i.decision.verdict = .review ∧
    Program.perform (shopContext "s" true) (.approve i.decision.name none)
      (Program.perform hubContext .status w₁).2 = (.ok report, v') ∧
    report.failed = false ∧
    judge (shopContext "s" true) "p" "p" (some "p") v' = (.ok j, v') ∧
    j.decision.verdict = .allow ∧ j.decision.previouslyApproved = true ∧
    j.decision.score = i.decision.score ∧ j.decision.hash = i.decision.hash := by
  obtain ⟨d, bytes, hjudge, hverdict, hrun⟩ := shop_review
  have hfits : d.Fits := by
    obtain ⟨d', hjudge', -, hfits⟩ := shop_stand.judge
    rw [hjudge] at hjudge'
    cases hjudge'
    exact hfits
  have hkept := reviewedShop_keepsTo bytes
  have hstatus : (Program.perform hubContext .status (reviewedShop bytes)).2 = reviewedShop bytes :=
    perform_reads (show Reads .status from trivial) hubContext _
  have hmeanwhile : Meanwhile (shopContext "s" true).paths d.name (reviewedShop bytes)
      (Program.perform hubContext .status (reviewedShop bytes)).2 :=
    .command .refl rfl (hubContext_aside bytes) trivial
  have hnewer : (Ledger.Content.load (Program.perform hubContext .status (reviewedShop bytes)).2
      (shopContext "s" true).paths.ledger).newerSchema = none := by
    have hat : (reviewedShop bytes).at? ((reviewedShop bytes).cwd ++ ["ledger.json"]) = none := by
      change (reviewedShop bytes).at? ["ledger.json"] = none
      rw [reviewedShop, at?_put_ne _ (by decide), at?_put_ne _ (by decide)]
      rfl
    rw [hstatus]
    exact congrArg Ledger.Content.newerSchema
      (Ledger.load_of_missing (Ledger.store_local.missing _ hat))
  obtain ⟨report, v', hperform, hreport, -, hagain⟩ := review_closes
    (shop_flat.layout (by decide) (by decide)) shop_pathExists hrun hverdict hfits
    (fun path hpath => (shop_keeps hkept path (Paths.mem_stateFiles hpath)).1) hmeanwhile hnewer
    ⟨rfl, rfl⟩ none
  have hafter : shop.KeepsTo shopNames v' := by
    have hledger := (shop_keeps hkept "ledger.json" (by decide)).2
    have hpending := (shop_keeps hkept "pending.json" (by decide)).2
    have hkeeps : (reviewedShop bytes).KeepsTo shopNames
        (Command.approve (shopContext "s" true) d.name none (reviewedShop bytes)).2 :=
      approve_keeps hledger (by simp [shopContext]) hpending _ _ (.refl _ _)
    rw [hstatus] at hperform
    have happrove : Command.approve (shopContext "s" true) d.name none (reviewedShop bytes) =
      (.ok report, v') := hperform
    rw [happrove] at hkeeps
    exact hkept.trans hkeeps
  obtain ⟨j, hj, hallow, hprevious, -, hscore, hhash⟩ := hagain (shopContext "s" true) ⟨rfl, rfl⟩
    (shop_unmodified hafter)
  exact ⟨_, _, report, v', j, hrun, hverdict, hperform, hreport, hj, hallow, hprevious, hscore, hhash⟩

/-! Rules that a review overwrites. -/

theorem pending_brace (reviews : Dict PendingReview) :
    ∃ cs, (Store.jsonText (Pending.documentJson reviews)).toList = '\x7b' :: cs := by
  unfold Store.jsonText Pending.documentJson
  simp [Json.object, Json.pretty, Json.prettyAt, Json.block]

/-- A file of reviews is no rule document. -/
theorem gate_of_reviews {c : Context} {w : World} {path : String} {r : Route}
    {reviews : Dict PendingReview} (hpath : c.paths.rules = some path)
    (h : Pending.Stored w path r reviews) : ∃ f, c.gate w = (.error f, w) := by
  have htext := readText_of_read? (Store.read?_of_holds h.standing.holds)
  obtain ⟨cs, hcs⟩ := pending_brace reviews
  have hparse : Toml.parse (Store.jsonText (Pending.documentJson reviews)) = .error .malformed := by
    unfold Toml.parse
    rw [hcs]
    rfl
  obtain ⟨e, he⟩ : ∃ e, RuleSet.ofToml (Store.jsonText (Pending.documentJson reviews)) = .error e := by
    simp only [RuleSet.ofToml, Rule.Document.parse, hparse]
    exact ⟨_, rfl⟩
  obtain ⟨f, hf⟩ : ∃ f, c.rules w = (.error f, w) := by
    simp only [Context.rules, hpath]
    rw [Act.bind_of_ok (x := get) rfl]
    simp only [htext, he]
    exact ⟨_, rfl⟩
  exact ⟨f, Act.bind_of_error hf⟩

def ruledContext : Context :=
  { shopContext "s" true with
    paths := ⟨"s", "ledger.json", none, "watch.json", "pending.json", some "pending.json"⟩ }

def ruledShop : World := shop.put ["pending.json"] (.file .empty)

theorem ruledShop_stand : Stand ruledContext ruledShop where
  policy := rfl
  directory := rfl
  gate := by
    have hlocal : LocalPath "pending.json" "pending.json" := by decide
    have hat : ruledShop.at? (ruledShop.cwd ++ ["pending.json"]) = some (.file .empty) := rfl
    have hread : ruledShop.readText "pending.json" = .ok "" := by
      simp only [readText, readFile, World.find, hlocal.resolve_file ruledShop true hat]
      decide
    exact Context.gate_of_empty rfl hread (by decide)
  unapproved := Ledger.load_of_missing (Ledger.store_local.missing ruledShop rfl)
  package := ⟨rfl, rfl⟩
  files := by
    have hpackage : Gate.HasPackage ruledShop ⟨#[120]⟩ := ⟨rfl, rfl⟩
    exact hpackage.ofPath_of_ofPlace (by cbv)
  free := by
    have hfree := shop_resolve ruledShop true (Path.join "s" "p") "p" (by decide) rfl (by decide) rfl
      (.free ⟨by decide, by decide⟩ (by decide) rfl)
    simp only [isDir, World.find, hfree]

/-- State files that differ are not enough: a review that is put in the place of the rules cannot be
approved. -/
theorem review_not_approvable : ruledContext.paths.stateFiles.Nodup ∧ ∃ i w' f,
    installation ruledContext "p" (some "p") false ruledShop = (.ok i, w') ∧
    i.decision.verdict = .review ∧
    Pending.get? w' "pending.json" i.decision.name = some ⟨i.decision, "p", some "p", .newYear⟩ ∧
    Program.perform ruledContext (.approve i.decision.name none) w' = (.error f, w') := by
  obtain ⟨d, hjudge, hverdict, hfits⟩ := ruledShop_stand.judge
  have hlocal : LocalPath "pending.json" "pending.json" := by decide
  have hlockLocal : LocalPath (Store.lockPath "pending.json") "pending.json.lock" := by decide
  have hlockFree : ruledShop.at? (ruledShop.cwd ++ ["pending.json.lock"]) = none := rfl
  obtain ⟨w', hrecord⟩ : ∃ w', Pending.record "pending.json" .newYear d "p" (some "p") ruledShop =
      (.ok (), w') := by
    have hlock := Store.lock_local_free hlockLocal (by decide) hlockFree
    rw [Pending.record, Act.bind_of_ok hlock, Act.bind_of_ok (x := get) rfl]
    exact ⟨_, hlocal.write _ (.inr ⟨.empty, rfl⟩) _⟩
  have hexists : ruledShop.pathExists "p" = true := by
    have hdir : LocalPath "p" "p" := by decide
    simp only [pathExists, World.find,
      hdir.resolve ruledShop (.down hdir.step hdir.nameShort ruledShop_stand.package.dir .here)]
  have hrun : installation ruledContext "p" (some "p") false ruledShop = _ :=
    installation_recorded hexists hjudge hverdict rfl hrecord
  have hway : ruledShop.onWay (Store.lockPath "pending.json") = [["pending.json.lock"]] :=
    hlockLocal.onWay (by simp [hlockFree])
  obtain ⟨earlier, hstored⟩ := Pending.stored_of_record hrecord (hlocal.route ruledShop) (by simp)
    (by rw [hway]; decide) hfits
  have hget : Pending.get? w' "pending.json" d.name = some ⟨d, "p", some "p", .newYear⟩ := by
    rw [Pending.get?, hstored.load, Dict.get?_insert, if_pos rfl]
  obtain ⟨f, hf⟩ := gate_of_reviews (show ruledContext.paths.rules = some "pending.json" from rfl)
    hstored
  refine ⟨by decide, _, w', f, hrun, hverdict, hget, ?_⟩
  change Command.approve ruledContext d.name none w' = (.error f, w')
  have hfound : Pending.get? w' ruledContext.paths.pending d.name =
    some ⟨d, "p", some "p", .newYear⟩ := hget
  rw [Command.approve, Act.bind_of_ok (x := get) rfl, hfound]
  exact Act.bind_of_error hf

end Command
end SkillAudit
