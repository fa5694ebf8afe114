import Mathlib
import SkillAudit.Proofs.CommandContext
import SkillAudit.Proofs.PackageSwap
import SkillAudit.Proofs.StatePlaces

/-!
Installing packages. The gate decides on the package at a root; what is installed is the listing of
that root, whatever stood at its place before, and nothing else changes but where state is kept and
where the copy is put together.
-/
namespace SkillAudit

namespace World

theorem mem_children {w : World} {p : Place} {name : String} {n : Node} :
    (name, n) ∈ w.children p ↔ (p ++ [name], n) ∈ w.nodes := by
  have hbelow : (name, n) ∈ w.children p ↔ ([name], n) ∈ w.below p := by
    rw [children, List.mem_filterMap]
    constructor
    · rintro ⟨⟨names, m⟩, hmem, hsel⟩
      match names, hsel with
      | [_], rfl => exact hmem
    · exact fun hmem => ⟨([name], n), hmem, rfl⟩
  rw [hbelow, mem_below]
  simp

end World

namespace Package

/-- The root of a package at a path that exists can be found, unless its path is too long. -/
theorem found_of_locate? {w : World} {path manifest root : String} (hw : w.IsTree)
    (hpath : w.pathExists path = true) (h : locate? w path manifest = some root) :
    (∃ found, w.find root = .ok found) ∨ ¬ World.IsPath root := by
  rcases (isPackage_of_locate? h).2 with rfl | hsub
  · refine .inl ?_
    unfold World.pathExists at hpath
    split at hpath
    next found hfound => exact ⟨found, hfound⟩
    next => cases hpath
  · unfold subdirectories World.readDir at hsub
    cases hfind : w.find path with
    | error e => simp [hfind] at hsub
    | ok found =>
      obtain ⟨p, n⟩ := found
      cases n with
      | file bytes => simp [hfind] at hsub
      | link t => simp [hfind] at hsub
      | dir =>
        rw [hfind] at hsub
        obtain ⟨name, hname, rfl⟩ := List.mem_map.mp hsub
        rw [List.mem_mergeSort, List.mem_filterMap] at hname
        obtain ⟨⟨child, n⟩, hmem, hsel⟩ := hname
        obtain ⟨⟨hdir, -⟩, hchild⟩ : (n = .dir ∧ _) ∧ child = name := by simpa using hsel
        subst hdir hchild
        have hat := (World.Distinct.mem_nodes_iff hw.distinct (by simp)).mp
          (World.mem_children.mp hmem)
        have hisName := hw.isName_of_at? hat child (by simp)
        by_cases hshort : World.IsPath (Path.join path child)
        · exact .inl ⟨_, World.find_dir_iff.mpr
            ⟨hshort, (World.find_dir_iff.mp hfind).2.join hisName hat⟩⟩
        · exact .inr hshort

end Package

theorem isName_of_isSafeName {name : String} (h : isSafeName name = true) : World.IsName name := by
  simp only [isSafeName, Bool.and_eq_true, bne_iff_ne, ne_eq, List.all_eq_true,
    decide_eq_true_eq] at h
  obtain ⟨⟨⟨⟨hne, hhere⟩, hup⟩, hchars⟩, hshort⟩ := h
  exact ⟨hne, hhere, hup, fun hmem => (hchars _ hmem).1.1 rfl, fun hmem => (hchars _ hmem).2 rfl,
    hshort.trans (by decide)⟩

namespace Command
open World

theorem isName_stagingName {name : String} (h : isSafeName name = true) :
    IsName (stagingName name) := by
  have hname := isName_of_isSafeName h
  have hlength : 9 ≤ (stagingName name).toList.length := by
    simp [stagingName]
  have hlong : ∀ short : String, short.toList.length < 9 → stagingName name ≠ short := by
    rintro short hshort rfl
    omega
  have hsize : name.utf8ByteSize ≤ 128 := by
    simp only [isSafeName, Bool.and_eq_true, decide_eq_true_eq] at h
    exact h.2
  refine ⟨hlong _ (by decide), hlong _ (by decide), hlong _ (by decide), ?_, ?_, ?_⟩
  · simpa [stagingName] using hname.slashless
  · simpa [stagingName] using hname.noZero
  · have hends : ".".utf8ByteSize = 1 ∧ ".staging".utf8ByteSize = 8 := by decide
    rw [stagingName, String.utf8ByteSize_append, String.utf8ByteSize_append, hends.1, hends.2]
    omega

/-! Judging. -/

def packageName (c : Context) (w : World) (root : String) (name : Option String) : String :=
  name.getD (Package.describe w root c.policy.manifestFile).name

/-- The places where the state of the settings is kept. -/
def KeepsState (c : Context) (w : World) (q : Place) : Prop :=
  ∃ path ∈ c.paths.ledger :: c.paths.pending :: c.paths.ledgerMarkdown.toList,
    Store.Touches w path q

theorem candidate_local {c : Context} {target : String} {w : World}
    (hlocal : w.pathExists target = true) : candidate c target w = (.ok (target, target), w) := by
  rw [candidate, Act.bind_of_ok (x := get) rfl, if_pos hlocal]
  rfl

theorem candidate_cases (c : Context) {target : String} {w : World}
    (hlocal : w.pathExists target = true ∨ looksLikePath target = true) :
    (∃ e, candidate c target w = (.error e, w)) ∨
      w.pathExists target = true ∧ candidate c target w = (.ok (target, target), w) := by
  by_cases hpath : w.pathExists target = true
  · exact .inr ⟨hpath, candidate_local hpath⟩
  · rw [candidate, Act.bind_of_ok (x := get) rfl, if_neg hpath, if_pos (hlocal.resolve_left hpath)]
    exact .inl ⟨_, rfl⟩

theorem onLedger_ok {α : Type} {l l' : Ledger} {act : Ledger.Act α} {a : α} {w v : World}
    (h : act (l, w) = (.ok a, l', v)) : Act.onLedger l act w = (.ok (a, l'), v) := by
  rw [Act.onLedger, h]

theorem onLedger_error {α : Type} {l l' : Ledger} {act : Ledger.Act α} {e : AuditError}
    {w v : World} (h : act (l, w) = (.error e, l', v)) :
    Act.onLedger l act w = (.error (.ofAudit e), v) := by
  rw [Act.onLedger, h]

def options (c : Context) (w : World) (target root : String) (name : Option String) :
    Gate.Options :=
  let place := Path.join c.paths.skillsDir (packageName c w root name)
  { name := some (packageName c w root name)
    source := some target
    installed := if w.isDir place && !sameDir w place root then some place else none }

def judged (c : Context) (w : World) (target root : String) (name : Option String)
    (decision : Decision) : Judged :=
  let place := Path.join c.paths.skillsDir (packageName c w root name)
  { decision, root, source := target, place, inPlace := sameDir w place root }

section Judge
variable {c : Context} {path source : String} {name : Option String} {w v : World} {j : Judged}

theorem judge_eq {root : String} {g : Gate} {l : Ledger}
    (hroot : Package.locate? w path c.policy.manifestFile = some root)
    (hsafe : isSafeName (packageName c w root name) = true) (hgate : c.gate w = (.ok (g, l), w)) :
    judge c path source name w =
      match g.check c.now root (options c w source root name) (l, w) with
      | (.ok decision, _, v) => (.ok (judged c w source root name decision), v)
      | (.error e, _, v) => (.error (.ofAudit e), v) := by
  have hlocate := c.locate_eq path w
  rw [hroot] at hlocate
  rw [judge, Act.bind_of_ok hlocate, Act.bind_of_ok (x := get) rfl]
  simp only
  rw [if_neg (by simpa [packageName] using hsafe), Act.bind_of_ok (x := get) rfl,
    Act.bind_of_ok hgate]
  rcases hcheck : g.check c.now root (options c w source root name) (l, w) with ⟨e | d, l', v⟩
  · exact Act.bind_of_error (onLedger_error hcheck)
  · exact Act.bind_of_ok (onLedger_ok hcheck)

/-- A package is judged by the gate, unless something fails before; and that leaves the tree as it
is. -/
theorem judge_cases (c : Context) (path source : String) (name : Option String) (w : World) :
    (∃ e, judge c path source name w = (.error e, w)) ∨
    ∃ root g l, Package.locate? w path c.policy.manifestFile = some root ∧
      isSafeName (packageName c w root name) = true ∧ g.policy = c.policy ∧
      l = Ledger.load w c.paths.ledger c.paths.ledgerMarkdown ∧ c.gate w = (.ok (g, l), w) := by
  have hlocate := c.locate_eq path w
  cases hroot : Package.locate? w path c.policy.manifestFile with
  | none =>
    rw [hroot] at hlocate
    exact .inl ⟨_, Act.bind_of_error hlocate⟩
  | some root =>
    rw [hroot] at hlocate
    rw [judge, Act.bind_of_ok hlocate, Act.bind_of_ok (x := get) rfl]
    simp only
    by_cases hsafe : isSafeName (packageName c w root name) = true
    swap
    · rw [if_pos (by simpa [packageName] using hsafe)]
      exact .inl ⟨_, Act.bind_of_error rfl⟩
    rw [if_neg (by simpa [packageName] using hsafe), Act.bind_of_ok (x := get) rfl]
    rcases c.gate_cases w with ⟨e, he⟩ | ⟨g, l, hgate, hpolicy, hl⟩
    · exact .inl ⟨e, Act.bind_of_error he⟩
    · exact .inr ⟨root, g, l, rfl, hsafe, hpolicy, hl, hgate⟩

/-- A package that is not blocked is judged without a trace. -/
theorem judge_of_decision {root : String} {g : Gate} {l : Ledger}
    (hroot : Package.locate? w path c.policy.manifestFile = some root)
    (hsafe : isSafeName (packageName c w root name) = true) (hgate : c.gate w = (.ok (g, l), w))
    (hother : (g.decision w l root (options c w source root name)).verdict ≠ .block) :
    judge c path source name w = (.ok (judged c w source root name
      (g.decision w l root (options c w source root name))), w) := by
  obtain ⟨hpolicy, rfl⟩ := Context.gate_ok hgate
  have hcheck : g.check c.now root (options c w source root name)
      (.load w c.paths.ledger c.paths.ledgerMarkdown, w) =
        (.ok (g.decision w (.load w c.paths.ledger c.paths.ledgerMarkdown) root
          (options c w source root name)), .load w c.paths.ledger c.paths.ledgerMarkdown, w) := by
    refine Gate.check_ok_iff.mpr ⟨root, ?_, rfl, ?_⟩
    · rw [hpolicy]
      exact Package.locate?_root hroot
    · rw [if_neg hother]
      rfl
  rw [judge_eq hroot hsafe hgate, hcheck]

/-- What is kept while the ledger is, judging keeps. -/
theorem judge_keeps {P : World → Prop} (hledger : Store.Keeps P c.paths.ledger)
    (htable : ∀ path ∈ c.paths.ledgerMarkdown, Store.Keeps P path) (path source : String)
    (name : Option String) (h : P w) : P (judge c path source name w).2 := by
  rcases judge_cases c path source name w with ⟨e, he⟩ | ⟨root, g, l, hroot, hsafe, -, rfl, hgate⟩
  · rw [he]
    exact h
  · have hkept := Gate.check_keeps (l := .load w c.paths.ledger c.paths.ledgerMarkdown) hledger htable
      h g c.now root (options c w source root name)
    rw [judge_eq hroot hsafe hgate]
    split
    next hcheck => rwa [hcheck] at hkept
    next hcheck => rwa [hcheck] at hkept

/-- Judging changes the tree only where state is kept. -/
theorem judge_changes (c : Context) (path source : String) (name : Option String) (w : World) :
    w.Changes (KeepsState c w) (judge c path source name w).2 :=
  judge_keeps (Store.keeps_changes fun _ hq => ⟨_, by simp, hq⟩)
    (fun file hfile => Store.keeps_changes fun _ hq => ⟨file, by simp_all, hq⟩)
    path source name (.refl _ w)

theorem judge_inv (h : judge c path source name w = (.ok j, v)) :
    ∃ g l l', Package.locate? w path c.policy.manifestFile = some j.root ∧
      isSafeName (packageName c w j.root name) = true ∧ c.gate w = (.ok (g, l), w) ∧
      l = Ledger.load w c.paths.ledger c.paths.ledgerMarkdown ∧
      g.check c.now j.root (options c w source j.root name) (l, w) = (.ok j.decision, (l', v)) ∧
      j.decision = g.decision w l j.root (options c w source j.root name) ∧
      j = judged c w source j.root name j.decision := by
  rcases judge_cases c path source name w with ⟨e, he⟩ |
    ⟨root, g, l, hroot, hsafe, hpolicy, rfl, hgate⟩
  · rw [he] at h
    cases h
  rw [judge_eq hroot hsafe hgate] at h
  split at h
  next decision l' v' hcheck =>
    cases h
    obtain ⟨root', hroot', hdecision, -⟩ := Gate.check_ok_iff.mp hcheck
    rw [hpolicy, Package.locate?_root hroot] at hroot'
    obtain rfl := Option.some.inj hroot'
    exact ⟨g, _, l', hroot, hsafe, hgate, rfl, hcheck, hdecision, rfl⟩
  next => cases h

/-- A package that has been judged: its hash is that of its files. Unless it is blocked the tree is
as it was. -/
theorem judge_ok (h : judge c path source name w = (.ok j, v)) :
    Package.locate? w path c.policy.manifestFile = some j.root ∧
    isSafeName (packageName c w j.root name) = true ∧
    j.place = Path.join c.paths.skillsDir (packageName c w j.root name) ∧
    j.decision.name = packageName c w j.root name ∧
    j.decision.hash = (Fingerprint.ofPath w j.root).hash ∧
    (j.decision.verdict ≠ .block → v = w) := by
  obtain ⟨g, l, l', hroot, hsafe, -, -, hcheck, hdecision, hj⟩ := judge_inv h
  refine ⟨hroot, hsafe, congrArg Judged.place hj, ?_, ?_, Gate.check_untouched hcheck⟩
  · rw [hdecision]
    exact Gate.decision_name g w l j.root _
  · rw [hdecision]
    exact Gate.decision_hash g w l j.root _

theorem judge_blocked (h : judge c path source name w = (.ok j, v))
    (hblock : j.decision.verdict = .block) :
    ∃ e l, Ledger.add c.now (Gate.entryOf j.decision .blocked .auto none (some source))
      (.load w c.paths.ledger c.paths.ledgerMarkdown, w) = (.ok e, (l, v)) := by
  obtain ⟨g, l, l', -, -, -, rfl, hcheck, -⟩ := judge_inv h
  obtain ⟨-, -, -, hentered⟩ := Gate.check_ok_iff.mp hcheck
  rw [if_pos hblock] at hentered
  obtain ⟨e, hadd⟩ := hentered
  exact ⟨e, l', hadd⟩

end Judge

/-! Acting on a decision. -/

/-- Whether a judged package is copied: it is allowed, this is no dry run, and it is not there
already. -/
def Judged.IsCopied (j : Judged) (dryRun : Bool) (w : World) : Prop :=
  j.decision.verdict = .allow ∧ dryRun = false ∧ j.inPlace = false ∧
    ¬ (w.isDir j.place = true ∧ (Fingerprint.ofPath w j.place).hash = j.decision.hash)

section CarryOut
variable {c : Context} {j : Judged} {dryRun : Bool} {v v' : World}

theorem carryOut_copied (h : j.IsCopied dryRun v) :
    carryOut c j dryRun v = (do
      copyPackage j.root j.place
      return (.installed, some j.place) : Act (Action × Option String)) v := by
  obtain ⟨hallow, rfl, hplace, hother⟩ := h
  simp only [carryOut, hallow, Bool.false_eq_true, if_false]
  rw [Act.bind_of_ok (x := get) rfl, if_neg (by simpa [hplace] using hother)]

/-- What is not copied is left alone, but for a package that is to be reviewed. -/
theorem carryOut_cases (h : ¬ j.IsCopied dryRun v) :
    (∃ result, result.1 ≠ .installed ∧ carryOut c j dryRun v = (.ok result, v)) ∨
      j.decision.verdict = .review ∧ carryOut c j dryRun v = (do
        Act.onState (Pending.record c.paths.pending c.now j.decision j.root (some j.source))
        return (.pendingReview, none) : Act (Action × Option String)) v := by
  unfold carryOut
  cases hverdict : j.decision.verdict with
  | block => exact .inl ⟨(.blocked, none), by simp, rfl⟩
  | review => exact .inr ⟨rfl, rfl⟩
  | allow =>
    cases dryRun with
    | true => exact .inl ⟨(.dryRun, none), by simp, rfl⟩
    | false =>
      refine .inl ⟨(.alreadyInstalled, some j.place), by simp, ?_⟩
      simp only [Bool.false_eq_true, if_false]
      rw [Act.bind_of_ok (x := get) rfl, if_pos]
      · rfl
      · by_contra hno
        simp only [Bool.or_eq_true, Bool.and_eq_true, beq_iff_eq, not_or] at hno
        exact h ⟨hverdict, rfl, by simpa using hno.1, hno.2⟩

end CarryOut

/-! Installing. -/

/-- Whether the installation of the package at a path comes to the point where it is copied. -/
def CopyStarts (c : Context) (path source : String) (name : Option String) (dryRun : Bool)
    (w : World) : Prop :=
  ∃ j, judge c path source name w = (.ok j, w) ∧ j.IsCopied dryRun w

/-- The package, the directory for packages and the state files are apart from one another, and the
path of the directory does not lead through the staging copy. -/
structure Apart (c : Context) (w : World) (target : String) (name : Option String) : Prop where
  package : ∀ root place n g, Package.locate? w target c.policy.manifestFile = some root →
    w.find root = .ok (place, n) → w.goal? c.paths.skillsDir = some g →
      ¬ place <+: g.place ∧ ¬ g.place <+: place
  state : ∀ q g, KeepsState c w q → w.goal? c.paths.skillsDir = some g → ¬ g.place <+: q
  staging : ∀ root g, Package.locate? w target c.policy.manifestFile = some root →
    w.goal? c.paths.skillsDir = some g → ∀ q ∈ w.onWay c.paths.skillsDir,
      ¬ g.place ++ [stagingName (packageName c w root name)] <+: q

/-! A directory for packages, and a package that is installed in it. -/

/-- Settings under which every package passes or, where approvals are required, none does. -/
def shopContext (skillsDir : String) (requireApproval : Bool) : Context where
  config := {
    policy := {
      autoAllowThreshold := 0
      reviewThreshold := 0
      requireApprovalForAll := requireApproval } }
  paths := ⟨skillsDir, "ledger.json", none, "watch.json", "pending.json", some "r"⟩
  format := .compact
  screen := ⟨false⟩
  now := .newYear
  input := ""
  send := fun _ => .error (.http "")
  scratch := ""

/-- A package, an empty rule document, and a directory for packages in which a staging copy was
left. -/
def shop : World := ⟨[(["p"], .dir), (["p", "SKILL.md"], .file ⟨#[120]⟩), (["r"], .file .empty),
  (["s"], .dir), (["s", ".p.staging"], .dir), (["s", ".p.staging", "old"], .file .empty)], []⟩

/-- An empty rule document, and no ledger. -/
structure Stall (w : World) : Prop where
  rules : w.at? (w.cwd ++ ["r"]) = some (.file .empty)
  ledger : w.at? (w.cwd ++ ["ledger.json"]) = none

namespace Stall
variable {w : World} (h : Stall w)
include h

theorem gate (skillsDir : String) (requireApproval : Bool) :
    (shopContext skillsDir requireApproval).gate w =
      (.ok (⟨(shopContext skillsDir requireApproval).policy, ⟨"unversioned", []⟩⟩,
        .load w "ledger.json" none), w) := by
  have hread : w.readText "r" = .ok "" := by
    have hlocal : LocalPath "r" "r" := by decide
    simp only [readText, readFile, World.find, hlocal.resolve_file w true h.rules]
    decide
  have hpolicy : (shopContext skillsDir requireApproval).policy.validate = .ok () := by
    change (shopContext "s" requireApproval).policy.validate = .ok ()
    cases requireApproval <;> decide
  exact Context.gate_of_empty rfl hread hpolicy

/-- The verdict does not depend on the score. -/
theorem judge (skillsDir : String) (requireApproval : Bool) {path root name : String}
    (source : String) (hroot : Package.locate? w path Manifest.defaultName = some root)
    (hsafe : isSafeName name = true) :
    ∃ d, Command.judge (shopContext skillsDir requireApproval) path source (some name) w =
        (.ok (judged (shopContext skillsDir requireApproval) w source root (some name) d), w) ∧
      d.verdict = if requireApproval then .review else .allow := by
  have hgate := h.gate skillsDir requireApproval
  have hnew : ∀ name, (Ledger.load w "ledger.json" none).approvedHash? name = none := by
    have hload : Ledger.Content.load w "ledger.json" = .current [] :=
      Ledger.load_of_missing (Ledger.store_local.missing w h.ledger)
    simp [Ledger.load, hload, Ledger.approvedHash?_eq, Ledger.entries, Ledger.approvedIn,
      Ledger.Content.current]
  have hverdict : (Gate.decision
      ⟨(shopContext skillsDir requireApproval).policy, ⟨"unversioned", []⟩⟩ w
      (.load w "ledger.json" none) root
      (options (shopContext skillsDir requireApproval) w source root (some name))).verdict =
        if requireApproval then .review else .allow := by
    rw [Gate.decision_verdict, hnew]
    cases requireApproval <;> simp [Gate.judgeScore, shopContext, Context.policy]
  have hlocated : Package.locate? w path
      (shopContext skillsDir requireApproval).policy.manifestFile = some root := hroot
  have hnamed : isSafeName (packageName (shopContext skillsDir requireApproval) w root
      (some name)) = true := hsafe
  refine ⟨_, judge_of_decision hlocated hnamed hgate ?_, hverdict⟩
  rw [hverdict]
  cases requireApproval <;> simp

end Stall

theorem shop_stall : Stall shop := ⟨rfl, rfl⟩

theorem shop_hasPackage : Gate.HasPackage shop ⟨#[120]⟩ := ⟨rfl, rfl⟩

theorem shop_find : shop.find "p" = .ok (["p"], .dir) := by
  have hlocal : LocalPath "p" "p" := by decide
  simp only [World.find,
    hlocal.resolve shop (.down hlocal.step hlocal.nameShort shop_hasPackage.dir .here)]
  rfl

theorem shop_pathExists : shop.pathExists "p" = true := by simp [pathExists, shop_find]

theorem shop_candidate {c : Context} : candidate c "p" shop = (.ok ("p", "p"), shop) :=
  candidate_local shop_pathExists

theorem shop_resolve (v : World) (follow : Bool) (path name : String) {spot : Spot}
    (h : IsPath path) (hstart : v.start path = []) (hnames : namesOf path = ["s", name])
    (hdir : v.at? ["s"] = some .dir)
    (hlast : Leads v follow (endsInSlash path) linkLimit ["s"] [name] [] spot) :
    v.resolve follow path = .ok spot := by
  have hleads : Leads v follow (endsInSlash path) linkLimit (v.start path) (namesOf path) [] spot := by
    rw [hstart, hnames]
    exact .down ⟨by decide, by decide⟩ (by decide) hdir hlast
  exact h.resolve hleads

def clearedShop : World := shop.prune ["s", ".p.staging"]

def stagedShop : World :=
  (clearedShop.put ["s", ".p.staging"] .dir).put ["s", ".p.staging", "SKILL.md"] (.file ⟨#[120]⟩)

def installedShop : World := stagedShop.move ["s", ".p.staging"] ["s", "p"]

theorem clearedShop_files : Listing.met clearedShop "p" = [⟨"SKILL.md", ⟨#[120]⟩⟩] := by
  have hfind : clearedShop.find "p" = .ok (["p"], .dir) := by
    have hlocal : LocalPath "p" "p" := by decide
    simp only [World.find,
      hlocal.resolve clearedShop (.down hlocal.step hlocal.nameShort rfl .here)]
    rfl
  have hplace : Listing.ofPlace clearedShop ["p"] = [⟨"SKILL.md", ⟨#[120]⟩⟩] := by cbv
  rw [Listing.met_of_find hfind, hplace]
  decide

/-- A path by which the package can be copied into the directory. -/
structure ShopPath (up : String) : Prop where
  directory : ∀ follow, shop.resolve follow (makeDir.trimSlashes up) = .ok (.taken ["s"] .dir) ∧
    shop.resolve follow up = .ok (.taken ["s"] .dir)
  nonempty : ¬ (up == "") = true
  parents : Path.parent (Path.join up "p") = some up ∧
    Path.parent (Path.join (Path.join up ".p.staging") "SKILL.md") =
      some (Path.join up ".p.staging")
  old : ∀ follow, shop.resolve follow (Path.join up ".p.staging") =
    .ok (.taken ["s", ".p.staging"] .dir)
  made : Act.makeDirs (Path.join up ".p.staging") clearedShop =
    (.ok (), clearedShop.put ["s", ".p.staging"] .dir)
  file : (clearedShop.put ["s", ".p.staging"] .dir).resolve true
    (Path.join (Path.join up ".p.staging") "SKILL.md") = .ok (.free ["s", ".p.staging", "SKILL.md"])
  staged : stagedShop.resolve false (Path.join up ".p.staging") =
    .ok (.taken ["s", ".p.staging"] .dir)
  free : ∀ follow, stagedShop.resolve follow (Path.join up "p") = .ok (.free ["s", "p"])

theorem ShopPath.copied {up : String} (h : ShopPath up) :
    copyPackage "p" (Path.join up "p") shop = (.ok (), installedShop) := by
  have hdirs : Act.makeDirs up shop = (.ok (), shop) := by
    have hdir : shop.makeDir up = .error .exists := by rw [makeDir, (h.directory false).1]
    have hisDir : shop.isDir up = true := by simp only [isDir, World.find, (h.directory true).2]
    have hmade : shop.makeDirs up = (.ok (), shop) := by
      rw [World.makeDirs, makeDirsWithin, if_neg h.nonempty, hdir]
      simp [hisDir]
    rw [Act.makeDirs, hmade]
  have hcleared : clearAway "cannot clear " (Path.join up ".p.staging") shop =
      (.ok (), clearedShop) := by
    rw [clearAway_eq, pathExists, World.find, h.old true]
    simp [Act.change, removeTree, h.old false, clearedShop]
  have hstaged : stage "p" (Listing.met clearedShop "p") (Path.join up ".p.staging") clearedShop =
      (.ok (), stagedShop) := by
    have hname : IsName "SKILL.md" := by decide
    have hwrite : (clearedShop.put ["s", ".p.staging"] .dir).writeFile
        (Path.join (Path.join up ".p.staging") "SKILL.md") ⟨#[120]⟩ = .ok stagedShop := by
      have hslash := Path.endsInSlash_join_name hname (Path.join up ".p.staging")
      rw [writeFile, h.file]
      exact if_neg (by simpa [endsInSlash] using hslash)
    have hopen : Listing.isOpen "p" ⟨"SKILL.md", ⟨#[120]⟩⟩ = true := by decide
    have hcopy : copyFile "p" (Path.join up ".p.staging") ⟨"SKILL.md", ⟨#[120]⟩⟩ clearedShop =
        (.ok (), stagedShop) := by
      simp only [copyFile, h.parents.2, hopen, if_true]
      rw [Act.bind_of_ok h.made, Act.change, hwrite]
    rw [clearedShop_files, stage_cons, Act.bind_of_ok hcopy]
    rfl
  have hplace : clearAway "cannot replace " (Path.join up "p") stagedShop = (.ok (), stagedShop) := by
    rw [clearAway_eq, pathExists, World.find, h.free true]
    rfl
  have hmove : Act.change ("cannot move package into " ++ Path.join up "p")
      (·.rename (Path.join up ".p.staging") (Path.join up "p")) stagedShop =
        (.ok (), installedShop) := by
    simp only [Act.change, World.rename, h.staged, h.free false]
    rfl
  have hname : IsName "p" := by decide
  have hstaging : stagingName ((Path.fileName (Path.join up "p")).getD "") = ".p.staging" := by
    rw [Path.fileName_join_name hname]
    decide
  simp only [copyPackage, h.parents.1, hstaging]
  rw [Act.bind_of_ok hdirs, replaceTree, Act.bind_of_ok hcleared,
    Act.bind_of_ok (x := get) rfl, Act.bind_of_ok hstaged, Act.bind_of_ok hplace]
  exact hmove

theorem shopPath_plain : ShopPath "s" where
  directory follow := by
    have htaken : shop.resolve follow "s" = .ok (.taken ["s"] .dir) := by
      have hlocal : LocalPath "s" "s" := by decide
      exact hlocal.resolve shop (.down hlocal.step hlocal.nameShort rfl .here)
    have htrim : makeDir.trimSlashes "s" = "s" := by decide
    exact ⟨htrim ▸ htaken, htaken⟩
  nonempty := by decide
  parents := by decide
  old follow := shop_resolve shop follow (Path.join "s" ".p.staging") ".p.staging"
    (by decide) rfl (by decide) rfl (.down ⟨by decide, by decide⟩ (by decide) rfl .here)
  made := by
    have hfree := shop_resolve clearedShop false (Path.join "s" ".p.staging") ".p.staging"
      (by decide) rfl (by decide) rfl (.free ⟨by decide, by decide⟩ (by decide) rfl)
    have htrim : makeDir.trimSlashes (Path.join "s" ".p.staging") = Path.join "s" ".p.staging" := by
      decide
    have hdir : clearedShop.makeDir (Path.join "s" ".p.staging") =
        .ok (clearedShop.put ["s", ".p.staging"] .dir) := by
      rw [makeDir, htrim, hfree]
      rfl
    have hmade : clearedShop.makeDirs (Path.join "s" ".p.staging") =
        (.ok (), clearedShop.put ["s", ".p.staging"] .dir) := by
      rw [World.makeDirs, makeDirsWithin, if_neg (by decide), hdir]
    rw [Act.makeDirs, hmade]
  file := IsPath.resolve (by decide)
    (.down ⟨by decide, by decide⟩ (by decide) rfl
      (.down ⟨by decide, by decide⟩ (by decide) rfl
        (.free ⟨by decide, by decide⟩ (by decide) rfl)))
  staged := shop_resolve stagedShop false (Path.join "s" ".p.staging") ".p.staging"
    (by decide) rfl (by decide) rfl (.down ⟨by decide, by decide⟩ (by decide) rfl .here)
  free follow := shop_resolve stagedShop follow (Path.join "s" "p") "p"
    (by decide) rfl (by decide) rfl (.free ⟨by decide, by decide⟩ (by decide) rfl)

theorem shop_noLink (t : String) : shop.at? (shop.cwd ++ ["s"]) ≠ some (.link t) := by
  have hdir : shop.at? (shop.cwd ++ ["s"]) = some .dir := rfl
  simp [hdir]

theorem shop_goal {g : Route} (h : shop.goal? "s" = some g) : g.place = ["s"] := by
  have hlocal : LocalPath "s" "s" := by decide
  exact congrArg Route.place (Option.some.inj (h.symm.trans (hlocal.goal shop shop_noLink)))

/-- The names at which state is kept, where nothing stands yet. -/
theorem shopContext_state {skillsDir : String} {requireApproval : Bool} {w : World}
    (hnone : ∀ name ∈ ["ledger.json", "ledger.json.lock", "pending.json", "pending.json.lock"],
      w.at? (w.cwd ++ [name]) = none) {q : Place}
    (h : KeepsState (shopContext skillsDir requireApproval) w q) :
    ∃ name ∈ ["ledger.json", "ledger.json.lock", "pending.json", "pending.json.lock"],
      q = w.cwd ++ [name] := by
  have hfree : ∀ name ∈ ["ledger.json", "ledger.json.lock", "pending.json", "pending.json.lock"],
      Open w name := fun name hname => .inl (hnone name hname)
  obtain ⟨path, hpath, hq⟩ := h
  obtain rfl | rfl : path = "ledger.json" ∨ path = "pending.json" := by
    simpa [shopContext] using hpath
  · have hlock : LocalPath (Store.lockPath "ledger.json") "ledger.json.lock" := by decide
    rcases Ledger.store_local.touches hlock (hfree _ (by decide)) (hfree _ (by decide)) hq with
      rfl | rfl
    · exact ⟨_, by simp, rfl⟩
    · exact ⟨_, by simp, rfl⟩
  · have hpending : LocalPath "pending.json" "pending.json" := by decide
    have hlock : LocalPath (Store.lockPath "pending.json") "pending.json.lock" := by decide
    rcases hpending.touches hlock (hfree _ (by decide)) (hfree _ (by decide)) hq with rfl | rfl
    · exact ⟨_, by simp, rfl⟩
    · exact ⟨_, by simp, rfl⟩

theorem shop_apart (requireApproval : Bool) :
    Apart (shopContext "s" requireApproval) shop "p" (some "p") := by
  have hlocal : LocalPath "s" "s" := by decide
  constructor
  · intro root place n g hroot hfind hg
    obtain rfl : "p" = root := Option.some.inj (shop_hasPackage.locate?.symm.trans hroot)
    obtain ⟨rfl, -⟩ := Prod.mk.inj (Except.ok.inj (shop_find.symm.trans hfind))
    rw [shop_goal hg]
    decide
  · intro q g hq hg
    rw [shop_goal hg]
    obtain ⟨name, hname, rfl⟩ := shopContext_state (by decide) hq
    clear hq
    revert name
    decide
  · intro root g _ hg q hq
    have hway : q ∈ shop.onWay "s" := hq
    rw [hlocal.onWay shop_noLink, List.mem_singleton] at hway
    rw [hway, shop_goal hg]
    change ¬ ["s"] ++ [stagingName "p"] <+: ["s"]
    decide

section Installation
variable {c : Context} {path source target : String} {name : Option String} {dryRun : Bool}
  {w w' : World} {result : Except Failure Installation}

/-- An installation that does not come to copy changes the tree only where state is kept, and says
of no package that it is installed. -/
theorem installFrom_kept (hnot : ¬ CopyStarts c path source name dryRun w)
    (h : installFrom c path source name dryRun w = (result, w')) :
    w.Changes (KeepsState c w) w' ∧ ∀ i, result = .ok i → i.action ≠ .installed := by
  have hjudge := judge_changes c path source name w
  rcases hj : judge c path source name w with ⟨e | j, v⟩
  · rw [installFrom, Act.bind_of_error hj] at h
    obtain ⟨rfl, rfl⟩ := Prod.mk.inj h
    rw [hj] at hjudge
    exact ⟨hjudge, by simp⟩
  rw [hj] at hjudge
  rw [installFrom, Act.bind_of_ok hj] at h
  have hfree : ¬ j.IsCopied dryRun v := by
    intro hcopied
    obtain ⟨-, -, -, -, -, hsame⟩ := judge_ok hj
    obtain rfl := hsame (by simp [hcopied.1])
    exact hnot ⟨j, hj, hcopied⟩
  rcases carryOut_cases (c := c) hfree with ⟨⟨action, place⟩, hother, heq⟩ | ⟨-, heq⟩
  · rw [Act.bind_of_ok heq] at h
    obtain ⟨rfl, rfl⟩ := Prod.mk.inj h
    refine ⟨hjudge, fun i hi => ?_⟩
    obtain rfl := Except.ok.inj hi
    exact hother
  · have hrecord := Pending.record_keeps (P := w.Changes (KeepsState c w))
      (Store.keeps_changes fun q hq => ⟨c.paths.pending, by simp, hq⟩) hjudge c.now j.decision j.root
      (some j.source)
    rcases hdone : Pending.record c.paths.pending c.now j.decision j.root (some j.source) v with
      ⟨e | _, u⟩
    · have hstate : Act.onState (Pending.record c.paths.pending c.now j.decision j.root
          (some j.source)) v = (.error (.ofAudit e), u) := by rw [Act.onState, hdone]
      rw [Act.bind_of_error hstate] at heq
      rw [Act.bind_of_error heq] at h
      obtain ⟨rfl, rfl⟩ := Prod.mk.inj h
      rw [hdone] at hrecord
      exact ⟨hrecord, by simp⟩
    · have hstate : Act.onState (Pending.record c.paths.pending c.now j.decision j.root
          (some j.source)) v = (.ok (), u) := by rw [Act.onState, hdone]
      rw [Act.bind_of_ok hstate] at heq
      rw [Act.bind_of_ok heq] at h
      obtain ⟨rfl, rfl⟩ := Prod.mk.inj h
      rw [hdone] at hrecord
      refine ⟨hrecord, fun i hi => ?_⟩
      obtain rfl := Except.ok.inj hi
      simp

/-- An installation that comes to copy is a copy: it succeeds when that does. -/
theorem installFrom_copied {j : Judged} (hj : judge c path source name w = (.ok j, w))
    (hcopied : j.IsCopied dryRun w) (h : installFrom c path source name dryRun w = (result, w')) :
    (∃ e, result = .error e ∧ copyPackage j.root j.place w = (.error e, w')) ∨
      copyPackage j.root j.place w = (.ok (), w') ∧
        result = .ok ⟨j.decision, .installed, some j.place, j.source⟩ := by
  rw [installFrom, Act.bind_of_ok hj] at h
  have heq := carryOut_copied (c := c) hcopied
  rcases hcopy : copyPackage j.root j.place w with ⟨e | _, v⟩
  · rw [Act.bind_of_error hcopy] at heq
    rw [Act.bind_of_error heq] at h
    obtain ⟨rfl, rfl⟩ := Prod.mk.inj h
    exact .inl ⟨e, rfl, rfl⟩
  · rw [Act.bind_of_ok hcopy] at heq
    rw [Act.bind_of_ok heq] at h
    obtain ⟨rfl, rfl⟩ := Prod.mk.inj h
    exact .inr ⟨rfl, rfl⟩

/-- A target that is a path here is installed from there, if anything is there. -/
theorem installation_cases (hlocal : w.pathExists target = true ∨ looksLikePath target = true)
    (h : installation c target name dryRun w = (result, w')) :
    (∃ e, result = .error e ∧ w' = w) ∨
      w.pathExists target = true ∧ installFrom c target target name dryRun w = (result, w') := by
  rcases candidate_cases c hlocal with ⟨e, he⟩ | ⟨hpath, hcandidate⟩
  · rw [installation, Act.bind_of_error he] at h
    obtain ⟨rfl, rfl⟩ := Prod.mk.inj h
    exact .inl ⟨e, rfl, rfl⟩
  · rw [installation, Act.bind_of_ok hcandidate] at h
    exact .inr ⟨hpath, h⟩

theorem install_eq (h : installation c target name dryRun w = (result, w')) :
    install c target name dryRun w = (result.map (·.report c), w') := by
  cases result with
  | error e => exact Act.bind_of_error h
  | ok i => exact Act.bind_of_ok h

/-- What is installed is what was judged. Unless an allowed package is copied, which a dry run never
does, the directory for packages stays as it is. A package that is installed has at its place the
files of the root that was judged, and their hash is that of the decision. In any case nothing changes
but where state is kept, what is missing on the way to the directory, the place of the package and
the staging place. -/
theorem install_copies_what_was_judged (hw : w.IsTree)
    (hlocal : w.pathExists target = true ∨ looksLikePath target = true)
    (hapart : Apart c w target name)
    (h : installation c target name dryRun w = (result, w')) :
    install c target name dryRun w = (result.map (·.report c), w') ∧
    (dryRun = true ∨ (∃ i, result = .ok i ∧ i.decision.verdict ≠ .allow) →
      ¬ CopyStarts c target target name dryRun w) ∧
    (¬ CopyStarts c target target name dryRun w → ∀ g q, w.goal? c.paths.skillsDir = some g →
      g.place <+: q → w'.at? q = w.at? q) ∧
    (∀ i, result = .ok i → i.action = .installed →
      ∃ root g, Package.locate? w target c.policy.manifestFile = some root ∧
        i.decision.name = packageName c w root name ∧
        i.decision.hash = (Fingerprint.ofPath w root).hash ∧
        i.place = some (Path.join c.paths.skillsDir i.decision.name) ∧
        w.goal? c.paths.skillsDir = some g ∧
        Installed w w' root c.paths.skillsDir i.decision.name g.place ∧
        (Fingerprint.ofListing (Listing.ofPlace w' (g.place ++ [i.decision.name]))).hash =
          i.decision.hash ∧
        ((Listing.ofPath w root ≠ [] ∨
            ∀ q ∈ w.onWay c.paths.skillsDir, ¬ g.place ++ [i.decision.name] <+: q) →
          (∀ f ∈ Listing.ofPath w root,
            Listing.isOpen (Path.join c.paths.skillsDir i.decision.name) f = true) →
          (Fingerprint.ofPath w' (Path.join c.paths.skillsDir i.decision.name)).hash =
            i.decision.hash)) ∧
    ∀ q, w'.at? q = w.at? q ∨ KeepsState c w q ∨
      (q ∈ w.onWay c.paths.skillsDir ∧ w.at? q = none ∧ w'.at? q = some .dir) ∨
      ∃ root g, Package.locate? w target c.policy.manifestFile = some root ∧
        w.goal? c.paths.skillsDir = some g ∧
        isSafeName (packageName c w root name) = true ∧
        Swaps g.place (packageName c w root name) q := by
  refine ⟨install_eq h, ?_⟩
  rcases installation_cases hlocal h with ⟨e, rfl, rfl⟩ | ⟨hpath, hfrom⟩
  · refine ⟨?_, fun _ _ _ _ _ => rfl, by simp, fun q => .inl rfl⟩
    rintro (hdry | ⟨i, hi, -⟩) ⟨j, -, hcopied⟩
    · exact Bool.noConfusion (hdry.symm.trans hcopied.2.1)
    · cases hi
  by_cases hstarts : CopyStarts c target target name dryRun w
  swap
  · obtain ⟨hchanges, hnever⟩ := installFrom_kept hstarts hfrom
    refine ⟨fun _ => hstarts, fun _ g q hg hq => ?_,
      fun i hi hinstalled => absurd hinstalled (hnever i hi), fun q => ?_⟩
    · by_contra hne
      exact hapart.state q g (hchanges.only q hne) hg hq
    · by_cases hsame : w'.at? q = w.at? q
      · exact .inl hsame
      · exact .inr (.inl (hchanges.only q hsame))
  obtain ⟨j, hj, hcopied⟩ := hstarts
  have hcopy := installFrom_copied hj hcopied hfrom
  have hworld : w' = (copyPackage j.root j.place w).2 := by
    rcases hcopy with ⟨e, -, hcopy⟩ | ⟨hcopy, -⟩ <;> rw [hcopy]
  obtain ⟨hroot, hsafe, hplace, hname, hhash, -⟩ := judge_ok hj
  have hisName := isName_of_isSafeName hsafe
  have hstaged := isName_stagingName hsafe
  have hstaging := fun g hg => hapart.staging j.root g hroot hg
  refine ⟨?_, fun hno => absurd ⟨j, hj, hcopied⟩ hno, fun i hi _ => ?_, fun q => ?_⟩
  · rintro (hdry | ⟨i, hi, hverdict⟩)
    · exact Bool.noConfusion (hdry.symm.trans hcopied.2.1)
    · rcases hcopy with ⟨e, rfl, -⟩ | ⟨-, rfl⟩
      · cases hi
      · obtain rfl := Except.ok.inj hi
        exact absurd hcopied.1 hverdict
  · rcases hcopy with ⟨e, rfl, -⟩ | ⟨hcopy, rfl⟩
    · cases hi
    obtain rfl := Except.ok.inj hi
    rw [hplace] at hcopy
    obtain ⟨g, hg, hinstalled⟩ := copyPackage_ok hw hisName hstaged hstaging
      (Package.found_of_locate? hw hpath hroot) (fun rp n g => hapart.package j.root rp n g hroot)
      hcopy
    rw [← hname] at hinstalled
    refine ⟨j.root, g, hroot, hname, hhash, by rw [hplace, hname], hg, hinstalled, ?_,
      fun hnot hopen => ?_⟩
    · rw [hinstalled.listed, hhash, Fingerprint.ofPath]
    · rw [Fingerprint.ofPath, hinstalled.found hnot, List.filter_eq_self.mpr hopen, hhash,
        Fingerprint.ofPath]
  · rw [hworld, hplace]
    rcases copyPackage_frame hw hisName hstaged hstaging j.root q with hsame | hmade | ⟨g, hg, hswap⟩
    · exact .inl hsame
    · exact .inr (.inr (.inl hmade))
    · exact .inr (.inr (.inr ⟨j.root, g, hroot, hg, hsafe, hswap⟩))

end Installation

/-- An allowed package is copied, if it is not there already. -/
theorem Stall.installation {w : World} (h : Stall w) {up name : String}
    (hfind : w.find "p" = .ok (["p"], .dir))
    (hroot : Package.locate? w "p" Manifest.defaultName = some "p") (hsafe : isSafeName name = true)
    (hother : sameDir w (Path.join up name) "p" = false)
    (hnew : ¬ (w.isDir (Path.join up name) = true ∧
      (Fingerprint.ofPath w (Path.join up name)).hash = (Fingerprint.ofPath w "p").hash)) :
    ∃ d : Decision, d.name = name ∧ ∀ result w',
      copyPackage "p" (Path.join up name) w = (result, w') →
      Command.installation (shopContext up false) "p" (some name) false w =
        (result.map fun _ => ⟨d, .installed, some (Path.join up name), "p"⟩, w') := by
  obtain ⟨d, hjudge, hverdict⟩ := h.judge up false "p" hroot hsafe
  obtain ⟨-, -, -, hname, hhash, -⟩ := judge_ok hjudge
  have hplace : (judged (shopContext up false) w "p" "p" (some name) d).place =
      Path.join up name := by simp [judged, packageName, shopContext]
  have hcopied : (judged (shopContext up false) w "p" "p" (some name) d).IsCopied false w := by
    refine ⟨hverdict, rfl, hother, ?_⟩
    rw [hplace, hhash]
    exact hnew
  have hcandidate : candidate (shopContext up false) "p" w = (.ok ("p", "p"), w) := by
    rw [candidate, Act.bind_of_ok (x := get) rfl, if_pos (by simp [pathExists, hfind])]
    rfl
  refine ⟨d, hname, fun result w' hcopy => ?_⟩
  have hcarry := carryOut_copied (c := shopContext up false) hcopied
  have hsource : (judged (shopContext up false) w "p" "p" (some name) d).root = "p" := rfl
  rw [hplace, hsource] at hcarry
  rw [Command.installation, Act.bind_of_ok hcandidate]
  simp only [installFrom]
  rw [Act.bind_of_ok hjudge]
  cases result with
  | error e =>
    rw [Act.bind_of_error hcopy] at hcarry
    exact Act.bind_of_error hcarry
  | ok =>
    rw [Act.bind_of_ok hcopy] at hcarry
    exact Act.bind_of_ok hcarry

theorem ShopPath.installation {up : String} (h : ShopPath up)
    (hmissing : shop.find (Path.join up "p") = .error .notFound) :
    ∃ d : Decision, d.name = "p" ∧
      Command.installation (shopContext up false) "p" (some "p") false shop =
        (.ok ⟨d, .installed, some (Path.join up "p"), "p"⟩, installedShop) := by
  obtain ⟨d, hname, hrun⟩ := shop_stall.installation shop_find shop_hasPackage.locate?
    (by decide : isSafeName "p" = true) (by rw [sameDir, hmissing]) (by simp [isDir, hmissing])
  exact ⟨d, hname, hrun _ _ h.copied⟩

/-- The package is installed where a staging copy was left. -/
theorem install_copies_what_was_judged_shop :
    shop.IsTree ∧ shop.pathExists "p" = true ∧ Apart (shopContext "s" false) shop "p" (some "p") ∧
      ∃ i w', installation (shopContext "s" false) "p" (some "p") false shop = (.ok i, w') ∧
        i.action = .installed ∧ Listing.ofPlace w' ["s", "p"] = Listing.ofPath shop "p" ∧
        i.decision.hash = (Fingerprint.ofPath shop "p").hash := by
  have hw : shop.IsTree := by decide
  have hfree := shop_resolve shop true (Path.join "s" "p") "p"
    (by decide) rfl (by decide) rfl (.free ⟨by decide, by decide⟩ (by decide) rfl)
  have hmissing : shop.find (Path.join "s" "p") = .error .notFound := by
    simp only [World.find, hfree]
  obtain ⟨d, -, hrun⟩ := shopPath_plain.installation hmissing
  obtain ⟨-, -, -, hinstalled, -⟩ :=
    install_copies_what_was_judged hw (.inl shop_pathExists) (shop_apart false) hrun
  obtain ⟨root, g, hroot, hname, hhash, -, hg, hstands, -⟩ := hinstalled _ rfl rfl
  obtain rfl : "p" = root := Option.some.inj (shop_hasPackage.locate?.symm.trans hroot)
  have hlisted := hstands.listed
  rw [hname, shop_goal hg] at hlisted
  exact ⟨hw, shop_pathExists, shop_apart false, _, _, hrun, rfl, hlisted, hhash⟩

/-! The same directory, by a path that leads through the staging copy. -/

/-- A path through the staging copy, and the names that come after. -/
structure Roundabout (path : String) (rest : List String) : Prop where
  isPath : IsPath path
  relative : Path.isAbsolute path = false
  names : namesOf path = "s" :: ".p.staging" :: ".." :: rest
  trimmed : makeDir.trimSlashes path = path

namespace Roundabout
variable {path : String} {rest : List String} {v : World} {spot : Spot}

theorem start (h : Roundabout path rest) (v : World) : v.start path = v.cwd := by
  simp [World.start, h.relative]

theorem resolve (h : Roundabout path rest) (follow : Bool) (hcwd : v.cwd = [])
    (hdir : v.at? ["s"] = some .dir) (hstaging : v.at? ["s", ".p.staging"] = some .dir)
    (hrest : Leads v follow (endsInSlash path) linkLimit ["s"] rest [] spot) :
    v.resolve follow path = .ok spot := by
  have hleads : Leads v follow (endsInSlash path) linkLimit (v.start path) (namesOf path) [] spot := by
    rw [h.start, hcwd, h.names]
    exact .down ⟨by decide, by decide⟩ (by decide) hdir
      (.down ⟨by decide, by decide⟩ (by decide) hstaging (.up (by decide) (by decide) hrest))
  exact h.isPath.resolve hleads

/-- Where the staging copy is missing the path leads nowhere. -/
theorem resolve_missing (h : Roundabout path rest) (follow : Bool) (hcwd : v.cwd = [])
    (hdir : v.at? ["s"] = some .dir) (hstaging : v.at? ["s", ".p.staging"] = none) :
    v.resolve follow path = .error .notFound := by
  have hshort : ¬ 255 < "s".utf8ByteSize ∧ ¬ 255 < ".p.staging".utf8ByteSize := by decide
  rw [h.isPath.resolve_eq, h.start, hcwd, h.names]
  simp [walk, walk.isIdle, hdir, hstaging, hshort]

end Roundabout

theorem roundabout_dirs : Roundabout "s/.p.staging/.." [] :=
  ⟨by decide, by decide, by decide, by decide⟩

theorem roundabout_staging : Roundabout (Path.join "s/.p.staging/.." ".p.staging") [".p.staging"] :=
  ⟨by decide, by decide, by decide, by decide⟩

theorem roundabout_target : Roundabout (Path.join "s/.p.staging/.." "p") ["p"] :=
  ⟨by decide, by decide, by decide, by decide⟩

/-- The directories on the way are made again after the staging copy has been cleared away. -/
theorem roundabout_made : Act.makeDirs (Path.join "s/.p.staging/.." ".p.staging") clearedShop =
    (.ok (), clearedShop.put ["s", ".p.staging"] .dir) := by
  have hmissing : ∀ path rest, Roundabout path rest → clearedShop.makeDir path = .error .notFound := by
    intro path rest h
    rw [makeDir, h.trimmed, h.resolve_missing false rfl rfl rfl]
  have hstands : ∀ path rest p, Roundabout path rest →
      (∀ follow, Leads (clearedShop.put ["s", ".p.staging"] .dir) follow (endsInSlash path) linkLimit
        ["s"] rest [] (.taken p .dir)) →
      (clearedShop.put ["s", ".p.staging"] .dir).makeDir path = .error .exists ∧
        (clearedShop.put ["s", ".p.staging"] .dir).isDir path = true := by
    intro path rest p h hrest
    rw [makeDir, h.trimmed, h.resolve false rfl rfl rfl (hrest false), isDir, World.find,
      h.resolve true rfl rfl rfl (hrest true)]
    exact ⟨rfl, rfl⟩
  have hfirst : clearedShop.makeDir "s/.p.staging" =
      .ok (clearedShop.put ["s", ".p.staging"] .dir) := by
    have htrim : makeDir.trimSlashes "s/.p.staging" = "s/.p.staging" := by decide
    rw [makeDir, htrim, shop_resolve clearedShop false "s/.p.staging" ".p.staging"
      (by decide) rfl (by decide) rfl (.free ⟨by decide, by decide⟩ (by decide) rfl)]
    rfl
  obtain ⟨hup, hupDir⟩ := hstands _ _ ["s"] roundabout_dirs fun _ => .here
  obtain ⟨hlast, hlastDir⟩ := hstands _ _ ["s", ".p.staging"] roundabout_staging fun _ =>
    .down ⟨by decide, by decide⟩ (by decide) rfl .here
  have hnonempty : (Path.join "s/.p.staging/.." ".p.staging" == "") = false := by decide
  have hparents : Path.parent (Path.join "s/.p.staging/.." ".p.staging") = some "s/.p.staging/.." ∧
      Path.parent "s/.p.staging/.." = some "s/.p.staging" := by decide
  have hlength : (Path.join "s/.p.staging/.." ".p.staging").length + 1 = 24 + 3 := by decide
  have hmade : clearedShop.makeDirs (Path.join "s/.p.staging/.." ".p.staging") =
      (.ok (), clearedShop.put ["s", ".p.staging"] .dir) := by
    rw [World.makeDirs, hlength]
    simp [makeDirsWithin, hnonempty, hmissing _ _ roundabout_staging, hmissing _ _ roundabout_dirs,
      hparents, hfirst, hup, hupDir, hlast, hlastDir]
  rw [Act.makeDirs, hmade]

theorem shopPath_roundabout : ShopPath "s/.p.staging/.." where
  directory follow := by
    have htaken : shop.resolve follow "s/.p.staging/.." = .ok (.taken ["s"] .dir) :=
      roundabout_dirs.resolve follow rfl rfl rfl .here
    exact ⟨roundabout_dirs.trimmed.symm ▸ htaken, htaken⟩
  nonempty := by decide
  parents := by decide
  old follow := roundabout_staging.resolve follow rfl rfl rfl
    (.down ⟨by decide, by decide⟩ (by decide) rfl .here)
  made := roundabout_made
  file := by
    have hfile : Roundabout (Path.join (Path.join "s/.p.staging/.." ".p.staging") "SKILL.md")
        [".p.staging", "SKILL.md"] := ⟨by decide, by decide, by decide, by decide⟩
    exact hfile.resolve true rfl rfl rfl (.down ⟨by decide, by decide⟩ (by decide) rfl
      (.free ⟨by decide, by decide⟩ (by decide) rfl))
  staged := roundabout_staging.resolve false rfl rfl rfl
    (.down ⟨by decide, by decide⟩ (by decide) rfl .here)
  free follow := roundabout_target.resolve follow rfl rfl rfl
    (.free ⟨by decide, by decide⟩ (by decide) rfl)

/-- The package is installed, but the path to it led through the staging copy, which is gone. -/
theorem installed_out_of_reach :
    ∃ i w', installation (shopContext "s/.p.staging/.." false) "p" (some "p") false shop =
        (.ok i, w') ∧ i.action = .installed ∧
      i.place = some (Path.join "s/.p.staging/.." "p") ∧
      w'.find (Path.join "s/.p.staging/.." "p") = .error .notFound := by
  have hfree : shop.resolve true (Path.join "s/.p.staging/.." "p") = .ok (.free ["s", "p"]) :=
    roundabout_target.resolve true rfl rfl rfl (.free ⟨by decide, by decide⟩ (by decide) rfl)
  have hmissing : shop.find (Path.join "s/.p.staging/.." "p") = .error .notFound := by
    simp only [World.find, hfree]
  obtain ⟨d, -, hrun⟩ := shopPath_roundabout.installation hmissing
  refine ⟨_, _, hrun, rfl, rfl, ?_⟩
  rw [World.find, roundabout_target.resolve_missing true rfl rfl rfl]

/-- A package that is here, and whose review is recorded, is left for review. -/
theorem installation_recorded {c : Context} {target : String} {name : Option String} {dryRun : Bool}
    {w v : World} {j : Judged} (hlocal : w.pathExists target = true)
    (hjudge : judge c target target name w = (.ok j, w)) (hreview : j.decision.verdict = .review)
    (hsource : j.source = target)
    (hrecord : Pending.record c.paths.pending c.now j.decision j.root (some target) w = (.ok (), v)) :
    installation c target name dryRun w = (.ok ⟨j.decision, .pendingReview, none, target⟩, v) := by
  have hcarry : carryOut c j dryRun w = (.ok (.pendingReview, none), v) := by
    have hstate : Act.onState (Pending.record c.paths.pending c.now j.decision j.root
        (some target)) w = (.ok (), v) := by rw [Act.onState, hrecord]
    simp only [carryOut, hreview, hsource]
    exact Act.bind_of_ok hstate
  rw [installation, Act.bind_of_ok (candidate_local hlocal)]
  simp only [installFrom]
  rw [Act.bind_of_ok hjudge, Act.bind_of_ok hcarry]
  simp only [hsource]
  rfl

theorem shop_review : ∃ d bytes,
    judge (shopContext "s" true) "p" "p" (some "p") shop =
      (.ok (judged (shopContext "s" true) shop "p" "p" (some "p") d), shop) ∧
    d.verdict = .review ∧
    installation (shopContext "s" true) "p" (some "p") false shop =
      (.ok ⟨d, .pendingReview, none, "p"⟩, (shop.put ["pending.json.lock"] (.file .empty)).put
        ["pending.json"] (.file bytes)) := by
  obtain ⟨d, hjudge, hverdict⟩ :=
    shop_stall.judge "s" true "p" shop_hasPackage.locate? (by decide : isSafeName "p" = true)
  have hlocal : LocalPath "pending.json" "pending.json" := by decide
  have hlockLocal : LocalPath (Store.lockPath "pending.json") "pending.json.lock" := by decide
  have hlock : Store.lock "pending.json" shop =
      (.ok (), shop.put ["pending.json.lock"] (.file .empty)) :=
    Store.lock_local_free hlockLocal (by decide) rfl
  have hrecord : ∃ bytes, Pending.record "pending.json" .newYear d "p" (some "p") shop =
      (.ok (), (shop.put ["pending.json.lock"] (.file .empty)).put ["pending.json"]
        (.file bytes)) := by
    rw [Pending.record, Act.bind_of_ok hlock, Act.bind_of_ok (x := get) rfl]
    exact ⟨_, hlocal.write _ (.inl rfl) _⟩
  obtain ⟨bytes, hrecord⟩ := hrecord
  exact ⟨d, bytes, hjudge, hverdict,
    installation_recorded shop_pathExists hjudge hverdict rfl hrecord⟩

theorem review_leaves_lock :
    ∃ i w', installation (shopContext "s" true) "p" (some "p") false shop = (.ok i, w') ∧
      i.decision.verdict = .review ∧ shop.at? ["pending.json.lock"] = none ∧
      w'.at? ["pending.json.lock"] = some (.file .empty) := by
  obtain ⟨d, bytes, -, hverdict, hrun⟩ := shop_review
  refine ⟨_, _, hrun, hverdict, rfl, ?_⟩
  rw [at?_put_ne _ (by decide), at?_put_self _ (by decide)]

/-- Not only the named places change, and the place of an installed package may be out of reach of
its path. -/
theorem install_leaves_lock_and_place_out_of_reach :
    (∃ i w', installation (shopContext "s" true) "p" (some "p") false shop = (.ok i, w') ∧
      i.decision.verdict = .review ∧ shop.at? ["pending.json.lock"] = none ∧
      w'.at? ["pending.json.lock"] = some (.file .empty)) ∧
    ∃ i w', installation (shopContext "s/.p.staging/.." false) "p" (some "p") false shop =
        (.ok i, w') ∧ i.action = .installed ∧
      i.place = some (Path.join "s/.p.staging/.." "p") ∧
      w'.find (Path.join "s/.p.staging/.." "p") = .error .notFound :=
  ⟨review_leaves_lock, installed_out_of_reach⟩

end Command
end SkillAudit
