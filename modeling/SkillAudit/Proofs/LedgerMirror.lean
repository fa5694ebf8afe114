import Mathlib
import SkillAudit.Proofs.FailedInstall
import SkillAudit.Proofs.LedgerHandles
import SkillAudit.Proofs.ReviewLoop
import SkillAudit.Proofs.SiblingPaths

/-!
The table that stands beside a ledger by default. Its path is that of the store with the extension
`md`, so an entry that has been added is the last one that is read next. Only where the store itself
has that extension is the store overwritten by the table, and no entry is read again.
-/
namespace SkillAudit

/-- The end of a path is not one of the links that lead there. -/
def World.Simple (w : World) (path : String) : Prop :=
  ∀ r, w.route? path = some r → r.place ∉ r.links

theorem World.Simple.of_route {w v : World} {path : String} (h : w.Simple path)
    (hroute : v.route? path = w.route? path) : v.Simple path := by
  intro r hr
  exact h r (hroute ▸ hr)

theorem Config.resolvePaths_table {c : Config} {e : Environment} {paths : Paths}
    (h : c.resolvePaths e = .ok paths) (hunset : c.paths.ledgerMarkdown = none) :
    paths.ledgerMarkdown = some (Path.withExtension paths.ledger "md") := by
  simp only [resolvePaths, hunset, bind, Except.bind, pure, Except.pure] at h
  repeat' split at h
  all_goals cases h
  rfl

theorem Config.expandPath_plain {e : Environment} {raw : String} (hplain : '$' ∉ raw.toList)
    (htilde : raw.toList.head? ≠ some '~') : expandPath e raw = .ok raw := by
  have hexpand : ∀ cs : List Char, '$' ∉ cs → expandVariables e cs = .ok cs := by
    intro cs hcs
    induction cs with
    | nil => rw [expandVariables]
    | cons c cs ih =>
      simp only [List.mem_cons, not_or] at hcs
      rw [expandVariables, if_neg (by simpa using Ne.symm hcs.1), ih hcs.2]
  simp [expandPath, expand, hexpand _ hplain, htilde]

namespace Ledger

/-! What the store holds after an addition. -/

/-- The default table is beside the store, or it is the store. -/
theorem mirror_cases {w : World} {path name : String} {front : List String} {r : Route}
    (hpieces : Path.pieces path = front ++ [name]) (hname : World.IsStep name)
    (hr : w.route? path = some r) (hown : r.place ∉ r.links)
    (htable : w.Simple (Path.withExtension path "md")) :
    Path.same (Path.withExtension path "md") path = true ∧ Path.withExtension path "md" = path ∨
    Path.same (Path.withExtension path "md") path = false ∧
      ∃ t, w.route? (Path.withExtension path "md") = some t ∧ Beside r t := by
  obtain ⟨hfile, hfront⟩ := Path.fileName_of_pieces hpieces hname
  have hother : World.IsStep ((Path.splitExtension name).1 ++ "." ++ "md") :=
    Path.isStep_stem_append hname.nonempty (by decide)
  have hwritten : Path.pieces (Path.withExtension path "md") =
      front ++ [(Path.splitExtension name).1 ++ "." ++ "md"] := by
    rw [← hfront]
    exact Path.pieces_withExtension hfile (by decide) (by decide)
  have hsame : Path.same (Path.withExtension path "md") path = true ↔
      (Path.splitExtension name).1 ++ "." ++ "md" = name := by
    rw [Path.same_withExtension_iff (by decide) (by decide), Path.stem_append_eq_iff, hfile]
    simp
  by_cases heq : (Path.splitExtension name).1 ++ "." ++ "md" = name
  · refine .inl ⟨hsame.mpr heq, ?_⟩
    rw [← Path.intercalate_pieces (Path.withExtension path "md"), hwritten, heq, ← hpieces,
      Path.intercalate_pieces]
  · refine .inr ⟨Bool.eq_false_iff.mpr fun h => heq (hsame.mp h), ?_⟩
    obtain ⟨up, hplace, ht⟩ := World.route?_beside hpieces hname hwritten hother hr
    -- The links are the same, so neither place is among those of the other.
    refine ⟨_, ht, htable _ ht, ?_, htable _ ht, hown⟩
    rw [hplace]
    simpa using heq

/-- What is read at the store's path after an addition: the entries, of which the new one is the
last, or a table. It is no document of reviews. -/
structure Left (a : LedgerEntry) (lost : Bool) (text : String) : Prop where
  last : (Content.ofText text).entries.getLast? = if lost then none else some a
  noReviews : ((Json.parse? text).bind Pending.reviews?).getD [] = []

theorem left_document (es : List LedgerEntry) (a : LedgerEntry) :
    Left a false (Store.jsonText (documentJson (es ++ [a]))) where
  last := by simp [ofText_jsonText_documentJson, Content.current]
  noReviews := by
    rw [Json.parse?_jsonText (documentJson_plain _)]
    rfl

theorem left_table (es : List LedgerEntry) (a : LedgerEntry) : Left a true (markdown es) where
  last := by simp [ofText_markdown, Content.current]
  noReviews := by
    rw [parse?_markdown]
    rfl

/-- A ledger with the default table, after it has been written. -/
theorem writeFiles_left {l l' : Ledger} {w v : World} {es : List LedgerEntry} {a : LedgerEntry}
    (hmirror : l.tablePath = some (Path.withExtension l.path "md")) (hentries : l.entries = es ++ [a])
    (hstore : w.Simple l.path) (htable : w.Simple (Path.withExtension l.path "md"))
    (h : writeFiles (l, w) = (.ok (), (l', v))) :
    ∃ r text, v.Holds l.path r text.toUTF8 ∧
      Left a (Path.same (Path.withExtension l.path "md") l.path) text := by
  obtain ⟨-, x, hjson, hrest⟩ := writeFiles_ok_iff.mp h
  obtain ⟨r, hr⟩ := Store.route_of_write hjson
  have hown := hstore r hr
  have hheld := (Store.write_ok hjson hr hown).2
  obtain ⟨front, name, hpieces, hname⟩ := hheld.pieces
  rcases mirror_cases hpieces hname hr hown htable with ⟨hsame, hpath⟩ | ⟨hsame, t, ht, hbeside⟩
  · rw [hpath] at hmirror
    simp only [hmirror] at hrest
    obtain ⟨v', hshown, hs⟩ := hrest
    obtain ⟨-, rfl⟩ := Prod.mk.inj hs
    rw [hsame]
    exact ⟨r, _, (Store.write_ok hshown hheld.route hown).2, left_table _ a⟩
  · obtain ⟨-, -, hkept, -⟩ := writeFiles_holds h hr hown fun path hpath => by
      obtain rfl : Path.withExtension l.path "md" = path := Option.some.inj (hmirror.symm.trans hpath)
      exact ⟨t, ht, hbeside⟩
    rw [hentries] at hkept
    rw [hsame]
    exact ⟨r, _, hkept, left_document es a⟩

theorem add_left {l l' : Ledger} {w v : World} {now : Instant} {e a : LedgerEntry}
    (hmirror : l.tablePath = some (Path.withExtension l.path "md")) (hstore : w.Simple l.path)
    (htable : w.Simple (Path.withExtension l.path "md"))
    (h : add now e (l, w) = (.ok a, (l', v))) :
    ∃ r text, v.Holds l.path r text.toUTF8 ∧
      Left a (Path.same (Path.withExtension l.path "md") l.path) text := by
  obtain ⟨rfl, u, hlock, hwrite⟩ := add_ok_iff.mp h
  have hu := Store.route?_of_grows (Store.lock_grows hlock)
  exact writeFiles_left (l := l.extended u (stamped now e)) hmirror rfl (hstore.of_route (hu _))
    (htable.of_route (hu _)) hwrite

end Ledger

/-- Taking a review leaves a file alone that holds none. -/
theorem Pending.take_holds {w v : World} {path file n text : String} {r : Route}
    {taken : Option PendingReview} (h : take path n w = (.ok taken, v))
    (hheld : w.Holds file r text.toUTF8)
    (hnone : ((Json.parse? text).bind reviews?).getD [] = []) : v.Holds file r text.toUTF8 := by
  obtain ⟨_, u, hlock, hrest⟩ := Act.bind_ok h
  have hu : u.Holds file r text.toUTF8 :=
    hheld.evolves (Store.lock_grows hlock).evolves (by simp) (by simp)
  rw [Act.bind_of_ok (x := get) rfl] at hrest
  cases hget : (load u path).get? n with
  | none =>
    simp only [hget] at hrest
    obtain ⟨-, rfl⟩ := Act.pure_ok hrest
    exact hu
  | some review =>
    simp only [hget] at hrest
    obtain ⟨_, x, hwrite, hpure⟩ := Act.bind_ok hrest
    obtain ⟨-, rfl⟩ := Act.pure_ok hpure
    obtain ⟨s, hs⟩ := Store.route_of_write hwrite
    -- There is a review in the file of reviews, so it is not this file.
    obtain ⟨p, found, hfind, hother⟩ : ∃ p found, u.find path = .ok (p, .file found) ∧
        found ≠ text.toUTF8 := by
      cases hread : Store.read? u path with
      | none => simp [load, Store.readJson?, hread, Dict.get?] at hget
      | some found =>
        obtain ⟨p, bytes, hfind, htext⟩ := Store.read?_eq_some hread
        refine ⟨p, bytes, hfind, ?_⟩
        rintro rfl
        rw [Store.fromUTF8?_toUTF8] at htext
        obtain rfl := Option.some.inj htext
        rw [load, Store.readJson?, hread, Option.bind_some, hnone] at hget
        simp [Dict.get?] at hget
    obtain ⟨hway, hsame⟩ := hu.end_of_find hfind hs
    refine hu.evolves (Store.write_evolves hwrite hs) (fun hmem => ?_) fun q hq hmem => ?_
    · exact hother (hsame (List.mem_singleton.mp hmem).symm)
    · rw [List.mem_singleton.mp hmem] at hq
      exact hway hq

namespace Command
open World

/-- Finding or fetching a package makes and removes no link. -/
theorem candidate_links (c : Context) (target : String) (w : World) :
    SameLinks w (candidate c target w).2 := by
  rcases candidate_tree c target w with hsame | ⟨-, hfetched⟩
  · rw [hsame]
    exact .refl w
  · rw [hfetched]
    exact c.fetch_links target w

theorem Act.of_onLedger_ok {α : Type} {l l' : Ledger} {act : Ledger.Act α} {a : α} {w v : World}
    (h : Act.onLedger l act w = (.ok (a, l'), v)) : act (l, w) = (.ok a, l', v) := by
  unfold Act.onLedger at h
  split at h
  next hact =>
    cases h
    exact hact
  next => cases h

section Commands
variable {c : Context} {w v : World}

/-- An installation that ends in a block has added an entry, once the package was there. -/
theorem installation_blocked {target : String} {name : Option String} {dryRun : Bool}
    {i : Installation} (h : installation c target name dryRun w = (.ok i, v))
    (hblock : i.decision.verdict = .block) :
    ∃ u e l, SameLinks w u ∧
      Ledger.add c.now (Gate.entryOf i.decision .blocked .auto none (some i.source))
        (.load u c.paths.ledger c.paths.ledgerMarkdown, u) = (.ok e, (l, v)) := by
  obtain ⟨⟨path, source⟩, u, hfound, h⟩ := Act.bind_ok h
  have hlinks := candidate_links c target w
  rw [hfound] at hlinks
  obtain ⟨j, x, hj, h⟩ := Act.bind_ok h
  obtain ⟨⟨action, place⟩, y, hcarry, h⟩ := Act.bind_ok h
  obtain ⟨rfl, rfl⟩ := Act.pure_ok h
  have hverdict : j.decision.verdict = .block := hblock
  simp only [carryOut, hverdict] at hcarry
  obtain ⟨-, rfl⟩ := Act.pure_ok hcarry
  obtain ⟨e, l, hadd⟩ := judge_blocked hj hverdict
  have hsource : j.source = source := (judge_read hj).1
  exact ⟨u, e, l, hlinks, by rwa [hsource]⟩

theorem approve_ok {n : String} {purpose : Option String} {report : Report} {review : PendingReview}
    (h : approve c n purpose w = (.ok report, v))
    (hreview : Pending.get? w c.paths.pending n = some review) :
    ∃ u e l taken, Ledger.add c.now
        (Gate.entryOf review.decision .approved .human purpose review.source)
        (.load w c.paths.ledger c.paths.ledgerMarkdown, w) = (.ok e, (l, u)) ∧
      Pending.take c.paths.pending n u = (.ok taken, v) := by
  rw [approve, Act.bind_of_ok (x := get) rfl, hreview] at h
  rcases c.gate_cases w with ⟨e, he⟩ | ⟨gate, l, hgate, -, rfl⟩
  · simp only [Act.bind_of_error he] at h
    cases h
  simp only [Act.bind_of_ok hgate] at h
  obtain ⟨⟨e, l⟩, u, hledger, h⟩ := Act.bind_ok h
  obtain ⟨_, x, htake, h⟩ := Act.bind_ok h
  obtain ⟨-, rfl⟩ := Act.pure_ok h
  rw [Act.discard_eq, Act.onState] at htake
  cases htaken : Pending.take c.paths.pending n u with
  | mk result y =>
    rw [htaken] at htake
    cases result with
    | error => cases htake
    | ok taken =>
      cases htake
      exact ⟨u, e, l, taken, Act.of_onLedger_ok hledger, htaken⟩

end Commands

/-! Entries that are read again. -/

/-- What adds an entry to the ledger of the settings: an addition to a view of it, an installation
that is blocked, or an approval. -/
inductive Appends (c : Context) (a : LedgerEntry) (w v : World) : Prop
  | add {l l' : Ledger} {now : Instant} {e : LedgerEntry} (hpath : l.path = c.paths.ledger)
      (htable : l.tablePath = c.paths.ledgerMarkdown)
      (h : Ledger.add now e (l, w) = (.ok a, (l', v)))
  | install {target : String} {name : Option String} {dryRun : Bool} {i : Installation}
      (h : installation c target name dryRun w = (.ok i, v)) (hblock : i.decision.verdict = .block)
      (ha : a = Ledger.stamped c.now (Gate.entryOf i.decision .blocked .auto none (some i.source)))
  | approve {n : String} {purpose : Option String} {report : Report} {review : PendingReview}
      (hreview : Pending.get? w c.paths.pending n = some review)
      (h : Command.approve c n purpose w = (.ok report, v))
      (ha : a = Ledger.stamped c.now
        (Gate.entryOf review.decision .approved .human purpose review.source))

/-- What stands at the store's path after an entry has been added. -/
theorem Appends.left {c : Context} {a : LedgerEntry} {w v : World} (h : Appends c a w v)
    (hmirror : c.paths.ledgerMarkdown = some (Path.withExtension c.paths.ledger "md"))
    (hstore : w.Simple c.paths.ledger)
    (htable : w.Simple (Path.withExtension c.paths.ledger "md")) :
    ∃ r text, v.Holds c.paths.ledger r text.toUTF8 ∧
      Ledger.Left a (Path.same (Path.withExtension c.paths.ledger "md") c.paths.ledger) text := by
  cases h with
  | @add l l' now e hpath htablePath hadd =>
    rw [← hpath] at hmirror hstore htable ⊢
    exact Ledger.add_left (htablePath.trans hmirror) hstore htable hadd
  | install hinstall hblock ha =>
    obtain ⟨u, e, l, hlinks, hadd⟩ := installation_blocked hinstall hblock
    obtain rfl : e = a := (Ledger.add_ok_iff.mp hadd).1.trans ha.symm
    exact Ledger.add_left (l := .load u c.paths.ledger c.paths.ledgerMarkdown) hmirror
      (hstore.of_route (hlinks.route? _)) (htable.of_route (hlinks.route? _)) hadd
  | approve hreview happrove ha =>
    obtain ⟨u, e, l, taken, hadd, htake⟩ := approve_ok happrove hreview
    obtain rfl : e = a := (Ledger.add_ok_iff.mp hadd).1.trans ha.symm
    obtain ⟨r, text, hheld, hleft⟩ := Ledger.add_left
      (l := .load w c.paths.ledger c.paths.ledgerMarkdown) hmirror hstore htable hadd
    exact ⟨r, text, Pending.take_holds htake hheld hleft.noReviews, hleft⟩

/-- Unless it is set, the table has the path of the store with the extension `md`. That is another
path exactly where the store has a name with another extension, or with none. An entry that has been
added is then the last one that is read next; otherwise none is read at all. -/
theorem appended_entry_read_next {c : Context} {e : Environment}
    (hpaths : c.config.resolvePaths e = .ok c.paths)
    (hunset : c.config.paths.ledgerMarkdown = none) :
    ∃ mirror, c.paths.ledgerMarkdown = some mirror ∧
      (Path.same mirror c.paths.ledger = false ↔
        ∃ name, Path.fileName c.paths.ledger = some name ∧
          (Path.splitExtension name).2 ≠ some "md") ∧
      ∀ a w v, w.Simple c.paths.ledger → w.Simple mirror → Appends c a w v →
        (Ledger.load v c.paths.ledger c.paths.ledgerMarkdown).entries.getLast? =
          if Path.same mirror c.paths.ledger then none else some a := by
  have hmirror := Config.resolvePaths_table hpaths hunset
  refine ⟨_, hmirror, ?_, fun a w v hstore htable happends => ?_⟩
  · rw [← Bool.not_eq_true, Path.same_withExtension_iff (by decide) (by decide)]
    simp
  · obtain ⟨r, text, hheld, hleft⟩ := happends.left hmirror hstore htable
    rw [Ledger.entries, Ledger.load, Ledger.load_eq, Store.read?_of_holds hheld]
    exact hleft.last

/-! A ledger in the current directory. -/

/-- Settings that give the path of the ledger, for a user with a home directory. -/
def homeContext (ledger : String) : Context where
  config := { paths := { ledger := some ledger } }
  paths := ⟨"/home/.local/share/skillgate/skills", ledger, some (Path.withExtension ledger "md"),
    "/home/.local/share/skillgate/watch-state.json", "/home/.local/share/skillgate/pending.json", none⟩
  format := .compact
  screen := ⟨false⟩
  now := .newYear
  input := ""
  send := fun _ => .error (.http "")
  scratch := ""

theorem homeContext_paths {ledger : String} (hplain : '$' ∉ ledger.toList)
    (htilde : ledger.toList.head? ≠ some '~') :
    (homeContext ledger).config.resolvePaths ⟨[("HOME", "/home")]⟩ =
      .ok (homeContext ledger).paths := by
  simp only [homeContext, Config.resolvePaths, Config.resolve,
    Config.expandPath_plain hplain htilde]
  rfl

theorem add_empty {ledger : String} (hstore : LocalPath ledger ledger)
    (hlock : LocalPath (Store.lockPath ledger) (Store.lockPath ledger))
    (htable : LocalPath (Path.withExtension ledger "md") (Path.withExtension ledger "md"))
    (hparent : Path.parent (Store.lockPath ledger) = some "") (now : Instant) (e : LedgerEntry) :
    ∃ l v, Ledger.add now e (.load .empty ledger (some (Path.withExtension ledger "md")), .empty) =
      (.ok (Ledger.stamped now e), (l, v)) := by
  have hlocal : Ledger.Local (.load .empty ledger (some (Path.withExtension ledger "md"))) .empty
      [ledger, Store.lockPath ledger, Path.withExtension ledger "md"] :=
    { store := ⟨ledger, by simp, hstore⟩
      lock := ⟨Store.lockPath ledger, by simp, hlock⟩
      table := by
        rintro path hpath
        obtain rfl : Path.withExtension ledger "md" = path := Option.some.inj hpath
        exact ⟨_, by simp, htable⟩
      parent := hparent
      free := fun name _ => .inl rfl }
  have hcurrent : (Ledger.Content.load .empty ledger).newerSchema = none := by
    rw [Ledger.load_of_missing (hstore.missing .empty rfl)]
    rfl
  obtain ⟨⟨l, v⟩, hadd, -⟩ := hlocal.add hcurrent now e
  exact ⟨l, v, hadd⟩

/-- A ledger in `ledger.json`, with its table in `ledger.md`. -/
theorem appended_entry_read_next_home :
    ∃ v, Appends (homeContext "ledger.json") (Ledger.stamped .newYear (Ledger.approvalOf "p"))
        .empty v ∧
      (Ledger.load v "ledger.json" (some "ledger.md")).entries.getLast? =
        some (Ledger.stamped .newYear (Ledger.approvalOf "p")) := by
  obtain ⟨mirror, hmirror, -, hread⟩ := appended_entry_read_next (c := homeContext "ledger.json")
    (homeContext_paths (by decide) (by decide)) rfl
  have hpath : Path.withExtension "ledger.json" "md" = "ledger.md" := by decide
  obtain rfl : mirror = "ledger.md" := (Option.some.inj hmirror).symm.trans hpath
  have hstore : LocalPath "ledger.json" "ledger.json" := by decide
  have htable : LocalPath "ledger.md" "ledger.md" := by decide
  obtain ⟨l, v, hadd⟩ := add_empty hstore (by decide) (by rwa [hpath]) (by decide) .newYear
    (Ledger.approvalOf "p")
  have happends : Appends (homeContext "ledger.json")
      (Ledger.stamped .newYear (Ledger.approvalOf "p")) World.empty v := .add rfl rfl hadd
  refine ⟨v, happends, ?_⟩
  have hsimple : ∀ {path name : String}, LocalPath path name → World.empty.Simple path := by
    intro path name hlocal r hr
    rw [hlocal.route] at hr
    simp [← Option.some.inj hr]
  exact hread _ _ _ (hsimple hstore) (hsimple htable) happends

theorem entry_lost_under_table : ∃ c paths l v,
    Config.parse "[paths]\nledger = \"ledger.md\"\n" = .ok c ∧ c.paths.ledgerMarkdown = none ∧
    c.resolvePaths ⟨[("HOME", "/home")]⟩ = .ok paths ∧ paths.ledgerMarkdown = some paths.ledger ∧
    Ledger.add .newYear (Ledger.approvalOf "p")
      (.load .empty paths.ledger paths.ledgerMarkdown, .empty) =
        (.ok (Ledger.stamped .newYear (Ledger.approvalOf "p")), (l, v)) ∧
    (Ledger.load v paths.ledger paths.ledgerMarkdown).entries = [] := by
  have hparse : Toml.parse "[paths]\nledger = \"ledger.md\"\n" =
      .ok (.table [("paths", .table [("ledger", .string "ledger.md")])]) := by cbv
  have hpath : Path.withExtension "ledger.md" "md" = "ledger.md" := by decide
  have hstore : LocalPath "ledger.md" "ledger.md" := by decide
  obtain ⟨l, v, hadd⟩ := add_empty hstore (by decide) (by rwa [hpath]) (by decide) .newYear
    (Ledger.approvalOf "p")
  refine ⟨(homeContext "ledger.md").config, (homeContext "ledger.md").paths, l, v, ?_, rfl,
    homeContext_paths (by decide) (by decide), congrArg some hpath, hadd, ?_⟩
  · rw [Config.parse, hparse]
    rfl
  · have hlost : Ledger.Content.load v "ledger.md" = .current [] :=
      Ledger.add_shared hstore (congrArg some hpath) hstore hadd
    exact congrArg Ledger.Content.entries hlost

end Command
end SkillAudit
