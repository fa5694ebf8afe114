import Mathlib
import SkillAudit.Proofs.LedgerFaults
import SkillAudit.Proofs.StandingFile

/-!
Sessions of calls on views of one ledger, whatever each call replies. A view may be saved, which
writes what it shows without reading the store again: what others have written since is lost, and so
is a store that a newer version has written since. Views that have read the store lose neither.
-/
namespace SkillAudit

theorem Act.map_eq {σ ε α β : Type} (f : α → β) (x : ExceptT ε (StateM σ) α) (s : σ) :
    (f <$> x) s = ((x s).1.map f, (x s).2) := by
  rcases hx : x s with ⟨e | a, t⟩
  · exact Act.bind_of_error (f := fun a => pure (f a)) hx
  · exact Act.bind_of_ok (f := fun a => pure (f a)) hx

namespace Ledger.Session

inductive Op where
  | reload
  | add (now : Instant) (e : LedgerEntry)
  | revoke (now : Instant) (name : String)
  | save

/-- A call: a view is taken, or an operation is made on the view of an index. -/
inductive Call where
  | load (table : Option String)
  | on (view : Nat) (op : Op)

inductive Answer where
  | view (index : Nat)
  | done
  | entry (e : LedgerEntry)
  | found (b : Bool)

abbrev Reply := Except AuditError Answer

def Op.run : Op → Ledger.Act Answer
  | .reload => (fun _ => .done) <$> Ledger.reload
  | .add now e => .entry <$> Ledger.add now e
  | .revoke now name => .found <$> Ledger.revoke now name
  | .save => (fun _ => .done) <$> Ledger.save

/-- A call, with its reply. -/
inductive Step (store : String) : Views → Call → Reply → Views → Prop
  | load {v : Views} {table : Option String} :
      Step store v (.load table) (.ok (.view v.views.length))
        ⟨v.views ++ [Ledger.load v.world store table], v.world⟩
  | on {v : Views} {i : Nat} {op : Op} {l l' : Ledger} {r : Reply} {w : World}
      (hl : v.views[i]? = some l) (hrun : op.run (l, v.world) = (r, (l', w))) :
      Step store v (.on i op) r ⟨v.views.set i l', w⟩

/-- Calls with their replies, in any order. -/
inductive Run (store : String) (start : Views) : List (Call × Reply) → Views → Prop
  | nil : Run store start [] start
  | snoc {trace : List (Call × Reply)} {v v' : Views} {c : Call} {r : Reply}
      (h : Run store start trace v) (hstep : Step store v c r v') :
      Run store start (trace ++ [(c, r)]) v'

def Looks (i : Nat) : Call × Reply → Prop
  | (.load _, .ok (.view j)) => j = i
  | (.on j op, _) => j = i ∧ op ≠ .save
  | _ => False

/-- The call may change the store behind a view. -/
def Disturbs (i : Nat) : Call × Reply → Prop
  | (.on j op, _) => j ≠ i ∧ op ≠ .reload
  | _ => False

/-- A view has read the store, and no other view has since added, revoked or saved. -/
def Fresh (i : Nat) (trace : List (Call × Reply)) : Prop :=
  trace.foldl (fun fresh x => (Looks i x ∧ x.2.isOk = true) ∨ (fresh ∧ ¬ Disturbs i x)) False

theorem fresh_snoc {i : Nat} {trace : List (Call × Reply)} {x : Call × Reply} :
    Fresh i (trace ++ [x]) ↔
      (Looks i x ∧ x.2.isOk = true) ∨ (Fresh i trace ∧ ¬ Disturbs i x) := by
  unfold Fresh
  rw [List.foldl_append]
  rfl

/-! The files of a session. -/

/-- The routes of a store and of the tables that its views show: no file is in the way of another. -/
structure Laid (w : World) (store : String) (tables : List String) (r : Route)
    (t : String → Route) : Prop where
  store : w.route? store = some r
  own : r.place ∉ r.links
  table : ∀ path ∈ tables, w.route? path = some (t path)
  beside : ∀ path ∈ tables, Beside r (t path)
  apart : ∀ path ∈ tables, ∀ other ∈ tables, (t other).place ∉ (t path).links

def Sites (w : World) (store : String) (tables : List String) : Prop :=
  ∃ r t, Laid w store tables r t ∧ Store.Steady w store

section Sites
variable {w w' : World} {store : String} {tables : List String} {r : Route} {t : String → Route}

theorem Laid.evolves {p : Place} (h : Laid w store tables r t) (hw : w.Evolves [p] w')
    (hp : p = r.place ∨ ∃ path ∈ tables, p = (t path).place) : Laid w' store tables r t := by
  have hstore : p ∉ r.links := by
    rcases hp with rfl | ⟨path, hpath, rfl⟩
    · exact h.own
    · exact (h.beside path hpath).store
  have htable : ∀ path ∈ tables, p ∉ (t path).links := by
    intro path hpath
    rcases hp with rfl | ⟨other, hother, rfl⟩
    · exact (h.beside path hpath).table
    · exact h.apart path hpath other hother
  have hroute : ∀ {path : String} {s : Route}, w.route? path = some s → p ∉ s.links →
      w'.route? path = some s := by
    intro path s hs hlinks
    refine hw.route hs fun q hq heq => ?_
    rw [List.mem_singleton.mp heq] at hq
    exact hlinks hq
  exact ⟨hroute h.store hstore, h.own,
    fun path hpath => hroute (h.table path hpath) (htable path hpath), h.beside, h.apart⟩

theorem Sites.grows (h : Sites w store tables) (hw : w.Grows w') : Sites w' store tables := by
  obtain ⟨r, t, hlaid, hsteady⟩ := h
  have hroute : ∀ {path : String} {s : Route}, w.route? path = some s →
      w'.route? path = some s := fun hs => hw.evolves.route hs (by simp)
  exact ⟨r, t, ⟨hroute hlaid.store, hlaid.own, fun path hpath => hroute (hlaid.table path hpath),
    hlaid.beside, hlaid.apart⟩, hsteady.grows hw⟩

theorem Sites.site {table : Option String} (h : Sites w store tables)
    (htable : ∀ path ∈ table, path ∈ tables) : Site w store table := by
  obtain ⟨r, t, hlaid, hsteady⟩ := h
  exact ⟨r, hlaid.store, hlaid.own, hsteady, fun path hpath =>
    ⟨t path, hlaid.table path (htable path hpath), hlaid.beside path (htable path hpath)⟩⟩

theorem Sites.load_grows (h : Sites w store tables) (hw : w.Grows w') :
    Content.load w' store = Content.load w store := by
  have hsite : Site w store none := h.site (by simp)
  exact hsite.load_grows hw

end Sites

/-! What an operation does to the store. -/

/-- The store is as it was, or it holds what the view shows. -/
def Puts (tables : List String) (w : World) (l : Ledger) (w' : World) : Prop :=
  w.Grows w' ∨ (Sites w' l.path tables ∧ l.content.newerSchema = none ∧
    Content.load w' l.path = .current l.entries)

/-- The entries that the store holds are among those that the view shows, in their places. -/
def Shows (w : World) (l : Ledger) : Prop :=
  l.content.newerSchema = none → Keeps (Content.load w l.path).entries l.entries

section Op
variable {l l' : Ledger} {w v w' : World} {tables : List String}

theorem Puts.after (h : Puts tables v l w') (hv : w.Grows v) : Puts tables w l w' :=
  h.imp_left hv.trans

theorem Puts.sites (h : Puts tables w l w') (hsites : Sites w l.path tables) :
    Sites w' l.path tables := by
  rcases h with hgrows | ⟨hsites', -, -⟩
  · exact hsites.grows hgrows
  · exact hsites'

/-- What is written of a view that shows the store keeps the entries of the store. -/
theorem Puts.keeps (h : Puts tables w l w') (hsites : Sites w l.path tables) (hshows : Shows w l) :
    Keeps (Content.load w l.path).entries (Content.load w' l.path).entries := by
  rcases h with hgrows | ⟨-, hnewer, hload⟩
  · rw [hsites.load_grows hgrows]
    exact .refl _
  · rw [hload]
    exact hshows hnewer

theorem Puts.shows (h : Puts tables w l w') (hsites : Sites w l.path tables) (hshows : Shows w l) :
    Shows w' l := by
  intro hnewer
  rcases h with hgrows | ⟨-, -, hload⟩
  · rw [hsites.load_grows hgrows]
    exact hshows hnewer
  · rw [hload]
    exact .refl _

theorem Writing.puts {r : Except AuditError Unit} (h : Writing l w r w')
    (hsites : Sites w l.path tables) (htable : ∀ path ∈ l.tablePath, path ∈ tables) :
    Puts tables w l w' := by
  have hwritten : ∀ {v}, Store.writeJson l.path (documentJson l.entries) w = (.ok (), v) →
      ∃ r t, Laid v l.path tables r t ∧
        v.Holds l.path r (Store.jsonText (documentJson l.entries)).toUTF8 := by
    intro v hstore
    obtain ⟨r, t, hlaid, -⟩ := hsites
    obtain ⟨hevolves, hholds⟩ := Store.write_ok hstore hlaid.store hlaid.own
    exact ⟨r, t, hlaid.evolves hevolves (.inl rfl), hholds⟩
  cases h with
  | refused => exact .inl (.refl w)
  | unstored _ hstore => exact .inl (Store.grows_of_write_error hstore)
  | stored hnewer hstore =>
    obtain ⟨r, t, hlaid, hholds⟩ := hwritten hstore
    exact .inr ⟨⟨r, t, hlaid, .inl ⟨_, hholds.find⟩⟩, hnewer, load_of_holds hholds⟩
  | unshown hnewer hstore _ hshow =>
    obtain ⟨r, t, hlaid, hholds⟩ := hwritten hstore
    have hgrows := Store.grows_of_write_error hshow
    have hsites' : Sites _ l.path tables := ⟨r, t, hlaid, .inl ⟨_, hholds.find⟩⟩
    exact .inr ⟨hsites'.grows hgrows, hnewer,
      (hsites'.load_grows hgrows).trans (load_of_holds hholds)⟩
  | shown hnewer hstore hpath hshow =>
    obtain ⟨r, t, hlaid, hholds⟩ := hwritten hstore
    have hin := htable _ hpath
    have hbeside := hlaid.beside _ hin
    obtain ⟨hevolves, -⟩ := Store.write_ok hshow (hlaid.table _ hin) hbeside.own
    have hholds' := hholds.evolves hevolves (by simpa using hbeside.ends.symm) fun q hq heq => by
      rw [List.mem_singleton.mp heq] at hq
      exact hbeside.store hq
    exact .inr ⟨⟨r, t, hlaid.evolves hevolves (.inr ⟨_, hin, rfl⟩), .inl ⟨_, hholds'.find⟩⟩, hnewer,
      load_of_holds hholds'⟩

theorem Edits.effect {α : Type} {edit : List LedgerEntry → Option (List LedgerEntry)}
    {answer : Bool → α} {r : Except AuditError α} (h : Edits edit answer l w r l' w')
    (hkeeps : ∀ {es es'}, edit es = some es' → Keeps es es') (hsites : Sites w l.path tables)
    (htable : ∀ path ∈ l.tablePath, path ∈ tables) :
    l'.path = l.path ∧ l'.tablePath = l.tablePath ∧ Puts tables w l' w' ∧
      ((l' = l ∧ w.Grows w' ∧ r.isOk = false) ∨ Shows w l') := by
  cases h with
  | shut hlock =>
    have hgrows := Store.lock_grows_always l.path w
    rw [hlock] at hgrows
    exact ⟨rfl, rfl, .inl hgrows, .inl ⟨rfl, hgrows, rfl⟩⟩
  | idle hlock =>
    have hv := Store.lock_grows hlock
    refine ⟨rfl, rfl, .inl hv, .inr fun _ => ?_⟩
    show Keeps (Content.load w l.path).entries _
    rw [← hsites.load_grows hv]
    exact .refl _
  | made hlock hedit hwrite | failed hlock hedit hwrite =>
    have hv := Store.lock_grows hlock
    refine ⟨rfl, rfl, (Writing.puts hwrite (hsites.grows hv) htable).after hv, .inr fun _ => ?_⟩
    show Keeps (Content.load w l.path).entries _
    rw [← hsites.load_grows hv]
    exact hkeeps hedit

theorem isOk_map {ε α β : Type} (f : α → β) (r : Except ε α) : (r.map f).isOk = r.isOk := by
  cases r <;> rfl

/-- What an operation does to the store and to its view. One that is saved has to show what the
store holds. -/
theorem Op.effect {op : Op} {r : Reply} (h : op.run (l, w) = (r, (l', w')))
    (hsites : Sites w l.path tables) (htable : ∀ path ∈ l.tablePath, path ∈ tables)
    (hsave : op = .save → Shows w l) :
    l'.path = l.path ∧ l'.tablePath = l.tablePath ∧ Puts tables w l' w' ∧
      ((l' = l ∧ w.Grows w' ∧ r.isOk = false) ∨ Shows w l') := by
  cases op with
  | reload =>
    cases h
    exact ⟨rfl, rfl, .inl (.refl w), .inr fun _ => .refl _⟩
  | add now e =>
    rcases hadd : Ledger.add now e (l, w) with ⟨r', s⟩
    rw [Op.run, Act.map_eq, hadd] at h
    cases h
    rw [add_eq_edited] at hadd
    rw [isOk_map]
    exact Edits.effect (edited_cases hadd)
      (fun hedit => Option.some.inj hedit ▸ keeps_append _ _) hsites htable
  | revoke now name =>
    rcases hrevoke : Ledger.revoke now name (l, w) with ⟨r', s⟩
    rw [Op.run, Act.map_eq, hrevoke] at h
    cases h
    rw [revoke_eq_edited] at hrevoke
    rw [isOk_map]
    exact Edits.effect (edited_cases hrevoke) (fun hedit => (revokeLast_some hedit).keeps) hsites
      htable
  | save =>
    rcases hsaved : Ledger.save (l, w) with ⟨r', s⟩
    rw [Op.run, Act.map_eq, hsaved] at h
    cases h
    obtain ⟨rfl, hsaves⟩ := save_cases hsaved
    refine ⟨rfl, rfl, ?_, .inr (hsave rfl)⟩
    cases hsaves with
    | shut hlock =>
      have hgrows := Store.lock_grows_always l'.path w
      rw [hlock] at hgrows
      exact .inl hgrows
    | written hlock hwrite =>
      have hv := Store.lock_grows hlock
      exact (Writing.puts hwrite (hsites.grows hv) htable).after hv

end Op

/-! What a session keeps. -/

/-- An entry is there; one that approved may be there revoked. -/
def Kept (e : LedgerEntry) (es : List LedgerEntry) : Prop :=
  e ∈ es ∨ (e.status = .approved ∧ ∃ now, e.revoked now ∈ es)

theorem Kept.keeps {e : LedgerEntry} {es es' : List LedgerEntry} (h : Kept e es)
    (hkeeps : Keeps es es') : Kept e es' := by
  rcases h with hmem | ⟨hstatus, now, hmem⟩
  · obtain ⟨i, hi⟩ := List.getElem?_of_mem hmem
    rcases hkeeps i e hi with hsame | ⟨hstatus, now, hrevoked⟩
    · exact .inl (List.mem_of_getElem? hsame)
    · exact .inr ⟨hstatus, now, List.mem_of_getElem? hrevoked⟩
  · obtain ⟨i, hi⟩ := List.getElem?_of_mem hmem
    rcases hkeeps i _ hi with hsame | ⟨hrevoked, -⟩
    · exact .inr ⟨hstatus, now, List.mem_of_getElem? hsame⟩
    · cases hrevoked

/-- What holds after the calls in a trace, made on a store of the entries `es`, if no view was saved
that was not fresh. -/
structure Safe (store : String) (tables : List String) (es : List LedgerEntry)
    (trace : List (Call × Reply)) (v : Views) : Prop where
  sites : Sites v.world store tables
  views : ∀ l ∈ v.views, l.path = store ∧ ∀ path ∈ l.tablePath, path ∈ tables
  keeps : Keeps es (Content.load v.world store).entries
  added : ∀ i now e a, (Call.on i (.add now e), .ok (.entry a)) ∈ trace →
    a = stamped now e ∧ Kept a (Content.load v.world store).entries
  fresh : ∀ i l, v.views[i]? = some l → Fresh i trace → Shows v.world l

section Step
variable {store : String} {tables : List String} {es : List LedgerEntry}
  {trace : List (Call × Reply)} {v v' : Views}

theorem Safe.load (h : Safe store tables es trace v) {table : Option String}
    (htable : ∀ path ∈ table, path ∈ tables) :
    Safe store tables es (trace ++ [(.load table, .ok (.view v.views.length))])
      ⟨v.views ++ [Ledger.load v.world store table], v.world⟩ where
  sites := h.sites
  views := by
    intro l hl
    rcases List.mem_append.mp hl with hl | hl
    · exact h.views l hl
    · rw [List.mem_singleton.mp hl]
      exact ⟨rfl, htable⟩
  keeps := h.keeps
  added := by
    intro i now e a hmem
    exact h.added i now e a (by simpa using hmem)
  fresh := by
    intro i l hl hfresh
    rcases Nat.lt_or_ge i v.views.length with hi | hi
    · rw [List.getElem?_append_left hi] at hl
      rcases fresh_snoc.mp hfresh with ⟨hlooks, -⟩ | ⟨hfresh, -⟩
      · exact absurd hlooks hi.ne'
      · exact h.fresh i l hl hfresh
    · -- The view has just been taken.
      obtain ⟨-, rfl⟩ : _ ∧ Ledger.load v.world store table = l := by
        simpa [List.getElem?_append_right hi, List.getElem?_singleton] using hl
      exact fun _ => .refl _

theorem Safe.stored (h : Safe store tables es trace v) {i : Nat} {l l' : Ledger} {w : World}
    {now : Instant} {e a : LedgerEntry} (hl : v.views[i]? = some l)
    (hrun : (Op.add now e).run (l, v.world) = (.ok (.entry a), (l', w))) :
    a = stamped now e ∧ a ∈ (Content.load w store).entries := by
  obtain ⟨hpath, htable⟩ := h.views l (List.mem_of_getElem? hl)
  rcases hadd : Ledger.add now e (l, v.world) with ⟨r | b, l₁, w₁⟩
  · rw [Op.run, Act.map_eq, hadd] at hrun
    cases hrun
  · rw [Op.run, Act.map_eq, hadd] at hrun
    cases hrun
    subst hpath
    obtain ⟨ha, -, -, hsaved⟩ := add_ok hadd (h.sites.site htable)
    exact ⟨ha, by simp [hsaved.stored, Content.current]⟩

theorem Safe.on (h : Safe store tables es trace v) {i : Nat} {op : Op} {l l' : Ledger} {r : Reply}
    {w : World} (hl : v.views[i]? = some l) (hrun : op.run (l, v.world) = (r, (l', w)))
    (hsave : op = .save → Fresh i trace) :
    Safe store tables es (trace ++ [(.on i op, r)]) ⟨v.views.set i l', w⟩ := by
  obtain ⟨hstore, htable⟩ := h.views l (List.mem_of_getElem? hl)
  subst hstore
  obtain ⟨hpath, htablePath, hputs, hview⟩ :=
    Op.effect hrun h.sites htable fun heq => h.fresh i l hl (hsave heq)
  have hsites : Sites v.world l'.path tables := by
    rw [hpath]
    exact h.sites
  have hkeeps : Keeps (Content.load v.world l.path).entries (Content.load w l.path).entries := by
    rcases hview with ⟨rfl, hgrows, -⟩ | hshows
    · rw [h.sites.load_grows hgrows]
      exact .refl _
    · rw [← hpath]
      exact hputs.keeps hsites hshows
  refine ⟨hpath ▸ hputs.sites hsites, ?_, h.keeps.trans hkeeps, ?_, ?_⟩
  · intro m hm
    rcases List.mem_or_eq_of_mem_set hm with hm | rfl
    · exact h.views m hm
    · rw [hpath, htablePath]
      exact ⟨rfl, htable⟩
  · intro j now e a hmem
    rcases List.mem_append.mp hmem with hmem | hmem
    · obtain ⟨ha, hkept⟩ := h.added j now e a hmem
      exact ⟨ha, hkept.keeps hkeeps⟩
    · obtain ⟨⟨rfl, rfl⟩, rfl⟩ := by simpa using hmem
      obtain ⟨ha, hin⟩ := h.stored hl hrun
      exact ⟨ha, .inl hin⟩
  · intro j m hm hfresh
    by_cases hij : i = j
    · subst hij
      have hlen : i < v.views.length := (List.getElem?_eq_some_iff.mp hl).1
      obtain rfl : l' = m := by simpa [hlen] using hm
      refine hputs.shows hsites ?_
      rcases hview with ⟨rfl, -, hfailed⟩ | hshows
      · -- The lock could not be taken, so the view shows what it showed.
        rcases fresh_snoc.mp hfresh with ⟨-, hok⟩ | ⟨hfresh, -⟩
        · simp [hfailed] at hok
        · exact h.fresh i l' hl hfresh
      · exact hshows
    · -- Another view has read the store again, so nothing has been written.
      rw [List.getElem?_set_ne hij] at hm
      rcases fresh_snoc.mp hfresh with ⟨⟨heq, -⟩, -⟩ | ⟨hbefore, hquiet⟩
      · exact absurd heq hij
      · obtain rfl : op = .reload := by
          by_contra hop
          exact hquiet ⟨hij, hop⟩
        cases hrun
        exact h.fresh j m hm hbefore

end Step

/-- Whatever views are taken of a store and whatever is called on them, an entry that has been added
stays in the store, if a view is saved only when no other has added, revoked or saved since it read
the store. -/
theorem added_entries_kept {store : String} {tables : List String} {w : World} {v : Views}
    {trace : List (Call × Reply)} (hsites : Sites w store tables)
    (hrun : Run store ⟨[], w⟩ trace v)
    (htables : ∀ path r, (Call.load (some path), r) ∈ trace → path ∈ tables)
    (hfresh : ∀ before i r, before ++ [(.on i .save, r)] <+: trace → Fresh i before) :
    Keeps (Content.load w store).entries (Content.load v.world store).entries ∧
      ∀ i now e a, (.on i (.add now e), .ok (.entry a)) ∈ trace →
        a = stamped now e ∧ Kept a (Content.load v.world store).entries := by
  have hsafe : Safe store tables (Content.load w store).entries trace v := by
    induction hrun with
    | nil => exact ⟨hsites, by simp, .refl _, by simp, by simp⟩
    | snoc h hstep ih =>
      have hsafe := ih (fun path r hmem => htables path r (by simp [hmem]))
        fun before i r hpre => hfresh before i r (hpre.trans (List.prefix_append _ _))
      cases hstep with
      | load =>
        refine hsafe.load fun path hpath => ?_
        rw [Option.mem_def.mp hpath] at htables
        exact htables path _ (List.mem_append_right _ (List.mem_singleton_self _))
      | on hl hrun =>
        refine hsafe.on hl hrun fun hop => ?_
        subst hop
        exact hfresh _ _ _ List.prefix_rfl
  exact ⟨hsafe.keeps, hsafe.added⟩

/-! Sessions in the current directory. -/

/-- Where only the last call saves, that is what the calls before a save are. -/
theorem before_save {front before : List (Call × Reply)} {i j : Nat} {r r' : Reply}
    (hfront : ∀ x ∈ front, ∀ k, x.1 ≠ .on k .save)
    (h : before ++ [(.on j .save, r')] <+: front ++ [(.on i .save, r)]) :
    before = front ∧ j = i := by
  rcases List.prefix_concat_iff.mp h with heq | hpre
  · obtain ⟨rfl, hlast⟩ := List.append_inj' heq rfl
    cases hlast
    exact ⟨rfl, rfl⟩
  · exact absurd rfl (hfront _ (hpre.subset (List.mem_append_right _ (List.mem_singleton_self _))) j)

theorem sites_plain {w : World} (hfree : ∀ name ∈ plainNames, Open w name) :
    Sites w "ledger.json" ["LEDGER.md"] := by
  have htable : LocalPath "LEDGER.md" "LEDGER.md" := by decide
  let t : Route := ⟨[], w.cwd ++ ["LEDGER.md"]⟩
  refine ⟨_, fun _ => t, ⟨store_local.route w, by simp, ?_, ?_, by simp [t]⟩,
    store_local.steady w (hfree _ (by decide))⟩
  · intro path hpath
    rw [List.mem_singleton.mp hpath]
    exact htable.route w
  · intro path hpath
    exact ⟨by simp [t], by simp [t], by simp, by simp [t]⟩

theorem save_plain {w : World} {content : Content} (hfree : ∀ name ∈ plainNames, Open w name)
    (hnewer : content.newerSchema = none) :
    ∃ l' w', Op.save.run (⟨"ledger.json", some "LEDGER.md", content⟩, w) =
        (.ok .done, (l', w')) ∧ Content.load w' "ledger.json" = .current content.entries := by
  have hname : "ledger.json.lock" ∈ plainNames := by decide
  have hpath : LocalPath (Store.lockPath "ledger.json") "ledger.json.lock" := by decide
  obtain ⟨v, hlock, hkeeps⟩ := Store.lock_local hpath hname (by decide) (hfree _ hname)
  have hfree' : ∀ name ∈ plainNames, Open v name := fun n hn => hkeeps.free n (hfree n hn)
  obtain ⟨⟨l', w'⟩, hwrite, -⟩ := (local_plain content hfree' table_plain).writeFiles hnewer
  obtain ⟨rfl, -, hsaved⟩ := writeFiles_ok hwrite (site_plain hfree')
  have hheld : lock (⟨"ledger.json", some "LEDGER.md", content⟩, w) = _ := lock_eq hlock
  have hsave : save (⟨"ledger.json", some "LEDGER.md", content⟩, w) = _ :=
    (Act.bind_of_ok hheld).trans hwrite
  have hrun := Act.map_eq (fun _ => Answer.done) save
    (⟨"ledger.json", some "LEDGER.md", content⟩, w)
  rw [hsave] at hrun
  exact ⟨_, w', hrun, hsaved.stored⟩

theorem add_runs {now : Instant} {e : LedgerEntry} {l l' : Ledger} {w w' : World}
    (h : Ledger.add now e (l, w) = (.ok (stamped now e), (l', w'))) :
    (Op.add now e).run (l, w) = (.ok (.entry (stamped now e)), (l', w')) := by
  rw [Op.run, Act.map_eq, h]
  rfl

/-- A view that is stale reads the store again before it is saved, and the entry stays. -/
theorem added_entries_kept_reloaded : ∃ v,
    Run "ledger.json" ⟨[], .empty⟩
      [(.load (some "LEDGER.md"), .ok (.view 0)), (.load (some "LEDGER.md"), .ok (.view 1)),
        (.on 0 (.add .newYear (approvalOf "a")), .ok (.entry (stamped .newYear (approvalOf "a")))),
        (.on 1 .reload, .ok .done), (.on 1 .save, .ok .done)] v ∧
    Kept (stamped .newYear (approvalOf "a")) (Content.load v.world "ledger.json").entries := by
  obtain ⟨l₁, w₁, hadd, hkeeps⟩ := add_plain empty_open table_plain
    (congrArg Content.newerSchema load_empty) .newYear (approvalOf "a")
  have hstored := (add_ok hadd (site_plain empty_open)).2.2.2.stored
  obtain ⟨l₂, w₂, hsave, -⟩ := save_plain (fun name hname => hkeeps.free name (empty_open name hname))
    (congrArg Content.newerSchema hstored)
  have hreload : Op.reload.run (load .empty "ledger.json" (some "LEDGER.md"), w₁) =
      (.ok .done, (load w₁ "ledger.json" (some "LEDGER.md"), w₁)) := rfl
  have hrun : Run "ledger.json" ⟨[], .empty⟩ _ _ :=
    .snoc (.snoc (.snoc (.snoc (.snoc .nil .load) .load) (.on (i := 0) rfl (add_runs hadd)))
      (.on (i := 1) rfl hreload)) (.on (i := 1) rfl hsave)
  have hkept := added_entries_kept (sites_plain empty_open) hrun ?_ ?_
  · exact ⟨_, hrun, (hkept.2 0 .newYear (approvalOf "a") _ (by simp)).2⟩
  · intro path r hmem
    simp only [List.nil_append, List.cons_append, List.mem_cons, Prod.mk.injEq, Call.load.injEq,
      Option.some.injEq, reduceCtorEq, false_and, or_false, List.not_mem_nil] at hmem
    rcases hmem with ⟨rfl, -⟩ | ⟨rfl, -⟩ <;> exact List.mem_singleton_self _
  · intro before i r hpre
    obtain ⟨rfl, rfl⟩ := before_save (by simp) hpre
    exact fresh_snoc.mpr (.inl ⟨⟨rfl, nofun⟩, rfl⟩)

theorem entry_lost_by_stale_save : ∃ v,
    Run "ledger.json" ⟨[], .empty⟩
      [(.load (some "LEDGER.md"), .ok (.view 0)), (.load (some "LEDGER.md"), .ok (.view 1)),
        (.on 0 (.add .newYear (approvalOf "a")), .ok (.entry (stamped .newYear (approvalOf "a")))),
        (.on 1 .save, .ok .done)] v ∧
    (Content.load v.world "ledger.json").entries = [] := by
  obtain ⟨l₁, w₁, hadd, hkeeps⟩ := add_plain empty_open table_plain
    (congrArg Content.newerSchema load_empty) .newYear (approvalOf "a")
  obtain ⟨l₂, w₂, hsave, hload⟩ := save_plain
    (fun name hname => hkeeps.free name (empty_open name hname))
    (congrArg Content.newerSchema load_empty)
  have hrun : Run "ledger.json" ⟨[], .empty⟩ _ _ :=
    .snoc (.snoc (.snoc (.snoc .nil .load) .load) (.on (i := 0) rfl (add_runs hadd)))
      (.on (i := 1) rfl hsave)
  refine ⟨_, hrun, ?_⟩
  rw [load_empty] at hload
  exact congrArg Content.entries hload

/-! Stores that a newer version has written. -/

/-- How a call on such a store replies: what would write is refused, and nothing can be revoked. -/
def Refused (store : String) (found : UInt32) : Call × Reply → Prop
  | (.on _ (.add ..), r) | (.on _ .save, r) => r = .error (.newerSchema store found schema)
  | (.on _ (.revoke ..), r) => r = .ok (.found false)
  | (.on _ .reload, r) => r = .ok .done
  | (.load _, _) => True

/-- An operation on a view of such a store, of which it has to know when it is saved. -/
theorem Op.newer {op : Op} {i : Nat} {l l' : Ledger} {w w' u : World} {r : Reply} {found : UInt32}
    (h : op.run (l, w) = (r, (l', w'))) (hlock : Store.lock l.path w = (.ok (), u))
    (hload : Content.load w l.path = ⟨[], some found⟩)
    (hload' : Content.load u l.path = ⟨[], some found⟩)
    (hsave : op = .save → l.content.newerSchema = some found) :
    l'.path = l.path ∧ l'.content.newerSchema = some found ∧ (w' = w ∨ w' = u) ∧
      Refused l.path found (.on i op, r) := by
  cases op with
  | reload =>
    cases h
    exact ⟨rfl, congrArg Content.newerSchema hload, .inl rfl, rfl⟩
  | add now e =>
    have hnewer := congrArg Content.newerSchema hload'
    rw [Op.run, Act.map_eq, add_newer hlock hnewer] at h
    cases h
    exact ⟨rfl, hnewer, .inr rfl, rfl⟩
  | revoke now name =>
    rcases hrevoke : Ledger.revoke now name (l, w) with ⟨r', s⟩
    rw [Op.run, Act.map_eq, hrevoke] at h
    cases h
    rw [revoke_eq_edited] at hrevoke
    cases edited_cases hrevoke with
    | shut hshut =>
      rw [hlock] at hshut
      cases hshut
    | idle hlock' =>
      obtain ⟨-, rfl⟩ := Prod.mk.inj (hlock.symm.trans hlock')
      exact ⟨rfl, congrArg Content.newerSchema hload', .inr rfl, rfl⟩
    | made hlock' hedit | failed hlock' hedit =>
      obtain ⟨-, rfl⟩ := Prod.mk.inj (hlock.symm.trans hlock')
      rw [hload'] at hedit
      cases hedit
  | save =>
    rcases hsaved : Ledger.save (l, w) with ⟨r', s⟩
    rw [Op.run, Act.map_eq, hsaved] at h
    cases h
    obtain ⟨rfl, hsaves⟩ := save_cases hsaved
    have hnewer := hsave rfl
    cases hsaves with
    | shut hshut =>
      rw [hlock] at hshut
      cases hshut
    | written hlock' hwrite =>
      obtain ⟨-, rfl⟩ := Prod.mk.inj (hlock.symm.trans hlock')
      obtain ⟨rfl, rfl⟩ := hwrite.newer hnewer
      exact ⟨rfl, hnewer, .inr rfl, rfl⟩

/-- What holds after the calls in a trace on such a store; `u` is the tree with its lock taken. -/
structure Frozen (store : String) (found : UInt32) (w u : World) (trace : List (Call × Reply))
    (v : Views) : Prop where
  world : v.world = w ∨ v.world = u
  views : ∀ l ∈ v.views, l.path = store
  seen : ∀ i l, v.views[i]? = some l → (∃ x ∈ trace, Looks i x) →
    l.content.newerSchema = some found
  replies : ∀ x ∈ trace, Refused store found x

section Frozen
variable {store : String} {found : UInt32} {w u : World} {trace : List (Call × Reply)} {v : Views}

theorem Frozen.load (h : Frozen store found w u trace v)
    (hload : Content.load v.world store = ⟨[], some found⟩) (table : Option String) :
    Frozen store found w u (trace ++ [(.load table, .ok (.view v.views.length))])
      ⟨v.views ++ [Ledger.load v.world store table], v.world⟩ where
  world := h.world
  views := by
    intro l hl
    rcases List.mem_append.mp hl with hl | hl
    · exact h.views l hl
    · rw [List.mem_singleton.mp hl]
      rfl
  seen := by
    rintro i l hl ⟨x, hx, hlooks⟩
    rcases Nat.lt_or_ge i v.views.length with hi | hi
    · rw [List.getElem?_append_left hi] at hl
      rcases List.mem_append.mp hx with hx | hx
      · exact h.seen i l hl ⟨x, hx, hlooks⟩
      · rw [List.mem_singleton.mp hx] at hlooks
        exact absurd hlooks hi.ne'
    · obtain ⟨-, rfl⟩ : _ ∧ Ledger.load v.world store table = l := by
        simpa [List.getElem?_append_right hi, List.getElem?_singleton] using hl
      exact congrArg Content.newerSchema hload
  replies := by
    intro x hx
    rcases List.mem_append.mp hx with hx | hx
    · exact h.replies x hx
    · rw [List.mem_singleton.mp hx]
      trivial

theorem Frozen.on (h : Frozen store found w u trace v) {i : Nat} {op : Op} {l l' : Ledger}
    {r : Reply} {w' : World} (hl : v.views[i]? = some l)
    (hrun : op.run (l, v.world) = (r, (l', w'))) (hlock : Store.lock store v.world = (.ok (), u))
    (hload : Content.load v.world store = ⟨[], some found⟩)
    (hload' : Content.load u store = ⟨[], some found⟩)
    (hsave : op = .save → ∃ x ∈ trace, Looks i x) :
    Frozen store found w u (trace ++ [(.on i op, r)]) ⟨v.views.set i l', w'⟩ := by
  obtain rfl := h.views l (List.mem_of_getElem? hl)
  obtain ⟨hpath, hnewer, hworld, hrefused⟩ :=
    Op.newer hrun hlock hload hload' fun hop => h.seen i l hl (hsave hop)
  refine ⟨?_, ?_, ?_, ?_⟩
  · rcases hworld with rfl | rfl
    · exact h.world
    · exact .inr rfl
  · intro m hm
    rcases List.mem_or_eq_of_mem_set hm with hm | rfl
    · exact h.views m hm
    · exact hpath
  · rintro j m hm ⟨x, hx, hlooks⟩
    by_cases hij : i = j
    · subst hij
      have hlen : i < v.views.length := (List.getElem?_eq_some_iff.mp hl).1
      obtain rfl : l' = m := by simpa [hlen] using hm
      exact hnewer
    · rw [List.getElem?_set_ne hij] at hm
      rcases List.mem_append.mp hx with hx | hx
      · exact h.seen j m hm ⟨x, hx, hlooks⟩
      · rw [List.mem_singleton.mp hx] at hlooks
        exact absurd hlooks.1 hij
  · intro x hx
    rcases List.mem_append.mp hx with hx | hx
    · exact h.replies x hx
    · rw [List.mem_singleton.mp hx]
      exact hrefused

end Frozen

/-- A store that a newer version has written stays as it is, and so does every other file, whatever
is called on views of it, however old, if a view is saved only after it has read that store: then
every addition and every save is refused, and nothing is revoked. -/
theorem newer_store_kept {store text : String} {found : UInt32} {start v : Views} {u : World}
    {trace : List (Call × Reply)} (hrun : Run store start trace v)
    (hviews : ∀ l ∈ start.views, l.path = store)
    (hread : Store.read? start.world store = some text) (hnewer : Newer text found)
    (hlock : Store.lock store start.world = (.ok (), u))
    (hsaves : ∀ before i r, before ++ [(.on i .save, r)] <+: trace → ∃ x ∈ before, Looks i x) :
    (v.world = start.world ∨ v.world = u) ∧
      (∀ path bytes, start.world.readFile path = .ok bytes → v.world.readFile path = .ok bytes) ∧
      ∀ x ∈ trace, Refused store found x := by
  have hgrows : start.world.Grows u := Store.lock_grows hlock
  have hload : Content.load start.world store = ⟨[], some found⟩ := by
    rw [load_eq, hread]
    exact hnewer.content
  have hload' : Content.load u store = ⟨[], some found⟩ := by
    rw [load_eq, Store.read?_of_grows hgrows hread]
    exact hnewer.content
  have hfrozen : Frozen store found start.world u trace v := by
    induction hrun with
    | nil => exact ⟨.inl rfl, hviews, by simp, by simp⟩
    | @snoc trace v _ _ _ h hstep ih =>
      have hfrozen := ih fun before i r hpre =>
        hsaves before i r (hpre.trans (List.prefix_append _ _))
      have hheld : Store.lock store v.world = (.ok (), u) ∧
          Content.load v.world store = ⟨[], some found⟩ := by
        rcases hfrozen.world with heq | heq
        · rw [heq]
          exact ⟨hlock, hload⟩
        · rw [heq]
          exact ⟨Store.lock_again hlock, hload'⟩
      cases hstep with
      | load => exact hfrozen.load hheld.2 _
      | on hl hrun =>
        refine hfrozen.on hl hrun hheld.1 hheld.2 hload' fun hop => ?_
        subst hop
        exact hsaves _ _ _ List.prefix_rfl
  refine ⟨hfrozen.world, fun path bytes hbytes => ?_, hfrozen.replies⟩
  rcases hfrozen.world with heq | heq
  · rwa [heq]
  · rw [heq]
    exact Store.readFile_of_grows hgrows hbytes

/-- A view older than the store learns of the newer version by an addition that is refused, and then
it is not saved either. -/
theorem newer_store_kept_refused : ∃ v,
    Run "ledger.json" ⟨[load .empty "ledger.json" none], newerTree⟩
      [(.on 0 (.add .newYear (approvalOf "a")), .error (.newerSchema "ledger.json" 2 schema)),
        (.on 0 .save, .error (.newerSchema "ledger.json" 2 schema))] v ∧
    v.world.readFile "ledger.json" = .ok newerText.toUTF8 := by
  obtain ⟨u, hlock, hload, hadd⟩ := newerTree_add none (.load .empty "ledger.json")
  have hrefused := Act.map_eq Answer.entry (add .newYear (approvalOf "a"))
    (⟨"ledger.json", none, .load .empty "ledger.json"⟩, newerTree)
  rw [hadd] at hrefused
  rcases hsave : Op.save.run (refusedView none, u) with ⟨r, l', w'⟩
  have hagain := Store.lock_again hlock
  have hsaved := Op.newer (i := 0) hsave hagain hload hload fun _ => rfl
  obtain rfl : r = .error (.newerSchema "ledger.json" 2 schema) := hsaved.2.2.2
  have hadded : (Op.add .newYear (approvalOf "a")).run (load .empty "ledger.json" none, newerTree) =
      (.error (.newerSchema "ledger.json" 2 schema), (refusedView none, u)) := hrefused
  have hrun : Run "ledger.json" ⟨[load .empty "ledger.json" none], newerTree⟩ _ _ :=
    .snoc (.snoc .nil (.on (i := 0) rfl hadded)) (.on (i := 0) rfl hsave)
  have hkept := newer_store_kept hrun (by simp [load]) newerTree_read newerText_newer hlock ?_
  · refine ⟨_, hrun, hkept.2.1 _ _ ?_⟩
    have hfind := (store_local.holds newerTree rfl).find
    simp only [World.readFile, hfind]
  · intro before i r hpre
    obtain ⟨rfl, rfl⟩ := before_save (by simp) hpre
    exact ⟨_, List.mem_singleton_self _, rfl, by simp⟩

/-- A view older than the store writes over it when it is saved. -/
theorem newer_store_lost_by_stale_save : ∃ v,
    Run "ledger.json" ⟨[load .empty "ledger.json" (some "LEDGER.md")], newerTree⟩
      [(.on 0 .save, .ok .done)] v ∧
    Store.read? v.world "ledger.json" ≠ some newerText := by
  obtain ⟨l', w', hsave, hload⟩ := save_plain newerTree_open
    (congrArg Content.newerSchema load_empty)
  have hrun : Run "ledger.json" ⟨[load .empty "ledger.json" (some "LEDGER.md")], newerTree⟩ _ _ :=
    .snoc .nil (.on (i := 0) rfl hsave)
  refine ⟨_, hrun, fun hread => ?_⟩
  have hnewer : Content.load w' "ledger.json" = ⟨[], some 2⟩ := by
    rw [load_eq, hread]
    exact newerText_newer.content
  cases congrArg Content.newerSchema (hload.symm.trans hnewer)

end Ledger.Session
end SkillAudit
