import Mathlib
import SkillAudit.Proofs.LedgerHandles

/-!
Changes of a ledger that fail. A change is made in the view before the store is written, and the
store is written before the table, so a fault leaves the view ahead of the store, or the store ahead
of the table. Only where the lock cannot be taken has nothing happened.
-/
namespace SkillAudit

theorem Json.namedFields_single {name : String}
    {members : List (Option String × Json)} (hkeys : ∀ m ∈ members, m.1.isSome = true)
    (honce : (members.filter fun m => m.1 == some name).length ≤ 1) :
    Json.namedFields [name] members =
      some ((members.filter fun m => m.1 == some name).map fun m => (name, m.2)) := by
  induction members with
  | nil => rfl
  | cons m rest ih =>
    obtain ⟨key, j⟩ := m
    obtain ⟨k, rfl⟩ := Option.isSome_iff_exists.mp (hkeys (key, j) (by simp))
    have hrest := ih (fun x hx => hkeys x (by simp [hx]))
    by_cases hk : k = name
    · subst hk
      -- This is the one member of that name, so none is left in the rest.
      have hnone : rest.filter (fun m => m.1 == some k) = [] := by
        simpa [List.filter_cons] using honce
      simp [Json.namedFields, hnone, hrest]
    · have honce' : (rest.filter fun m => m.1 == some name).length ≤ 1 := by
        simpa [List.filter_cons, hk] using honce
      simp [Json.namedFields, hrest honce', hk]

theorem Store.readFile_of_grows {w w' : World} {path : String} {bytes : ByteArray}
    (hw : w.Grows w') (h : w.readFile path = .ok bytes) : w'.readFile path = .ok bytes := by
  unfold World.readFile at h ⊢
  cases hfind : w.find path with
  | error e => simp [hfind] at h
  | ok found => simpa only [Store.find_of_grows hw hfind, hfind] using h

namespace Ledger

/-! How the two files are written. -/

/-- How writing the store and the table of a view ends, and the tree it leaves. -/
inductive Writing (l : Ledger) (w : World) : Except AuditError Unit → World → Prop
  | refused {found : UInt32} (hnewer : l.content.newerSchema = some found) :
      Writing l w (.error (.newerSchema l.path found schema)) w
  | unstored {e : AuditError} {v : World} (hnewer : l.content.newerSchema = none)
      (hstore : Store.writeJson l.path (documentJson l.entries) w = (.error e, v)) :
      Writing l w (.error e) v
  | unshown {path : String} {e : AuditError} {v u : World} (hnewer : l.content.newerSchema = none)
      (hstore : Store.writeJson l.path (documentJson l.entries) w = (.ok (), v))
      (hpath : l.tablePath = some path)
      (htable : Store.write path (markdown l.entries).toUTF8 v = (.error e, u)) :
      Writing l w (.error e) u
  | stored {v : World} (hnewer : l.content.newerSchema = none)
      (hstore : Store.writeJson l.path (documentJson l.entries) w = (.ok (), v))
      (hpath : l.tablePath = none) : Writing l w (.ok ()) v
  | shown {path : String} {v u : World} (hnewer : l.content.newerSchema = none)
      (hstore : Store.writeJson l.path (documentJson l.entries) w = (.ok (), v))
      (hpath : l.tablePath = some path)
      (htable : Store.write path (markdown l.entries).toUTF8 v = (.ok (), u)) :
      Writing l w (.ok ()) u

theorem onWorld_eq {α : Type} {act : SkillAudit.Act α} {l : Ledger} {w v : World}
    {r : Except AuditError α} (h : act w = (r, v)) : onWorld act (l, w) = (r, (l, v)) := by
  simp only [onWorld, h]

theorem writeFiles_cases {l l' : Ledger} {w w' : World} {r : Except AuditError Unit}
    (h : writeFiles (l, w) = (r, (l', w'))) : l' = l ∧ Writing l w r w' := by
  rw [writeFiles, Act.bind_of_ok (x := get) rfl] at h
  cases hnewer : l.content.newerSchema with
  | some found =>
    simp only [hnewer] at h
    cases h
    exact ⟨rfl, .refused hnewer⟩
  | none =>
    simp only [hnewer] at h
    rcases hstore : Store.writeJson l.path (documentJson l.entries) w with ⟨e | _, v⟩
    · rw [Act.bind_of_error (onWorld_eq hstore)] at h
      cases h
      exact ⟨rfl, .unstored hnewer hstore⟩
    · rw [Act.bind_of_ok (onWorld_eq hstore)] at h
      cases hpath : l.tablePath with
      | none =>
        simp only [hpath] at h
        cases h
        exact ⟨rfl, .stored hnewer hstore hpath⟩
      | some path =>
        simp only [hpath] at h
        rcases htable : Store.write path (markdown l.entries).toUTF8 v with ⟨e | _, u⟩
        · rw [onWorld_eq htable] at h
          cases h
          exact ⟨rfl, .unshown hnewer hstore hpath htable⟩
        · rw [onWorld_eq htable] at h
          cases h
          exact ⟨rfl, .shown hnewer hstore hpath htable⟩

/-! How a change ends. -/

/-- The view with the store read again and other entries in the place of those found there. -/
def holding (l : Ledger) (w : World) (es : List LedgerEntry) : Ledger :=
  { l with content := { Content.load w l.path with entries := es } }

/-- Reads the store again under its lock and puts other entries in the place of those found there;
where there is nothing to change, nothing is written. -/
def edited {α : Type} (edit : List LedgerEntry → Option (List LedgerEntry)) (answer : Bool → α) :
    Ledger.Act α := do
  lock
  reload
  match edit (← get).1.entries with
  | none => return answer false
  | some entries =>
    setEntries entries
    writeFiles
    return answer true

theorem add_eq_edited (now : Instant) (e : LedgerEntry) :
    add now e = edited (fun es => some (es ++ [stamped now e])) fun _ => stamped now e := rfl

theorem revoke_eq_edited (now : Instant) (name : String) :
    revoke now name = edited (revokeLast now name) id := rfl

/-- How a change ends: its answer or its error, the view and the tree. -/
inductive Edits {α : Type} (edit : List LedgerEntry → Option (List LedgerEntry))
    (answer : Bool → α) (l : Ledger) (w : World) : Except AuditError α → Ledger → World → Prop
  | shut {e : AuditError} {v : World} (hlock : Store.lock l.path w = (.error e, v)) :
      Edits edit answer l w (.error e) l v
  | idle {v : World} (hlock : Store.lock l.path w = (.ok (), v))
      (hedit : edit (Content.load v l.path).entries = none) :
      Edits edit answer l w (.ok (answer false)) (l.holding v (Content.load v l.path).entries) v
  | made {v u : World} {es : List LedgerEntry} (hlock : Store.lock l.path w = (.ok (), v))
      (hedit : edit (Content.load v l.path).entries = some es)
      (hwrite : Writing (l.holding v es) v (.ok ()) u) :
      Edits edit answer l w (.ok (answer true)) (l.holding v es) u
  | failed {v u : World} {es : List LedgerEntry} {e : AuditError}
      (hlock : Store.lock l.path w = (.ok (), v))
      (hedit : edit (Content.load v l.path).entries = some es)
      (hwrite : Writing (l.holding v es) v (.error e) u) :
      Edits edit answer l w (.error e) (l.holding v es) u

theorem lock_eq {l : Ledger} {w v : World} {r : Except AuditError Unit}
    (h : Store.lock l.path w = (r, v)) : lock (l, w) = (r, (l, v)) := by
  rw [lock, Act.bind_of_ok (x := get) rfl]
  exact onWorld_eq h

theorem edited_cases {α : Type} {edit : List LedgerEntry → Option (List LedgerEntry)}
    {answer : Bool → α} {l l' : Ledger} {w w' : World} {r : Except AuditError α}
    (h : edited edit answer (l, w) = (r, (l', w'))) : Edits edit answer l w r l' w' := by
  unfold edited at h
  rcases hlock : Store.lock l.path w with ⟨e | _, v⟩
  · rw [Act.bind_of_error (lock_eq hlock)] at h
    cases h
    exact .shut hlock
  · rw [Act.bind_of_ok (lock_eq hlock), Act.bind_of_ok (x := reload) rfl,
      Act.bind_of_ok (x := get) rfl] at h
    cases hedit : edit (Content.load v l.path).entries with
    | none =>
      simp only [entries, hedit] at h
      cases h
      exact .idle hlock hedit
    | some es =>
      simp only [entries, hedit] at h
      have hset : setEntries es ({ l with content := .load v l.path }, v) =
          (.ok (), (l.holding v es, v)) := rfl
      rw [Act.bind_of_ok hset] at h
      rcases hwrite : writeFiles (l.holding v es, v) with ⟨e | _, m, u⟩
      · obtain ⟨rfl, hwriting⟩ := writeFiles_cases hwrite
        rw [Act.bind_of_error hwrite] at h
        cases h
        exact .failed hlock hedit hwriting
      · obtain ⟨rfl, hwriting⟩ := writeFiles_cases hwrite
        rw [Act.bind_of_ok hwrite] at h
        cases h
        exact .made hlock hedit hwriting

/-- Writes what a view holds, without reading the store again. -/
inductive Saves (l : Ledger) (w : World) : Except AuditError Unit → World → Prop
  | shut {e : AuditError} {v : World} (hlock : Store.lock l.path w = (.error e, v)) :
      Saves l w (.error e) v
  | written {r : Except AuditError Unit} {v u : World} (hlock : Store.lock l.path w = (.ok (), v))
      (hwrite : Writing l v r u) : Saves l w r u

theorem save_cases {l l' : Ledger} {w w' : World} {r : Except AuditError Unit}
    (h : save (l, w) = (r, (l', w'))) : l' = l ∧ Saves l w r w' := by
  unfold save at h
  rcases hlock : Store.lock l.path w with ⟨e | _, v⟩
  · rw [Act.bind_of_error (lock_eq hlock)] at h
    cases h
    exact ⟨rfl, .shut hlock⟩
  · rw [Act.bind_of_ok (lock_eq hlock)] at h
    obtain ⟨hl, hwrite⟩ := writeFiles_cases h
    exact ⟨hl, .written hlock hwrite⟩

/-! Stores of a newer schema. -/

/-- A text in which a newer version declares its schema, whatever else it holds. -/
structure Newer (text : String) (found : UInt32) : Prop where
  newer : schema < found
  document : ∃ members, Json.parse? text = some (.obj members) ∧
    (∀ m ∈ members, m.1.isSome = true) ∧
    members.filter (fun m => m.1 == some "schemaVersion") =
      [(some "schemaVersion", .nat found.toNat)]

/-- Such a text is read as empty, and the schema is remembered. -/
theorem Newer.content {text : String} {found : UInt32} (h : Newer text found) :
    Content.ofText text = ⟨[], some found⟩ := by
  obtain ⟨members, hparse, hkeys, hschema⟩ := h.document
  have hrecord : Json.asRecord ["schemaVersion"] (.obj members) =
      some ⟨false, [("schemaVersion", .nat found.toNat)]⟩ := by
    rw [Json.asRecord, Json.namedFields_single hkeys (by simp [hschema]), hschema]
    rfl
  have hdeclared : declaredSchema? (.obj members) = some found := by
    have hversion :
        Json.asOption Json.asUInt32 (.option (fun n : UInt32 => .nat n.toNat) (some found)) =
          some (some found) :=
      Json.asOption_option (fun _ => by simp [Json.nat]) Json.asUInt32_nat (some found)
    simp only [Json.option] at hversion
    simp [declaredSchema?, hrecord, Json.Record.nullable, Json.Record.get?, List.lookup, hversion]
  have hnewer : (some found).filter (· > schema) = some found := by
    simpa [Option.filter] using h.newer
  simp only [Content.ofText, hparse, hdeclared, hnewer]

section Refused
variable {l l' : Ledger} {w v w' : World} {found : UInt32} {now : Instant}

theorem Writing.newer {r : Except AuditError Unit} (h : Writing l w r w')
    (hnewer : l.content.newerSchema = some found) :
    r = .error (.newerSchema l.path found schema) ∧ w' = w := by
  cases h with
  | refused h =>
    obtain rfl := Option.some.inj (h.symm.trans hnewer)
    exact ⟨rfl, rfl⟩
  | unstored h _ | unshown h _ _ _ | stored h _ _ | shown h _ _ _ =>
    rw [hnewer] at h
    cases h

/-- No entry is added to a store of a newer schema, but the view shows it. -/
theorem add_newer {e : LedgerEntry} (hlock : Store.lock l.path w = (.ok (), v))
    (hnewer : (Content.load v l.path).newerSchema = some found) :
    add now e (l, w) = (.error (.newerSchema l.path found schema),
      (l.holding v ((Content.load v l.path).entries ++ [stamped now e]), v)) := by
  rcases hadd : add now e (l, w) with ⟨r, l', w'⟩
  rw [add_eq_edited] at hadd
  cases edited_cases hadd with
  | shut hshut =>
    rw [hlock] at hshut
    cases hshut
  | idle _ hedit => cases hedit
  | made hlock' _ hwrite =>
    obtain ⟨-, rfl⟩ := Prod.mk.inj (hlock.symm.trans hlock')
    cases (hwrite.newer hnewer).1
  | failed hlock' hedit hwrite =>
    obtain ⟨-, rfl⟩ := Prod.mk.inj (hlock.symm.trans hlock')
    obtain ⟨hr, rfl⟩ := hwrite.newer hnewer
    cases hr
    cases hedit
    rfl

end Refused

/-! What a fault leaves. -/

/-- A fault in writing leaves the store as it was, or with all that was to be written there. -/
theorem Writing.fault {l : Ledger} {w w' : World} {e : AuditError}
    (h : Writing l w (.error e) w') :
    w.Grows w' ∨ (l.content.newerSchema = none ∧
      ∃ v, Store.writeJson l.path (documentJson l.entries) w = (.ok (), v) ∧ v.Grows w') := by
  cases h with
  | refused => exact .inl (.refl w)
  | unstored _ hstore => exact .inl (Store.grows_of_write_error hstore)
  | unshown hnewer hstore _ htable =>
    exact .inr ⟨hnewer, _, hstore, Store.grows_of_write_error htable⟩

inductive Change where
  | add (e : LedgerEntry)
  | revoke (name : String)

namespace Change

/-- What a change makes of the entries, if it changes anything. -/
def edit (now : Instant) : Change → List LedgerEntry → Option (List LedgerEntry)
  | .add e, es => some (es ++ [stamped now e])
  | .revoke name, es => revokeLast now name es

def Fails (now : Instant) (s : Ledger × World) (e : AuditError) (t : Ledger × World) :
    Change → Prop
  | .add entry => Ledger.add now entry s = (.error e, t)
  | .revoke name => Ledger.revoke now name s = (.error e, t)

theorem edit_ne (c : Change) (now : Instant) (es : List LedgerEntry) : c.edit now es ≠ some es := by
  intro h
  cases c with
  | add e => simp [edit] at h
  | revoke name =>
    obtain ⟨before, e, after, hes, ⟨-, hstatus⟩, -, hes'⟩ := revokeLast_some h
    rw [hes] at hes'
    have hsame : e = e.revoked now := by simpa using hes'
    rw [hsame] at hstatus
    cases hstatus

/-- A change fails before its lock is taken, or when its files are written. -/
theorem Fails.cases {c : Change} {now : Instant} {l l' : Ledger} {w w' : World} {e : AuditError}
    (h : c.Fails now (l, w) e (l', w')) :
    (l' = l ∧ Store.lock l.path w = (.error e, w')) ∨
      ∃ v es, Store.lock l.path w = (.ok (), v) ∧
        c.edit now (Content.load v l.path).entries = some es ∧ l' = l.holding v es ∧
        Writing l' v (.error e) w' := by
  have hedited : ∃ (α : Type) (answer : Bool → α),
      edited (c.edit now) answer (l, w) = (.error e, (l', w')) := by
    cases c with
    | add entry => exact ⟨_, _, (congrFun (add_eq_edited now entry) (l, w)).symm.trans h⟩
    | revoke name => exact ⟨_, _, (congrFun (revoke_eq_edited now name) (l, w)).symm.trans h⟩
  obtain ⟨α, answer, hedited⟩ := hedited
  cases edited_cases hedited with
  | shut hlock => exact .inl ⟨rfl, hlock⟩
  | failed hlock hedit hwrite => exact .inr ⟨_, _, hlock, hedit, rfl, hwrite⟩

end Change

/-- What a change of the entries at `l` in the tree `w` leaves when it fails. -/
inductive Remains (edit : List LedgerEntry → Option (List LedgerEntry)) (l : Ledger) (w : World)
    (e : AuditError) : Ledger → World → Prop
  /-- Nothing has happened where the lock could not be taken. -/
  | nothing {w' : World} (hlock : Store.lock l.path w = (.error e, w')) (hgrows : w.Grows w') :
      Remains edit l w e l w'
  /-- The store is as it was, but the view shows the change. -/
  | shown {l' : Ledger} {v w' : World} (hlock : Store.lock l.path w = (.ok (), v))
      (hgrows : w.Grows w')
      (hview : edit (Content.load w l.path).entries = some l'.entries) : Remains edit l w e l' w'
  /-- The store has the change, and the view shows it; it is the table that lacks it. -/
  | stored {l' : Ledger} {v w' : World} (hlock : Store.lock l.path w = (.ok (), v))
      (hview : edit (Content.load w l.path).entries = some l'.entries)
      (hstore : Content.load w' l.path = .current l'.entries) : Remains edit l w e l' w'

/-- The store holds the bytes it held; where it could not be read, it still reads as empty. -/
structure Unchanged (w w' : World) (store : String) : Prop where
  bytes : ∀ bytes, w.readFile store = .ok bytes → w'.readFile store = .ok bytes
  text : (Store.read? w' store).getD "" = (Store.read? w store).getD ""

theorem Site.unchanged {w w' : World} {store : String} {table : Option String}
    (h : Site w store table) (hw : w.Grows w') : Unchanged w w' store := by
  obtain ⟨_, -, -, hsteady, -⟩ := h
  exact ⟨fun _ hread => Store.readFile_of_grows hw hread, hsteady.read? hw⟩

theorem Unchanged.load {w w' : World} {store : String} (h : Unchanged w w' store) :
    Content.load w' store = Content.load w store := by
  rw [load_eq, load_eq, h.text]

section Fails
variable {c : Change} {now : Instant} {l l' : Ledger} {w w' : World} {e : AuditError}

theorem Change.Fails.remains (h : c.Fails now (l, w) e (l', w')) (hsite : Site w l.path none) :
    Remains (c.edit now) l w e l' w' := by
  rcases h.cases with ⟨rfl, hlock⟩ | ⟨v, es, hlock, hedit, rfl, hwrite⟩
  · have hgrows := Store.lock_grows_always l'.path w
    rw [hlock] at hgrows
    exact .nothing hlock hgrows
  · have hv : w.Grows v := Store.lock_grows hlock
    have hview : c.edit now (Content.load w l.path).entries = some (l.holding v es).entries := by
      rw [← hsite.load_grows hv, hedit]
      rfl
    rcases hwrite.fault with hgrows | ⟨hnewer, u, hstore, hgrows⟩
    · exact .shown hlock (hv.trans hgrows) hview
    · obtain ⟨r, hr, hown, -⟩ := hsite.grows hv
      obtain ⟨-, hholds⟩ := Store.write_ok hstore hr hown
      exact .stored hlock hview
        (load_of_holds (hholds.evolves hgrows.evolves (by simp) (by simp)))

/-- A change that fails leaves the view ahead of the store, or the store ahead of the table; it has
had no effect exactly when its lock could not be taken and the view showed what the store holds. -/
theorem failed_change_without_effect_iff (c : Change) (hsite : Site w l.path none)
    (h : c.Fails now (l, w) e (l', w')) :
    Remains (c.edit now) l w e l' w' ∧
      ((Unchanged w w' l.path ∧ l'.entries = (Content.load w' l.path).entries) ↔
        (Store.lock l.path w).1 = .error e ∧ l.entries = (Content.load w l.path).entries) := by
  have hremains := h.remains hsite
  refine ⟨hremains, ?_⟩
  cases hremains with
  | nothing hlock hgrows =>
    have hunchanged := hsite.unchanged hgrows
    simp [hlock, hunchanged, hunchanged.load]
  | shown hlock hgrows hview =>
    have hload := (hsite.unchanged hgrows).load
    constructor
    · rintro ⟨-, hentries⟩
      rw [hload] at hentries
      rw [hentries] at hview
      exact absurd hview (c.edit_ne now _)
    · rintro ⟨hfailed, -⟩
      rw [hlock] at hfailed
      cases hfailed
  | stored hlock hview hstore =>
    constructor
    · rintro ⟨hunchanged, -⟩
      rw [← hunchanged.load, hstore] at hview
      exact absurd hview (c.edit_ne now _)
    · rintro ⟨hfailed, -⟩
      rw [hlock] at hfailed
      cases hfailed

end Fails

/-! A store that a newer version wrote. -/

/-- The document of a newer version without entries. -/
def newerText : String := Store.jsonText (.object [("schemaVersion", .nat 2)])

def newerTree : World := World.empty.put ["ledger.json"] (.file newerText.toUTF8)

theorem newerText_newer : Newer newerText 2 where
  newer := by decide
  document := by
    have hplain : Json.Plain (.object [("schemaVersion", .nat 2)]) :=
      Json.plain_object (by simpa using Json.plain_nat (by decide))
    exact ⟨_, Json.parse?_jsonText hplain, by simp, rfl⟩

theorem newerTree_open : ∀ name ∈ plainNames, Open newerTree name :=
  fun name hname => (empty_open name hname).put "ledger.json" _

theorem newerTree_read : Store.read? newerTree "ledger.json" = some newerText :=
  Store.read?_of_holds (store_local.holds newerTree rfl)

theorem newerTree_load : Content.load newerTree "ledger.json" = ⟨[], some 2⟩ := by
  rw [load_eq, newerTree_read]
  exact newerText_newer.content

theorem newerTree_lock : ∃ v, Store.lock "ledger.json" newerTree = (.ok (), v) ∧
    Content.load v "ledger.json" = ⟨[], some 2⟩ := by
  have hpath : LocalPath (Store.lockPath "ledger.json") "ledger.json.lock" := by decide
  have hname : "ledger.json.lock" ∈ plainNames := by decide
  obtain ⟨v, hlock, -⟩ := Store.lock_local hpath hname (by decide) (newerTree_open _ hname)
  have hsite := site_plain newerTree_open
  exact ⟨v, hlock, (hsite.load_grows (Store.lock_grows hlock)).trans newerTree_load⟩

/-- What a view of such a ledger shows after an addition. -/
def refusedView (table : Option String) : Ledger :=
  ⟨"ledger.json", table, ⟨[stamped .newYear (approvalOf "a")], some 2⟩⟩

theorem newerTree_add (table : Option String) (content : Content) :
    ∃ v, Store.lock "ledger.json" newerTree = (.ok (), v) ∧
      Content.load v "ledger.json" = ⟨[], some 2⟩ ∧
      add .newYear (approvalOf "a") (⟨"ledger.json", table, content⟩, newerTree) =
        (.error (.newerSchema "ledger.json" 2 schema), (refusedView table, v)) := by
  obtain ⟨v, hlock, hload⟩ := newerTree_lock
  have hadd : add .newYear (approvalOf "a") (⟨"ledger.json", table, content⟩, newerTree) = _ :=
    add_newer hlock (congrArg Content.newerSchema hload)
  refine ⟨v, hlock, hload, hadd.trans ?_⟩
  rw [holding, hload]
  rfl

theorem failed_change_without_effect_iff_newer : ∃ l' w',
    (Change.add (approvalOf "a")).Fails .newYear (load newerTree "ledger.json" none, newerTree)
      (.newerSchema "ledger.json" 2 schema) (l', w') ∧
    ¬ (Unchanged newerTree w' "ledger.json" ∧
      l'.entries = (Content.load w' "ledger.json").entries) := by
  obtain ⟨v, hlock, -, hadd⟩ := newerTree_add none (.load newerTree "ledger.json")
  have hsite : Site newerTree "ledger.json" none :=
    site_of_local store_local (newerTree_open _ (by decide)) (by simp)
  refine ⟨_, v, hadd, fun hnone => ?_⟩
  have hfailed :=
    ((failed_change_without_effect_iff (.add (approvalOf "a")) hsite hadd).2.mp hnone).1
  have hlocked : (Store.lock "ledger.json" newerTree).1 = .ok () := by rw [hlock]
  cases hfailed.symm.trans hlocked

/-- The view shows the approval that was refused, and the name as approved; the store holds nothing
of it. -/
theorem refused_approval_shown : ∃ l' w',
    add .newYear (approvalOf "a") (load newerTree "ledger.json" none, newerTree) =
      (.error (.newerSchema "ledger.json" 2 schema), (l', w')) ∧
    l'.entries = [stamped .newYear (approvalOf "a")] ∧ l'.approvedHash? "a" = some "" ∧
    (Content.load w' "ledger.json").entries = [] := by
  obtain ⟨v, -, hload, hadd⟩ := newerTree_add none (.load newerTree "ledger.json")
  have happroved : approvedIn [stamped .newYear (approvalOf "a")] "a" = some "" := by decide
  exact ⟨_, v, hadd, rfl, (approvedHash?_eq _ "a").trans happroved, congrArg Content.entries hload⟩

end Ledger
end SkillAudit
