import Mathlib
import SkillAudit.Proofs.LedgerDocument
import SkillAudit.Proofs.StateFile

/-!
Ledgers on the file tree: what adding, revoking and reloading do to the entries that the store
holds. The table must not stand where the store is, nor either of them on the way of the other.
-/
namespace SkillAudit.Ledger

/-- The route of a table beside that of a store: neither file is in the way of the other. -/
structure Beside (r t : Route) : Prop where
  own : t.place ∉ t.links
  ends : t.place ≠ r.place
  store : t.place ∉ r.links
  table : r.place ∉ t.links

/-- A place in the tree for a ledger: the store's path leads to a file of its own, at which nothing
comes into view unasked, and the table stands beside it. -/
def Site (w : World) (store : String) (table : Option String) : Prop :=
  ∃ r, w.route? store = some r ∧ r.place ∉ r.links ∧ Store.Steady w store ∧
    ∀ path ∈ table, ∃ t, w.route? path = some t ∧ Beside r t

/-- What holds after a write: the store has the entries, and the table shows them. -/
structure Saved (w : World) (store : String) (table : Option String)
    (entries : List LedgerEntry) : Prop where
  stored : Content.load w store = .current entries
  shown : ∀ path ∈ table, Store.read? w path = some (markdown entries)
  site : Site w store table

theorem load_eq (w : World) (path : String) :
    Content.load w path = .ofText ((Store.read? w path).getD "") := by
  unfold Content.load
  cases Store.read? w path with
  | some text => rfl
  | none => rfl

section Grows
variable {w w' : World} {store : String} {table : Option String}

theorem Site.grows (h : Site w store table) (hw : w.Grows w') : Site w' store table := by
  obtain ⟨r, hr, hown, hsteady, htable⟩ := h
  refine ⟨r, hw.evolves.route hr (by simp), hown, hsteady.grows hw, fun path hpath => ?_⟩
  obtain ⟨t, ht, hbeside⟩ := htable path hpath
  exact ⟨t, hw.evolves.route ht (by simp), hbeside⟩

theorem Site.load_grows (h : Site w store table) (hw : w.Grows w') :
    Content.load w' store = Content.load w store := by
  obtain ⟨_, -, -, hsteady, -⟩ := h
  rw [load_eq, load_eq, hsteady.read? hw]

end Grows

theorem load_of_holds {w : World} {path : String} {r : Route} {entries : List LedgerEntry}
    (h : w.Holds path r (Store.jsonText (documentJson entries)).toUTF8) :
    Content.load w path = .current entries := by
  rw [load_eq, Store.read?_of_holds h, Option.getD_some, ofText_jsonText_documentJson]

theorem load_of_missing {w : World} {path : String} (h : w.pathExists path = false) :
    Content.load w path = .current [] := by
  have hread : Store.read? w path = none := by
    cases hread : Store.read? w path with
    | none => rfl
    | some text =>
      obtain ⟨p, bytes, hfind, -⟩ := Store.read?_eq_some hread
      simp [World.pathExists, hfind] at h
  rw [Content.load, hread]

section Act
variable {l l' : Ledger} {w w' : World}

theorem onWorld_ok_iff {α : Type} {act : SkillAudit.Act α} {a : α} {s : Ledger × World} :
    onWorld act (l, w) = (.ok a, s) ↔ ∃ v, act w = (.ok a, v) ∧ s = (l, v) := by
  simp only [onWorld]
  cases act w with
  | mk result v =>
    constructor
    · intro h
      cases h
      exact ⟨v, rfl, rfl⟩
    · rintro ⟨v', hv, rfl⟩
      cases hv
      rfl

theorem lock_ok_iff {s : Ledger × World} :
    lock (l, w) = (.ok (), s) ↔ ∃ v, Store.lock l.path w = (.ok (), v) ∧ s = (l, v) := by
  rw [lock, Act.bind_of_ok (x := get) rfl]
  exact onWorld_ok_iff

/-- The store is written before the table, and neither if a newer version wrote the store. -/
theorem writeFiles_ok_iff {s : Ledger × World} :
    writeFiles (l, w) = (.ok (), s) ↔
      l.content.newerSchema = none ∧
        ∃ v, Store.write l.path (Store.jsonText (documentJson l.entries)).toUTF8 w = (.ok (), v) ∧
          match l.tablePath with
          | none => s = (l, v)
          | some path => ∃ u, Store.write path (markdown l.entries).toUTF8 v = (.ok (), u) ∧
              s = (l, u) := by
  rw [writeFiles, Act.bind_of_ok (x := get) rfl]
  cases hnewer : l.content.newerSchema with
  | some found =>
    simp only [hnewer, reduceCtorEq, false_and, iff_false]
    intro h
    cases h
  | none =>
    simp only [hnewer, true_and]
    constructor
    · intro h
      obtain ⟨_, _, hstore, hrest⟩ := Act.bind_ok h
      obtain ⟨v, hjson, rfl⟩ := onWorld_ok_iff.mp hstore
      refine ⟨v, hjson, ?_⟩
      cases htable : l.tablePath with
      | none =>
        simp only [htable] at hrest
        exact (Act.pure_ok hrest).2
      | some path =>
        simp only [htable] at hrest
        exact onWorld_ok_iff.mp hrest
    · rintro ⟨v, hjson, hrest⟩
      have hstore : onWorld (Store.writeJson l.path (documentJson l.entries)) (l, w) =
          (.ok (), (l, v)) := onWorld_ok_iff.mpr ⟨v, hjson, rfl⟩
      rw [Act.bind_of_ok hstore]
      cases htable : l.tablePath with
      | none =>
        simp only [htable] at hrest ⊢
        rw [hrest]
        rfl
      | some path =>
        simp only [htable] at hrest ⊢
        exact onWorld_ok_iff.mpr hrest

theorem writeFiles_holds {r : Route} (h : writeFiles (l, w) = (.ok (), (l', w')))
    (hr : w.route? l.path = some r) (hown : r.place ∉ r.links)
    (htable : ∀ path ∈ l.tablePath, ∃ t, w.route? path = some t ∧ Beside r t) :
    l' = l ∧ l.content.newerSchema = none ∧
      w'.Holds l.path r (Store.jsonText (documentJson l.entries)).toUTF8 ∧
      ∀ path ∈ l.tablePath, ∃ t, Beside r t ∧ w'.Holds path t (markdown l.entries).toUTF8 := by
  obtain ⟨hnewer, v, hstore, hrest⟩ := writeFiles_ok_iff.mp h
  obtain ⟨hv, hheld⟩ := Store.write_ok hstore hr hown
  cases htablePath : l.tablePath with
  | none =>
    simp only [htablePath, Prod.mk.injEq] at hrest
    obtain ⟨rfl, rfl⟩ := hrest
    exact ⟨rfl, hnewer, hheld, by simp⟩
  | some path =>
    simp only [htablePath] at hrest
    obtain ⟨u, hwritten, hs⟩ := hrest
    obtain ⟨rfl, rfl⟩ := Prod.mk.inj hs
    obtain ⟨t, ht, hbeside⟩ := htable path htablePath
    -- The table is written second: the store's file must not turn its route, nor the table's file
    -- that of the store.
    have htv : v.route? path = some t := by
      refine hv.route ht fun q hq heq => ?_
      rw [List.mem_singleton.mp heq] at hq
      exact hbeside.table hq
    obtain ⟨hw, hshown⟩ := Store.write_ok hwritten htv hbeside.own
    refine ⟨rfl, hnewer, hheld.evolves hw (by simpa using hbeside.ends.symm) fun q hq heq => ?_, ?_⟩
    · rw [List.mem_singleton.mp heq] at hq
      exact hbeside.store hq
    · intro path' hpath
      obtain rfl := Option.some.inj hpath
      exact ⟨t, hbeside, hshown⟩

theorem writeFiles_ok (h : writeFiles (l, w) = (.ok (), (l', w')))
    (hsite : Site w l.path l.tablePath) :
    l' = l ∧ l.content.newerSchema = none ∧ Saved w' l.path l.tablePath l.entries := by
  obtain ⟨r, hr, hown, -, htable⟩ := hsite
  obtain ⟨rfl, hnewer, hheld, hshown⟩ := writeFiles_holds h hr hown htable
  refine ⟨rfl, hnewer, load_of_holds hheld, fun path hpath => ?_, r, hheld.route, hown,
    .inl ⟨_, hheld.find⟩, fun path hpath => ?_⟩
  · obtain ⟨t, -, ht⟩ := hshown path hpath
    exact Store.read?_of_holds ht
  · obtain ⟨t, hbeside, ht⟩ := hshown path hpath
    exact ⟨t, ht.route, hbeside⟩

def stamped (now : Instant) (e : LedgerEntry) : LedgerEntry := { e with date := some (e.date.getD now) }

def extended (l : Ledger) (w : World) (e : LedgerEntry) : Ledger :=
  { l with content := { Content.load w l.path with entries := (Content.load w l.path).entries ++ [e] } }

/-- Adding an entry: the lock is taken, the store is read again, and both files are written. -/
theorem add_ok_iff {now : Instant} {e a : LedgerEntry} {s : Ledger × World} :
    add now e (l, w) = (.ok a, s) ↔
      a = stamped now e ∧ ∃ v, Store.lock l.path w = (.ok (), v) ∧
        writeFiles (l.extended v (stamped now e), v) = (.ok (), s) := by
  constructor
  · intro h
    obtain ⟨_, _, hheld, h⟩ := Act.bind_ok h
    obtain ⟨v, hlock, rfl⟩ := lock_ok_iff.mp hheld
    obtain ⟨_, _, hreload, h⟩ := Act.bind_ok h
    cases hreload
    obtain ⟨_, _, hget, h⟩ := Act.bind_ok h
    cases hget
    obtain ⟨_, _, hset, h⟩ := Act.bind_ok h
    cases hset
    obtain ⟨_, s₁, hwrite, hpure⟩ := Act.bind_ok h
    obtain ⟨rfl, rfl⟩ := Act.pure_ok hpure
    exact ⟨rfl, v, hlock, hwrite⟩
  · rintro ⟨rfl, v, hlock, hwrite⟩
    rw [add, Act.bind_of_ok (lock_ok_iff.mpr ⟨v, hlock, rfl⟩), Act.bind_of_ok (x := reload) rfl,
      Act.bind_of_ok (x := get) rfl, Act.bind_of_ok (x := setEntries _) rfl]
    exact Act.bind_of_ok hwrite

theorem add_ok {now : Instant} {e a : LedgerEntry} (h : add now e (l, w) = (.ok a, (l', w')))
    (hsite : Site w l.path l.tablePath) :
    a = stamped now e ∧ (Content.load w l.path).newerSchema = none ∧
      l' = { l with content := .current ((Content.load w l.path).entries ++ [a]) } ∧
      Saved w' l.path l.tablePath ((Content.load w l.path).entries ++ [a]) := by
  obtain ⟨rfl, v, hlock, hwrite⟩ := add_ok_iff.mp h
  have hv : w.Grows v := Store.lock_grows hlock
  have hload : Content.load v l.path = Content.load w l.path := hsite.load_grows hv
  obtain ⟨hl', hnewer, hsaved⟩ := writeFiles_ok hwrite (hsite.grows hv)
  simp only [extended, entries, hload] at hl' hnewer hsaved
  rw [hnewer] at hl'
  exact ⟨rfl, hnewer, hl', hsaved⟩

theorem revoke_ok {now : Instant} {name : String} {answer : Bool}
    (h : revoke now name (l, w) = (.ok answer, (l', w'))) (hsite : Site w l.path l.tablePath) :
    match revokeLast now name (Content.load w l.path).entries with
    | none => answer = false ∧ l' = { l with content := .load w l.path } ∧ w.Grows w'
    | some es => answer = true ∧ (Content.load w l.path).newerSchema = none ∧
        l' = { l with content := .current es } ∧ Saved w' l.path l.tablePath es := by
  obtain ⟨_, _, hheld, h⟩ := Act.bind_ok h
  obtain ⟨v, hlock, rfl⟩ := lock_ok_iff.mp hheld
  have hv : w.Grows v := Store.lock_grows hlock
  obtain ⟨_, _, hreload, h⟩ := Act.bind_ok h
  cases hreload
  obtain ⟨_, _, hget, h⟩ := Act.bind_ok h
  cases hget
  have hload : Content.load v l.path = Content.load w l.path := hsite.load_grows hv
  simp only [entries, hload] at h
  cases hlast : revokeLast now name (Content.load w l.path).entries with
  | none =>
    simp only [hlast] at h
    obtain ⟨ha, hs⟩ := Act.pure_ok h
    obtain ⟨hl', hv'⟩ := Prod.mk.inj hs
    subst v
    exact ⟨ha, hl', hv⟩
  | some es =>
    simp only [hlast] at h
    obtain ⟨_, _, hset, h⟩ := Act.bind_ok h
    cases hset
    obtain ⟨_, ⟨l₂, v₂⟩, hwrite, hpure⟩ := Act.bind_ok h
    obtain ⟨ha, hs⟩ := Act.pure_ok hpure
    obtain ⟨hl₂, hv₂⟩ := Prod.mk.inj hs
    subst l₂ v₂
    obtain ⟨hl', hnewer, hsaved⟩ := writeFiles_ok hwrite (hsite.grows hv)
    simp only [entries] at hl' hnewer hsaved
    rw [hnewer] at hl'
    exact ⟨ha, hnewer, hl', hsaved⟩

end Act
end SkillAudit.Ledger
