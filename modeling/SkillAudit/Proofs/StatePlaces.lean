import Mathlib
import SkillAudit.Pending
import SkillAudit.Proofs.GateCheck
import SkillAudit.Proofs.TreeKept

/-!
Where keeping state changes the file tree: at the state files themselves, at their locks, and at
directories that were missing on the way to either. Nothing else changes, whether or not the state
could be written.
-/
namespace SkillAudit

namespace World

/-- What a tree becomes while directories are made and files are put at places that satisfy `P`. -/
structure Changes (P : Place → Prop) (w v : World) : Prop where
  advances : Advances w v
  only : ∀ q, v.at? q ≠ w.at? q → P q

namespace Changes
variable {P : Place → Prop} {w u v : World}

theorem refl (P : Place → Prop) (w : World) : Changes P w w := ⟨.refl w, fun _ h => absurd rfl h⟩

theorem builds (h : Changes P w u) {Q : Place → Prop} (hv : Builds Q u v)
    (hPQ : ∀ q, w.at? q = none → Q q → P q) : Changes P w v where
  advances := h.advances.builds hv
  only q hq := by
    rcases hv.made q with hsame | ⟨hfree, -, hQ⟩
    · exact h.only q (hsame ▸ hq)
    · exact hPQ q (h.advances.none q hfree) hQ

theorem putFile (h : Changes P w u) {p : Place} (hp : p ≠ []) (hP : P p) (bytes : ByteArray) :
    Changes P w (u.put p (.file bytes)) where
  advances := h.advances.putFile hp bytes
  only q hq := by
    by_cases hqp : q = p
    · exact hqp ▸ hP
    · exact h.only q (by rwa [at?_put_ne u hqp] at hq)

theorem makeDirs (h : Changes P w v) {path : String}
    (hP : ∀ q ∈ w.onWay path, w.at? q = none → P q) : Changes P w (v.makeDirs path).2 :=
  h.builds (h.advances.makeDirs path) fun q hfree hq => hP q hq hfree

theorem touch (h : Changes P w v) {path : String} {v' : World}
    (hP : ∀ q ∈ w.onWay path, w.at? q = none → P q) (hok : v.touch path = .ok v') :
    Changes P w v' := by
  rcases touch_ok hok with rfl | ⟨p, hp, rfl⟩
  · exact h
  · obtain ⟨hfree, hne⟩ := resolve_free hp
    obtain ⟨trail, hleads⟩ := leads_of_resolve hp
    rw [h.advances.start] at hleads
    have hmem := h.advances.mem_passes_of_free hleads
    rw [← onWay_eq] at hmem
    exact h.putFile hne (hP p hmem (h.advances.none p hfree)) .empty

/-- A file is replaced where its path leads, a link at its end not being followed. -/
theorem replaceFile (h : Changes P w v) {path : String} {bytes : ByteArray} {v' : World}
    (hP : ∀ r, w.route? path = some r → P r.place) (hok : v.replaceFile path bytes = .ok v') :
    Changes P w v' := by
  obtain ⟨hslash, spot, hspot, hdir, rfl⟩ := replaceFile_ok hok
  obtain ⟨trail, hleads⟩ := leads_of_resolve hspot
  rw [hslash] at hleads
  obtain ⟨hne, -⟩ := leads_place_free hleads hdir
  rw [h.advances.start] at hleads
  exact h.putFile hne (hP ⟨trail, spot.place⟩ (h.advances.course_of_leads hleads)) bytes

end Changes
end World

namespace Store

/-- A property of trees that is kept while a state file is. -/
structure Keeps (P : World → Prop) (path : String) : Prop where
  directory : ∀ v up, up = directoryOf path ∨ Path.parent (lockPath path) = some up →
    P v → P (v.makeDirs up).2
  lock : ∀ v v', v.touch (lockPath path) = .ok v' → P v → P v'
  file : ∀ v v' bytes, v.replaceFile path bytes = .ok v' → P v → P v'

section Keeps
variable {P : World → Prop} {path : String} {v : World}

theorem makeDirs_keeps (hdirs : P v → P (v.makeDirs path).2) (h : P v) :
    P (Act.makeDirs path v).2 := by
  have hmade := hdirs h
  unfold Act.makeDirs
  split
  next heq => simpa [heq] using hmade
  next heq => simpa [heq] using hmade

theorem change_keeps {f : World → Except OsError World} (hf : ∀ v', f v = .ok v' → P v → P v')
    (h : P v) : P (Act.change path f v).2 := by
  unfold Act.change
  split
  next v' hok => exact hf v' hok h
  next => exact h

theorem lock_keeps (hP : Keeps P path) (h : P v) : P (lock path v).2 := by
  unfold lock
  cases hparent : Path.parent (lockPath path) with
  | some dir =>
    exact Act.bind_keeps (R := fun a b => P a → P b) (fun h h' => h' ∘ h)
      (makeDirs_keeps (hP.directory v dir (.inr hparent)))
      (fun _ u _ => change_keeps fun u' => hP.lock u u') h
  | none => exact change_keeps (fun v' => hP.lock v v') h

theorem write_keeps (hP : Keeps P path) (h : P v) (bytes : ByteArray) : P (write path bytes v).2 :=
  Act.bind_keeps (R := fun a b => P a → P b) (fun h h' => h' ∘ h)
    (makeDirs_keeps (hP.directory v _ (.inl rfl)))
    (fun _ u _ => change_keeps fun u' => hP.file u u' bytes) h

end Keeps

/-- The places that keeping a state file may change: where the file is, and what is missing on the
way to it and to its lock. -/
def Touches (w : World) (path : String) (q : Place) : Prop :=
  (∃ r, w.route? path = some r ∧ r.place = q) ∨
    (w.at? q = none ∧ (q ∈ w.onWay path ∨ q ∈ w.onWay (lockPath path)))

theorem onWay_directoryOf (w : World) (path : String) :
    w.onWay (directoryOf path) ⊆ w.onWay path := by
  have hdot : w.onWay "." = [] := by
    have hsteps : Path.steps "." = [] := by decide
    rw [World.onWay, hsteps, World.passes]
  unfold directoryOf
  cases hparent : Path.parent path with
  | none => simp [hdot]
  | some dir =>
    by_cases hempty : dir = ""
    · simp [hempty, hdot]
    · simpa [hempty] using World.onWay_parent hparent w

theorem keeps_changes {P : Place → Prop} {w : World} {path : String}
    (hP : ∀ q, Touches w path q → P q) : Keeps (w.Changes P) path where
  directory v up hup h := h.makeDirs fun q hq hfree => by
    rcases hup with rfl | hparent
    · exact hP q (.inr ⟨hfree, .inl (onWay_directoryOf w path hq)⟩)
    · exact hP q (.inr ⟨hfree, .inr (World.onWay_parent hparent w hq)⟩)
  lock v v' hok h := h.touch (fun q hq hfree => hP q (.inr ⟨hfree, .inr hq⟩)) hok
  file v v' bytes hok h := h.replaceFile (fun r hr => hP _ (.inl ⟨r, hr, rfl⟩)) hok

end Store

section Local
variable {w : World} {path name : String}

/-- The way to a name in the current directory, if that is no link. -/
theorem LocalPath.onWay (h : LocalPath path name)
    (hlink : ∀ t, w.at? (w.cwd ++ [name]) ≠ some (.link t)) :
    w.onWay path = [w.cwd ++ [name]] := by
  obtain ⟨dots, hnames, hidle⟩ := h.split
  rw [World.onWay_eq, h.start w, hnames]
  clear hnames
  induction dots with
  | nil => rw [List.nil_append, World.passes_step h.step hlink, World.passes]
  | cons d rest ih =>
    rw [List.cons_append, World.passes_idle (hidle d (by simp))]
    exact ih fun x hx => hidle x (by simp [hx])

/-- A state file in the current directory is kept there, and so is its lock. -/
theorem LocalPath.touches {lockName : String} {q : Place} (h : LocalPath path name)
    (hlock : LocalPath (Store.lockPath path) lockName) (hopen : Open w name)
    (hopenLock : Open w lockName) (hq : Store.Touches w path q) :
    q = w.cwd ++ [name] ∨ q = w.cwd ++ [lockName] := by
  have hlink : ∀ {n}, Open w n → ∀ t, w.at? (w.cwd ++ [n]) ≠ some (.link t) := by
    rintro n (hat | ⟨bytes, hat⟩) t <;> simp [hat]
  rcases hq with ⟨r, hr, rfl⟩ | ⟨-, hway | hway⟩
  · rw [h.route w] at hr
    obtain rfl := Option.some.inj hr
    exact .inl rfl
  · rw [h.onWay (hlink hopen)] at hway
    exact .inl (List.mem_singleton.mp hway)
  · rw [hlock.onWay (hlink hopenLock)] at hway
    exact .inr (List.mem_singleton.mp hway)

end Local

namespace Pending
variable {P : World → Prop} {path : String} {v : World}

theorem record_keeps (hP : Store.Keeps P path) (h : P v) (now : Instant) (d : Decision)
    (root : String) (source : Option String) : P (record path now d root source v).2 := by
  refine Act.bind_keeps (R := fun a b => P a → P b) (fun h h' => h' ∘ h)
    (Store.lock_keeps hP) (fun _ u _ h => ?_) h
  rw [Act.bind_of_ok (x := get) rfl]
  exact Store.write_keeps hP h _

theorem take_keeps (hP : Store.Keeps P path) (h : P v) (name : String) :
    P (take path name v).2 := by
  refine Act.bind_keeps (R := fun a b => P a → P b) (fun h h' => h' ∘ h)
    (Store.lock_keeps hP) (fun _ u _ h => ?_) h
  rw [Act.bind_of_ok (x := get) rfl]
  cases (load u path).get? name with
  | none => exact h
  | some review =>
    exact Act.bind_keeps (R := fun a b => P a → P b) (fun h h' => h' ∘ h)
      (fun h => Store.write_keeps hP h _) (fun _ _ _ => id) h

end Pending

namespace Ledger

/-- What an action does to a ledger and the file tree: the paths stay, and so does a property of the
tree. -/
structure Confined (P : World → Prop) (s t : Ledger × World) : Prop where
  path : t.1.path = s.1.path
  tablePath : t.1.tablePath = s.1.tablePath
  world : P s.2 → P t.2

section Confined
variable {P : World → Prop}

theorem Confined.trans {a b c : Ledger × World} (h : Confined P a b) (h' : Confined P b c) :
    Confined P a c :=
  ⟨h'.path.trans h.path, h'.tablePath.trans h.tablePath, h'.world ∘ h.world⟩

theorem onWorld_confined {α : Type} {act : SkillAudit.Act α} {s : Ledger × World}
    (h : P s.2 → P (act s.2).2) : Confined P s (onWorld act s).2 := ⟨rfl, rfl, h⟩

theorem writeFiles_confined (s : Ledger × World) (hpath : Store.Keeps P s.1.path)
    (htable : ∀ path ∈ s.1.tablePath, Store.Keeps P path) : Confined P s (writeFiles s).2 := by
  rw [writeFiles, Act.bind_of_ok (x := get) rfl]
  cases hnewer : s.1.content.newerSchema with
  | some found =>
    simp only [hnewer]
    exact ⟨rfl, rfl, id⟩
  | none =>
    simp only [hnewer]
    refine Act.bind_keeps Confined.trans
      (onWorld_confined fun h => Store.write_keeps hpath h _) fun _ t ht => ?_
    cases hmarkdown : s.1.tablePath with
    | none => exact ⟨rfl, rfl, id⟩
    | some path => exact onWorld_confined fun h => Store.write_keeps (htable path hmarkdown) h _

section Change
variable (s : Ledger × World) (hpath : Store.Keeps P s.1.path)
  (htable : ∀ path ∈ s.1.tablePath, Store.Keeps P path)
include hpath htable

/-- The lock is taken and the entries are read again; then both files may be written with others. -/
theorem edit_confined {α : Type} (edit : List LedgerEntry → Option (List LedgerEntry))
    (answer : Bool → α) : Confined P s ((do
      lock
      reload
      match edit (← get).1.entries with
      | none => return answer false
      | some entries =>
        setEntries entries
        writeFiles
        return answer true : Ledger.Act α) s).2 := by
  have hlock : Confined P s (lock s).2 := onWorld_confined (Store.lock_keeps hpath)
  refine Act.bind_keeps Confined.trans hlock fun _ t ht => ?_
  rw [ht] at hlock
  -- The tree is as it was, and the files are those of the same ledger.
  have hentered : ∀ content, Confined P t ({ t.1 with content }, t.2) := fun _ => ⟨rfl, rfl, id⟩
  rw [Act.bind_of_ok (x := reload) rfl, Act.bind_of_ok (x := get) rfl]
  generalize edit _ = edited
  cases edited with
  | none => exact hentered _
  | some entries =>
    simp only
    rw [Act.bind_of_ok (x := setEntries _) rfl]
    refine (hentered _).trans (Act.bind_keeps Confined.trans (writeFiles_confined _ ?_ ?_)
      fun _ _ _ => ⟨rfl, rfl, id⟩)
    · exact hlock.path ▸ hpath
    · intro path hmem
      exact htable path (hlock.tablePath ▸ hmem)

theorem add_confined (now : Instant) (e : LedgerEntry) : Confined P s (add now e s).2 :=
  edit_confined s hpath htable (fun entries => some (entries ++ [stamped now e]))
    fun _ => stamped now e

theorem revoke_confined (now : Instant) (name : String) : Confined P s (revoke now name s).2 :=
  edit_confined s hpath htable (revokeLast now name) id

end Change
end Confined
end Ledger

/-- What is kept while the ledger is, a check keeps. -/
theorem Gate.check_keeps {P : World → Prop} {w : World} {l : Ledger}
    (hpath : Store.Keeps P l.path) (htable : ∀ path ∈ l.tablePath, Store.Keeps P path) (h : P w)
    (g : Gate) (now : Instant) (path : String) (options : Options) :
    P (g.check now path options (l, w)).2.2 := by
  rw [check_eq]
  cases Package.locate? w path g.policy.manifestFile with
  | none => exact h
  | some root =>
    simp only [settle_eq]
    generalize g.decision w (.load w l.path l.tablePath) root options = d
    split
    next =>
      have hadd := Ledger.add_confined (.load w l.path l.tablePath, w) hpath htable now
        (entryOf d .blocked .auto none options.source)
      split
      next t heq => exact (heq ▸ hadd).world h
      next t heq => exact (heq ▸ hadd).world h
    next => exact h

end SkillAudit
