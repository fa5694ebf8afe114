import Mathlib
import SkillAudit.Proofs.LedgerStore

/-!
Trees that differ only in what their files hold. Writing a state file succeeds in both or in
neither, whatever is written, and so does adding an entry to a ledger.
-/
namespace SkillAudit

/-- What stands somewhere, but for the bytes of a file. -/
def Node.shape : Node → Node
  | .file _ => .file .empty
  | n => n

namespace World

def Spot.shape : Spot → Spot
  | .taken p n => .taken p n.shape
  | .free p => .free p

/-- Trees with the same directories, links and places of files. -/
structure Alike (w w' : World) : Prop where
  cwd : w'.cwd = w.cwd
  shape : ∀ p, (w'.at? p).map Node.shape = (w.at? p).map Node.shape

namespace Alike

theorem refl (w : World) : Alike w w := ⟨rfl, fun _ => rfl⟩

variable {w w' : World} (h : Alike w w') {p : Place}
include h

theorem none (hp : w.at? p = none) : w'.at? p = none := by
  have hshape := h.shape p
  rw [hp] at hshape
  simpa using hshape

theorem dir (hp : w.at? p = some .dir) : w'.at? p = some .dir := by
  have hshape := h.shape p
  rw [hp] at hshape
  cases hp' : w'.at? p with
  | none => simp [hp'] at hshape
  | some n => cases n <;> simp_all [Node.shape]

theorem link {t : String} (hp : w.at? p = some (.link t)) : w'.at? p = some (.link t) := by
  have hshape := h.shape p
  rw [hp] at hshape
  cases hp' : w'.at? p with
  | none => simp [hp'] at hshape
  | some n => cases n <;> simp_all [Node.shape]

theorem file {bytes : ByteArray} (hp : w.at? p = some (.file bytes)) :
    ∃ bytes', w'.at? p = some (.file bytes') := by
  have hshape := h.shape p
  rw [hp] at hshape
  cases hp' : w'.at? p with
  | none => simp [hp'] at hshape
  | some n => cases n <;> simp_all [Node.shape]

theorem put {n n' : Node} (hn : n'.shape = n.shape) : Alike (w.put p n) (w'.put p n') where
  cwd := h.cwd
  shape q := by
    by_cases hq : q = p
    · subst hq
      by_cases hnil : q = []
      · subst hnil
        rfl
      · simp [at?_put_self _ hnil, hn]
    · rw [at?_put_ne _ hq, at?_put_ne _ hq, h.shape]

theorem walk (follow slash : Bool) (links : Nat) (here : Place) (names : List String) :
    (w'.walk follow slash links here names).map Spot.shape =
      (w.walk follow slash links here names).map Spot.shape := by
  fun_induction World.walk w follow slash links here names with
  | case1 => rw [World.walk]
  | case2 links here name rest hidle ih => rw [World.walk, if_pos hidle, ih]
  | case3 links here name rest hidle hup ih => rw [World.walk, if_neg hidle, if_pos hup, ih]
  | case4 links here name rest hidle hup hlong =>
    rw [World.walk, if_neg hidle, if_neg hup, if_pos hlong]
  | case5 links here name rest hidle hup hshort place hat hlast
  | case6 links here name rest hidle hup hshort place hat hlast =>
    have hat' : w'.at? (here ++ [name]) = .none := h.none hat
    simp [World.walk, hidle, hup, hshort, hat', hlast, place]
  | case7 links here name rest hidle hup hshort place hat ih =>
    have hat' : w'.at? (here ++ [name]) = some .dir := h.dir hat
    simpa [World.walk, hidle, hup, hshort, hat'] using ih
  | case8 links here name rest hidle hup hshort place bytes hat hlast =>
    obtain ⟨bytes', hat'⟩ := h.file (p := here ++ [name]) hat
    simp [World.walk, hidle, hup, hshort, hat', hlast, Except.map, Spot.shape, Node.shape, place]
  | case9 links here name rest hidle hup hshort place bytes hat hlast =>
    obtain ⟨bytes', hat'⟩ := h.file (p := here ++ [name]) hat
    simp [World.walk, hidle, hup, hshort, hat', hlast]
  | case10 links here name rest hidle hup hshort place target hat hlast =>
    have hat' : w'.at? (here ++ [name]) = some (.link target) := h.link hat
    simp [World.walk, hidle, hup, hshort, hat', hlast, place]
  | case11 here name rest hidle hup hshort place target hat hlast =>
    have hat' : w'.at? (here ++ [name]) = some (.link target) := h.link hat
    simp [World.walk, hidle, hup, hshort, hat', hlast]
  | case12 here name rest hidle hup hshort place target hat hlast links htarget =>
    have hat' : w'.at? (here ++ [name]) = some (.link target) := h.link hat
    simp only [World.walk, hidle, hup, hshort, hat', hlast, htarget, if_false, if_true,
      Bool.false_eq_true]
  | case13 here name rest hidle hup hshort place target hat hlast links htarget ih =>
    have hat' : w'.at? (here ++ [name]) = some (.link target) := h.link hat
    simp only [dite_eq_ite] at ih
    simp only [World.walk, hidle, hup, hshort, hat', hlast, htarget, if_false, Bool.false_eq_true, ih]

theorem resolve (follow : Bool) (path : String) :
    (w'.resolve follow path).map Spot.shape = (w.resolve follow path).map Spot.shape := by
  have hstart : w'.start path = w.start path := by rw [start, start, h.cwd]
  rw [resolve_eq, resolve_eq, hstart]
  split
  · rfl
  · split
    · rfl
    · split
      · rfl
      · exact h.walk _ _ _ _ _

/-- A path leads to like things in both trees, or to the same fault. -/
theorem resolve_cases (follow : Bool) (path : String) :
    (∃ e, w.resolve follow path = .error e ∧ w'.resolve follow path = .error e) ∨
      (∃ p, w.resolve follow path = .ok (.free p) ∧ w'.resolve follow path = .ok (.free p)) ∨
      ∃ p n n', n'.shape = n.shape ∧ w.resolve follow path = .ok (.taken p n) ∧
        w'.resolve follow path = .ok (.taken p n') := by
  have hshape := h.resolve follow path
  cases hr : w.resolve follow path with
  | error e =>
    cases hr' : w'.resolve follow path with
    | error e' => simp_all [Except.map]
    | ok spot => simp [hr, hr', Except.map] at hshape
  | ok spot =>
    cases hr' : w'.resolve follow path with
    | error e => simp [hr, hr', Except.map] at hshape
    | ok spot' =>
      simp only [hr, hr', Except.map, Except.ok.injEq] at hshape
      cases spot with
      | free p => cases spot' <;> simp_all [Spot.shape]
      | taken p n =>
        cases spot' with
        | free p' => simp [Spot.shape] at hshape
        | taken p' n' =>
          obtain ⟨rfl, hn⟩ := Spot.taken.inj hshape
          exact .inr (.inr ⟨_, n, n', hn, rfl, rfl⟩)

theorem find (path : String) :
    (w'.find path).map (fun x => (x.1, x.2.shape)) = (w.find path).map fun x => (x.1, x.2.shape) := by
  unfold World.find
  rcases h.resolve_cases true path with ⟨e, hr, hr'⟩ | ⟨p, hr, hr'⟩ | ⟨p, n, n', hn, hr, hr'⟩
  · simp [hr, hr']
  · simp [hr, hr']
  · simp [hr, hr', hn, Except.map]

theorem isDir (path : String) : w'.isDir path = w.isDir path := by
  have hfind := h.find path
  unfold World.isDir
  cases hf : w.find path with
  | error e =>
    cases hf' : w'.find path with
    | error e' => rfl
    | ok x => simp [hf, hf', Except.map] at hfind
  | ok x =>
    cases hf' : w'.find path with
    | error e' => simp [hf, hf', Except.map] at hfind
    | ok x' =>
      obtain ⟨p, n⟩ := x
      obtain ⟨p', n'⟩ := x'
      cases n <;> cases n' <;> simp_all [Except.map, Node.shape]

omit h

/-- Results of a change of the tree that are alike, or the same fault. -/
def Results (x x' : Except OsError World) : Prop :=
  (∃ e, x = .error e ∧ x' = .error e) ∨ ∃ v v', x = .ok v ∧ x' = .ok v' ∧ Alike v v'

include h

theorem makeDir (path : String) : Results (w.makeDir path) (w'.makeDir path) := by
  unfold World.makeDir
  rcases h.resolve_cases false (World.makeDir.trimSlashes path) with
    ⟨e, hr, hr'⟩ | ⟨p, hr, hr'⟩ | ⟨p, n, n', -, hr, hr'⟩
  · rw [hr, hr']
    exact .inl ⟨_, rfl, rfl⟩
  · rw [hr, hr']
    exact .inr ⟨_, _, rfl, rfl, h.put rfl⟩
  · rw [hr, hr']
    exact .inl ⟨_, rfl, rfl⟩

theorem replaceFile (path : String) (bytes bytes' : ByteArray) :
    Results (w.replaceFile path bytes) (w'.replaceFile path bytes') := by
  unfold World.replaceFile
  split
  · exact .inl ⟨_, rfl, rfl⟩
  · split
    · exact .inl ⟨_, rfl, rfl⟩
    · split
      · exact .inl ⟨_, rfl, rfl⟩
      · split
        · exact .inl ⟨_, rfl, rfl⟩
        · rcases h.resolve_cases false path with
            ⟨e, hr, hr'⟩ | ⟨p, hr, hr'⟩ | ⟨p, n, n', hn, hr, hr'⟩
          · rw [hr, hr']
            exact .inl ⟨_, rfl, rfl⟩
          · rw [hr, hr']
            exact .inr ⟨_, _, rfl, rfl, h.put rfl⟩
          · rw [hr, hr']
            cases n <;> cases n' <;> cases hn
            · exact .inr ⟨_, _, rfl, rfl, h.put rfl⟩
            · exact .inl ⟨_, rfl, rfl⟩
            · exact .inr ⟨_, _, rfl, rfl, h.put rfl⟩

omit h

def Acts {ε α : Type} (x x' : Except ε α × World) : Prop :=
  ∃ answer v v', x = (answer, v) ∧ x' = (answer, v') ∧ Alike v v'

theorem Acts.succeeds {ε α : Type} {x x' : Except ε α × World} {a : α} {v : World}
    (h : Acts x x') (hx : x = (.ok a, v)) : ∃ v', x' = (.ok a, v') ∧ Alike v v' := by
  obtain ⟨answer, u, u', rfl, rfl, hu⟩ := h
  cases hx
  exact ⟨u', rfl, hu⟩

theorem unlessDir {w w' : World} (h : Alike w w') (path : String) (e : OsError) :
    Acts (if w.isDir path then (.ok (), w) else (.error e, w))
      (if w'.isDir path then (.ok (), w') else (.error e, w')) := by
  rw [h.isDir path]
  split
  · exact ⟨_, _, _, rfl, rfl, h⟩
  · exact ⟨_, _, _, rfl, rfl, h⟩

theorem makeDirsWithin (fuel : Nat) {w w' : World} (h : Alike w w') (path : String) :
    Acts (World.makeDirsWithin fuel w path) (World.makeDirsWithin fuel w' path) := by
  induction fuel generalizing w w' path with
  | zero => exact ⟨_, _, _, rfl, rfl, h⟩
  | succ fuel ih =>
    unfold World.makeDirsWithin
    split
    · exact ⟨_, _, _, rfl, rfl, h⟩
    · rcases h.makeDir path with ⟨e, hm, hm'⟩ | ⟨v, v', hm, hm', hv⟩
      · rw [hm, hm']
        cases e with
        | notFound =>
          simp only
          cases Path.parent path with
          | none => exact ⟨_, _, _, rfl, rfl, h⟩
          | some up =>
            obtain ⟨answer, v, v', hmade, hmade', hv⟩ := ih h up
            simp only [hmade, hmade']
            cases answer with
            | error e => exact ⟨_, _, _, rfl, rfl, hv⟩
            | ok _ =>
              rcases hv.makeDir path with ⟨e, hm, hm'⟩ | ⟨u, u', hm, hm', hu⟩
              · simp only [hm, hm']
                exact hv.unlessDir path e
              · simp only [hm, hm']
                exact ⟨_, _, _, rfl, rfl, hu⟩
        | _ => exact h.unlessDir path _
      · rw [hm, hm']
        exact ⟨_, _, _, rfl, rfl, hv⟩

theorem makeDirs {w w' : World} (h : Alike w w') (path : String) :
    Acts (Act.makeDirs path w) (Act.makeDirs path w') := by
  unfold Act.makeDirs World.makeDirs
  obtain ⟨answer, v, v', hmade, hmade', hv⟩ := h.makeDirsWithin (path.length + 1) path
  rw [hmade, hmade']
  cases answer with
  | error e => exact ⟨_, _, _, rfl, rfl, hv⟩
  | ok _ => exact ⟨_, _, _, rfl, rfl, hv⟩

theorem change {w w' : World} (h : Alike w w') {f f' : World → Except OsError World}
    (hf : Results (f w) (f' w')) (path : String) :
    Acts (Act.change path f w) (Act.change path f' w') := by
  unfold Act.change
  rcases hf with ⟨e, hf, hf'⟩ | ⟨v, v', hf, hf', hv⟩
  · rw [hf, hf']
    exact ⟨_, _, _, rfl, rfl, h⟩
  · rw [hf, hf']
    exact ⟨_, _, _, rfl, rfl, hv⟩

end Alike
end World

/-- Whether a state file can be written does not depend on what is written, nor on what other files
hold. -/
theorem Store.write_alike {w w' : World} (h : w.Alike w') (path : String)
    (bytes bytes' : ByteArray) :
    World.Alike.Acts (Store.write path bytes w) (Store.write path bytes' w') := by
  obtain ⟨answer, v, v', hmade, hmade', hv⟩ := h.makeDirs (directoryOf path)
  unfold Store.write
  cases answer with
  | error e =>
    rw [Act.bind_of_error hmade, Act.bind_of_error hmade']
    exact ⟨_, _, _, rfl, rfl, hv⟩
  | ok _ =>
    rw [Act.bind_of_ok hmade, Act.bind_of_ok hmade']
    exact hv.change (hv.replaceFile path bytes bytes') path

namespace Ledger

theorem writeFiles_alike {l m : Ledger} {w w' : World} {s : Ledger × World}
    (hpath : m.path = l.path) (htable : m.tablePath = l.tablePath)
    (hnewer : m.content.newerSchema = l.content.newerSchema) (hw : w.Alike w')
    (h : writeFiles (l, w) = (.ok (), s)) : ∃ s', writeFiles (m, w') = (.ok (), s') := by
  obtain ⟨hschema, v, hstore, hrest⟩ := writeFiles_ok_iff.mp h
  obtain ⟨v', hstore', hv⟩ := (Store.write_alike hw l.path _
    (Store.jsonText (documentJson m.entries)).toUTF8).succeeds hstore
  cases htablePath : l.tablePath with
  | none =>
    refine ⟨(m, v'), writeFiles_ok_iff.mpr ⟨hnewer.trans hschema, v', hpath ▸ hstore', ?_⟩⟩
    rw [htable, htablePath]
  | some path =>
    simp only [htablePath] at hrest
    obtain ⟨u, hshown, -⟩ := hrest
    obtain ⟨u', hshown', -⟩ := (Store.write_alike hv path _
      (markdown m.entries).toUTF8).succeeds hshown
    refine ⟨(m, u'), writeFiles_ok_iff.mpr ⟨hnewer.trans hschema, v', hpath ▸ hstore', ?_⟩⟩
    rw [htable, htablePath]
    exact ⟨u', hshown', rfl⟩

/-- Whether an entry can be added does not depend on the entry. -/
theorem add_succeeds {now : Instant} {e a : LedgerEntry} {l : Ledger} {w : World}
    {s : Ledger × World} (h : add now e (l, w) = (.ok a, s)) (e' : LedgerEntry) :
    ∃ a' s', add now e' (l, w) = (.ok a', s') := by
  obtain ⟨-, v, hlock, hwrite⟩ := add_ok_iff.mp h
  obtain ⟨s', hwrite'⟩ := writeFiles_alike (l := l.extended v (stamped now e))
    (m := l.extended v (stamped now e')) rfl rfl rfl (.refl v) hwrite
  exact ⟨_, s', add_ok_iff.mpr ⟨rfl, v, hlock, hwrite'⟩⟩

end Ledger
end SkillAudit
