import Mathlib
import SkillAudit.Proofs.Shape

/-!
Ledgers in the current directory. There an entry can always be added, unless something else than a
file is in the way; and a store and a table that are one file lose every entry.
-/
namespace SkillAudit
open World

theorem Json.Reader.value_hash (fuel : Nat) (rest : List Char) : value fuel ('#' :: rest) = none := by
  have hdigits : ('#' :: rest).takeWhile isDigit = [] := by simp [isDigit]
  cases fuel with
  | zero => rfl
  | succ fuel => simp [value, skipSpace, isSpace, numberTail, hdigits]

/-- Nothing has changed at a place and below it. -/
structure World.Spares (w w' : World) (p : Place) : Prop where
  cwd : w'.cwd = w.cwd
  at? : ∀ q, p <+: q → w'.at? q = w.at? q
  below : w'.below p = w.below p

namespace World.Spares

theorem refl (w : World) (p : Place) : Spares w w p := ⟨rfl, fun _ _ => rfl, rfl⟩

theorem trans {u v w : World} {p : Place} (h : Spares u v p) (h' : Spares v w p) : Spares u w p :=
  ⟨h'.cwd.trans h.cwd, fun q hq => (h'.at? q hq).trans (h.at? q hq), h'.below.trans h.below⟩

theorem put (w : World) {p q : Place} (h : ¬ p <+: q) (n : Node) : Spares w (w.put q n) p where
  cwd := rfl
  at? := by
    intro q' hq'
    have hne : q' ≠ q := by
      rintro rfl
      exact h hq'
    exact at?_put_ne w hne n
  below := by
    have hq : p.isPrefixOf? q = none := by
      cases hrest : p.isPrefixOf? q with
      | none => rfl
      | some rest => exact absurd ⟨rest, List.append_eq_of_isPrefixOf?_eq_some hrest⟩ h
    simp only [World.below, World.put, List.filterMap_cons, hq, List.filterMap_filter]
    congr 1
    funext x
    by_cases hx : x.1 = q
    · simp [hx, hq]
    · simp [hx]

end World.Spares

/-- A path of a file in the current directory. -/
structure LocalPath (path name : String) : Prop where
  busy : (path == "") = false
  zero : path.toList.contains '\x00' = false
  short : path.utf8ByteSize < 4096
  relative : Path.isAbsolute path = false
  slash : endsInSlash path = false
  slashes : path.toList.all (· == '/') = false
  last : ((Path.pieces path).getLast?.any fun p => p == "." || p == "..") = false
  step : IsStep name
  nameShort : name.utf8ByteSize ≤ 255
  names : (namesOf path).getLast? = some name
  idle : ∀ d ∈ (namesOf path).dropLast, walk.isIdle d = true
  dir : Store.directoryOf path = "."

instance (path name : String) : Decidable (LocalPath path name) :=
  decidable_of_iff
    ((path == "") = false ∧ path.toList.contains '\x00' = false ∧ path.utf8ByteSize < 4096 ∧
      Path.isAbsolute path = false ∧ endsInSlash path = false ∧
      path.toList.all (· == '/') = false ∧
      ((Path.pieces path).getLast?.any fun p => p == "." || p == "..") = false ∧
      (walk.isIdle name = false ∧ (name == "..") = false) ∧ name.utf8ByteSize ≤ 255 ∧
      (namesOf path).getLast? = some name ∧
      (∀ d ∈ (namesOf path).dropLast, walk.isIdle d = true) ∧ Store.directoryOf path = ".")
    ⟨fun ⟨h₁, h₂, h₃, h₄, h₅, h₆, h₇, h₈, h₉, h₁₀, h₁₁, h₁₂⟩ =>
      ⟨h₁, h₂, h₃, h₄, h₅, h₆, h₇, ⟨h₈.1, h₈.2⟩, h₉, h₁₀, h₁₁, h₁₂⟩,
     fun h => ⟨h.busy, h.zero, h.short, h.relative, h.slash, h.slashes, h.last,
      ⟨h.step.busy, h.step.down⟩, h.nameShort, h.names, h.idle, h.dir⟩⟩

/-- Nothing but a file stands under a name in the current directory. -/
def Open (w : World) (name : String) : Prop :=
  w.at? (w.cwd ++ [name]) = none ∨ ∃ bytes, w.at? (w.cwd ++ [name]) = some (.file bytes)

theorem Open.put {w : World} {name : String} (h : Open w name) (other : String)
    (bytes : ByteArray) : Open (w.put (w.cwd ++ [other]) (.file bytes)) name := by
  have hcwd : (w.put (w.cwd ++ [other]) (.file bytes)).cwd = w.cwd := rfl
  unfold Open
  rw [hcwd]
  by_cases heq : w.cwd ++ [name] = w.cwd ++ [other]
  · rw [heq, at?_put_self w (by simp)]
    exact .inr ⟨bytes, rfl⟩
  · rw [at?_put_ne w heq]
    exact h

theorem makeDirs_dot (w : World) : Act.makeDirs "." w = (.ok (), w) := by
  have hmake : w.makeDir "." = .error .exists := by
    have htrim : makeDir.trimSlashes "." = "." := by decide
    rw [makeDir, htrim, resolve_dot]
  have hdir : w.isDir "." = true := by
    simp only [isDir, find, resolve_dot]
  have hwithin : World.makeDirsWithin (".".length + 1) w "." = (.ok (), w) := by
    simp [makeDirsWithin, hmake, hdir]
  simp only [Act.makeDirs, World.makeDirs, hwithin]

namespace LocalPath
variable {path name : String} (h : LocalPath path name) (w : World)
include h

theorem start : w.start path = w.cwd := by simp [World.start, h.relative]

theorem split : ∃ dots, namesOf path = dots ++ [name] ∧ ∀ d ∈ dots, walk.isIdle d = true := by
  obtain ⟨dots, hnames⟩ := List.getLast?_eq_some_iff.mp h.names
  exact ⟨dots, hnames, by simpa [hnames] using h.idle⟩

theorem course (follow : Bool) :
    w.course follow linkLimit (w.start path) (namesOf path) =
      w.course follow linkLimit w.cwd [name] := by
  obtain ⟨dots, hnames, hidle⟩ := h.split
  rw [h.start w, hnames]
  clear hnames
  induction dots with
  | nil => rfl
  | cons d rest ih =>
    have hd : walk.isIdle d = true := hidle d (by simp)
    rw [List.cons_append, World.course, if_pos hd]
    exact ih fun x hx => hidle x (by simp [hx])

theorem route : w.route? path = some ⟨[], w.cwd ++ [name]⟩ := by
  rw [route?, h.course w, course_last h.step]

theorem resolve {follow : Bool} {spot : Spot}
    (hlast : Leads w follow false linkLimit w.cwd [name] [] spot) :
    w.resolve follow path = .ok spot := by
  have hleads : Leads w follow false linkLimit w.cwd (namesOf path) [] spot := by
    obtain ⟨dots, hnames, hidle⟩ := h.split
    rw [hnames]
    clear hnames
    induction dots with
    | nil => exact hlast
    | cons d rest ih => exact .idle (hidle d (by simp)) (ih fun x hx => hidle x (by simp [hx]))
  have hshort := h.short
  rw [resolve_eq, h.busy, h.zero, h.slash, h.start w]
  simp only [Bool.false_eq_true, if_false, ge_iff_le]
  rw [if_neg (by omega), walk_of_leads hleads]

theorem resolve_free (follow : Bool) (hat : w.at? (w.cwd ++ [name]) = none) :
    w.resolve follow path = .ok (.free (w.cwd ++ [name])) :=
  h.resolve w (.free h.step h.nameShort hat)

theorem resolve_file (follow : Bool) {bytes : ByteArray}
    (hat : w.at? (w.cwd ++ [name]) = some (.file bytes)) :
    w.resolve follow path = .ok (.taken (w.cwd ++ [name]) (.file bytes)) :=
  h.resolve w (.file h.step h.nameShort hat rfl)

theorem readText {text : String} (hat : w.at? (w.cwd ++ [name]) = some (.file text.toUTF8)) :
    w.readText path = .ok text := by
  simp only [World.readText, World.readFile, World.find, h.resolve_file w true hat,
    Store.fromUTF8?_toUTF8]

theorem write (hopen : Open w name) (bytes : ByteArray) :
    Store.write path bytes w = (.ok (), w.put (w.cwd ++ [name]) (.file bytes)) := by
  have hreplace : w.replaceFile path bytes = .ok (w.put (w.cwd ++ [name]) (.file bytes)) := by
    have hslash : (path.toList.getLast? == some '/') = false := h.slash
    unfold replaceFile
    rw [h.busy, h.last, h.slashes, hslash]
    simp only [Bool.false_eq_true, if_false]
    rcases hopen with hat | ⟨bytes', hat⟩
    · rw [h.resolve_free w false hat]
    · rw [h.resolve_file w false hat]
  rw [Store.write, h.dir, Act.bind_of_ok (makeDirs_dot w)]
  simp only [Act.change, hreplace]

theorem missing (hat : w.at? (w.cwd ++ [name]) = none) : w.pathExists path = false := by
  simp only [pathExists, World.find, h.resolve_free w true hat]

theorem goal (hlink : ∀ t, w.at? (w.cwd ++ [name]) ≠ some (.link t)) :
    w.goal? path = some ⟨[], w.cwd ++ [name]⟩ := by
  rw [goal?, h.course w, course_step h.step hlink, World.course]

theorem steady (hopen : Open w name) : Store.Steady w path := by
  rcases hopen with hat | ⟨bytes, hat⟩
  · refine .inr fun g hg => ?_
    rw [h.goal w (by simp [hat])] at hg
    obtain rfl := Option.some.inj hg
    exact .inl hat
  · exact .inl ⟨_, by simp only [World.find, h.resolve_file w true hat]; rfl⟩

theorem holds {bytes : ByteArray} (hat : w.at? (w.cwd ++ [name]) = some (.file bytes)) :
    w.Holds path ⟨[], w.cwd ++ [name]⟩ bytes :=
  ⟨h.route w, h.resolve_file w false hat⟩

end LocalPath

/-- Nothing has changed but files under some names in the current directory. -/
structure World.KeepsTo (names : List String) (w w' : World) : Prop where
  cwd : w'.cwd = w.cwd
  free : ∀ name, Open w name → Open w' name
  spares : ∀ other, other ∉ names → w.Spares w' (w.cwd ++ [other])

namespace World.KeepsTo

theorem refl (names : List String) (w : World) : KeepsTo names w w :=
  ⟨rfl, fun _ h => h, fun _ _ => .refl w _⟩

theorem trans {names : List String} {u v w : World} (h : KeepsTo names u v)
    (h' : KeepsTo names v w) : KeepsTo names u w where
  cwd := h'.cwd.trans h.cwd
  free := fun name hopen => h'.free name (h.free name hopen)
  spares := fun other hother => (h.spares other hother).trans (h.cwd ▸ h'.spares other hother)

theorem put {names : List String} {name : String} (hname : name ∈ names) (w : World)
    (bytes : ByteArray) : KeepsTo names w (w.put (w.cwd ++ [name]) (.file bytes)) where
  cwd := rfl
  free := fun _ hopen => hopen.put name bytes
  spares := by
    intro other hother
    have hne : other ≠ name := by
      rintro rfl
      exact hother hname
    exact .put w (by simpa [List.prefix_append_right_inj] using hne) _

end World.KeepsTo

def Instant.newYear : Instant := ⟨⟨2026, 1, 1, 0, 0, 0, 0⟩, by decide⟩

/-- The lock is taken, its file being made where there is none. -/
theorem Store.lock_local_free {path lockName : String} {w : World}
    (hlock : LocalPath (Store.lockPath path) lockName)
    (hparent : Path.parent (Store.lockPath path) = some "")
    (hat : w.at? (w.cwd ++ [lockName]) = none) :
    Store.lock path w = (.ok (), w.put (w.cwd ++ [lockName]) (.file .empty)) := by
  have hdirs : Act.makeDirs "" w = (.ok (), w) := by
    simp [Act.makeDirs, World.makeDirs, World.makeDirsWithin]
  have hslash : ((Store.lockPath path).toList.getLast? == some '/') = false := hlock.slash
  unfold Store.lock
  simp only [hparent, Act.bind_of_ok hdirs, Act.change, World.touch]
  rw [hlock.resolve_free w true hat]
  simp only [hslash, Bool.false_eq_true, if_false]

theorem Store.lock_local {path lockName : String} {names : List String} {w : World}
    (hlock : LocalPath (Store.lockPath path) lockName) (hname : lockName ∈ names)
    (hparent : Path.parent (Store.lockPath path) = some "") (hopen : Open w lockName) :
    ∃ v, Store.lock path w = (.ok (), v) ∧ KeepsTo names w v := by
  rcases hopen with hat | ⟨bytes, hat⟩
  · exact ⟨_, Store.lock_local_free hlock hparent hat, .put hname w .empty⟩
  · have hdirs : Act.makeDirs "" w = (.ok (), w) := by
      simp [Act.makeDirs, World.makeDirs, World.makeDirsWithin]
    refine ⟨w, ?_, .refl names w⟩
    unfold Store.lock
    simp only [hparent, Act.bind_of_ok hdirs, Act.change, World.touch]
    rw [hlock.resolve_file w true hat]

namespace Ledger

theorem site_of_local {w : World} {store name : String} {table : Option String}
    (h : LocalPath store name) (hopen : Open w name)
    (htable : ∀ path ∈ table, ∃ other, LocalPath path other ∧ other ≠ name) :
    Site w store table := by
  refine ⟨_, h.route w, by simp, h.steady w hopen, fun path hpath => ?_⟩
  obtain ⟨other, hother, hne⟩ := htable path hpath
  exact ⟨_, hother.route w, by simp, by simpa using hne, by simp, by simp⟩

/-- The names in the current directory of the files of a ledger, under which nothing else stands. -/
structure Local (l : Ledger) (w : World) (names : List String) : Prop where
  store : ∃ name ∈ names, LocalPath l.path name
  lock : ∃ name ∈ names, LocalPath (Store.lockPath l.path) name
  table : ∀ path ∈ l.tablePath, ∃ name ∈ names, LocalPath path name
  parent : Path.parent (Store.lockPath l.path) = some ""
  free : ∀ name ∈ names, Open w name

theorem Local.writeFiles {l : Ledger} {w : World} {names : List String} (h : Local l w names)
    (hnewer : l.content.newerSchema = none) :
    ∃ s, Ledger.writeFiles (l, w) = (.ok (), s) ∧ KeepsTo names w s.2 := by
  obtain ⟨name, hname, hpath⟩ := h.store
  have hstore := hpath.write w (h.free name hname) (Store.jsonText (documentJson l.entries)).toUTF8
  have hkeeps := KeepsTo.put hname w (Store.jsonText (documentJson l.entries)).toUTF8
  cases htablePath : l.tablePath with
  | none =>
    simp only [writeFiles_ok_iff, htablePath]
    exact ⟨_, ⟨hnewer, _, hstore, rfl⟩, hkeeps⟩
  | some path =>
    obtain ⟨other, hother, hotherPath⟩ := h.table path htablePath
    have hopen := hkeeps.free other (h.free other hother)
    have hshown := hotherPath.write _ hopen (markdown l.entries).toUTF8
    simp only [writeFiles_ok_iff, htablePath]
    exact ⟨_, ⟨hnewer, _, hstore, _, hshown, rfl⟩, hkeeps.trans (.put hother _ _)⟩

theorem Local.add {l : Ledger} {w : World} {names : List String} (h : Local l w names)
    (hnewer : (Content.load w l.path).newerSchema = none) (now : Instant) (e : LedgerEntry) :
    ∃ s, Ledger.add now e (l, w) = (.ok (stamped now e), s) ∧ KeepsTo names w s.2 := by
  obtain ⟨name, hname, hpath⟩ := h.store
  obtain ⟨lockName, hlockName, hlockPath⟩ := h.lock
  obtain ⟨v, hlock, hkeeps⟩ :=
    Store.lock_local hlockPath hlockName h.parent (h.free lockName hlockName)
  have hsite : Site w l.path none := site_of_local hpath (h.free name hname) (by simp)
  have hload : Content.load v l.path = Content.load w l.path :=
    hsite.load_grows (Store.lock_grows hlock)
  have hlocal : Local (l.extended v (stamped now e)) v names :=
    ⟨h.store, h.lock, h.table, h.parent, fun n hn => hkeeps.free n (h.free n hn)⟩
  obtain ⟨s, hwrite, hwritten⟩ := hlocal.writeFiles (by simpa [extended, hload] using hnewer)
  exact ⟨s, add_ok_iff.mpr ⟨rfl, v, hlock, hwrite⟩, hkeeps.trans hwritten⟩

theorem store_local : LocalPath "ledger.json" "ledger.json" := by decide

def plainNames : List String := ["ledger.json", "ledger.json.lock", "LEDGER.md"]

theorem store_plain : ∀ path ∈ some "ledger.json", ∃ name ∈ plainNames, LocalPath path name :=
  fun path hpath => ⟨"ledger.json", by cases hpath; decide⟩

theorem table_plain : ∀ path ∈ some "LEDGER.md", ∃ name ∈ plainNames, LocalPath path name :=
  fun path hpath => ⟨"LEDGER.md", by cases hpath; decide⟩

theorem site_plain {w : World} (hfree : ∀ name ∈ plainNames, Open w name) :
    Site w "ledger.json" (some "LEDGER.md") :=
  site_of_local store_local (hfree _ (by decide))
    fun path hpath => ⟨"LEDGER.md", by cases hpath; decide⟩

/-- A ledger at `ledger.json`, with a table that has one of its names. -/
theorem local_plain {w : World} {table : Option String} (content : Content)
    (hfree : ∀ name ∈ plainNames, Open w name)
    (htable : ∀ path ∈ table, ∃ name ∈ plainNames, LocalPath path name) :
    Local ⟨"ledger.json", table, content⟩ w plainNames where
  store := ⟨"ledger.json", by dsimp only; decide⟩
  lock := ⟨"ledger.json.lock", by dsimp only; decide⟩
  table := htable
  parent := by dsimp only; decide
  free := hfree

theorem add_plain {w : World} {table : Option String} {content : Content}
    (hfree : ∀ name ∈ plainNames, Open w name)
    (htable : ∀ path ∈ table, ∃ name ∈ plainNames, LocalPath path name)
    (hnewer : (Content.load w "ledger.json").newerSchema = none) (now : Instant)
    (e : LedgerEntry) :
    ∃ l' w', Ledger.add now e (⟨"ledger.json", table, content⟩, w) =
      (.ok (stamped now e), (l', w')) ∧ KeepsTo plainNames w w' := by
  obtain ⟨⟨l', w'⟩, hadd, hkeeps⟩ := (local_plain content hfree htable).add hnewer now e
  exact ⟨l', w', hadd, hkeeps⟩

/-! One file for the store and the table. -/

theorem markdown_head (es : List LedgerEntry) : ∃ rest, markdown es = "# Skill Ledger\n\n" ++ rest := by
  unfold markdown
  simp only [String.append_assoc]
  exact ⟨_, rfl⟩

theorem parse?_markdown (es : List LedgerEntry) : Json.parse? (markdown es) = none := by
  obtain ⟨rest, hrest⟩ := markdown_head es
  have hlist : (markdown es).toList = '#' :: (" Skill Ledger\n\n".toList ++ rest.toList) := by
    rw [hrest, String.toList_append]
    rfl
  simp only [Json.parse?, hlist, Json.Reader.value_hash]

theorem ofText_markdown (es : List LedgerEntry) : Content.ofText (markdown es) = .current [] := by
  simp only [Content.ofText, parse?_markdown]

/-- An entry is lost at once when the table is put where the store is. -/
theorem add_shared {l l' : Ledger} {w w' : World} {name path : String} {now : Instant}
    {e a : LedgerEntry} (hstore : LocalPath l.path name) (htable : l.tablePath = some path)
    (hpath : LocalPath path name) (h : add now e (l, w) = (.ok a, (l', w'))) :
    Content.load w' l.path = .current [] := by
  obtain ⟨-, v, -, hwrite⟩ := add_ok_iff.mp h
  obtain ⟨-, u, -, hrest⟩ := writeFiles_ok_iff.mp hwrite
  have htable' : (l.extended v (stamped now e)).tablePath = some path := htable
  simp only [htable'] at hrest
  obtain ⟨u', hshown, hs⟩ := hrest
  obtain ⟨rfl, rfl⟩ := Prod.mk.inj hs
  obtain ⟨hevolves, hheld⟩ := Store.write_ok hshown (hpath.route u) (by simp)
  have hat := hheld.at?
  rw [← hevolves.cwd] at hat
  rw [load_eq, Store.read?_of_holds (hstore.holds w' hat), Option.getD_some, ofText_markdown]

end Ledger
end SkillAudit
