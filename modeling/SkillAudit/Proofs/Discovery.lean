import Mathlib
import SkillAudit.Proofs.Installation
import SkillAudit.Proofs.WatchHistory

/-!
Packages in a directory. A directory is found as a package when its name is not hidden and it holds
the manifest; a watch cycle keeps an entry for the name of every package that is found.
-/
namespace SkillAudit

namespace World

def Named (w : World) : Prop := ∀ q n, w.at? q = some n → ∀ name ∈ q, IsName name

theorem IsPath.of_join {base name : String} (h : IsPath (Path.join base name))
    (hname : IsName name) (hbase : base ≠ "") : IsPath base := by
  have hzero := h.noZero
  have hshort := h.short
  have hbase' : (base == "") = false := by simpa using hbase
  simp only [Path.join, Path.isAbsolute_name hname, hbase', Bool.false_eq_true, if_false] at hzero hshort
  split at hzero
  next hslash =>
    rw [if_pos hslash] at hshort
    simp only [String.toList_append, List.contains_append, Bool.or_eq_false_iff] at hzero
    simp only [String.utf8ByteSize_append] at hshort
    exact ⟨hbase', hzero.1, by omega⟩
  next hslash =>
    rw [if_neg hslash] at hshort
    simp only [String.toList_append, List.contains_append, Bool.or_eq_false_iff] at hzero
    simp only [String.utf8ByteSize_append] at hshort
    exact ⟨hbase', hzero.1.1, by omega⟩

theorem leadsToDir_of_resolve_join {w : World} {base name : String} {follow : Bool} {spot : Spot}
    (hname : IsName name) (h : w.resolve follow (Path.join base name) = .ok spot) :
    ∃ p, w.LeadsToDir base p := by
  obtain ⟨front, hpieces, hfront⟩ := Path.pieces_join_name hname base
  have hstart : w.start (Path.join base name) = w.start base := by
    rw [start, start, Path.isAbsolute_join (Path.isAbsolute_name hname)]
  obtain ⟨trail, hleads⟩ := leads_of_resolve h
  rw [Path.namesOf_eq hpieces hname.nonempty, hstart] at hleads
  obtain ⟨⟨r, hcourse⟩, hclear⟩ := clear_of_leads hleads (by simp)
  exact ⟨r.place, (leadsToDir_iff false hfront).mpr (walk_dir_iff.mpr ⟨⟨r, hcourse, rfl⟩, hclear⟩)⟩

/-- A name in a directory that is no link leads to a file when it is one. -/
theorem isFile_join_iff {w : World} {base name : String} {p : Place} (hdir : w.LeadsToDir base p)
    (hname : IsName name) (hpath : IsPath (Path.join base name))
    (hplain : ∀ t, w.at? (p ++ [name]) ≠ some (.link t)) :
    w.isFile (Path.join base name) = true ↔ ∃ bytes, w.at? (p ++ [name]) = some (.file bytes) := by
  rw [isFile, find]
  cases hat : w.at? (p ++ [name]) with
  | none =>
    rw [Command.resolve_join_free hdir hname hpath true hat]
    simp
  | some n =>
    have hlink : ∀ t, n ≠ .link t := by
      rintro t rfl
      exact hplain t hat
    rw [Command.resolve_join_taken hdir hname hpath true hat fun t ht => absurd ht (hlink t)]
    cases n with
    | dir => simp
    | file bytes => simp
    | link t => exact absurd rfl (hlink t)

end World

namespace Package
open World

def IsHidden (name : String) : Prop := name.toList.head? = some '.'

instance (name : String) : Decidable (IsHidden name) :=
  inferInstanceAs (Decidable (name.toList.head? = some '.'))

section Discover
variable {w w' : World} {dir name path manifest : String} {p : Place}

theorem mem_subdirectories : path ∈ subdirectories w dir ↔
    ∃ p name, w.find dir = .ok (p, .dir) ∧ (p ++ [name], .dir) ∈ w.nodes ∧ ¬ IsHidden name ∧
      path = Path.join dir name := by
  unfold subdirectories readDir
  cases hfind : w.find dir with
  | error e => simp
  | ok found =>
    obtain ⟨p, n⟩ := found
    cases n with
    | file bytes => simp
    | link t => simp
    | dir =>
      simp only [List.mem_map, List.mem_mergeSort, List.mem_filterMap, Prod.exists, mem_children]
      constructor
      · rintro ⟨name, ⟨child, n, hmem, hsel⟩, rfl⟩
        obtain ⟨⟨rfl, hshown⟩, rfl⟩ : (n = .dir ∧ child.toList.head? ≠ some '.') ∧ child = name := by
          simpa using hsel
        exact ⟨p, child, rfl, hmem, hshown, rfl⟩
      · rintro ⟨_, name, hfound, hmem, hshown, rfl⟩
        obtain ⟨rfl, -⟩ := Prod.mk.inj (Except.ok.inj hfound)
        have hshown' : name.toList.head? ≠ some '.' := hshown
        exact ⟨name, ⟨name, .dir, hmem, by simp [hshown']⟩, rfl⟩

theorem mem_discover_of_at? (hfind : w.find dir = .ok (p, .dir))
    (hat : w.at? (p ++ [name]) = some .dir) (hshown : ¬ IsHidden name)
    (hpackage : isPackage w (Path.join dir name) manifest = true) :
    Path.join dir name ∈ discover w dir manifest := by
  have hmem : (p ++ [name], Node.dir) ∈ w.nodes := by
    rw [World.at?, if_neg (by simp)] at hat
    obtain ⟨_, _, hnodes, -⟩ := List.lookup_eq_some_iff.mp hat
    simp [hnodes]
  refine List.mem_flatMap.mpr ⟨_, mem_subdirectories.mpr ⟨p, name, hfind, hmem, hshown, rfl⟩, ?_⟩
  simp [hpackage]

theorem of_mem_discover (hw : w.Distinct) (hnamed : w.Named) (hname : IsName name)
    (h : Path.join dir name ∈ discover w dir manifest) :
    ∃ p, w.find dir = .ok (p, .dir) ∧ w.at? (p ++ [name]) = some .dir ∧ ¬ IsHidden name ∧
      isPackage w (Path.join dir name) manifest = true := by
  have hchild : ∀ {base path}, path ∈ subdirectories w base → ∃ p child, IsName child ∧
      w.find base = .ok (p, .dir) ∧ w.at? (p ++ [child]) = some .dir ∧ ¬ IsHidden child ∧
      path = Path.join base child := by
    intro base path hpath
    obtain ⟨p, child, hfind, hmem, hshown, rfl⟩ := mem_subdirectories.mp hpath
    have hat := (hw.mem_nodes_iff (by simp)).mp hmem
    exact ⟨p, child, hnamed _ _ hat child (by simp), hfind, hat, hshown, rfl⟩
  obtain ⟨sub, hsub, hmem⟩ := List.mem_flatMap.mp h
  obtain ⟨p, child, hchildName, hfind, hat, hshown, rfl⟩ := hchild hsub
  split at hmem
  next hpackage =>
    have heq := List.mem_singleton.mp hmem
    obtain rfl : name = child := by
      have hlast := congrArg Path.fileName heq
      rw [Path.fileName_join_name hname, Path.fileName_join_name hchildName] at hlast
      exact Option.some.inj hlast
    exact ⟨p, hfind, hat, hshown, hpackage⟩
  next =>
    -- A package one level down has one more name.
    obtain ⟨hinner, -⟩ := List.mem_filter.mp hmem
    obtain ⟨-, inner, hinnerName, -, -, -, heq⟩ := hchild hinner
    have hsteps := congrArg (List.length ∘ Path.steps) heq
    simp [Path.steps_join_name hname, Path.steps_join_name hinnerName,
      Path.steps_join_name hchildName] at hsteps

theorem discover_grows (hw : w.Distinct) (hnamed : w.Named) (hname : IsName name)
    (hgrows : w.Grows w') (h : Path.join dir name ∈ discover w dir manifest) :
    Path.join dir name ∈ discover w' dir manifest := by
  obtain ⟨p, hfind, hat, hshown, hpackage⟩ := of_mem_discover hw hnamed hname h
  refine mem_discover_of_at? (Store.find_of_grows hgrows hfind) (hgrows.keeps _ _ hat) hshown ?_
  unfold isPackage isFile at hpackage ⊢
  split at hpackage
  next q bytes hfile => rw [Store.find_of_grows hgrows hfile]
  next => cases hpackage

end Discover
end Package

namespace Watcher
variable {watcher : Watcher} {w w' : World} {l l' : Ledger} {now : Instant} {report : WatchReport}
  {root : String}

theorem sorted_ofJson {j : Json} {s : WatchState} (h : WatchState.ofJson j = some s) :
    s.skills.Sorted := by
  unfold WatchState.ofJson at h
  simp only [Option.bind_eq_bind, Option.bind_eq_some_iff, Option.pure_def, Option.some.injEq] at h
  obtain ⟨r, -, schema, -, last, -, skills, hskills, rfl⟩ := h
  unfold Json.Record.withDefault at hskills
  split at hskills
  next =>
    obtain rfl := Option.some.inj hskills
    exact List.Pairwise.nil
  next =>
    obtain ⟨pairs, -, rfl⟩ := Option.map_eq_some_iff.mp hskills
    exact (Dict.sorted_ofList pairs).1

theorem sorted_state (watcher : Watcher) (w : World) : (watcher.state w).skills.Sorted := by
  unfold Watcher.state
  split
  next s hread =>
    split
    · exact List.Pairwise.nil
    · obtain ⟨j, -, hdecode⟩ := Option.bind_eq_some_iff.mp hread
      exact sorted_ofJson hdecode
  next => exact List.Pairwise.nil

/-- The first package with the name of one that is found is that one, or one found before it. -/
theorem firstOf_of_mem (watcher : Watcher) (w : World) {found : List String} (h : root ∈ found) :
    ∃ first, watcher.firstOf w found (watcher.nameOf w root) = some first ∧
      (first = root ∨ ∃ earlier later, found = earlier ++ root :: later ∧ first ∈ earlier) := by
  have hsome : (watcher.firstOf w found (watcher.nameOf w root)).isSome := by
    rw [firstOf, List.find?_isSome]
    exact ⟨root, h, by simp⟩
  obtain ⟨first, hfirst⟩ := Option.isSome_iff_exists.mp hsome
  refine ⟨first, hfirst, ?_⟩
  obtain ⟨-, before, after, rfl, hbefore⟩ := List.find?_eq_some_iff_append.mp hfirst
  rcases List.mem_append.mp h with hmem | hmem
  · simpa using hbefore root hmem
  · rcases List.mem_cons.mp hmem with rfl | hmem
    · exact .inl rfl
    · obtain ⟨mid, later, rfl⟩ := List.append_of_mem hmem
      exact .inr ⟨before ++ first :: mid, later, by simp, by simp⟩

/-- A state keeps the hash of a package that was found in a tree, or of one with the same name that
was found before it. -/
def Tracks (watcher : Watcher) (v : World) (s : WatchState) (root : String) : Prop :=
  ∃ first, (first = root ∨
      ∃ earlier later, watcher.roots v = earlier ++ root :: later ∧ first ∈ earlier) ∧
    watcher.nameOf v first = watcher.nameOf v root ∧
    before s (watcher.nameOf v root) = some (hashOf v first)

theorem run_tracks (hown : ∀ r, w.route? watcher.statePath = some r → r.place ∉ r.links)
    (hrun : watcher.run now (l, w) = (.ok report, (l', w')))
    (hmem : root ∈ watcher.roots (watcher.surveyedTree w)) :
    watcher.Tracks (watcher.surveyedTree w) (watcher.state w') root := by
  obtain ⟨first, hfirst, hwhich⟩ := firstOf_of_mem watcher (watcher.surveyedTree w) hmem
  refine ⟨first, hwhich, nameOf_firstOf hfirst, ?_⟩
  obtain ⟨-, hwrite⟩ := run_ok hrun
  have hnext := surveyed watcher (watcher.surveyedTree w)
    { l with content := .load (watcher.surveyedTree w) l.path } now
    (sorted_state watcher (watcher.surveyedTree w))
  have hgrows := Store.lock_grows_always watcher.statePath w
  have hstands := stands_of_write (fun r hr => hown r (by rwa [← Store.route?_of_grows hgrows])) hwrite
    hnext.sorted hnext.schema
  rw [hstands.state, outcome, before, hnext.skills, hfirst]
  simp [hash_entryOf]

end Watcher
end SkillAudit
