import Mathlib
import SkillAudit.Flow.Resolve
import SkillAudit.Proofs.PathNames

/-!
Which file a relative import names. The segments of a specifier follow the directory of its importer,
and every climb is cancelled with the name before it; what is left is tried as a file, without its
extension, as a directory and as a compiled source. No specifier leads out of the package, and there
is one for every file in it.
-/
namespace SkillAudit.Specifier
open SkillAudit.Path (pieces isIdle)

/-! Following segments. -/

def IsPlain (segment : String) : Prop := segment ≠ "" ∧ segment ≠ "." ∧ segment ≠ ".."

instance (segment : String) : Decidable (IsPlain segment) := inferInstanceAs (Decidable (_ ∧ _ ∧ _))

/-- A path that is written in names only. -/
def IsNormal (path : String) : Prop := ∀ segment ∈ pieces path, IsPlain segment

instance (path : String) : Decidable (IsNormal path) :=
  inferInstanceAs (Decidable (∀ segment ∈ pieces path, IsPlain segment))

/-- A climb is cancelled with the name before it. -/
inductive Shortens : List String → List String → Prop where
  | cancel (before after : List String) {name : String} (hname : IsPlain name) :
      Shortens (before ++ name :: ".." :: after) (before ++ after)

/-- The names that are left of a directory and the segments after it when all climbs are cancelled. -/
structure Reaches (dir segments base : List String) : Prop where
  shortens : Relation.ReflTransGen Shortens (dir ++ segments.filter fun s => !isIdle s) base
  plain : ∀ name ∈ base, IsPlain name

/-- A climb has nothing before it that it could be cancelled with. -/
def Escapes (dir segments : List String) : Prop :=
  ∃ front rest, segments = front ++ ".." :: rest ∧ Reaches dir front []

theorem isIdle_eq_false {s : String} : isIdle s = false ↔ s ≠ "" ∧ s ≠ "." := by
  simp [isIdle]

theorem walk_idle {s : String} (h : isIdle s = true) (dir rest : List String) :
    walk dir (s :: rest) = walk dir rest := by
  have hidle : (s == "" || s == ".") = true := h
  rw [walk, if_pos hidle]

theorem walk_plain {s : String} (h : IsPlain s) (dir rest : List String) :
    walk dir (s :: rest) = walk (dir ++ [s]) rest := by
  simp [walk, h.1, h.2.1, h.2.2]

theorem walk_up (dir rest : List String) (name : String) :
    walk (dir ++ [name]) (".." :: rest) = walk dir rest := by
  simp [walk]

theorem walk_up_root (rest : List String) : walk [] (".." :: rest) = none := by
  simp [walk]

theorem segment_cases (s : String) : isIdle s = true ∨ s = ".." ∨ IsPlain s := by
  by_cases hidle : isIdle s = true
  · exact .inl hidle
  · by_cases hup : s = ".."
    · exact .inr (.inl hup)
    · obtain ⟨hempty, hdot⟩ := isIdle_eq_false.mp (by simpa using hidle)
      exact .inr (.inr ⟨hempty, hdot, hup⟩)

theorem walk_cons (dir : List String) (s : String) (rest : List String) :
    walk dir (s :: rest) = (walk dir [s]).bind fun base => walk base rest := by
  rcases segment_cases s with hidle | rfl | hplain
  · rw [walk_idle hidle, walk_idle hidle, walk, Option.bind_some]
  · cases dir using List.reverseRecOn with
    | nil => rw [walk_up_root, walk_up_root, Option.bind_none]
    | append_singleton dir name => rw [walk_up, walk_up, walk, Option.bind_some]
  · rw [walk_plain hplain, walk_plain hplain, walk, Option.bind_some]

theorem walk_append (dir front rest : List String) :
    walk dir (front ++ rest) = (walk dir front).bind fun base => walk base rest := by
  induction front generalizing dir with
  | nil => rfl
  | cons s front ih =>
    rw [List.cons_append, walk_cons, walk_cons dir s front, Option.bind_assoc]
    simp only [ih]

theorem walk_filter (dir segments : List String) :
    walk dir (segments.filter fun s => !isIdle s) = walk dir segments := by
  induction segments generalizing dir with
  | nil => rfl
  | cons s segments ih =>
    by_cases hidle : isIdle s = true
    · rw [List.filter_cons_of_neg (by simp [hidle]), ih, walk_idle hidle]
    · rw [List.filter_cons_of_pos (by simpa using hidle), walk_cons, walk_cons dir s segments]
      simp only [ih]

theorem walk_names {names : List String} (h : ∀ name ∈ names, IsPlain name) (dir : List String) :
    walk dir names = some (dir ++ names) := by
  induction names generalizing dir with
  | nil => simp [walk]
  | cons name names ih =>
    rw [walk_plain (h name List.mem_cons_self), ih fun n hn => h n (List.mem_cons_of_mem _ hn),
      List.append_assoc, List.singleton_append]

theorem Shortens.walk_eq {l m : List String} (h : Shortens l m) : walk [] l = walk [] m := by
  obtain ⟨before, after, hname⟩ := h
  rw [walk_append, walk_append]
  congr 1
  funext base
  rw [walk_plain hname, walk_up]

/-- Segments are followed to where the names lead that are left when all climbs are cancelled. -/
theorem walk_eq_some_iff {dir : List String} (hdir : ∀ name ∈ dir, IsPlain name)
    {segments base : List String} : walk dir segments = some base ↔ Reaches dir segments base := by
  constructor
  · intro h
    induction segments generalizing dir with
    | nil =>
      obtain rfl : dir = base := by simpa [walk] using h
      exact ⟨by simpa using Relation.ReflTransGen.refl, hdir⟩
    | cons s segments ih =>
      rcases segment_cases s with hidle | rfl | hplain
      · rw [walk_idle hidle] at h
        obtain ⟨hshortens, hbase⟩ := ih hdir h
        exact ⟨by rwa [List.filter_cons_of_neg (by simp [hidle])], hbase⟩
      · cases dir using List.reverseRecOn with
        | nil =>
          rw [walk_up_root] at h
          cases h
        | append_singleton dir name =>
          rw [walk_up] at h
          have hname : IsPlain name := hdir name (by simp)
          obtain ⟨hshortens, hbase⟩ := ih (fun n hn => hdir n (by simp [hn])) h
          refine ⟨?_, hbase⟩
          rw [List.filter_cons_of_pos (by decide), List.append_assoc, List.singleton_append]
          exact .head (.cancel dir _ hname) hshortens
      · rw [walk_plain hplain] at h
        have hbusy : isIdle s = false := isIdle_eq_false.mpr ⟨hplain.1, hplain.2.1⟩
        have hdir' : ∀ name ∈ dir ++ [s], IsPlain name := by
          intro name hname
          rcases List.mem_append.mp hname with hname | hname
          · exact hdir name hname
          · rwa [List.mem_singleton.mp hname]
        obtain ⟨hshortens, hbase⟩ := ih hdir' h
        refine ⟨?_, hbase⟩
        rwa [List.filter_cons_of_pos (by simp [hbusy]), ← List.singleton_append,
          ← List.append_assoc]
  · rintro ⟨hshortens, hbase⟩
    have hwalk : ∀ {l m}, Relation.ReflTransGen Shortens l m → walk [] l = walk [] m := by
      intro l m hlm
      induction hlm with
      | refl => rfl
      | tail _ hstep ih => rw [ih, hstep.walk_eq]
    calc walk dir segments
        = walk [] (dir ++ segments.filter fun s => !isIdle s) := by
          rw [walk_append, walk_names hdir, List.nil_append, Option.bind_some, walk_filter]
      _ = walk [] base := hwalk hshortens
      _ = some base := walk_names hbase []

theorem walk_eq_none_iff {dir : List String} (hdir : ∀ name ∈ dir, IsPlain name)
    {segments : List String} : walk dir segments = none ↔ Escapes dir segments := by
  constructor
  · intro h
    have hstuck : ∃ front rest, segments = front ++ ".." :: rest ∧ walk dir front = some [] := by
      clear hdir
      induction segments generalizing dir with
      | nil => simp [walk] at h
      | cons s segments ih =>
        rw [walk_cons] at h
        cases hstep : walk dir [s] with
        | some base =>
          rw [hstep, Option.bind_some] at h
          obtain ⟨front, rest, rfl, hfront⟩ := ih h
          exact ⟨s :: front, rest, rfl, by rw [walk_cons, hstep, Option.bind_some, hfront]⟩
        | none =>
          -- Only a climb from the root stops.
          rcases segment_cases s with hidle | rfl | hplain
          · rw [walk_idle hidle, walk] at hstep
            cases hstep
          · cases dir using List.reverseRecOn with
            | nil => exact ⟨[], segments, rfl, rfl⟩
            | append_singleton dir name =>
              rw [walk_up, walk] at hstep
              cases hstep
          · rw [walk_plain hplain, walk] at hstep
            cases hstep
    obtain ⟨front, rest, hsplit, hfront⟩ := hstuck
    exact ⟨front, rest, hsplit, (walk_eq_some_iff hdir).mp hfront⟩
  · rintro ⟨front, rest, rfl, hfront⟩
    rw [walk_append, (walk_eq_some_iff hdir).mpr hfront, Option.bind_some, walk_up_root]

/-! The directory of an importer and the paths tried. -/

/-- The first of some paths that is a file. -/
def FirstIn (files paths : List String) (target : String) : Prop :=
  ∃ before after, paths = before ++ target :: after ∧ target ∈ files ∧ ∀ path ∈ before, path ∉ files

/-- What is tried for the names of a base, in this order. -/
def tried : List String → List String
  | [] => extensions.map ("index." ++ ·)
  | names =>
    let base := String.intercalate "/" names
    base :: extensions.map (base ++ "." ++ ·) ++ extensions.map (base ++ "/index." ++ ·) ++
      sourceSwaps.filterMap fun swap => (Text.stripBack swap.1 base).map (· ++ swap.2)

/-- A specifier names a file of a package for one of its files. -/
structure Resolves (files : List String) (importer specifier target : String) : Prop where
  relative : ∃ rest, pieces specifier = "." :: rest ∨ pieces specifier = ".." :: rest
  base : ∃ base, Reaches (pieces importer).dropLast (pieces specifier) base ∧
    FirstIn files (tried base) target

theorem intercalate_ne_empty {names : List String} (hne : names ≠ [])
    (h : ∀ name ∈ names, IsPlain name) : String.intercalate "/" names ≠ "" := by
  intro hempty
  cases names with
  | nil => exact hne rfl
  | cons name names =>
    have hname := (h name List.mem_cons_self).1
    cases names with
    | nil => exact hname (by simpa using hempty)
    | cons => simp [String.intercalate_cons_cons, hname] at hempty

/-- A path is tried before all that is made of it. -/
theorem firstIn_self {files : List String} {target : String} (h : target ∈ files) :
    FirstIn files (tried (pieces target)) target := by
  cases hpieces : pieces target with
  | nil => exact absurd hpieces (Path.pieces_ne_nil target)
  | cons name names =>
    have htarget : String.intercalate "/" (name :: names) = target := by
      rw [← hpieces, Path.intercalate_pieces]
    obtain ⟨after, hafter⟩ : ∃ after, tried (name :: names) = target :: after := by
      simp only [tried, htarget, List.cons_append]
      exact ⟨_, rfl⟩
    exact ⟨[], after, hafter, h, by simp⟩

theorem candidates_eq_tried {base : List String} (h : ∀ name ∈ base, IsPlain name) :
    candidates (String.intercalate "/" base) = tried base := by
  cases base with
  | nil => decide
  | cons name names =>
    have hne := intercalate_ne_empty (List.cons_ne_nil name names) h
    simp only [candidates, tried, String.isEmpty_iff, hne, if_false, List.cons_append]
    congr! 4
    rw [String.append_assoc]
    rfl

theorem isRelative_iff {specifier : String} : isRelative specifier = true ↔
    ∃ rest, pieces specifier = "." :: rest ∨ pieces specifier = ".." :: rest := by
  have hword : ∀ word : String, pieces word = [word] →
      (specifier = word ∨ (word ++ "/").toList <+: specifier.toList ↔
        ∃ rest, pieces specifier = word :: rest) := by
    intro word hpieces
    constructor
    · rintro (rfl | ⟨rest, hrest⟩)
      · exact ⟨[], hpieces⟩
      · have hspecifier : specifier = word ++ "/" ++ String.ofList rest := by
          apply String.toList_injective
          rw [String.toList_append, String.toList_ofList, hrest]
        rw [hspecifier, Path.pieces_slash, hpieces]
        exact ⟨_, rfl⟩
    · rintro ⟨rest, hrest⟩
      rw [← Path.intercalate_pieces specifier, hrest]
      cases rest with
      | nil => exact .inl (by simp)
      | cons name names =>
        refine .inr ⟨(String.intercalate "/" (name :: names)).toList, ?_⟩
        simp [String.intercalate_cons_cons]
  have hdot := hword "." (by decide)
  have hup := hword ".." (by decide)
  rw [exists_or, ← hdot, ← hup]
  simp only [isRelative, Bool.or_eq_true, beq_iff_eq, List.isPrefixOf_iff_prefix]
  tauto

section Importer
variable {importer : String} (h : IsNormal importer)
include h

theorem plain_directory : ∀ name ∈ (pieces importer).dropLast, IsPlain name :=
  fun name hname => h name (List.dropLast_subset _ hname)

theorem base?_eq_some_iff {specifier base : String} : base? importer specifier = some base ↔
    ∃ names, Reaches (pieces importer).dropLast (pieces specifier) names ∧
      String.intercalate "/" names = base := by
  rw [base?, Option.map_eq_some_iff]
  exact exists_congr fun names => and_congr_left' (walk_eq_some_iff (plain_directory h))

theorem resolve_eq_some_iff {files : List String} {specifier target : String} :
    resolve files importer specifier = some target ↔ Resolves files importer specifier target := by
  have hfirst : ∀ paths, paths.find? files.contains = some target ↔ FirstIn files paths target := by
    intro paths
    rw [List.find?_eq_some_iff_append, FirstIn]
    simp only [List.contains_eq_mem, decide_eq_true_eq, Bool.not_eq_true', decide_eq_false_iff_not]
    tauto
  constructor
  · intro hresolve
    by_cases hrelative : isRelative specifier = true
    · rw [resolve, if_pos hrelative, Option.bind_eq_some_iff] at hresolve
      obtain ⟨base, hbase, htarget⟩ := hresolve
      obtain ⟨names, hnames, rfl⟩ := (base?_eq_some_iff h).mp hbase
      rw [hfirst, candidates_eq_tried hnames.plain] at htarget
      exact ⟨isRelative_iff.mp hrelative, names, hnames, htarget⟩
    · rw [resolve, if_neg hrelative] at hresolve
      cases hresolve
  · rintro ⟨hrelative, names, hnames, htarget⟩
    rw [resolve, if_pos (isRelative_iff.mpr hrelative), (base?_eq_some_iff h).mpr ⟨names, hnames, rfl⟩,
      Option.bind_some, hfirst, candidates_eq_tried hnames.plain]
    exact htarget

end Importer

/-! The way from one file to another. -/

def climbing (climbs : Nat) (names : List String) : String :=
  if climbs = 0 then "./" ++ String.intercalate "/" names
  else String.intercalate "/" (List.replicate climbs ".." ++ names)

theorem walk_climbs (front dir rest : List String) :
    walk (front ++ dir) (List.replicate dir.length ".." ++ rest) = walk front rest := by
  induction dir using List.reverseRecOn with
  | nil => simp
  | append_singleton dir name ih =>
    rw [List.length_append, List.length_singleton, List.replicate_succ, List.cons_append,
      ← List.append_assoc, walk_up, ih]

section Names
variable {names : List String} (hplain : ∀ name ∈ names, IsPlain name)
  (hslash : ∀ name ∈ names, '/' ∉ name.toList)
include hslash

theorem pieces_climbing_succ (climbs : Nat) : pieces (climbing (climbs + 1) names) =
    List.replicate (climbs + 1) ".." ++ names := by
  rw [climbing, if_neg (Nat.succ_ne_zero climbs)]
  apply Path.pieces_intercalate
  · simp
  · intro name hname
    rcases List.mem_append.mp hname with hname | hname
    · rw [List.eq_of_mem_replicate hname]
      decide
    · exact hslash name hname

theorem isRelative_climbing (climbs : Nat) : isRelative (climbing climbs names) = true := by
  apply isRelative_iff.mpr
  cases climbs with
  | zero => exact ⟨_, .inl (Path.pieces_slash "." (String.intercalate "/" names))⟩
  | succ climbs => exact ⟨_, .inr (pieces_climbing_succ hslash climbs)⟩

include hplain in
theorem walk_climbing (dir climbed : List String) :
    walk (dir ++ climbed) (pieces (climbing climbed.length names)) = some (dir ++ names) := by
  cases hlength : climbed.length with
  | zero =>
    obtain rfl := List.eq_nil_of_length_eq_zero hlength
    have hpieces : pieces (climbing 0 names) = "." :: pieces (String.intercalate "/" names) :=
      Path.pieces_slash "." (String.intercalate "/" names)
    rw [hpieces, walk_idle (by decide), List.append_nil]
    by_cases hnone : names = []
    · subst hnone
      rw [String.intercalate_nil, Path.pieces_empty, walk_idle (by decide), walk, List.append_nil]
    · rw [Path.pieces_intercalate hnone hslash, walk_names hplain]
  | succ climbs =>
    rw [pieces_climbing_succ hslash, ← hlength, walk_climbs, walk_names hplain]

end Names

/-- By way of a directory above both, a specifier leads from one file to another. -/
theorem resolve_climbing {files : List String} {importer target : String} (h : IsNormal importer)
    (htarget : target ∈ files) (hnormal : IsNormal target) {common climbed descent : List String}
    (hdirectory : (pieces importer).dropLast = common ++ climbed)
    (hpieces : pieces target = common ++ descent) :
    resolve files importer (climbing climbed.length descent) = some target := by
  have hplain : ∀ name ∈ descent, IsPlain name := fun name hname =>
    hnormal name (by simp [hpieces, hname])
  have hslash : ∀ name ∈ descent, '/' ∉ name.toList := by
    intro name hname
    have hpiece : name ∈ pieces target := by simp [hpieces, hname]
    exact Path.slashless_of_mem_pieces hpiece
  have hwalk : walk (pieces importer).dropLast (pieces (climbing climbed.length descent)) =
      some (pieces target) := by
    rw [hdirectory, walk_climbing hplain hslash, hpieces]
  apply (resolve_eq_some_iff h).mpr
  constructor
  case relative => exact isRelative_iff.mp (isRelative_climbing hslash _)
  case base => exact ⟨_, (walk_eq_some_iff (plain_directory h)).mp hwalk, firstIn_self htarget⟩

theorem isNormal_met {w : World} (hw : w.IsTree) {root : String} {f : PackageFile}
    (hf : f ∈ Listing.met w root) : IsNormal f.path := by
  obtain ⟨place, -, hf, -⟩ := Listing.mem_met.mp hf
  obtain ⟨names, bytes, hat, hincluded, rfl⟩ := (Listing.mem_ofPlace hw.distinct).mp hf
  have hnames : ∀ name ∈ names, World.IsName name := fun name hname =>
    hw.isName_of_at? hat name (List.mem_append_right _ hname)
  have hne : names ≠ [] := by
    rintro rfl
    simp [Listing.isIncluded] at hincluded
  intro segment hsegment
  rw [Path.pieces_intercalate hne fun name hname => (hnames name hname).slashless] at hsegment
  have hname := hnames segment hsegment
  exact ⟨hname.nonempty, hname.notHere, hname.notUp⟩

/-- Imports are resolved lexically and within the package: a specifier leads to the first file tried
for the base that its segments reach from the directory of the importer, and nowhere if a climb has
nothing left to remove. From every file there is a specifier for every other, by way of any directory
above both. The paths of the files of a package are normal, so that this holds of them. -/
theorem resolve_is_lexical (files : List String) {importer : String} (h : IsNormal importer)
    (specifier : String) :
    (∀ target, resolve files importer specifier = some target ↔
      Resolves files importer specifier target) ∧
    (Escapes (pieces importer).dropLast (pieces specifier) →
      resolve files importer specifier = none) ∧
    (¬ Escapes (pieces importer).dropLast (pieces specifier) →
      ∃! base, Reaches (pieces importer).dropLast (pieces specifier) base) ∧
    (∀ target ∈ files, IsNormal target → ∀ common climbed descent,
      (pieces importer).dropLast = common ++ climbed → pieces target = common ++ descent →
        resolve files importer (climbing climbed.length descent) = some target) ∧
    ∀ (w : World) (root : String), w.IsTree → ∀ f ∈ Listing.met w root, IsNormal f.path := by
  have hdir := plain_directory h
  refine ⟨fun target => resolve_eq_some_iff h, ?_, ?_, ?_, fun w root hw f hf => isNormal_met hw hf⟩
  · intro hescapes
    have hwalk := (walk_eq_none_iff hdir).mpr hescapes
    cases hresolve : resolve files importer specifier with
    | none => rfl
    | some target =>
      obtain ⟨-, base, hbase, -⟩ := (resolve_eq_some_iff h).mp hresolve
      rw [(walk_eq_some_iff hdir).mpr hbase] at hwalk
      cases hwalk
  · intro hstays
    cases hwalk : walk (pieces importer).dropLast (pieces specifier) with
    | none => exact absurd ((walk_eq_none_iff hdir).mp hwalk) hstays
    | some base =>
      refine ⟨base, (walk_eq_some_iff hdir).mp hwalk, fun base' hbase' => ?_⟩
      rw [(walk_eq_some_iff hdir).mpr hbase', Option.some.injEq] at hwalk
      exact hwalk
  · intro target htarget hnormal common climbed descent hdirectory hpieces
    exact resolve_climbing h htarget hnormal hdirectory hpieces

theorem resolve_is_lexical_util : IsNormal "lib/util/index.ts" ∧
    Resolves ["lib/send.js", "secrets.js"] "lib/util/index.ts" "./../send" "lib/send.js" ∧
    resolve ["lib/send.js", "secrets.js"] "lib/util/index.ts" "../../../send" = none ∧
    resolve ["lib/send.js", "secrets.js"] "lib/util/index.ts" (climbing 2 ["secrets.js"]) =
      some "secrets.js" := by
  have hnormal : IsNormal "lib/util/index.ts" := by decide
  have htarget : IsNormal "secrets.js" := by decide
  obtain ⟨hresolves, -, -, hreaches, -⟩ :=
    resolve_is_lexical ["lib/send.js", "secrets.js"] hnormal "./../send"
  obtain ⟨-, hescapes, -⟩ := resolve_is_lexical ["lib/send.js", "secrets.js"] hnormal "../../../send"
  refine ⟨hnormal, (hresolves _).mp (by decide), hescapes ?_,
    hreaches "secrets.js" (by decide) htarget [] ["lib", "util"] ["secrets.js"] (by decide) (by decide)⟩
  apply (walk_eq_none_iff (plain_directory hnormal)).mp
  decide

end SkillAudit.Specifier
