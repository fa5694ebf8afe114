import Mathlib
import SkillAudit.Package.Listing
import SkillAudit.Proofs.Route
import SkillAudit.Proofs.TextMap

/-!
File trees as a file system keeps them: one node at a place, every node in a directory, names
without slashes. In such a tree the paths of a package's files tell the files apart.
-/
namespace SkillAudit

namespace Text

theorem splitWhen_go (p : Char → Bool) (cs piece : List Char) (done : List (List Char)) :
    splitWhen.go p cs piece done =
      done.reverse ++ (cs.splitOnP p).modifyHead (piece.reverse ++ ·) := by
  induction cs generalizing piece done with
  | nil => simp [splitWhen.go]
  | cons c cs ih =>
    rw [splitWhen.go, List.splitOnP_cons_eq_if_modifyHead]
    split
    · rw [ih]
      cases h : cs.splitOnP p with
      | nil => exact absurd h (List.splitOnP_ne_nil p cs)
      | cons => simp
    · rw [ih]
      cases h : cs.splitOnP p with
      | nil => exact absurd h (List.splitOnP_ne_nil p cs)
      | cons => simp

theorem splitWhen_eq (p : Char → Bool) (cs : List Char) : splitWhen p cs = cs.splitOnP p := by
  rw [splitWhen, splitWhen_go]
  cases h : cs.splitOnP p with
  | nil => exact absurd h (List.splitOnP_ne_nil p cs)
  | cons => simp

end Text

namespace Path

theorem pieces_eq (path : String) :
    pieces path = (path.toList.splitOn '/').map String.ofList := by
  rw [pieces, Text.splitAt, Text.splitWhen_eq, List.splitOn]

theorem pieces_intercalate {names : List String} (hne : names ≠ [])
    (hslash : ∀ name ∈ names, '/' ∉ name.toList) :
    pieces (String.intercalate "/" names) = names := by
  have hsplit : (String.intercalate "/" names).toList.splitOn '/' = names.map String.toList := by
    rw [String.toList_intercalate]
    refine List.splitOn_intercalate '/' ?_ (by simpa using hne)
    simpa using hslash
  rw [pieces_eq, hsplit, List.map_map]
  simp [Function.comp_def]

theorem intercalate_pieces (path : String) : String.intercalate "/" (pieces path) = path := by
  have hlist : (String.intercalate "/" (pieces path)).toList = path.toList := by
    rw [String.toList_intercalate, pieces_eq, List.map_map]
    simp [Function.comp_def, List.intercalate_splitOn]
  exact String.toList_injective hlist

/-- The path up to its last slash, the slash and the last piece make up the path. -/
theorem utf8ByteSize_directory {path last : String} {front : List String}
    (h : pieces path = front ++ [last]) (hfront : front ≠ []) :
    (directory path).utf8ByteSize + 1 + last.utf8ByteSize = path.utf8ByteSize := by
  have hpath : path = directory path ++ "/" ++ last := by
    rw [directory, h, List.dropLast_concat]
    conv_lhs => rw [← intercalate_pieces path, h]
    rw [String.intercalate_append_of_ne_nil hfront (by simp), String.intercalate_singleton]
  have hslash : "/".utf8ByteSize = 1 := by decide
  conv_rhs => rw [hpath, String.utf8ByteSize_append, String.utf8ByteSize_append, hslash]

theorem utf8ByteSize_directory_le (path : String) :
    (directory path).utf8ByteSize ≤ path.utf8ByteSize := by
  rcases List.eq_nil_or_concat (pieces path) with hnil | ⟨front, last, hpieces⟩
  · simp [directory, hnil]
  · by_cases hfront : front = []
    · simp [directory, hpieces, hfront]
    · rw [List.concat_eq_append] at hpieces
      have hsize := utf8ByteSize_directory hpieces hfront
      omega

end Path

namespace World

/-- A name that a directory may hold. -/
structure IsName (name : String) : Prop where
  nonempty : name ≠ ""
  notHere : name ≠ "."
  notUp : name ≠ ".."
  slashless : '/' ∉ name.toList
  noZero : '\x00' ∉ name.toList
  short : name.utf8ByteSize ≤ 255

instance (name : String) : Decidable (IsName name) :=
  decidable_of_iff (name ≠ "" ∧ name ≠ "." ∧ name ≠ ".." ∧ '/' ∉ name.toList ∧
    '\x00' ∉ name.toList ∧ name.utf8ByteSize ≤ 255)
    ⟨fun ⟨a, b, c, d, e, f⟩ => ⟨a, b, c, d, e, f⟩, fun ⟨a, b, c, d, e, f⟩ => ⟨a, b, c, d, e, f⟩⟩

def Distinct (w : World) : Prop := (w.nodes.map Prod.fst).Nodup

/-- A tree as a file system keeps it. -/
structure IsTree (w : World) : Prop where
  distinct : (w.nodes.map Prod.fst).Nodup
  named : ∀ x ∈ w.nodes, ∀ name ∈ x.1, IsName name
  parent : ∀ x ∈ w.nodes, w.at? x.1.dropLast = some .dir
  cwd : w.at? w.cwd = some .dir

instance (w : World) : Decidable w.IsTree :=
  decidable_of_iff ((w.nodes.map Prod.fst).Nodup ∧ (∀ x ∈ w.nodes, ∀ name ∈ x.1, IsName name) ∧
    (∀ x ∈ w.nodes, w.at? x.1.dropLast = some .dir) ∧ w.at? w.cwd = some .dir)
    ⟨fun ⟨a, b, c, d⟩ => ⟨a, b, c, d⟩, fun ⟨a, b, c, d⟩ => ⟨a, b, c, d⟩⟩

/-- A text that the file system takes as a path. -/
structure IsPath (path : String) : Prop where
  nonempty : (path == "") = false
  noZero : path.toList.contains '\x00' = false
  short : path.utf8ByteSize < 4096

instance (path : String) : Decidable (IsPath path) :=
  decidable_of_iff ((path == "") = false ∧ path.toList.contains '\x00' = false ∧
    path.utf8ByteSize < 4096) ⟨fun ⟨a, b, c⟩ => ⟨a, b, c⟩, fun ⟨a, b, c⟩ => ⟨a, b, c⟩⟩

theorem IsPath.find {w : World} {path : String} {p : Place} {n : Node} {trail : List Place}
    (h : IsPath path) (hleads : Leads w true (endsInSlash path) linkLimit (w.start path)
      (namesOf path) trail (.taken p n)) : w.find path = .ok (p, n) := by
  have hshort := h.short
  have hresolve : w.resolve true path = .ok (.taken p n) := by
    rw [resolve_eq, h.nonempty, h.noZero]
    simp only [Bool.false_eq_true, if_false, ge_iff_le]
    rw [if_neg (by omega), walk_of_leads hleads]
  simp only [World.find, hresolve]

theorem isPrefixOf?_eq_some {α : Type} [BEq α] [LawfulBEq α] {p q rest : List α} :
    p.isPrefixOf? q = some rest ↔ q = p ++ rest := by
  induction p generalizing q with
  | nil => simp [List.isPrefixOf?]
  | cons a p ih =>
    cases q with
    | nil => simp [List.isPrefixOf?]
    | cons b q =>
      by_cases hab : a = b
      · simp [List.isPrefixOf?, hab, ih]
      · simp [List.isPrefixOf?, hab, Ne.symm hab]

theorem mem_below {w : World} {p names : Place} {n : Node} :
    (names, n) ∈ w.below p ↔ names ≠ [] ∧ (p ++ names, n) ∈ w.nodes := by
  simp only [below, List.mem_filterMap, Prod.exists]
  constructor
  · rintro ⟨q, m, hq, hsel⟩
    cases hrest : p.isPrefixOf? q with
    | none => simp [hrest] at hsel
    | some rest =>
      cases rest with
      | nil => simp [hrest] at hsel
      | cons name rest =>
        simp only [hrest, Option.some.injEq, Prod.mk.injEq] at hsel
        obtain ⟨rfl, rfl⟩ := hsel
        exact ⟨by simp, isPrefixOf?_eq_some.mp hrest ▸ hq⟩
  · rintro ⟨hne, hmem⟩
    refine ⟨p ++ names, n, hmem, ?_⟩
    rw [isPrefixOf?_eq_some.mpr rfl]
    cases names with
    | nil => exact absurd rfl hne
    | cons name rest => rfl

/-- What is below a place stands in the tree, in the same order. -/
theorem below_sublist (w : World) (p : Place) :
    ((w.below p).map fun x => (p ++ x.1, x.2)).Sublist w.nodes := by
  rw [below]
  induction w.nodes with
  | nil => simp
  | cons x nodes ih =>
    obtain ⟨q, n⟩ := x
    cases hrest : p.isPrefixOf? q with
    | none => simpa [List.filterMap_cons, hrest] using ih.cons _
    | some rest =>
      cases rest with
      | nil => simpa [List.filterMap_cons, hrest] using ih.cons _
      | cons name rest =>
        have hq := isPrefixOf?_eq_some.mp hrest
        simp only [List.filterMap_cons, hrest, List.map_cons]
        exact hq ▸ ih.cons_cons _

theorem Distinct.mem_nodes_iff {w : World} (hw : w.Distinct) {q : Place} (hq : q ≠ []) {n : Node} :
    (q, n) ∈ w.nodes ↔ w.at? q = some n := by
  rw [at?, if_neg (by simpa using hq), lookup_eq_some_iff_mem hw]

theorem Distinct.below {w : World} (hw : w.Distinct) (p : Place) :
    ((w.below p).map Prod.fst).Nodup := by
  have hplaces : ((w.below p).map fun x => p ++ x.1).Nodup := by
    have hsub := (w.below_sublist p).map Prod.fst
    rw [List.map_map] at hsub
    exact List.Nodup.sublist hsub hw
  have hsplit : (w.below p).map (fun x => p ++ x.1) = ((w.below p).map Prod.fst).map (p ++ ·) := by
    simp
  rw [hsplit] at hplaces
  exact hplaces.of_map

theorem IsTree.isName_of_at? {w : World} (hw : w.IsTree) {q : Place} {n : Node}
    (hat : w.at? q = some n) : ∀ name ∈ q, IsName name := by
  by_cases hq : q = []
  · simp [hq]
  · exact hw.named (q, n) ((Distinct.mem_nodes_iff hw.distinct hq).mpr hat)

/-- What stands in the tree stands in a directory. -/
structure Rooted (w : World) : Prop where
  parent : ∀ q n, w.at? q = some n → w.at? q.dropLast = some .dir
  cwd : w.at? w.cwd = some .dir

theorem IsTree.rooted {w : World} (hw : w.IsTree) : w.Rooted where
  parent q n hat := by
    by_cases hq : q = []
    · rw [hq]
      rfl
    · exact hw.parent (q, n) ((Distinct.mem_nodes_iff hw.distinct hq).mpr hat)
  cwd := hw.cwd

/-- Nothing stands below what is no directory. -/
theorem Rooted.below_none {w : World} (hw : w.Rooted) {p : Place} (hp : w.at? p ≠ some .dir)
    {names : Place} (hne : names ≠ []) : w.at? (p ++ names) = none := by
  induction names using List.reverseRecOn with
  | nil => exact absurd rfl hne
  | append_singleton names name ih =>
    cases hat : w.at? (p ++ (names ++ [name])) with
    | none => rfl
    | some n =>
      have hparent := hw.parent _ n hat
      rw [← List.append_assoc, List.dropLast_concat] at hparent
      by_cases hnames : names = []
      · rw [hnames, List.append_nil] at hparent
        exact absurd hparent hp
      · rw [ih hnames] at hparent
        cases hparent

end World

namespace Listing

theorem select_eq_some {x : Place × Node} {f : PackageFile} :
    select x = some f ↔
      ∃ bytes, x.2 = .file bytes ∧ isIncluded x.1 = true ∧ f = ⟨String.intercalate "/" x.1, bytes⟩ := by
  obtain ⟨names, n⟩ := x
  cases n with
  | file bytes =>
    by_cases hin : isIncluded names = true
    · simp [select, hin, eq_comm]
    · simp [select, hin]
  | dir | link => simp [select]

section OfPlace
variable {w v : World} {root place : Place} {f : PackageFile}

theorem mem_ofPlace (hw : w.Distinct) : f ∈ ofPlace w root ↔
    ∃ names bytes, w.at? (root ++ names) = some (.file bytes) ∧ isIncluded names = true ∧
      f = ⟨String.intercalate "/" names, bytes⟩ := by
  simp only [ofPlace, sorted, List.mem_mergeSort, List.mem_filterMap, select_eq_some, Prod.exists,
    World.mem_below]
  constructor
  · rintro ⟨names, n, ⟨hne, hmem⟩, bytes, rfl, hin, hf⟩
    exact ⟨names, bytes, (hw.mem_nodes_iff (by simp [hne])).mp hmem, hin, hf⟩
  · rintro ⟨names, bytes, hat, hin, hf⟩
    have hne : names ≠ [] := by
      rintro rfl
      simp [isIncluded] at hin
    exact ⟨names, _, ⟨hne, (hw.mem_nodes_iff (by simp [hne])).mpr hat⟩, bytes, rfl, hin, hf⟩

/-- Where the files of a package have names without slashes, two of them have two paths. -/
theorem distinct_paths (hw : w.Distinct)
    (hnamed : ∀ names bytes, w.at? (root ++ names) = some (.file bytes) →
      isIncluded names = true → ∀ name ∈ names, '/' ∉ name.toList) :
    ((ofPlace w root).map (·.path)).Nodup := by
  have hperm : ((ofPlace w root).map (·.path)).Perm
      (((w.below root).filterMap select).map (·.path)) := (List.mergeSort_perm _ _).map _
  rw [hperm.nodup_iff]
  refine List.pairwise_map.mpr (List.pairwise_filterMap.mpr ?_)
  refine (List.pairwise_map.mp (hw.below root)).imp_of_mem ?_
  rintro ⟨x, n⟩ ⟨y, m⟩ hx hy hne f hf g hg hpath
  obtain ⟨bytes, rfl, hinx, rfl⟩ := select_eq_some.mp hf
  obtain ⟨bytes', rfl, hiny, rfl⟩ := select_eq_some.mp hg
  -- The names can be read off the path.
  obtain ⟨hxne, hx⟩ := World.mem_below.mp hx
  obtain ⟨hyne, hy⟩ := World.mem_below.mp hy
  have hpieces := congrArg Path.pieces hpath
  rw [Path.pieces_intercalate hxne (hnamed x bytes ((hw.mem_nodes_iff (by simp [hxne])).mp hx) hinx),
    Path.pieces_intercalate hyne (hnamed y bytes' ((hw.mem_nodes_iff (by simp [hyne])).mp hy) hiny)]
    at hpieces
  exact hne hpieces

theorem distinct_ofPlace (hw : w.IsTree) (root : Place) :
    ((ofPlace w root).map (·.path)).Nodup :=
  distinct_paths hw.distinct fun _ _ hat _ name hname =>
    (hw.isName_of_at? hat name (by simp [hname])).slashless

theorem pairwise_ofPlace (w : World) (root : Place) :
    (ofPlace w root).Pairwise fun f g => f.path ≤ g.path := by
  have htrans : ∀ a b c : PackageFile, decide (a.path ≤ b.path) = true →
      decide (b.path ≤ c.path) = true → decide (a.path ≤ c.path) = true := by
    intro a b c hab hbc
    simp only [decide_eq_true_eq] at hab hbc ⊢
    exact le_trans hab hbc
  have htotal : ∀ a b : PackageFile,
      (decide (a.path ≤ b.path) || decide (b.path ≤ a.path)) = true := fun a b => by
    simpa using le_total a.path b.path
  simpa [ofPlace, sorted] using
    List.pairwise_mergeSort htrans htotal ((w.below root).filterMap select)

theorem ascending_of_distinct (h : ((ofPlace w root).map (·.path)).Nodup) :
    (ofPlace w root).Pairwise fun f g => f.path < g.path :=
  ((pairwise_ofPlace w root).and (List.pairwise_map.mp h)).imp fun h => lt_of_le_of_ne h.1 h.2

theorem eq_of_mem_iff {files files' : Listing} (h : files.Pairwise fun f g => f.path < g.path)
    (h' : files'.Pairwise fun f g => f.path < g.path) (hmem : ∀ f, f ∈ files ↔ f ∈ files') :
    files = files' := by
  have hnodup : ∀ {l : Listing}, (l.Pairwise fun f g => f.path < g.path) → l.Nodup := fun hl =>
    hl.imp fun hlt heq => absurd (congrArg PackageFile.path heq) hlt.ne
  have hperm : files.Perm files' := (List.perm_ext_iff_of_nodup (hnodup h) (hnodup h')).mpr hmem
  exact hperm.eq_of_pairwise (fun f g _ _ hfg hgf => absurd hgf hfg.asymm) h h'

/-- The files of a package are those with names that belong to it, wherever the package is. -/
theorem ofPlace_congr (hw : w.IsTree) (hv : v.Distinct)
    (h : ∀ names bytes, isIncluded names = true →
      (v.at? (place ++ names) = some (.file bytes) ↔ w.at? (root ++ names) = some (.file bytes))) :
    ofPlace v place = ofPlace w root := by
  have hpaths : ((ofPlace v place).map (·.path)).Nodup :=
    distinct_paths hv fun names bytes hat hin name hname =>
      (hw.isName_of_at? ((h names bytes hin).mp hat) name (by simp [hname])).slashless
  refine eq_of_mem_iff (ascending_of_distinct hpaths)
    (ascending_of_distinct (distinct_ofPlace hw root)) fun f => ?_
  rw [mem_ofPlace hv, mem_ofPlace hw.distinct]
  constructor
  · rintro ⟨names, bytes, hat, hin, hf⟩
    exact ⟨names, bytes, (h names bytes hin).mp hat, hin, hf⟩
  · rintro ⟨names, bytes, hat, hin, hf⟩
    exact ⟨names, bytes, (h names bytes hin).mpr hat, hin, hf⟩

end OfPlace

section OfPath
variable {w : World} {root : String} {place : Place} {f : PackageFile}

theorem isMet_of_isOpen (h : isOpen root f = true) : isMet root f = true := by
  simp only [isOpen, isMet, Path.isShort, decide_eq_true_eq] at h ⊢
  exact lt_of_le_of_lt (Path.utf8ByteSize_directory_le _) h

theorem met_of_find (hfind : w.find root = .ok (place, .dir)) :
    met w root = (ofPlace w place).filter (isMet root) := by
  simp only [met, hfind]

theorem ofPath_of_find (hfind : w.find root = .ok (place, .dir)) :
    ofPath w root = (ofPlace w place).filter (isOpen root) := by
  rw [ofPath, met_of_find hfind, List.filter_filter]
  refine List.filter_congr fun f _ => ?_
  cases hopen : isOpen root f with
  | false => simp
  | true => simp [isMet_of_isOpen hopen]

theorem met_eq_nil (hnot : ∀ place, w.find root ≠ .ok (place, .dir)) : met w root = [] := by
  unfold met
  split
  next place hfind => exact absurd hfind (hnot place)
  next => rfl

theorem ofPath_eq_nil (hnot : ∀ place, w.find root ≠ .ok (place, .dir)) : ofPath w root = [] := by
  rw [ofPath, met_eq_nil hnot, List.filter_nil]

theorem mem_met : f ∈ met w root ↔
    ∃ place, w.find root = .ok (place, .dir) ∧ f ∈ ofPlace w place ∧ isMet root f = true := by
  constructor
  · intro hf
    by_cases hnot : ∀ place, w.find root ≠ .ok (place, .dir)
    · rw [met_eq_nil hnot] at hf
      cases hf
    · obtain ⟨place, hfind⟩ := not_forall_not.mp hnot
      rw [met_of_find hfind] at hf
      exact ⟨place, hfind, List.mem_filter.mp hf⟩
  · rintro ⟨place, hfind, hf⟩
    rw [met_of_find hfind]
    exact List.mem_filter.mpr hf

theorem mem_ofPath : f ∈ ofPath w root ↔
    ∃ place, w.find root = .ok (place, .dir) ∧ f ∈ ofPlace w place ∧ isOpen root f = true := by
  rw [ofPath, List.mem_filter, mem_met]
  constructor
  · rintro ⟨⟨place, hfind, hf, -⟩, hopen⟩
    exact ⟨place, hfind, hf, hopen⟩
  · rintro ⟨place, hfind, hf, hopen⟩
    exact ⟨⟨place, hfind, hf, isMet_of_isOpen hopen⟩, hopen⟩

/-- Where every file can be opened by its path, a package has the same files by its path as by its
place. -/
theorem ofPath_eq_ofPlace (hfind : w.find root = .ok (place, .dir))
    (hopen : ∀ f ∈ ofPlace w place, isOpen root f = true) : ofPath w root = ofPlace w place := by
  rw [ofPath_of_find hfind, List.filter_eq_self.mpr hopen]

theorem ascending_met (hw : w.IsTree) (root : String) :
    (met w root).Pairwise fun f g => f.path < g.path := by
  unfold met
  split
  next => exact (ascending_of_distinct (distinct_ofPlace hw _)).sublist List.filter_sublist
  next => exact List.Pairwise.nil

theorem ascending_ofPath (hw : w.IsTree) (root : String) :
    (ofPath w root).Pairwise fun f g => f.path < g.path :=
  (ascending_met hw root).sublist List.filter_sublist

theorem distinct_met (hw : w.IsTree) (root : String) : ((met w root).map (·.path)).Nodup :=
  List.pairwise_map.mpr ((ascending_met hw root).imp fun h => h.ne)

theorem distinct_ofPath (hw : w.IsTree) (root : String) :
    ((ofPath w root).map (·.path)).Nodup :=
  (distinct_met hw root).sublist (List.filter_sublist.map _)

end OfPath

end Listing
end SkillAudit
