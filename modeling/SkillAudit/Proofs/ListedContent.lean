import Mathlib
import SkillAudit.Behaviour.Monitor
import SkillAudit.Diff.Compare
import SkillAudit.Flow.Graph
import SkillAudit.Proofs.ByteOrder
import SkillAudit.Proofs.PathEvaluation
import SkillAudit.Proofs.PathNames

/-!
What the analyses of a package depend on: the files that belong to it, by their paths and bytes, and
which of them can be read. Where the package stands, in which order its directories are read, and what
else they hold does not count. By a path that is too long for a file below it, the same package looks
different.
-/
namespace SkillAudit

namespace Listing

/-- Names from the root of a package to a file that belongs to it: they lead through no directory
that is left out, and the last of them is not left out either. -/
structure Belongs (names : Place) : Prop where
  directories : ∀ d ∈ names.dropLast, d ∉ excludedDirs
  name : ∃ name ∈ names.getLast?, name ∉ excludedFiles ∧ ¬ "._".toList <+: name.toList ∧
    ∀ e ∈ PackageFile.extensionOf name, e ∉ excludedExtensions

theorem isExcludedFile_eq_false {name : String} : isExcludedFile name = false ↔
    name ∉ excludedFiles ∧ ¬ "._".toList <+: name.toList ∧
      ∀ e ∈ PackageFile.extensionOf name, e ∉ excludedExtensions := by
  have hprefix : "._".toList.isPrefixOf name.toList = false ↔ ¬ "._".toList <+: name.toList := by
    rw [← List.isPrefixOf_iff_prefix, Bool.not_eq_true]
  unfold isExcludedFile
  cases PackageFile.extensionOf name with
  | none => simpa using fun _ => hprefix
  | some e => simp only [Bool.or_eq_false_iff, hprefix]; simp [and_assoc]

theorem isIncluded_iff {names : Place} : isIncluded names = true ↔ Belongs names := by
  unfold isIncluded
  constructor
  · intro h
    cases hlast : names.getLast? with
    | none => simp [hlast] at h
    | some name =>
      simp only [hlast, Bool.and_eq_true, Bool.not_eq_true', isExcludedFile_eq_false] at h
      exact ⟨by simpa using h.1, name, hlast, h.2⟩
  · rintro ⟨hdirs, name, hlast, hname⟩
    have hlast : names.getLast? = some name := hlast
    simp only [hlast, Bool.and_eq_true, Bool.not_eq_true', isExcludedFile_eq_false]
    exact ⟨by simpa using hdirs, hname⟩

/-- Two packages of the same files: at names that belong to a package, there are the same bytes. -/
def SameFiles (w : World) (p : Place) (v : World) (q : Place) : Prop :=
  ∀ names bytes, Belongs names →
    (w.at? (p ++ names) = some (.file bytes) ↔ v.at? (q ++ names) = some (.file bytes))

/-- From two paths to the root of a package the same of its files are met and can be opened. -/
def SameReach (root root' : String) (files : Listing) : Prop :=
  ∀ f ∈ files, isMet root f = isMet root' f ∧ isOpen root f = isOpen root' f

instance (root root' : String) (files : Listing) : Decidable (SameReach root root' files) :=
  List.decidableBAll _ files

section OfPath
variable {w v : World} {root root' : String} {p q : Place}

/-- The paths of the files that are met ascend, byte by byte. -/
theorem bytes_met (hw : w.IsTree) (root : String) :
    (met w root).Pairwise fun f g => Text.bytes f.path < Text.bytes g.path :=
  (ascending_met hw root).imp Text.lt_iff_bytes_lt.mp

theorem bytes_ofPath (hw : w.IsTree) (root : String) :
    (ofPath w root).Pairwise fun f g => Text.bytes f.path < Text.bytes g.path :=
  (bytes_met hw root).sublist List.filter_sublist

/-- A file that is met can be opened from both paths or from none. -/
theorem SameReach.isOpen_eq (hreach : SameReach root root' (ofPlace w p))
    (hp : w.find root = .ok (p, .dir)) : ∀ f ∈ met w root, isOpen root' f = isOpen root f := by
  intro f hf
  rw [met_of_find hp] at hf
  exact (hreach f (List.mem_filter.mp hf).1).2.symm

section SameFiles
variable (hw : w.IsTree) (hv : v.IsTree) (hp : w.find root = .ok (p, .dir))
  (hq : v.find root' = .ok (q, .dir)) (h : SameFiles w p v q)
  (hreach : SameReach root root' (ofPlace w p))
include hw hv hp hq h hreach

theorem met_of_sameFiles : met v root' = met w root := by
  have hplace : ofPlace v q = ofPlace w p := ofPlace_congr hw hv.distinct fun names bytes hin =>
    (h names bytes (isIncluded_iff.mp hin)).symm
  rw [met_of_find hp, met_of_find hq, hplace]
  exact List.filter_congr fun f hf => (hreach f hf).1.symm

theorem ofPath_of_sameFiles : ofPath v root' = ofPath w root := by
  rw [ofPath, ofPath, met_of_sameFiles hw hv hp hq h hreach]
  exact List.filter_congr (hreach.isOpen_eq hp)

theorem unread_of_sameFiles : unread v root' = unread w root := by
  rw [unread, unread, met_of_sameFiles hw hv hp hq h hreach]
  congr 1
  refine List.filter_congr fun f hf => ?_
  rw [hreach.isOpen_eq hp f hf]

end SameFiles
end OfPath
end Listing

namespace Diff

theorem missingFrom_self (findings : List Finding) : missingFrom findings findings = [] := by
  unfold missingFrom
  rw [List.filter_eq_nil_iff]
  intro f hf
  have hany : findings.any (·.key == f.key) = true := List.any_eq_true.mpr ⟨f, hf, by simp⟩
  simp [hany]

theorem lookup_fileHashes {files : Listing} {path hash : String} :
    (Fingerprint.fileHashes files).lookup path = some hash ↔
      (path, hash) ∈ Fingerprint.fileHashes files :=
  (Dict.sorted_ofList _).1.mem_iff.symm

/-- Between a package and another of the same files there is no difference. -/
theorem ofListings_self (rules : RuleSet) (limit : Nat) (files : Listing) :
    (ofListings rules limit files files).isIdentical = true ∧
      (ofListings rules limit files files).newFindings = [] ∧
      (ofListings rules limit files files).removedFindings = [] ∧
      (ofListings rules limit files files).sensitiveChanges = [] ∧
      (ofListings rules limit files files).riskDelta = 0 := by
  refine ⟨?_, missingFrom_self _, missingFrom_self _, ?_, Int.sub_self _⟩
  · simp only [isIdentical, ofListings, Bool.and_eq_true, List.isEmpty_iff, List.map_eq_nil_iff,
      List.filter_eq_nil_iff]
    refine ⟨⟨?_, ?_⟩, ?_⟩
    all_goals
      rintro ⟨path, hash⟩ hx
      simp [lookup_fileHashes.mpr hx]
  · simp only [ofListings, List.flatMap_eq_nil_iff, List.mem_append, List.mem_map, List.mem_filter]
    rintro path (⟨⟨path, hash⟩, ⟨hx, hkept⟩, rfl⟩ | ⟨⟨path, hash⟩, ⟨hx, hkept⟩, rfl⟩)
    all_goals simp [lookup_fileHashes.mpr hx] at hkept

end Diff

section Agreement
variable {w v : World} {root root' : String} {p q : Place}

/-- Two packages of the same files, wherever they stand and whatever else is beside their files, are
listed in the same ascending order, and every analysis gives the same of both, as long as the same of
their files are within reach. -/
theorem analyses_of_same_files (hw : w.IsTree) (hv : v.IsTree) (hp : w.find root = .ok (p, .dir))
    (hq : v.find root' = .ok (q, .dir)) (h : Listing.SameFiles w p v q)
    (hreach : Listing.SameReach root root' (Listing.ofPlace w p)) :
    (Listing.met w root).Pairwise (fun f g => Text.bytes f.path < Text.bytes g.path) ∧
    Listing.met v root' = Listing.met w root ∧
    Listing.ofPath v root' = Listing.ofPath w root ∧
    Fingerprint.ofPath v root' = Fingerprint.ofPath w root ∧
    Fingerprint.fileHashes (Listing.ofPath v root') =
      Fingerprint.fileHashes (Listing.ofPath w root) ∧
    (∀ rules limit, Scan.path rules limit v root' = Scan.path rules limit w root) ∧
    (∀ limit, Flow.ofPath limit v root' = Flow.ofPath limit w root) ∧
    (∀ limit, Behaviour.ofPath limit v root' = Behaviour.ofPath limit w root) ∧
    (v = w → ∀ rules limit, (Diff.ofPaths rules limit w root root').isIdentical = true ∧
      (Diff.ofPaths rules limit w root root').newFindings = [] ∧
      (Diff.ofPaths rules limit w root root').removedFindings = [] ∧
      (Diff.ofPaths rules limit w root root').sensitiveChanges = [] ∧
      (Diff.ofPaths rules limit w root root').riskDelta = 0) := by
  have hmet := Listing.met_of_sameFiles hw hv hp hq h hreach
  have hsame := Listing.ofPath_of_sameFiles hw hv hp hq h hreach
  have hunread := Listing.unread_of_sameFiles hw hv hp hq h hreach
  refine ⟨Listing.bytes_met hw root, hmet, hsame, ?_, ?_, fun rules limit => ?_,
    fun limit => ?_, fun limit => ?_, ?_⟩
  · rw [Fingerprint.ofPath, Fingerprint.ofPath, hsame]
  · rw [hsame]
  · rw [Scan.path, Scan.path, hsame, hunread]
  · rw [Flow.ofPath, Flow.ofPath, hsame, hunread]
  · rw [Behaviour.ofPath, Behaviour.ofPath, hsame]
  · rintro rfl rules limit
    rw [Diff.ofPaths, hsame]
    exact Diff.ofListings_self rules limit _

end Agreement

/-- A package, and one of the same files below another directory, read in another order and with
version control, compiled code, a link and an empty directory beside them. -/
def twins : World where
  nodes := [
    (["p"], .dir), (["p", "SKILL.md"], .file ⟨#[120]⟩), (["p", "lib"], .dir),
    (["p", "lib", "a.js"], .file ⟨#[121]⟩),
    (["q"], .dir), (["q", "r"], .dir), (["q", "r", "lib"], .dir),
    (["q", "r", "lib", "a.js"], .file ⟨#[121]⟩), (["q", "r", ".git"], .dir),
    (["q", "r", ".git", "HEAD"], .file ⟨#[122]⟩), (["q", "r", "m.pyc"], .file .empty),
    (["q", "r", "s"], .link "SKILL.md"), (["q", "r", "t"], .dir),
    (["q", "r", "SKILL.md"], .file ⟨#[120]⟩)]
  cwd := []

theorem twins_find {path : String} {p : Place}
    (h : twins.reaches true path = .ok (.taken p .dir)) : twins.find path = .ok (p, .dir) := by
  simp only [World.find, World.resolve_eq_reaches, h]

theorem twins_sameFiles : Listing.SameFiles twins ["p"] twins ["q", "r"] := by
  intro names bytes hnames
  have hdistinct : twins.Distinct := by unfold World.Distinct; decide
  rw [← hdistinct.mem_nodes_iff (by simp), ← hdistinct.mem_nodes_iff (by simp)]
  have hleft : (["p"] ++ names, Node.file bytes) ∈ twins.nodes ↔
      (names = ["SKILL.md"] ∧ bytes = ⟨#[120]⟩) ∨ (names = ["lib", "a.js"] ∧ bytes = ⟨#[121]⟩) := by
    simp [twins]
  have hright : (["q", "r"] ++ names, Node.file bytes) ∈ twins.nodes ↔
      (names = ["lib", "a.js"] ∧ bytes = ⟨#[121]⟩) ∨ (names = [".git", "HEAD"] ∧ bytes = ⟨#[122]⟩) ∨
        (names = ["m.pyc"] ∧ bytes = .empty) ∨ (names = ["SKILL.md"] ∧ bytes = ⟨#[120]⟩) := by
    simp [twins]
  have hgit : names ≠ [".git", "HEAD"] := by
    rintro rfl
    exact absurd (Listing.isIncluded_iff.mpr hnames) (by decide)
  have hcompiled : names ≠ ["m.pyc"] := by
    rintro rfl
    exact absurd (Listing.isIncluded_iff.mpr hnames) (by decide)
  rw [hleft, hright]
  simp only [hgit, hcompiled, false_and, false_or]
  exact or_comm

theorem twins_ofPlace :
    Listing.ofPlace twins ["p"] = [⟨"SKILL.md", ⟨#[120]⟩⟩, ⟨"lib/a.js", ⟨#[121]⟩⟩] := by
  cbv

theorem twins_sameReach : Listing.SameReach "p" "q/r" (Listing.ofPlace twins ["p"]) := by
  rw [twins_ofPlace]
  decide

/-- The two packages of the tree have one fingerprint, and nothing differs between them. -/
theorem analyses_of_same_files_twins :
    twins.IsTree ∧ Listing.SameFiles twins ["p"] twins ["q", "r"] ∧
    Listing.SameReach "p" "q/r" (Listing.ofPlace twins ["p"]) ∧
    Fingerprint.ofPath twins "q/r" = Fingerprint.ofPath twins "p" ∧
    (Listing.ofPath twins "q/r").map (·.path) = ["SKILL.md", "lib/a.js"] ∧
    (Diff.ofPaths ⟨"1", []⟩ 100 twins "p" "q/r").isIdentical = true := by
  have htree : twins.IsTree := by decide
  have hp : twins.find "p" = .ok (["p"], .dir) := twins_find (by decide)
  have hq : twins.find "q/r" = .ok (["q", "r"], .dir) := twins_find (by decide)
  obtain ⟨-, -, hlisting, hfingerprint, -, -, -, -, hdiff⟩ :=
    analyses_of_same_files htree htree hp hq twins_sameFiles twins_sameReach
  refine ⟨htree, twins_sameFiles, twins_sameReach, hfingerprint, ?_, (hdiff rfl ⟨"1", []⟩ 100).1⟩
  rw [hlisting, Listing.ofPath_of_find hp, twins_ofPlace]
  decide

/-! A package by a path that is too long for its file. -/

namespace Path
variable {name path root : String}

/-- A path that stays where it is a number of times first. -/
def idling : Nat → String → String
  | 0, path => path
  | n + 1, path => "./" ++ idling n path

theorem utf8ByteSize_idling (n : Nat) (path : String) :
    (idling n path).utf8ByteSize = 2 * n + path.utf8ByteSize := by
  induction n with
  | zero => simp [idling]
  | succ n ih =>
    have hdot : "./".utf8ByteSize = 2 := by decide
    rw [idling, String.utf8ByteSize_append, ih, hdot]
    omega

theorem pieces_idling (n : Nat) (path : String) :
    pieces (idling n path) = List.replicate n "." ++ pieces path := by
  induction n with
  | zero => rfl
  | succ n ih =>
    have hsplit : idling (n + 1) path = "." ++ "/" ++ idling n path := rfl
    rw [hsplit, pieces_slash, ih]
    rfl

theorem isAbsolute_idling (n : Nat) (h : isAbsolute path = false) :
    isAbsolute (idling n path) = false := by
  cases n with
  | zero => exact h
  | succ n =>
    refine Bool.eq_false_iff.mpr fun habs => ?_
    exact absurd ((isAbsolute_iff (pieces_idling (n + 1) path)).mp habs).1 (by decide)

/-- Where paths are joined, at most a slash comes between them. -/
theorem utf8ByteSize_join (root : String) (hpath : isAbsolute path = false) :
    root.utf8ByteSize + path.utf8ByteSize ≤ (join root path).utf8ByteSize ∧
      (join root path).utf8ByteSize ≤ root.utf8ByteSize + 1 + path.utf8ByteSize := by
  have hslash : "/".utf8ByteSize = 1 := by decide
  unfold join
  rw [if_neg (by simp [hpath])]
  split
  next h =>
    rw [beq_iff_eq.mp h, String.utf8ByteSize_empty]
    omega
  next =>
    split
    next =>
      rw [String.utf8ByteSize_append]
      omega
    next =>
      rw [String.utf8ByteSize_append, String.utf8ByteSize_append, hslash]
      omega

/-- The directory of a name that continues a path is no longer than the path. -/
theorem utf8ByteSize_directory_join_le (hname : World.IsName name) :
    (directory (join root name)).utf8ByteSize ≤ root.utf8ByteSize := by
  obtain ⟨front, hpieces, -⟩ := pieces_join_name hname root
  by_cases hfront : front = []
  · simp [directory, hpieces, hfront]
  · have hsize := utf8ByteSize_directory hpieces hfront
    have hjoin := (utf8ByteSize_join root (isAbsolute_name hname)).2
    omega

end Path

namespace World
variable {w : World} {name : String} {n : Nat}

theorem isPath_idling (hname : IsName name) (hshort : 2 * n + name.utf8ByteSize < 4096) :
    IsPath (Path.idling n name) where
  nonempty := by
    refine beq_eq_false_iff_ne.mpr fun hempty => ?_
    have hsize := Path.utf8ByteSize_idling n name
    rw [hempty, String.utf8ByteSize_empty] at hsize
    exact hname.nonempty (String.utf8ByteSize_eq_zero_iff.mp (by omega))
  noZero := by
    induction n with
    | zero => simpa [Path.idling] using hname.noZero
    | succ n ih =>
      have hrest := ih (by omega)
      simpa [Path.idling] using hrest
  short := by rwa [Path.utf8ByteSize_idling]

theorem find_idling (hname : IsName name) (hshort : 2 * n + name.utf8ByteSize < 4096)
    (hdir : w.at? (w.cwd ++ [name]) = some .dir) :
    w.find (Path.idling n name) = .ok (w.cwd ++ [name], .dir) := by
  have hpieces := Path.pieces_idling n name
  rw [Path.pieces_name hname] at hpieces
  have hstart : w.start (Path.idling n name) = w.cwd := by
    simp [start, Path.isAbsolute_idling n (Path.isAbsolute_name hname)]
  have hleads : Leads w true (endsInSlash (Path.idling n name)) linkLimit
      (w.start (Path.idling n name)) (namesOf (Path.idling n name)) []
      (.taken (w.cwd ++ [name]) .dir) := by
    rw [hstart, Path.namesOf_eq hpieces hname.nonempty]
    generalize endsInSlash (Path.idling n name) = slash
    clear hpieces hstart hshort
    induction n with
    | zero => exact .down (Path.isStep_name hname) hname.short hdir .here
    | succ n ih => exact .idle (by decide) ih
  exact (isPath_idling hname hshort).find hleads

end World

namespace Listing
variable {root : String} {f : PackageFile}

theorem isMet_of_isName (hname : World.IsName f.path) (hroot : root.utf8ByteSize < 4096) :
    isMet root f = true :=
  decide_eq_true (lt_of_le_of_lt (Path.utf8ByteSize_directory_join_le hname) hroot)

theorem isOpen_eq_false (hpath : Path.isAbsolute f.path = false)
    (hlong : 4096 ≤ root.utf8ByteSize + f.path.utf8ByteSize) : isOpen root f = false := by
  have hsize := (Path.utf8ByteSize_join root hpath).1
  exact decide_eq_false (by omega)

end Listing

def lone : World where
  nodes := [(["p"], .dir), (["p", "f"], .file ⟨#[120]⟩)]
  cwd := []

/-- The package by a path that leaves no room for a name. -/
def lonePath : String := Path.idling 2047 "p"

theorem utf8ByteSize_lonePath : lonePath.utf8ByteSize = 4095 := Path.utf8ByteSize_idling 2047 "p"

theorem lone_isTree : lone.IsTree := by decide

theorem lone_find : lone.find "p" = .ok (["p"], .dir) := by
  simp only [World.find, World.resolve_eq_reaches]
  decide

theorem lone_find_long : lone.find lonePath = .ok (["p"], .dir) :=
  World.find_idling (by decide) (by decide) (by decide)

theorem lone_ofPlace : Listing.ofPlace lone ["p"] = [⟨"f", ⟨#[120]⟩⟩] := by cbv

theorem lone_isOpen_long (f : PackageFile) (hf : f ∈ Listing.ofPlace lone ["p"]) :
    Listing.isOpen lonePath f = false := by
  rw [lone_ofPlace, List.mem_singleton] at hf
  subst hf
  exact Listing.isOpen_eq_false (by decide) (by rw [utf8ByteSize_lonePath]; decide)

theorem lone_met_same : Listing.met lone lonePath = Listing.met lone "p" := by
  have hmet : ∀ {root : String}, root.utf8ByteSize < 4096 → lone.find root = .ok (["p"], .dir) →
      Listing.met lone root = [⟨"f", ⟨#[120]⟩⟩] := by
    intro root hroot hfind
    rw [Listing.met_of_find hfind, lone_ofPlace]
    refine List.filter_eq_self.mpr fun f hf => ?_
    rw [List.mem_singleton.mp hf]
    exact Listing.isMet_of_isName (by decide) hroot
  rw [hmet (by decide) lone_find, hmet (by rw [utf8ByteSize_lonePath]; decide) lone_find_long]

theorem lone_ofPath : Listing.ofPath lone "p" = [⟨"f", ⟨#[120]⟩⟩] := by
  rw [Listing.ofPath_of_find lone_find, lone_ofPlace]
  decide

theorem lone_ofPath_long : Listing.ofPath lone lonePath = [] := by
  rw [Listing.ofPath_of_find lone_find_long]
  exact List.filter_eq_nil_iff.mpr fun f hf => by simp [lone_isOpen_long f hf]

/-- By a path that leaves no room for the name of its only file a package is listed as by its own name,
and has a fingerprint of no file; and files with one path are listed in the order in which they
are met. -/
theorem same_files_analysed_otherwise :
    lone.IsTree ∧ lone.find "p" = .ok (["p"], .dir) ∧ lone.find lonePath = .ok (["p"], .dir) ∧
    Listing.met lone lonePath = Listing.met lone "p" ∧
    (Fingerprint.ofPath lone "p").fileCount = 1 ∧
    (Fingerprint.ofPath lone lonePath).fileCount = 0 ∧
    (∀ rules limit, (Diff.ofPaths rules limit lone "p" lonePath).isIdentical = false) ∧
    Listing.sorted [⟨"f", ⟨#[120]⟩⟩, ⟨"f", ⟨#[121]⟩⟩] ≠
      Listing.sorted [⟨"f", ⟨#[121]⟩⟩, ⟨"f", ⟨#[120]⟩⟩] := by
  refine ⟨lone_isTree, lone_find, lone_find_long, lone_met_same, ?_, ?_, fun rules limit => ?_, ?_⟩
  · rw [Fingerprint.ofPath, lone_ofPath]
    rfl
  · rw [Fingerprint.ofPath, lone_ofPath_long]
    rfl
  · rw [Diff.ofPaths, lone_ofPath, lone_ofPath_long]
    simp [Diff.isIdentical, Diff.ofListings, Fingerprint.fileHashes, Dict.ofList, Dict.insert]
  · rw [Listing.sorted, Listing.sorted, List.mergeSort_of_pairwise (by decide),
      List.mergeSort_of_pairwise (by decide)]
    decide

end SkillAudit
