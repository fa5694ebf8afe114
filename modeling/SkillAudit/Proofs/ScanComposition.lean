import Mathlib
import SkillAudit.Proofs.ListedContent
import SkillAudit.Proofs.PenaltySum

/-!
A scan file by file. The report on a package is put together from the reports on the texts of its
files, in the order of their paths, so a package with further files has further findings and no
better a score.
-/
namespace SkillAudit

/-- The bytes of an array from an index on, after those in `done`. -/
theorem toList_loop (bytes : ByteArray) (i : Nat) (done : List UInt8) :
    ByteArray.toList.loop bytes i done = done.reverse ++ bytes.data.toList.drop i := by
  fun_induction ByteArray.toList.loop bytes i done with
  | case1 i done hi ih =>
    have hlt : i < bytes.data.toList.length := hi
    have hget : bytes.get! i = bytes.data.toList[i] := by
      change bytes.data[i]! = _
      rw [getElem!_pos bytes.data i hi]
      rfl
    rw [ih, List.drop_eq_getElem_cons hlt, hget]
    simp
  | case2 i done hi =>
    have hle : bytes.data.toList.length ≤ i := Nat.le_of_not_lt hi
    rw [List.drop_of_length_le hle, List.append_nil]

theorem toList_eq_data (bytes : ByteArray) : bytes.toList = bytes.data.toList := by
  rw [ByteArray.toList, toList_loop]
  rfl

namespace PackageFile

/-- A file that is looked at: it is no larger than the limit, and no zero is among its first
bytes. -/
structure IsReadable (limit : Nat) (f : PackageFile) : Prop where
  small : f.bytes.size ≤ limit
  textual : 0 ∉ f.bytes.data.toList.take 8000

instance (limit : Nat) (f : PackageFile) : Decidable (IsReadable limit f) :=
  decidable_of_iff (f.bytes.size ≤ limit ∧ 0 ∉ f.bytes.data.toList.take 8000)
    ⟨fun h => ⟨h.1, h.2⟩, fun h => ⟨h.small, h.textual⟩⟩

theorem text?_eq (f : PackageFile) (limit : Nat) :
    f.text? limit = if IsReadable limit f then some (Text.Utf8.lossy f.bytes) else none := by
  have hsniff : (f.bytes.extract 0 sniffLength).toList = f.bytes.data.toList.take 8000 := by
    simp [toList_eq_data, sniffLength]
  unfold text?
  rw [hsniff]
  by_cases hsmall : f.bytes.size ≤ limit
  · by_cases hzero : 0 ∈ f.bytes.data.toList.take 8000
    · have hnot : ¬ IsReadable limit f := fun h => h.textual hzero
      simp [hnot, hzero]
    · simp [size, hzero, hsmall, IsReadable.mk hsmall hzero]
  · have hnot : ¬ IsReadable limit f := fun h => hsmall h.small
    rw [if_pos (by simpa [size] using hsmall), if_neg hnot]

end PackageFile

namespace Listing

/-- A listing in the order of its paths, byte by byte. -/
def Ascends (files : Listing) : Prop :=
  files.Pairwise fun f g => Text.bytes f.path < Text.bytes g.path

theorem Ascends.distinct {files : Listing} (h : Ascends files) : (files.map (·.path)).Nodup := by
  refine List.pairwise_map.mpr (h.imp fun hlt heq => ?_)
  rw [heq] at hlt
  exact lt_irrefl _ (Text.lt_iff_bytes_lt.mpr hlt)

theorem Ascends.sublist {few many : Listing} (hfew : Ascends few) (hmany : Ascends many)
    (h : few ⊆ many) : few.Sublist many := by
  have hanti : Std.Antisymm fun f g : PackageFile => Text.bytes f.path < Text.bytes g.path :=
    ⟨fun f g hfg hgf => absurd (Text.lt_iff_bytes_lt.mpr hgf) (Text.lt_iff_bytes_lt.mpr hfg).asymm⟩
  exact List.sublist_of_subperm_of_pairwise (List.subperm_of_subset hfew.distinct.of_map h) hfew hmany

section Reaches
variable {w : World} {path : String} {p : Place} {files : Listing}
  (h : w.reaches true path = .ok (.taken p .dir)) (hfiles : ofPlace w p = files)
  (hshort : ∀ f ∈ files, Path.isShort (Path.join path f.path) = true)
include h hfiles hshort

theorem met_of_reaches : met w path = files ∧ ∀ f ∈ met w path, isOpen path f = true := by
  have hfind : w.find path = .ok (p, .dir) := by
    simp only [World.find, World.resolve_eq_reaches, h]
  have hmet : met w path = files := by
    rw [met_of_find hfind, hfiles]
    exact List.filter_eq_self.mpr fun f hf => isMet_of_isOpen (hshort f hf)
  exact ⟨hmet, hmet ▸ hshort⟩

theorem ofPath_of_reaches : ofPath w path = files := by
  obtain ⟨hmet, hopen⟩ := met_of_reaches h hfiles hshort
  rw [ofPath, List.filter_eq_self.mpr hopen, hmet]

theorem unread_of_reaches : unread w path = [] := by
  obtain ⟨-, hopen⟩ := met_of_reaches h hfiles hshort
  rw [unread, List.map_eq_nil_iff, List.filter_eq_nil_iff]
  intro f hf
  simp [hopen f hf]

end Reaches

theorem ofPath_of_single {w : World} {path name : String} {p : Place} {bytes : ByteArray}
    (h : w.reaches true path = .ok (.taken p .dir)) (hbelow : w.below p = [([name], .file bytes)])
    (hincluded : isIncluded [name] = true)
    (hshort : Path.isShort (Path.join path name) = true) : ofPath w path = [⟨name, bytes⟩] := by
  refine ofPath_of_reaches h ?_ (by simpa using hshort)
  have hselect : select ([name], .file bytes) = some ⟨name, bytes⟩ := by
    simp only [select, hincluded, if_true, String.intercalate_singleton]
  rw [ofPlace, hbelow, List.filterMap_cons_some hselect, List.filterMap_nil, sorted,
    List.mergeSort_singleton]

end Listing

namespace Scan

theorem texts_eq (limit : Nat) (files : Listing) :
    texts limit files = (files.filter (PackageFile.IsReadable limit ·)).map fun f =>
      (f.path, Text.Utf8.lossy f.bytes) := by
  unfold texts
  induction files with
  | nil => rfl
  | cons f files ih =>
    rw [List.filterMap_cons, f.text?_eq, ih]
    by_cases hread : f.IsReadable limit
    · simp [hread]
    · simp [hread]

def ofFile (rules : RuleSet) (f : PackageFile) : ScanReport :=
  text rules (Text.Utf8.lossy f.bytes) f.path

/-- The findings in a package are those in its files, one file after another. -/
theorem findings_files (rules : RuleSet) (limit : Nat) (listing : Listing) :
    (files rules limit listing).findings =
      (listing.filter (PackageFile.IsReadable limit ·)).flatMap fun f => (ofFile rules f).findings := by
  simp only [files, ScanReport.ofFindings, texts_eq, List.flatMap_map]
  rfl

theorem filesScanned_files (rules : RuleSet) (limit : Nat) (listing : Listing) :
    (files rules limit listing).filesScanned =
      (listing.filter (PackageFile.IsReadable limit ·)).length := by
  simp [files, ScanReport.ofFindings, texts_eq]

theorem counted_files (rules : RuleSet) (limit : Nat) (listing : Listing) :
    (files rules limit listing).filesScanned + (files rules limit listing).filesSkipped =
      listing.length := by
  have hle := List.length_filter_le (PackageFile.IsReadable limit ·) listing
  simp only [files, ScanReport.ofFindings, texts_eq, List.length_map]
  omega

theorem score_files (rules : RuleSet) (limit : Nat) (listing : Listing) :
    (files rules limit listing).score.toNat =
      100 - Finding.total (files rules limit listing).findings :=
  ScanReport.toNat_score _ _ _

theorem findings_sublist (rules : RuleSet) (limit : Nat) {few many : Listing}
    (h : few.Sublist many) :
    (files rules limit few).findings.Sublist (files rules limit many).findings := by
  rw [findings_files, findings_files]
  exact (h.filter _).flatMap _

/-- Further files leave no better a score. -/
theorem score_le (rules : RuleSet) (limit : Nat) {few many : Listing} (h : few.Sublist many) :
    (files rules limit many).score ≤ (files rules limit few).score := by
  have hless := Finding.total_le (findings_sublist rules limit h)
  rw [UInt32.le_iff_toNat_le, score_files, score_files]
  omega

theorem path_findings (rules : RuleSet) (limit : Nat) (w : World) (root : String) :
    (path rules limit w root).findings = (files rules limit (Listing.ofPath w root)).findings := rfl

theorem path_score (rules : RuleSet) (limit : Nat) (w : World) (root : String) :
    (path rules limit w root).score = (files rules limit (Listing.ofPath w root)).score := rfl

theorem counted_path (rules : RuleSet) (limit : Nat) (w : World) (root : String) :
    (path rules limit w root).filesScanned + (path rules limit w root).filesSkipped =
      (Listing.met w root).length := by
  have hcounted := counted_files rules limit (Listing.ofPath w root)
  have hmet := List.length_eq_length_filter_add (l := Listing.met w root) (Listing.isOpen root)
  change (files rules limit (Listing.ofPath w root)).filesScanned +
    ((files rules limit (Listing.ofPath w root)).filesSkipped + (Listing.unread w root).length) = _
  rw [← Nat.add_assoc, hcounted, hmet, Listing.unread, List.length_map, Listing.ofPath]

/-- A scan is made file by file: the findings in a package are those in the texts of the files that
can be read and are looked at, in the order of their paths; every file is looked at or skipped, and
every finding counts in full. A package in which all files of another one can be read has all of its
findings, in the same order, and no better a score. -/
theorem scan_by_file {w v : World} (hw : w.IsTree) (hv : v.IsTree) (rules : RuleSet) (limit : Nat)
    (root root' : String) :
    (Listing.met w root).Pairwise (fun f g => Text.bytes f.path < Text.bytes g.path) ∧
    (path rules limit w root).findings =
      ((Listing.ofPath w root).filter (PackageFile.IsReadable limit ·)).flatMap (fun f =>
        (text rules (Text.Utf8.lossy f.bytes) f.path).findings) ∧
    (path rules limit w root).filesScanned =
      ((Listing.ofPath w root).filter (PackageFile.IsReadable limit ·)).length ∧
    (path rules limit w root).filesScanned + (path rules limit w root).filesSkipped =
      (Listing.met w root).length ∧
    ((path rules limit w root).score.toNat : Int) =
      max 0 (100 - (Finding.total (path rules limit w root).findings : Int)) ∧
    (Listing.ofPath w root ⊆ Listing.ofPath v root' →
      (path rules limit w root).findings.Sublist (path rules limit v root').findings ∧
      (path rules limit v root').score ≤ (path rules limit w root).score) := by
  refine ⟨Listing.bytes_met hw root, findings_files rules limit _,
    filesScanned_files rules limit _, counted_path rules limit w root, ?_, fun hsubset => ?_⟩
  · have hscore := score_files rules limit (Listing.ofPath w root)
    rw [path_score, path_findings, hscore]
    omega
  · have hfew : Listing.Ascends (Listing.ofPath w root) := Listing.bytes_ofPath hw root
    have hsublist := hfew.sublist (Listing.bytes_ofPath hv root') hsubset
    exact ⟨findings_sublist rules limit hsublist, score_le rules limit hsublist⟩

/-- A package, and one with its file, a file before it and a binary one after it. -/
def grown : World where
  nodes := [
    (["p"], .dir), (["p", "m"], .file ⟨#[120]⟩),
    (["q"], .dir), (["q", "z"], .file ⟨#[120, 0]⟩), (["q", "m"], .file ⟨#[120]⟩),
    (["q", "a"], .file ⟨#[120, 120]⟩)]
  cwd := []

def tickRule : Rule := { Gate.markRule with spec := { Gate.markRule.spec with weight := 10 } }

/-- The findings in the smaller package are among those in the larger one, which is scored lower. -/
theorem scan_by_file_grown :
    grown.IsTree ∧ Listing.ofPath grown "p" ⊆ Listing.ofPath grown "q" ∧
    (path ⟨"1", [tickRule]⟩ 100 grown "p").findings.Sublist
      (path ⟨"1", [tickRule]⟩ 100 grown "q").findings ∧
    (path ⟨"1", [tickRule]⟩ 100 grown "q").score ≤ (path ⟨"1", [tickRule]⟩ 100 grown "p").score ∧
    (path ⟨"1", [tickRule]⟩ 100 grown "p").score = 90 ∧
    (path ⟨"1", [tickRule]⟩ 100 grown "q").score = 70 ∧
    (path ⟨"1", [tickRule]⟩ 100 grown "q").filesSkipped = 1 := by
  have htree : grown.IsTree := by decide
  have hp : Listing.ofPath grown "p" = [⟨"m", ⟨#[120]⟩⟩] :=
    Listing.ofPath_of_reaches (p := ["p"]) (by decide) (by cbv) (by decide)
  have hplace : Listing.ofPlace grown ["q"] =
      [⟨"a", ⟨#[120, 120]⟩⟩, ⟨"m", ⟨#[120]⟩⟩, ⟨"z", ⟨#[120, 0]⟩⟩] := by cbv
  have hreaches : grown.reaches true "q" = .ok (.taken ["q"] .dir) := by decide
  have hq := Listing.ofPath_of_reaches hreaches hplace (by decide)
  have hunread := Listing.unread_of_reaches hreaches hplace (by decide)
  have hsubset : Listing.ofPath grown "p" ⊆ Listing.ofPath grown "q" := by
    rw [hp, hq]
    simp
  obtain ⟨-, -, -, -, -, hmore⟩ := scan_by_file htree htree ⟨"1", [tickRule]⟩ 100 "p" "q"
  obtain ⟨hfindings, hscore⟩ := hmore hsubset
  refine ⟨htree, hsubset, hfindings, hscore, ?_, ?_, ?_⟩
  · rw [path_score, hp]
    cbv
  · rw [path_score, hq]
    cbv
  · rw [path, hq, hunread]
    cbv

/-- By a path that leaves no room for the name of its only file a package is listed as by its own
name, but nothing is found in it and its score is better. -/
theorem scan_out_of_reach :
    lone.IsTree ∧ Listing.met lone lonePath = Listing.met lone "p" ∧
    (path ⟨"1", [tickRule]⟩ 100 lone "p").findings.length = 1 ∧
    (path ⟨"1", [tickRule]⟩ 100 lone lonePath).findings = [] ∧
    (path ⟨"1", [tickRule]⟩ 100 lone "p").score = 90 ∧
    (path ⟨"1", [tickRule]⟩ 100 lone lonePath).score = 100 := by
  refine ⟨lone_isTree, lone_met_same, ?_, ?_, ?_, ?_⟩
  · rw [path_findings, lone_ofPath]
    cbv
  · rw [path_findings, lone_ofPath_long]
    rfl
  · rw [path_score, lone_ofPath]
    cbv
  · rw [path_score, lone_ofPath_long]
    rfl

end Scan
end SkillAudit
