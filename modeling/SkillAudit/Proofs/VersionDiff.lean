import Mathlib
import SkillAudit.Proofs.ScanComposition

/-!
Differences between two versions of a package. Every path of either version is added, removed,
modified or unchanged; the difference the other way round is the same one reversed; and two versions
without a difference are the same files.
-/
namespace SkillAudit.Diff

/-- Paths in ascending order are the same list if they are the same paths. -/
theorem eq_of_ascending {xs ys : List String}
    (hxs : xs.Pairwise fun a b => Text.bytes a < Text.bytes b)
    (hys : ys.Pairwise fun a b => Text.bytes a < Text.bytes b) (h : ∀ path, path ∈ xs ↔ path ∈ ys) :
    xs = ys := by
  simp only [← Text.lt_iff_bytes_lt] at hxs hys
  exact hxs.eq_of_mem_iff hys h

def digest? (files : Listing) (path : String) : Option String :=
  (Fingerprint.fileHashes files).lookup path

section Digest
variable {files : Listing} {path : String}

theorem digest?_eq_some (h : files.Ascends) {hash : String} :
    digest? files path = some hash ↔ ∃ f ∈ files, f.path = path ∧ Sha256.hexDigest f.bytes = hash := by
  have hdistinct : ((files.map fun f => (f.path, Sha256.hexDigest f.bytes)).map Prod.fst).Nodup := by
    simpa [Function.comp_def] using h.distinct
  refine (Dict.get?_ofList_eq_some hdistinct).trans ?_
  simp

theorem digest?_eq_none : digest? files path = none ↔ path ∉ files.map (·.path) := by
  have hlookup : digest? files path =
      (files.map fun f => (f.path, Sha256.hexDigest f.bytes)).reverse.lookup path :=
    Dict.get?_ofList _ path
  rw [hlookup, List.lookup_eq_none_iff]
  simp only [List.mem_reverse, List.mem_map, forall_exists_index, and_imp, forall_apply_eq_imp_iff₂,
    bne_iff_ne, not_exists, not_and]
  exact forall₂_congr fun f _ => ne_comm

theorem picked_ascending (files : Listing) (pick : String × String → Bool) :
    (((Fingerprint.fileHashes files).filter pick).map (·.1)).Pairwise
      fun a b => Text.bytes a < Text.bytes b := by
  have hpaths : (Fingerprint.fileHashes files).Pairwise fun x y => x.1 < y.1 :=
    List.pairwise_map.mp (Dict.sorted_ofList _).1
  exact List.pairwise_map.mpr ((hpaths.filter pick).imp Text.lt_iff_bytes_lt.mp)

theorem mem_picked {pick : String × String → Bool} :
    path ∈ ((Fingerprint.fileHashes files).filter pick).map (·.1) ↔
      ∃ hash, digest? files path = some hash ∧ pick (path, hash) = true := by
  simp only [digest?, lookup_fileHashes]
  simp

end Digest

def classes (d : Diff) : List (List String) := [d.added, d.removed, d.modified, d.unchanged]

/-- What the lists of a difference hold: every path of either listing, in one list and in order. -/
structure SortsOut (old new : Listing) (d : Diff) : Prop where
  ascending : ∀ paths ∈ classes d, paths.Pairwise fun a b => Text.bytes a < Text.bytes b
  disjoint : (classes d).Pairwise List.Disjoint
  covers : ∀ path, (∃ paths ∈ classes d, path ∈ paths) ↔
    path ∈ old.map (·.path) ∨ path ∈ new.map (·.path)
  added : ∀ path, path ∈ d.added ↔ path ∉ old.map (·.path) ∧ path ∈ new.map (·.path)
  removed : ∀ path, path ∈ d.removed ↔ path ∈ old.map (·.path) ∧ path ∉ new.map (·.path)
  modified : ∀ path, path ∈ d.modified ↔ ∃ f ∈ old, ∃ g ∈ new, f.path = path ∧ g.path = path ∧
    Sha256.hexDigest f.bytes ≠ Sha256.hexDigest g.bytes
  unchanged : ∀ path, path ∈ d.unchanged ↔ ∃ f ∈ old, ∃ g ∈ new, f.path = path ∧ g.path = path ∧
    Sha256.hexDigest f.bytes = Sha256.hexDigest g.bytes

section Listings
variable {old new : Listing} {path : String} (rules : RuleSet) (limit : Nat)

theorem mem_added : path ∈ (ofListings rules limit old new).added ↔
    digest? old path = none ∧ digest? new path ≠ none := by
  refine mem_picked.trans ?_
  simp only [digest?]
  cases (Fingerprint.fileHashes old).lookup path <;>
    cases (Fingerprint.fileHashes new).lookup path <;> simp

theorem mem_removed : path ∈ (ofListings rules limit old new).removed ↔
    digest? old path ≠ none ∧ digest? new path = none := by
  refine mem_picked.trans ?_
  simp only [digest?]
  cases (Fingerprint.fileHashes old).lookup path <;>
    cases (Fingerprint.fileHashes new).lookup path <;> simp

theorem mem_modified : path ∈ (ofListings rules limit old new).modified ↔
    digest? old path ≠ none ∧ digest? new path ≠ none ∧ digest? old path ≠ digest? new path := by
  refine mem_picked.trans ?_
  simp only [digest?]
  cases (Fingerprint.fileHashes old).lookup path <;>
    cases (Fingerprint.fileHashes new).lookup path <;> simp

theorem mem_unchanged : path ∈ (ofListings rules limit old new).unchanged ↔
    digest? old path ≠ none ∧ digest? old path = digest? new path := by
  refine mem_picked.trans ?_
  simp only [digest?]
  cases (Fingerprint.fileHashes old).lookup path <;>
    cases (Fingerprint.fileHashes new).lookup path <;> grind

theorem mem_paths {files : Listing} : path ∈ files.map (·.path) ↔ digest? files path ≠ none := by
  rw [Ne, digest?_eq_none, not_not]

/-- A path of both listings has a file in each, with its digest. -/
theorem digests_iff (hold : old.Ascends) (hnew : new.Ascends) (P : String → String → Prop) :
    (∃ a b, digest? old path = some a ∧ digest? new path = some b ∧ P a b) ↔
      ∃ f ∈ old, ∃ g ∈ new, f.path = path ∧ g.path = path ∧
        P (Sha256.hexDigest f.bytes) (Sha256.hexDigest g.bytes) := by
  constructor
  · rintro ⟨a, b, ha, hb, hP⟩
    obtain ⟨f, hf, hfpath, rfl⟩ := (digest?_eq_some hold).mp ha
    obtain ⟨g, hg, hgpath, rfl⟩ := (digest?_eq_some hnew).mp hb
    exact ⟨f, hf, g, hg, hfpath, hgpath, hP⟩
  · rintro ⟨f, hf, g, hg, hfpath, hgpath, hP⟩
    exact ⟨_, _, (digest?_eq_some hold).mpr ⟨f, hf, hfpath, rfl⟩,
      (digest?_eq_some hnew).mpr ⟨g, hg, hgpath, rfl⟩, hP⟩

theorem sortsOut (hold : old.Ascends) (hnew : new.Ascends) :
    SortsOut old new (ofListings rules limit old new) where
  ascending := by
    simp only [classes, List.forall_mem_cons]
    exact ⟨picked_ascending new _, picked_ascending old _, picked_ascending old _,
      picked_ascending old _, by simp⟩
  disjoint := by
    simp only [classes, List.pairwise_cons, List.forall_mem_cons, List.Disjoint, mem_added,
      mem_removed, mem_modified, mem_unchanged]
    grind
  covers path := by
    simp only [classes, List.exists_mem_cons_iff, mem_added,
      mem_removed, mem_modified, mem_unchanged, mem_paths]
    grind
  added path := by
    rw [mem_added, digest?_eq_none, ← mem_paths]
  removed path := by
    rw [mem_removed, digest?_eq_none, ← mem_paths]
  modified path := by
    rw [mem_modified, ← digests_iff hold hnew (· ≠ ·)]
    cases digest? old path <;> cases digest? new path <;> simp
  unchanged path := by
    rw [mem_unchanged, ← digests_iff hold hnew (· = ·)]
    cases digest? old path <;> cases digest? new path <;> grind

/-- A difference and the one the other way round. -/
structure Reverses (d back : Diff) : Prop where
  added : back.added = d.removed
  removed : back.removed = d.added
  modified : back.modified = d.modified
  unchanged : back.unchanged = d.unchanged
  newFindings : back.newFindings = d.removedFindings
  removedFindings : back.removedFindings = d.newFindings
  riskDelta : back.riskDelta = -d.riskDelta

theorem reverses (old new : Listing) :
    Reverses (ofListings rules limit old new) (ofListings rules limit new old) where
  added := rfl
  removed := rfl
  modified := by
    refine eq_of_ascending (picked_ascending new _) (picked_ascending old _) fun path => ?_
    rw [mem_modified, mem_modified]
    grind
  unchanged := by
    refine eq_of_ascending (picked_ascending new _) (picked_ascending old _) fun path => ?_
    rw [mem_unchanged, mem_unchanged]
    grind
  newFindings := rfl
  removedFindings := rfl
  riskDelta := (neg_sub _ _).symm

/-- No two files of two listings have one digest and not the same bytes. -/
def Collisionless (old new : Listing) : Prop :=
  ∀ f ∈ old, ∀ g ∈ new, Sha256.hexDigest f.bytes = Sha256.hexDigest g.bytes → f.bytes = g.bytes

/-- Where no path is added, removed or modified, every path has one digest in both listings. -/
theorem isIdentical_iff :
    (ofListings rules limit old new).isIdentical = true ↔
      ∀ path, digest? old path = digest? new path := by
  simp only [isIdentical, Bool.and_eq_true, List.isEmpty_iff, List.eq_nil_iff_forall_not_mem,
    mem_added, mem_removed, mem_modified]
  grind

theorem mem_of_digests (hold : old.Ascends) (hnew : new.Ascends) (hcollide : Collisionless old new)
    (h : ∀ path, digest? old path = digest? new path) {f : PackageFile} (hf : f ∈ old) : f ∈ new := by
  have hdigest := (digest?_eq_some hold).mpr ⟨f, hf, rfl, rfl⟩
  rw [h] at hdigest
  obtain ⟨g, hg, hpath, hbytes⟩ := (digest?_eq_some hnew).mp hdigest
  have hsame := hcollide f hf g hg hbytes.symm
  have heq : g = f := by
    cases f
    cases g
    simp_all
  exact heq ▸ hg

/-- Two versions without a difference are the same files, unless two of them collide. -/
theorem isIdentical_iff_eq (hold : old.Ascends) (hnew : new.Ascends)
    (hcollide : Collisionless old new) :
    (ofListings rules limit old new).isIdentical = true ↔ old = new := by
  constructor
  · intro h
    have hdigests := (isIdentical_iff rules limit).mp h
    have hback : Collisionless new old := fun g hg f hf heq => (hcollide f hf g hg heq.symm).symm
    refine (hold.sublist hnew fun f hf => ?_).antisymm (hnew.sublist hold fun g hg => ?_)
    · exact mem_of_digests hold hnew hcollide hdigests hf
    · exact mem_of_digests hnew hold hback (fun path => (hdigests path).symm) hg
  · rintro rfl
    exact (ofListings_self rules limit _).1

/-- What goes with a difference that changes no file. -/
structure Quiet (d : Diff) : Prop where
  newFindings : d.newFindings = []
  removedFindings : d.removedFindings = []
  sensitiveChanges : d.sensitiveChanges = []
  riskDelta : d.riskDelta = 0
  summary : d.summary = "no changes"

theorem quiet_self (old : Listing) : Quiet (ofListings rules limit old old) := by
  obtain ⟨hsame, hnew, hremoved, hsensitive, hdelta⟩ := ofListings_self rules limit old
  refine ⟨hnew, hremoved, hsensitive, hdelta, ?_⟩
  change summarize _ = _
  rw [summarize, if_pos]
  exact hsame

end Listings

/-- The paths of two packages are sorted out into four lists; compared the other way round, the
packages differ by the reverse; and where no two of their files collide, nothing differs exactly if
they hold the same files, and then nothing at all is reported. -/
theorem versions_compared {w : World} (hw : w.IsTree) (rules : RuleSet) (limit : Nat)
    (old new : String) :
    SortsOut (Listing.ofPath w old) (Listing.ofPath w new) (ofPaths rules limit w old new) ∧
    Reverses (ofPaths rules limit w old new) (ofPaths rules limit w new old) ∧
    (Collisionless (Listing.ofPath w old) (Listing.ofPath w new) →
      ((ofPaths rules limit w old new).isIdentical = true ↔
        Listing.ofPath w old = Listing.ofPath w new) ∧
      ((ofPaths rules limit w old new).isIdentical = true → Quiet (ofPaths rules limit w old new))) := by
  have hold : (Listing.ofPath w old).Ascends := Listing.bytes_ofPath hw old
  have hnew : (Listing.ofPath w new).Ascends := Listing.bytes_ofPath hw new
  refine ⟨sortsOut rules limit hold hnew, reverses rules limit _ _, fun hcollide => ?_⟩
  have hsame := isIdentical_iff_eq rules limit hold hnew hcollide
  refine ⟨hsame, fun hidentical => ?_⟩
  rw [ofPaths, ← hsame.mp hidentical]
  exact quiet_self rules limit _

/-- Two versions of a package. One file is only in the old one, one only in the new one, one is the
same and one has changed; version control is beside the old ones. -/
def versions : World where
  nodes := [
    (["p"], .dir), (["p", "a"], .file ⟨#[120]⟩), (["p", "b"], .file ⟨#[120]⟩),
    (["p", "m"], .file ⟨#[121]⟩), (["p", ".git"], .dir), (["p", ".git", "HEAD"], .file ⟨#[0]⟩),
    (["q"], .dir), (["q", "m"], .file ⟨#[120]⟩), (["q", "c"], .file ⟨#[120]⟩),
    (["q", "b"], .file ⟨#[120]⟩)]
  cwd := []

theorem versions_old : Listing.ofPath versions "p" =
    [⟨"a", ⟨#[120]⟩⟩, ⟨"b", ⟨#[120]⟩⟩, ⟨"m", ⟨#[121]⟩⟩] :=
  Listing.ofPath_of_reaches (p := ["p"]) (by decide) (by cbv) (by decide)

theorem versions_new : Listing.ofPath versions "q" =
    [⟨"b", ⟨#[120]⟩⟩, ⟨"c", ⟨#[120]⟩⟩, ⟨"m", ⟨#[120]⟩⟩] :=
  Listing.ofPath_of_reaches (p := ["q"]) (by decide) (by cbv) (by decide)

theorem digests_differ : Sha256.hexDigest ⟨#[120]⟩ ≠ Sha256.hexDigest ⟨#[121]⟩ := by decide +kernel

/-- The two versions differ in each of the ways, and two copies in different places in none. -/
theorem versions_compared_apart :
    versions.IsTree ∧ Collisionless (Listing.ofPath versions "p") (Listing.ofPath versions "q") ∧
    "c" ∈ (ofPaths ⟨"1", []⟩ 100 versions "p" "q").added ∧
    "a" ∈ (ofPaths ⟨"1", []⟩ 100 versions "p" "q").removed ∧
    "m" ∈ (ofPaths ⟨"1", []⟩ 100 versions "p" "q").modified ∧
    "b" ∈ (ofPaths ⟨"1", []⟩ 100 versions "p" "q").unchanged ∧
    (ofPaths ⟨"1", []⟩ 100 versions "q" "p").added =
      (ofPaths ⟨"1", []⟩ 100 versions "p" "q").removed ∧
    (ofPaths ⟨"1", []⟩ 100 versions "p" "q").isIdentical = false ∧
    (twins.IsTree ∧ Collisionless (Listing.ofPath twins "p") (Listing.ofPath twins "q/r") ∧
      (ofPaths ⟨"1", []⟩ 100 twins "p" "q/r").summary = "no changes") := by
  have htree : versions.IsTree := by decide
  obtain ⟨hsorts, hreverses, hidentical⟩ := versions_compared htree ⟨"1", []⟩ 100 "p" "q"
  have hcollide : Collisionless (Listing.ofPath versions "p") (Listing.ofPath versions "q") := by
    rw [versions_old, versions_new]
    simp [Collisionless, digests_differ.symm]
  refine ⟨htree, hcollide, ?_, ?_, ?_, ?_, hreverses.added, ?_, ?_⟩
  · rw [hsorts.added, versions_old, versions_new]
    simp
  · rw [hsorts.removed, versions_old, versions_new]
    simp
  · rw [hsorts.modified, versions_old, versions_new]
    simp [digests_differ.symm]
  · rw [hsorts.unchanged, versions_old, versions_new]
    simp
  · rw [Bool.eq_false_iff, Ne, (hidentical hcollide).1, versions_old, versions_new]
    simp
  · have htwins : twins.IsTree := by decide
    have hsame : Listing.ofPath twins "q/r" = Listing.ofPath twins "p" :=
      Listing.ofPath_of_sameFiles htwins htwins (twins_find (by decide)) (twins_find (by decide))
        twins_sameFiles twins_sameReach
    obtain ⟨-, -, hidentical⟩ := versions_compared htwins ⟨"1", []⟩ 100 "p" "q/r"
    have hcollide : Collisionless (Listing.ofPath twins "p") (Listing.ofPath twins "q/r") := by
      have hfiles : Listing.ofPath twins "p" = [⟨"SKILL.md", ⟨#[120]⟩⟩, ⟨"lib/a.js", ⟨#[121]⟩⟩] := by
        rw [Listing.ofPath_of_find (twins_find (p := ["p"]) (by decide)), twins_ofPlace]
        decide
      rw [hsame, hfiles]
      simp [Collisionless, digests_differ, digests_differ.symm]
    refine ⟨htwins, hcollide, ?_⟩
    obtain ⟨hiff, hquiet⟩ := hidentical hcollide
    exact (hquiet (hiff.mpr hsame.symm)).summary

/-- By a path that leaves no room for the name of its only file a package is listed as by its own
name, but the file is missing from every comparison; and two files with one path are compared as one. -/
theorem listing_compared_otherwise :
    lone.IsTree ∧ Listing.met lone lonePath = Listing.met lone "p" ∧
    ∀ rules limit, (ofPaths rules limit lone "p" lonePath).removed = ["f"] ∧
      (ofPaths rules limit lone "p" lonePath).isIdentical = false ∧
      classes (ofPaths rules limit lone lonePath lonePath) = [[], [], [], []] ∧
      ∀ bytes bytes', (ofListings rules limit [⟨"f", bytes⟩, ⟨"f", bytes'⟩]
        [⟨"f", bytes'⟩]).isIdentical = true := by
  refine ⟨lone_isTree, lone_met_same, fun rules limit => ⟨?_, ?_, ?_, fun bytes bytes' => ?_⟩⟩
  · rw [ofPaths, lone_ofPath, lone_ofPath_long]
    simp [ofListings, Fingerprint.fileHashes, Dict.ofList, Dict.insert]
  · rw [ofPaths, lone_ofPath, lone_ofPath_long]
    simp [isIdentical, ofListings, Fingerprint.fileHashes, Dict.ofList, Dict.insert]
  · rw [ofPaths, lone_ofPath_long]
    rfl
  · refine (isIdentical_iff rules limit).mpr fun path => ?_
    simp [digest?, Fingerprint.fileHashes, Dict.ofList, Dict.insert]

end SkillAudit.Diff
