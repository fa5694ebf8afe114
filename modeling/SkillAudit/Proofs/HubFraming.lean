import Mathlib
import SkillAudit.Proofs.FingerprintFraming
import SkillAudit.Proofs.ListedContent
import SkillAudit.Proofs.Materialization

/-!
What the hashed bytes of a package from a hub say about its files. A path from a hub holds no colon,
so it cannot begin with a header, and the bytes of two such packages are the same only if their files
are.
-/
namespace SkillAudit

namespace Fingerprint

/-- A path without a colon begins with no header. -/
theorem not_mimics_of_colon {f : PackageFile} (h : ':' ∉ f.path.toList) (g : PackageFile) :
    ¬ Mimics f g := by
  intro hbegins
  have hmem : ':' ∈ (header g).toList := by simp [header_toList, ending]
  exact h (hbegins.subset hmem)

/-- Listings of paths without colons have the same stream only if they are the same. -/
theorem stream_inj_of_colon {files others : Listing} (hfiles : ∀ f ∈ files, ':' ∉ f.path.toList)
    (hothers : ∀ g ∈ others, ':' ∉ g.path.toList) :
    stream files = stream others ↔ files = others := by
  refine ⟨listing_eq_of_stream fun f hf g hg => ⟨?_, ?_⟩, congrArg stream⟩
  · exact not_mimics_of_colon (hfiles f hf) g
  · exact not_mimics_of_colon (hothers g hg) f

end Fingerprint

namespace Path

/-- The characters of a path that are no slashes are those of its names. -/
theorem mem_intercalate {c : Char} (hc : c ≠ '/') (names : List String) :
    c ∈ (String.intercalate "/" names).toList ↔ ∃ n ∈ names, c ∈ n.toList := by
  rw [String.toList_intercalate]
  induction names with
  | nil => simp
  | cons n names ih =>
    cases names with
    | nil => simp
    | cons m names =>
      have hcons : "/".toList.intercalate (List.map String.toList (n :: m :: names)) =
          n.toList ++ '/' :: "/".toList.intercalate (List.map String.toList (m :: names)) := by
        simp [List.intercalate]
      rw [hcons, List.mem_append, List.mem_cons, ih]
      simp [hc]

/-- A path and its steps have the same characters but slashes and dots. -/
theorem mem_of_mem_steps {c : Char} (hc : c ≠ '/') {path : String}
    (h : c ∈ (String.intercalate "/" (steps path)).toList) : c ∈ path.toList := by
  obtain ⟨n, hn, hcn⟩ := (mem_intercalate hc _).mp h
  rw [← intercalate_pieces path]
  exact (mem_intercalate hc _).mpr ⟨n, (List.mem_filter.mp hn).1, hcn⟩

end Path

namespace World

theorem isPath_of_makeDir {w v : World} {path : String} (hslash : endsInSlash path = false)
    (h : w.makeDir path = .ok v) : IsPath path := by
  obtain ⟨q, hq, -⟩ := makeDir_ok h
  rw [trimSlashes_eq_self hslash] at hq
  exact isPath_of_resolve hq

theorem isPath_of_isDir {w : World} {path : String} (h : w.isDir path = true) : IsPath path := by
  obtain ⟨q, hq⟩ := find_of_isDir h
  exact (find_dir_iff.mp hq).1

theorem isPath_of_makeDirs {fuel : Nat} {w v : World} {path : String} (hne : path ≠ "")
    (hslash : endsInSlash path = false) (h : makeDirsWithin fuel w path = (.ok (), v)) :
    IsPath path := by
  cases fuel with
  | zero => cases h
  | succ fuel =>
    rw [makeDirsWithin, if_neg (by simpa using hne)] at h
    split at h
    next u hdir => exact isPath_of_makeDir hslash hdir
    next hmissing =>
      split at h
      next => cases h
      next up hparent =>
        split at h
        next => cases h
        next u hrec =>
          split at h
          next u' hdir => exact isPath_of_makeDir hslash hdir
          next e hdir =>
            split at h
            next hisDir => exact isPath_of_isDir hisDir
            next => cases h
    next e _ hdir =>
      split at h
      next hisDir => exact isPath_of_isDir hisDir
      next => cases h

end World

namespace RemotePackage

/-- A package that has been written into an empty directory. -/
structure IsPlaced (package : RemotePackage) (w : World) (base : String) (p : Place) (v : World) :
    Prop where
  distinct : w.Distinct
  empty : w.LeadsToEmpty base p
  written : package.writeTo (Path.join base package.directory) w = (.ok (), v)

section Placed
variable {package : RemotePackage} {w v : World} {base : String} {p : Place}
  (h : package.IsPlaced w base p v)
include h

theorem IsPlaced.safe : ∀ f ∈ package.files, ¬ f.IsUnsafe := by
  intro f hf hstrays
  obtain ⟨x, hx⟩ :=
    (unsafePath_iff package (Path.join base package.directory) w).mpr ⟨f, hf, hstrays⟩
  rw [h.written] at hx
  cases hx

theorem IsPlaced.confined : w.Confined base p package.directory v := by
  have hconfined : w.Confined base p package.directory
      (package.writeTo (Path.join base package.directory) w).2 :=
    writeTo_confined h.empty.shelter
  rwa [h.written] at hconfined

theorem IsPlaced.isWritten : IsWritten v (p ++ [package.directory]) package.files := by
  refine (writeTo_written h.empty.shelter (fun ns => ?_) h.written).2
  rw [List.append_assoc]
  exact h.empty.empty _ (by simp)

/-- The directory of the package has been made first. -/
theorem IsPlaced.makeDirs :
    ∃ u, w.makeDirs (Path.join base package.directory) = (.ok (), u) := by
  have hok := h.written
  rw [writeTo_safe h.safe] at hok
  obtain ⟨_, u, hdirs, -⟩ := Act.bind_ok hok
  unfold Write.makeDirs at hdirs
  split at hdirs
  next u' heq => exact ⟨u', heq⟩
  next => cases hdirs

theorem IsPlaced.isName : World.IsName package.directory := by
  obtain ⟨u, hdirs⟩ := h.makeDirs
  obtain ⟨q, hleads⟩ := World.leadsToDir_of_makeDirs hdirs
  have hdescends := package.descends_directory base
  have hafter := h.empty.shelter.builds (hdirs ▸ h.empty.shelter.makeDirs hdescends)
  have hway := ((hafter.extend hdescends).2 (p ++ [package.directory])).mpr
    (.inr ⟨_, by simp, List.prefix_rfl, rfl⟩)
  obtain ⟨hplain, hchars⟩ := package.directory_plain
  simp only [List.mem_cons, List.not_mem_nil, or_false, not_or] at hplain
  refine ⟨hplain.1, hplain.2.1, hplain.2.2, fun hc => ?_, fun hc => ?_, ?_⟩
  · exact hchars _ hc (by simp)
  · exact hchars _ hc (by simp)
  · exact (hleads.clear _ hway).short _ (by simp)

/-- The package is found where it has been written. -/
theorem IsPlaced.find :
    v.find (Path.join base package.directory) = .ok (p ++ [package.directory], .dir) := by
  obtain ⟨u, hdirs⟩ := h.makeDirs
  have hpath := World.isPath_of_makeDirs (Path.join_name_ne_empty h.isName base)
    (Path.endsInSlash_join_name h.isName base) hdirs
  have hroot := (h.isWritten [] .dir).mpr (.inl rfl)
  rw [List.append_nil] at hroot
  exact World.find_dir_iff.mpr ⟨hpath, h.confined.shelter.dir.join h.isName hroot⟩

/-- The files of the package are those it gives, each at its steps with the content given last. -/
theorem IsPlaced.mem_ofPlace (f : PackageFile) :
    f ∈ Listing.ofPlace v (p ++ [package.directory]) ↔ ∃ ns, Listing.Belongs ns ∧
      f.path = String.intercalate "/" ns ∧
      (lastAt? package.files ns).bind (·.bytes?) = some f.bytes := by
  simp only [Listing.mem_ofPlace (h.confined.alters.distinct h.distinct)]
  constructor
  · rintro ⟨ns, bytes, hat, hin, rfl⟩
    exact ⟨ns, Listing.isIncluded_iff.mp hin, rfl, (h.isWritten ns (.file bytes)).mp hat⟩
  · rintro ⟨ns, hin, hpath, hbytes⟩
    refine ⟨ns, f.bytes, (h.isWritten ns (.file f.bytes)).mpr hbytes,
      Listing.isIncluded_iff.mpr hin, ?_⟩
    rw [← hpath]

theorem IsPlaced.colon_not_mem {f : PackageFile}
    (hf : f ∈ Listing.ofPath v (Path.join base package.directory)) : ':' ∉ f.path.toList := by
  rw [Listing.ofPath_of_find h.find] at hf
  obtain ⟨ns, -, hpath, hbytes⟩ := (h.mem_ofPlace f).mp (List.mem_filter.mp hf).1
  obtain ⟨g, hlast, -⟩ := Option.bind_eq_some_iff.mp hbytes
  obtain ⟨hg, hsteps⟩ := List.mem_filter.mp (List.mem_of_getLast? hlast)
  intro hcolon
  rw [hpath, ← of_decide_eq_true hsteps] at hcolon
  exact h.safe g hg (.inr (.inl ⟨':', by simp, Path.mem_of_mem_steps (by decide) hcolon⟩))

end Placed

/-- Two packages from a hub have the same stream where they have been written only if they have the
same files there, because no path of such a package holds a colon. -/
theorem stream_identifies_files {package package' : RemotePackage} {w w' v v' : World}
    {base base' : String} {p p' : Place} (h : package.IsPlaced w base p v)
    (h' : package'.IsPlaced w' base' p' v') :
    (∀ f ∈ Listing.ofPath v (Path.join base package.directory), ':' ∉ f.path.toList) ∧
    (∀ g ∈ Listing.ofPath v' (Path.join base' package'.directory), ':' ∉ g.path.toList) ∧
    (Fingerprint.stream (Listing.ofPath v (Path.join base package.directory)) =
        Fingerprint.stream (Listing.ofPath v' (Path.join base' package'.directory)) ↔
      Listing.ofPath v (Path.join base package.directory) =
        Listing.ofPath v' (Path.join base' package'.directory)) :=
  ⟨fun _ => h.colon_not_mem, fun _ => h'.colon_not_mem,
    Fingerprint.stream_inj_of_colon (fun _ => h.colon_not_mem) fun _ => h'.colon_not_mem⟩

def fed : RemotePackage where
  id := "w"
  name := "w"
  files := [⟨"b1\n", "y", .utf8⟩]

def fedShelf : World :=
  ⟨[(["s", "w", "b1\n"], .file ⟨#[121]⟩), (["s", "w"], .dir), (["s"], .dir)], []⟩

theorem fed_written :
    fed.writeTo (Path.join "s" fed.directory) bareShelf = (.ok (), fedShelf) := by
  have hroot : Path.join "s" fed.directory = "s/w" := by decide
  have hplan : fed.plan = .ok [(["b1\n"], ⟨"b1\n", "y", .utf8⟩)] := rfl
  have hdirs : Write.makeDirs "s/w" bareShelf = (.ok (), shelf []) := by cbv
  have hisDir : (shelf []).isDir "s/w" = true := by
    have hreaches : (shelf []).reaches true "s/w" = .ok (.taken ["s", "w"] .dir) := by decide
    simp only [World.isDir, World.find, World.resolve_eq_reaches, hreaches]
  have hup : Write.makeDirs "s/w" (shelf []) = (.ok (), shelf []) := by
    simp only [Write.makeDirs, World.makeDirs_of_isDir (.inr hisDir)]
  have hput : (shelf []).writeFile "s/w/b1\n" ⟨#[121]⟩ = .ok fedShelf := by
    have hreaches : (shelf []).reaches true "s/w/b1\n" = .ok (.free ["s", "w", "b1\n"]) := by decide
    simp only [World.writeFile, World.resolve_eq_reaches, hreaches]
    rfl
  have hbytes : RemoteFile.bytes? ⟨"b1\n", "y", .utf8⟩ = some ⟨#[121]⟩ := by decide +kernel
  have hpath : Path.join "s/w" (String.intercalate "/" ["b1\n"]) = "s/w/b1\n" := by decide
  have hparent : Path.parent "s/w/b1\n" = some "s/w" := by decide
  have hfile : writeFile "s/w" ["b1\n"] ⟨"b1\n", "y", .utf8⟩ (shelf []) = (.ok (), fedShelf) := by
    simp only [writeFile, hbytes, hpath, hparent]
    rw [Act.bind_of_ok hup, Act.bind_of_ok (x := get) rfl]
    simp only [hput]
    rfl
  simp only [writeTo, hplan, hroot]
  rw [Act.bind_of_ok hdirs, writeFiles_cons, Act.bind_of_ok hfile]
  rfl

/-- The one file of a package has its bytes after `b:1` and a line feed, that of the other after
`b1`, a line feed, `:1` and another one. -/
theorem stream_identifies_files_fed :
    spelled.IsPlaced bareShelf "s" ["s"] (shelf [.file ⟨#[121]⟩]) ∧
    fed.IsPlaced bareShelf "s" ["s"] fedShelf ∧
    Fingerprint.stream (Listing.ofPath (shelf [.file ⟨#[121]⟩]) (Path.join "s" spelled.directory)) ≠
      Fingerprint.stream (Listing.ofPath fedShelf (Path.join "s" fed.directory)) := by
  have hdistinct : bareShelf.Distinct := List.nodup_singleton _
  have hspelled : spelled.IsPlaced bareShelf "s" ["s"] (shelf [.file ⟨#[121]⟩]) :=
    ⟨hdistinct, bareShelf_empty, spelled_written⟩
  have hfed : fed.IsPlaced bareShelf "s" ["s"] fedShelf :=
    ⟨hdistinct, bareShelf_empty, fed_written⟩
  refine ⟨hspelled, hfed, fun hsame => ?_⟩
  have hlistings := (stream_identifies_files hspelled hfed).2.2.mp hsame
  rw [Listing.ofPath_of_find hspelled.find, Listing.ofPath_of_find hfed.find] at hlistings
  have hfirst : Listing.ofPlace (shelf [.file ⟨#[121]⟩]) (["s"] ++ [spelled.directory]) =
      [⟨"b", ⟨#[121]⟩⟩] := by cbv
  have hsecond : Listing.ofPlace fedShelf (["s"] ++ [fed.directory]) = [⟨"b1\n", ⟨#[121]⟩⟩] := by cbv
  rw [hfirst, hsecond] at hlistings
  exact absurd hlistings (by decide)

end RemotePackage
end SkillAudit
