import Mathlib
import SkillAudit.Package.Fingerprint
import SkillAudit.Proofs.Digits
import SkillAudit.Proofs.FileTree

/-!
What the hashed bytes of a package say about its files. A header ends in a colon, a length and a line
feed, and nothing escapes the path before it, so a path may itself begin with a whole header. That is
the only way in which two listings share their bytes: where no path of one begins with a header of
the other, equal bytes are equal listings.
-/
namespace SkillAudit

theorem toNat_foldl_add_word {α : Type} (f : α → UInt64) (xs : List α) (start : UInt64) :
    (xs.foldl (fun sum x => sum + f x) start).toNat =
      (start.toNat + (xs.map fun x => (f x).toNat).sum) % 2 ^ 64 := by
  induction xs generalizing start with
  | nil => simp [Nat.mod_eq_of_lt start.toNat_lt]
  | cons x xs ih =>
    rw [List.foldl_cons, ih, UInt64.toNat_add, List.map_cons, List.sum_cons, Nat.mod_add_mod,
      Nat.add_assoc]

namespace Fingerprint

/-- The size of a package is that of its files together, as far as 64 bits hold it. -/
theorem toNat_totalSize (files : Listing) :
    (ofListing files).totalSize.toNat = (files.map (·.size)).sum % 2 ^ 64 := by
  rw [ofListing, toNat_foldl_add_word, List.sum_nat_mod (files.map _), List.map_map]
  simp [Function.comp_def]

/-- The end of a header: the length of the file between a colon and a line feed. -/
def ending (n : Nat) : List Char := ':' :: Nat.toDigits 10 n ++ ['\n']

def Mimics (f g : PackageFile) : Prop := (header g).toList <+: f.path.toList

theorem header_toList (f : PackageFile) : (header f).toList = f.path.toList ++ ending f.size := by
  simp [header, ending, String.toList_append, Nat.repr]

theorem colon_not_mem_toDigits (n : Nat) : ':' ∉ Nat.toDigits 10 n := fun h =>
  absurd (Digits.isDigit_of_mem h) (by decide)

theorem feed_not_mem_toDigits (n : Nat) : '\n' ∉ Nat.toDigits 10 n := fun h =>
  absurd (Digits.isDigit_of_mem h) (by decide)

/-- The last colon of a header divides it into path and length. -/
theorem ending_unique {p q : List Char} {m n : Nat} (h : p ++ ending m = q ++ ending n) :
    p = q ∧ m = n := by
  have hreverse : ('\n' :: (Nat.toDigits 10 m).reverse) ++ ':' :: p.reverse =
      ('\n' :: (Nat.toDigits 10 n).reverse) ++ ':' :: q.reverse := by
    simpa [ending] using congrArg List.reverse h
  have hfree : ∀ k, ∀ c ∈ '\n' :: (Nat.toDigits 10 k).reverse, (c != ':') = true := by
    intro k c hc
    simp only [List.mem_cons, List.mem_reverse] at hc
    rcases hc with rfl | hc
    · decide
    · simpa using fun h : c = ':' => colon_not_mem_toDigits k (h ▸ hc)
  have hstop : ∀ r : List Char, ∀ c ∈ (':' :: r).head?, (c != ':') = false := by simp
  have hlength := congrArg (List.takeWhile (· != ':')) hreverse
  have hpath := congrArg (List.dropWhile (· != ':')) hreverse
  rw [Digits.takeWhile_append (hfree m) (hstop _), Digits.takeWhile_append (hfree n) (hstop _)]
    at hlength
  rw [Digits.dropWhile_append (hfree m) (hstop _), Digits.dropWhile_append (hfree n) (hstop _)]
    at hpath
  simp only [List.cons.injEq, true_and, List.reverse_inj] at hlength hpath
  exact ⟨hpath, Digits.toDigits_inj hlength⟩

/-- What of an ending stands before its line feed has none. -/
theorem feed_not_mem_of_ending {n : Nat} {c s : List Char} (h : ending n = c ++ s) (hs : s ≠ []) :
    '\n' ∉ c := by
  intro hc
  have hlast : c ++ s.dropLast = ':' :: Nat.toDigits 10 n := by
    rw [← List.dropLast_append_of_ne_nil hs, ← h, ending, List.dropLast_concat]
  have hmem : '\n' ∈ ':' :: Nat.toDigits 10 n := hlast ▸ List.mem_append_left _ hc
  simp [feed_not_mem_toDigits] at hmem

/-- A header that begins another one is that header, or it lies within the other's path. -/
theorem header_begins {p q : List Char} {m n : Nat} (h : p ++ ending m <+: q ++ ending n) :
    (p = q ∧ m = n) ∨ p ++ ending m <+: q := by
  obtain ⟨s, hs⟩ := h
  rcases List.append_eq_append_iff.mp hs with ⟨a, hq, -⟩ | ⟨c, hp, hn⟩
  · exact .inr ⟨a, hq.symm⟩
  · by_cases hempty : s = []
    · exact .inl (ending_unique (by rw [← hs, hempty, List.append_nil]))
    · -- The line feed of the first header would have to stand before the end of the second.
      have hfeed := feed_not_mem_of_ending hn hempty
      rcases c.eq_nil_or_concat with rfl | ⟨c', x, rfl⟩
      · exact .inr ⟨[], by simpa using hp⟩
      · have hp' : (p ++ ':' :: Nat.toDigits 10 m) ++ ['\n'] = (q ++ c') ++ [x] := by
          simpa [ending] using hp
        obtain ⟨-, hx⟩ := List.append_inj' hp' rfl
        simp [← List.singleton_inj.mp hx] at hfeed

/-- Of two texts that begin the same bytes, one begins the other. -/
theorem begins_of_bytes {a b : String} {x y : ByteArray} (h : a.toUTF8 ++ x = b.toUTF8 ++ y) :
    a.toList <+: b.toList ∨ b.toList <+: a.toList := by
  have hlist : a.toUTF8.data.toList ++ x.data.toList = b.toUTF8.data.toList ++ y.data.toList := by
    simpa using congrArg (·.data.toList) h
  have key : ∀ {s t : String} {r : List UInt8}, t.toUTF8.data.toList = s.toUTF8.data.toList ++ r →
      s.toList <+: t.toList := by
    intro s t r hr
    apply List.isPrefix_of_utf8Encode_append_eq_utf8Encode (b := ⟨⟨r⟩⟩)
    rw [String.utf8Encode_toList, String.utf8Encode_toList]
    apply ByteArray.ext
    apply Array.ext'
    simpa using hr.symm
  rcases List.append_eq_append_iff.mp hlist with ⟨r, hr, -⟩ | ⟨r, hr, -⟩
  · exact .inl (key hr)
  · exact .inr (key hr)

theorem foldl_stream (files : Listing) (bytes : ByteArray) :
    files.foldl (fun bytes f => bytes ++ (header f).toUTF8 ++ f.bytes) bytes =
      bytes ++ stream files := by
  induction files generalizing bytes with
  | nil => simp [stream]
  | cons f files ih =>
    rw [stream, List.foldl_cons, List.foldl_cons, ih, ih, ByteArray.empty_append,
      ByteArray.append_assoc, ByteArray.append_assoc, ByteArray.append_assoc]

theorem stream_cons (f : PackageFile) (files : Listing) :
    stream (f :: files) = (header f).toUTF8 ++ (f.bytes ++ stream files) := by
  rw [stream, List.foldl_cons, foldl_stream, ByteArray.empty_append, ByteArray.append_assoc]

/-- Files whose headers and bytes begin the same stream are the same file, unless the path of one
begins with the header of the other. -/
theorem head_eq {f g : PackageFile} {x y : ByteArray} (hfg : ¬ Mimics f g) (hgf : ¬ Mimics g f)
    (h : (header f).toUTF8 ++ (f.bytes ++ x) = (header g).toUTF8 ++ (g.bytes ++ y)) :
    f = g ∧ x = y := by
  have hsame : f.path.toList = g.path.toList ∧ f.size = g.size := by
    have hbegins := begins_of_bytes h
    rw [header_toList, header_toList] at hbegins
    rw [Mimics, header_toList] at hfg hgf
    rcases hbegins with hbegins | hbegins
    · exact (header_begins hbegins).resolve_right hgf
    · have hback := (header_begins hbegins).resolve_right hfg
      exact ⟨hback.1.symm, hback.2.symm⟩
  obtain ⟨hpath, hsize⟩ := hsame
  have hheader : header f = header g := by
    rw [header, header, String.toList_inj.mp hpath, hsize]
  rw [hheader] at h
  have hlist : f.bytes.data.toList ++ x.data.toList = g.bytes.data.toList ++ y.data.toList := by
    simpa using congrArg (·.data.toList) h
  obtain ⟨hbytes, hrest⟩ := List.append_inj hlist hsize
  refine ⟨?_, ByteArray.ext (Array.ext' hrest)⟩
  cases f
  cases g
  simp only [PackageFile.mk.injEq]
  exact ⟨String.toList_inj.mp hpath, ByteArray.ext (Array.ext' hbytes)⟩

theorem stream_cons_ne (f : PackageFile) (files : Listing) : stream (f :: files) ≠ stream [] := by
  intro h
  have hsize := congrArg ByteArray.size h
  rw [stream_cons, ByteArray.size_append] at hsize
  have hheader : (header f).toUTF8.size ≠ 0 := by
    simp [header, String.toUTF8]
  change _ = 0 at hsize
  omega

/-- Equal streams are streams of equal listings, unless a path of one begins with a header of the
other. -/
theorem listing_eq_of_stream {files others : Listing}
    (hapart : ∀ f ∈ files, ∀ g ∈ others, ¬ Mimics f g ∧ ¬ Mimics g f)
    (h : stream files = stream others) : files = others := by
  induction files generalizing others with
  | nil =>
    cases others with
    | nil => rfl
    | cons g others => exact absurd h.symm (stream_cons_ne g others)
  | cons f files ih =>
    cases others with
    | nil => exact absurd h (stream_cons_ne f files)
    | cons g others =>
      rw [stream_cons, stream_cons] at h
      obtain ⟨hfg, hgf⟩ := hapart f List.mem_cons_self g List.mem_cons_self
      obtain ⟨rfl, hrest⟩ := head_eq hfg hgf h
      have htail := ih (fun f' hf' g' hg' =>
        hapart f' (List.mem_cons_of_mem _ hf') g' (List.mem_cons_of_mem _ hg')) hrest
      rw [htail]

/-- A path without a line feed begins with no header. -/
theorem not_mimics {f : PackageFile} (h : '\n' ∉ f.path.toList) (g : PackageFile) :
    ¬ Mimics f g := by
  intro hbegins
  have hmem : '\n' ∈ (header g).toList := by simp [header_toList, ending]
  exact h (hbegins.subset hmem)

/-- Two package trees in which no path begins with a header of the other tree have the same stream
only if they have the same files, and so the same hash only then, as long as their streams are no
collision of the hash. -/
theorem hash_identifies_listing {w w' : World} {root root' : String}
    (hapart : ∀ f ∈ Listing.ofPath w root, ∀ g ∈ Listing.ofPath w' root',
      ¬ Mimics f g ∧ ¬ Mimics g f) :
    (stream (Listing.ofPath w root) = stream (Listing.ofPath w' root') ↔
      Listing.ofPath w root = Listing.ofPath w' root') ∧
    ((Sha256.hexDigest (stream (Listing.ofPath w root)) =
        Sha256.hexDigest (stream (Listing.ofPath w' root')) →
      stream (Listing.ofPath w root) = stream (Listing.ofPath w' root')) →
      ((ofPath w root).hash = (ofPath w' root').hash ↔
        Listing.ofPath w root = Listing.ofPath w' root')) := by
  have hstream : stream (Listing.ofPath w root) = stream (Listing.ofPath w' root') ↔
      Listing.ofPath w root = Listing.ofPath w' root' :=
    ⟨listing_eq_of_stream hapart, congrArg stream⟩
  refine ⟨hstream, fun hcollision => ⟨fun hhash => hstream.mp (hcollision hhash), fun hsame => ?_⟩⟩
  rw [ofPath, ofPath, hsame]

def tree (files : List (String × ByteArray)) : World :=
  ⟨files.map fun (name, bytes) => ([name], .file bytes), []⟩

theorem ofPath_tree (files : List (String × ByteArray)) :
    Listing.ofPath (tree files) "." =
      (Listing.ofPlace (tree files) []).filter (Listing.isOpen ".") :=
  Listing.ofPath_of_find (World.find_dot _)

theorem ofPath_tree_header :
    Listing.ofPath (tree [("a:0\nb", .empty)]) "." = [⟨"a:0\nb", .empty⟩] := by
  rw [ofPath_tree]
  cbv

/-- A path may begin with a header, as long as it is none of the other tree. -/
theorem hash_identifies_listing_foreign_header :
    stream (Listing.ofPath (tree [("a", ⟨#[120]⟩), ("b", .empty)]) ".") ≠
      stream (Listing.ofPath (tree [("a:0\nb", .empty)]) ".") := by
  have hfiles : Listing.ofPath (tree [("a", ⟨#[120]⟩), ("b", .empty)]) "." =
      [⟨"a", ⟨#[120]⟩⟩, ⟨"b", .empty⟩] := by
    rw [ofPath_tree]
    cbv
  have hapart : ∀ f ∈ Listing.ofPath (tree [("a", ⟨#[120]⟩), ("b", .empty)]) ".",
      ∀ g ∈ Listing.ofPath (tree [("a:0\nb", .empty)]) ".", ¬ Mimics f g ∧ ¬ Mimics g f := by
    rw [hfiles, ofPath_tree_header]
    intro f hf g hg
    refine ⟨not_mimics ?_ g, ?_⟩
    · revert f
      decide
    · unfold Mimics
      revert f g
      decide
  intro h
  have hsame := (hash_identifies_listing hapart).1.mp h
  rw [hfiles, ofPath_tree_header] at hsame
  exact absurd hsame (by decide)

/-- Two files have the hash of a single one whose path begins with the header of the first. -/
theorem hash_shared_with_header_in_path :
    (ofPath (tree [("a", .empty), ("b", .empty)]) ".").hash =
        (ofPath (tree [("a:0\nb", .empty)]) ".").hash ∧
      Listing.ofPath (tree [("a", .empty), ("b", .empty)]) "." ≠
        Listing.ofPath (tree [("a:0\nb", .empty)]) "." := by
  have hfiles : Listing.ofPath (tree [("a", .empty), ("b", .empty)]) "." =
      [⟨"a", .empty⟩, ⟨"b", .empty⟩] := by
    rw [ofPath_tree]
    cbv
  have hstream : stream [⟨"a", .empty⟩, ⟨"b", .empty⟩] = stream [⟨"a:0\nb", .empty⟩] := by cbv
  refine ⟨?_, by rw [hfiles, ofPath_tree_header]; decide⟩
  rw [ofPath, ofPath, hfiles, ofPath_tree_header, ofListing, ofListing, hstream]

end Fingerprint
end SkillAudit
