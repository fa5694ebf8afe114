import SkillAudit.Digest.Sha256
import SkillAudit.Json.Record
import SkillAudit.Package.Listing
import SkillAudit.Text.Dict

/-! What identifies the content of a package. -/
namespace SkillAudit

def shortHash (hash : String) : String := String.ofList (hash.toList.take 12)

structure Fingerprint where
  hash : String
  fileCount : Nat
  totalSize : UInt64
  deriving DecidableEq, Repr

namespace Fingerprint

def short (f : Fingerprint) : String := shortHash f.hash

/-- What stands before the bytes of a file: its path, a colon, its length and a line feed. -/
def header (f : PackageFile) : String := f.path ++ ":" ++ toString f.size ++ "\n"

/-- The bytes that are hashed: every file after its header. -/
def stream (files : Listing) : ByteArray :=
  files.foldl (fun bytes f => bytes ++ (header f).toUTF8 ++ f.bytes) .empty

def ofListing (files : Listing) : Fingerprint where
  hash := Sha256.hexDigest (stream files)
  fileCount := files.length
  totalSize := files.foldl (fun n f => n + UInt64.ofNat f.size) 0

def ofPath (w : World) (root : String) : Fingerprint := ofListing (Listing.ofPath w root)

/-- The digest of every file, by path; of two files with one path the later counts. -/
def fileHashes (files : Listing) : Dict String :=
  Dict.ofList (files.map fun f => (f.path, Sha256.hexDigest f.bytes))

def toJson (f : Fingerprint) : Json := .object [
  ("hash", .text f.hash),
  ("fileCount", .nat f.fileCount),
  ("totalSize", .nat f.totalSize.toNat)]

def ofJson : Json.Decoder Fingerprint := fun j => do
  let r ← Json.asRecord ["hash", "fileCount", "totalSize"] j
  return {
    hash := ← r.required "hash" Json.asText
    fileCount := ← r.required "fileCount" Json.asNat
    totalSize := ← r.required "totalSize" Json.asUInt64 }

end Fingerprint
end SkillAudit
