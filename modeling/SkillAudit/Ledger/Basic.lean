import SkillAudit.Ledger.Table
import SkillAudit.Store

/-!
The ledger of approvals: a JSON file of entries, and a Markdown table of the same. Entries are added
or flipped to revoked, never removed. Every change reads the file again under its lock.
-/
namespace SkillAudit

def Ledger.schema : UInt32 := 1

structure Ledger.Content where
  entries : List LedgerEntry
  /-- The schema of a file that a newer version wrote; such a file reads as empty. -/
  newerSchema : Option UInt32
  deriving DecidableEq, Repr

structure Ledger where
  path : String
  tablePath : Option String
  content : Ledger.Content
  deriving DecidableEq, Repr

namespace Ledger

def Content.current (entries : List LedgerEntry) : Content := ⟨entries, none⟩

/-- The schema that a document names, whatever else it holds. -/
def declaredSchema? : Json.Decoder UInt32 := fun j => do
  let r ← Json.asRecord ["schemaVersion"] j
  (← r.nullable "schemaVersion" Json.asUInt32)

/-- The entries of a document, or of a bare list of them. -/
def entries? : Json.Decoder (List LedgerEntry) := fun j =>
  if j.isSound && j.depth ≤ Json.depthLimit then
    match j with
    | .obj _ => do
      let r ← Json.asRecord ["schemaVersion", "entries"] j
      let _ ← r.required "schemaVersion" Json.asUInt32
      r.withDefault "entries" [] (Json.asList LedgerEntry.ofJson)
    | _ => Json.asList LedgerEntry.ofJson j
  else none

/-- What a text holds. One that cannot be decoded reads as empty. -/
def Content.ofText (text : String) : Content :=
  match Json.parse? text with
  | none => .current []
  | some j =>
    match (declaredSchema? j).filter (· > schema) with
    | some found => ⟨[], some found⟩
    | none => .current ((entries? j).getD [])

def Content.load (w : World) (path : String) : Content :=
  match Store.read? w path with
  | some text => .ofText text
  | none => .current []

def load (w : World) (path : String) (tablePath : Option String) : Ledger :=
  ⟨path, tablePath, .load w path⟩

def entries (l : Ledger) : List LedgerEntry := l.content.entries

def latest? (l : Ledger) (name : String) : Option LedgerEntry :=
  l.entries.reverse.find? (·.name == name)

def approvedHash? (l : Ledger) (name : String) : Option String :=
  ((l.latest? name).filter (·.status == .approved)).map (·.hash)

def approval (l : Ledger) (name : String) (hash : Option String) : ApprovalStatus :=
  let entry := l.latest? name
  let approved := entry.any (·.status == .approved)
  { approved
    entry
    hashMatch := if approved then do return (← entry).hash == (← hash) else none }

def history (l : Ledger) (name : String) : List LedgerEntry := l.entries.filter (·.name == name)

def stats (l : Ledger) : LedgerStats := .ofEntries l.entries

def documentJson (entries : List LedgerEntry) : Json := .object [
  ("schemaVersion", .nat schema.toNat),
  ("entries", .list LedgerEntry.toJson entries)]

abbrev Act := ExceptT AuditError (StateM (Ledger × World))

def onWorld {α : Type} (act : SkillAudit.Act α) : Ledger.Act α := fun (l, w) =>
  let (result, w) := act w
  (result, (l, w))

def reload : Ledger.Act Unit :=
  modify fun (l, w) => ({ l with content := .load w l.path }, w)

def lock : Ledger.Act Unit := do onWorld (Store.lock (← get).1.path)

def writeFiles : Ledger.Act Unit := do
  let (l, _) ← get
  match l.content.newerSchema with
  | some found => throw (.newerSchema l.path found schema)
  | none =>
    onWorld (Store.writeJson l.path (documentJson l.entries))
    match l.tablePath with
    | some path => onWorld (Store.write path (markdown l.entries).toUTF8)
    | none => pure ()

def setEntries (entries : List LedgerEntry) : Ledger.Act Unit :=
  modify fun (l, w) => ({ l with content := { l.content with entries } }, w)

/-- Adds an entry. One without a date gets the present one. -/
def add (now : Instant) (e : LedgerEntry) : Ledger.Act LedgerEntry := do
  lock
  reload
  let e := { e with date := some (e.date.getD now) }
  setEntries ((← get).1.entries ++ [e])
  writeFiles
  return e

/-- Flips the last approved entry of a name to revoked; `none` if there is none. -/
def revokeLast (now : Instant) (name : String) (entries : List LedgerEntry) :
    Option (List LedgerEntry) :=
  go entries.reverse []
where
  /-- Goes through the entries backwards; `after` are those already seen. -/
  go : List LedgerEntry → List LedgerEntry → Option (List LedgerEntry)
    | [], _ => none
    | e :: before, after =>
      if e.name == name && e.status == .approved then
        some (before.reverse ++ { e with status := .revoked, revokedAt := some now } :: after)
      else go before (e :: after)

/-- Revokes the last approval of a name; whether there was one. -/
def revoke (now : Instant) (name : String) : Ledger.Act Bool := do
  lock
  reload
  match revokeLast now name (← get).1.entries with
  | none => return false
  | some entries =>
    setEntries entries
    writeFiles
    return true

def save : Ledger.Act Unit := do
  lock
  writeFiles

end Ledger
end SkillAudit
