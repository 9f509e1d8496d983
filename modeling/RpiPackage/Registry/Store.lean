import RpiPackage.Deletion.Plan
import RpiPackage.Lib.Table
import RpiPackage.Resource.Record

/-!
# The session registry

The sessions that a workspace has seen, with their preferences, their resource records and their
pending deletions, in one file that is replaced as a whole. Each change is made in memory, saved,
and taken back when it could not be saved. The text of a file is written and read by `serde_json`,
which is a parameter.
-/

namespace Sessions

open Deletion Resource Result

structure SessionPreferences where
  pinned : Bool
  archived : Bool
  tags : List String
  deriving DecidableEq, Repr

def SessionPreferences.default : SessionPreferences := ⟨false, false, []⟩

structure RegistryEntry where
  sessionId : String
  projectId : Option String
  title : Option String
  parentSessionId : Option String
  forkEntryId : Option String
  relation : Option String
  createdAt : UInt64
  updatedAt : UInt64
  deriving DecidableEq, Repr

structure RegistryFile where
  sessions : List RegistryEntry
  preferences : Table String SessionPreferences
  resources : Table String ResourceConfiguration
  deletions : Table String DeletionPlan

def RegistryFile.default : RegistryFile := ⟨[], .empty, .empty, .empty⟩

@[ext] structure Registry where
  entries : List RegistryEntry
  preferences : Table String SessionPreferences
  resources : Table String ResourceConfiguration
  deletions : Table String DeletionPlan

def maxRegistryBytes : Nat := 128 * 1024 * 1024
def maxDeletions : Nat := 128
def maxTags : Nat := 12
def maxTagLength : Nat := 32

/-- The text of a registry file, as it is written and as it is read. -/
structure Serde where
  toStringPretty : RegistryFile → Except String (List UInt8)
  fromSlice : List UInt8 → Except String RegistryFile

/-! ### Loading -/

def readRegistry (serde : Serde) : Option (List UInt8) → Except String RegistryFile
  | none => .ok .default
  | some raw => do
    failIf (maxRegistryBytes < raw.length)
      "cannot read session registry: session registry exceeds byte budget"
    (serde.fromSlice raw).mapError fun e => "cannot read session registry: " ++ e

def checkFile (data : RegistryFile) : Except String Unit := do
  let ids := data.sessions.map RegistryEntry.sessionId
  failIf ((∃ id ∈ ids, Rust.trim id = "") ∨ ¬ids.Nodup)
    "session registry contains empty or duplicate session ids"
  data.resources.entries.forM fun p => do
    failIf (p.1 ∉ ids) "resource record references unknown session"
    (p.2.validateSession p.1).mapError ResourceError.message
  failIf (maxDeletions < data.deletions.size) "too many pending session deletions"
  data.deletions.entries.forM fun p => do
    failIf (p.1 ∉ ids) "deletion intent references unknown session"
    p.2.validate p.1

/-- The registry of a file, which may not be there yet. -/
def load (serde : Serde) (raw : Option (List UInt8)) : Except String Registry := do
  let data ← readRegistry serde raw
  checkFile data
  return ⟨data.sessions, data.preferences, data.resources, data.deletions⟩

/-! ### Saving -/

/-- What goes wrong outside of the program while it saves: the directory cannot be made, or the
file cannot be written, before it is renamed. -/
structure Fault where
  directory : Option String
  write : Option String

def Fault.none : Fault := ⟨.none, .none⟩

namespace Registry

def file (r : Registry) : RegistryFile := ⟨r.entries, r.preferences, r.resources, r.deletions⟩

/-- The bytes that are now in the file. -/
def saveResult (serde : Serde) (fault : Fault) (r : Registry) : Except String (List UInt8) := do
  failWith fault.directory
  let raw ← serde.toStringPretty r.file
  failIf (maxRegistryBytes < raw.length) "session registry exceeds byte budget"
  failWith fault.write
  return raw

/-- What a call leaves in memory, what it answers, and what it has written. -/
structure Outcome (α : Type) where
  registry : Registry
  result : Except String α
  written : Option (List UInt8)

def refuse {α : Type} (r : Registry) (e : String) : Outcome α := ⟨r, .error e, none⟩

def get (r : Registry) (id : String) : Option RegistryEntry :=
  r.entries.find? fun entry => entry.sessionId == id

/-- `iter_mut().find(..)` followed by an update of what it found. -/
def modifyEntry (id : String) (f : RegistryEntry → RegistryEntry) :
    List RegistryEntry → List RegistryEntry
  | [] => []
  | entry :: entries =>
    if entry.sessionId = id then f entry :: entries else entry :: modifyEntry id f entries

section

variable (serde : Serde) (fault : Fault) (r : Registry)

def beginDeletion (id : String) (plan : DeletionPlan) : Outcome Unit :=
  if r.get id = none then r.refuse "unknown session"
  else
    match plan.validate id with
    | .error e => r.refuse e
    | .ok () =>
      if r.deletions.contains id = true then r.refuse "session deletion is already pending"
      else if maxDeletions ≤ r.deletions.size then r.refuse "too many pending session deletions"
      else
        let next := { r with deletions := r.deletions.put id plan }
        match next.saveResult serde fault with
        | .error e => ⟨{ next with deletions := next.deletions.erase id }, .error e, none⟩
        | .ok raw => ⟨next, .ok (), some raw⟩

def setResourceConfiguration (entry : RegistryEntry) (record : ResourceConfiguration) :
    Outcome Unit :=
  match record.validateSession entry.sessionId with
  | .error e => r.refuse e.message
  | .ok () =>
    let entries := match r.get entry.sessionId with
      | some _ => modifyEntry entry.sessionId
          (fun existing => { existing with updatedAt := max existing.updatedAt entry.updatedAt })
          r.entries
      | none => r.entries ++ [entry]
    let next := { r with entries, resources := r.resources.put entry.sessionId record }
    match next.saveResult serde fault with
    | .error e => ⟨{ next with entries := r.entries, resources := r.resources }, .error e, none⟩
    | .ok raw => ⟨next, .ok (), some raw⟩

def preferencesOf (id : String) : SessionPreferences := (r.preferences.get id).getD .default

def normalizeTagsFrom (normalized : List String) : List String → Except String (List String)
  | [] => .ok normalized
  | tag :: tags => do
    let tag := Rust.trim tag
    if tag = "" then normalizeTagsFrom normalized tags
    else
      failIf (maxTagLength < tag.length) "tag is longer than 32 characters"
      let normalized := if tag ∈ normalized then normalized else normalized ++ [tag]
      failIf (maxTags < normalized.length) "a session can have at most 12 tags"
      normalizeTagsFrom normalized tags

def normalizeTags (tags : List String) : Except String (List String) := normalizeTagsFrom [] tags

/-- What the preferences of a session become. -/
def preferred (id : String) (pinned archived : Option Bool) (tags : Option (List String)) :
    Except String SessionPreferences := do
  failIf (r.get id = none) "session not found"
  let tags ← tags.mapM normalizeTags
  let value := r.preferencesOf id
  return ⟨pinned.getD value.pinned, archived.getD value.archived, tags.getD value.tags⟩

def updatePreferences (id : String) (pinned archived : Option Bool)
    (tags : Option (List String)) : Outcome SessionPreferences :=
  match r.preferred id pinned archived tags with
  | .error e => r.refuse e
  | .ok value =>
    let previous := r.preferencesOf id
    let next := { r with preferences := r.preferences.put id value }
    match next.saveResult serde fault with
    | .error e => ⟨{ next with preferences := next.preferences.put id previous }, .error e, none⟩
    | .ok raw => ⟨next, .ok value, some raw⟩

def mergeEntry (entry existing : RegistryEntry) : RegistryEntry :=
  { existing with
    projectId := entry.projectId.or existing.projectId
    title := entry.title.or existing.title
    parentSessionId := entry.parentSessionId.or existing.parentSessionId
    forkEntryId := entry.forkEntryId.or existing.forkEntryId
    relation := entry.relation.or existing.relation
    updatedAt := max existing.updatedAt entry.updatedAt }

def upsert (entry : RegistryEntry) : Outcome Unit :=
  let entries := match r.get entry.sessionId with
    | some _ => modifyEntry entry.sessionId (mergeEntry entry) r.entries
    | none => r.entries ++ [entry]
  let next := { r with entries }
  match next.saveResult serde fault with
  | .error e => ⟨{ next with entries := r.entries }, .error e, none⟩
  | .ok raw => ⟨next, .ok (), some raw⟩

def remove (id : String) : Outcome Bool :=
  let entries := r.entries.filter fun entry => entry.sessionId != id
  let removed := entries.length != r.entries.length
  if removed then
    let next : Registry :=
      ⟨entries, r.preferences.erase id, r.resources.erase id, r.deletions.erase id⟩
    match next.saveResult serde fault with
    | .error e => ⟨⟨r.entries, r.preferences, r.resources, r.deletions⟩, .error e, none⟩
    | .ok raw => ⟨next, .ok true, some raw⟩
  else ⟨{ r with entries }, .ok false, none⟩

/-- The new title, at the time it is given. -/
def rename (id title : String) (now : UInt64) : Outcome Bool :=
  match r.get id with
  | none => ⟨r, .ok false, none⟩
  | some _ =>
    let next := { r with
      entries := modifyEntry id (fun entry => { entry with title := some title, updatedAt := now })
        r.entries }
    match next.saveResult serde fault with
    | .error e => ⟨{ next with entries := r.entries }, .error e, none⟩
    | .ok raw => ⟨next, .ok true, some raw⟩

end

end Registry

/-! ### Calls -/

inductive Call where
  | upsert (entry : RegistryEntry)
  | rename (id title : String) (now : UInt64)
  | remove (id : String)
  | updatePreferences (id : String) (pinned archived : Option Bool) (tags : Option (List String))
  | setResourceConfiguration (entry : RegistryEntry) (record : ResourceConfiguration)
  | beginDeletion (id : String) (plan : DeletionPlan)

namespace Registry.Outcome

variable {α : Type}

/-- The outcome of a call without its answer. -/
def forget (o : Outcome α) : Outcome Unit := ⟨o.registry, o.result.map fun _ => (), o.written⟩

end Registry.Outcome

/-- A call on a registry. -/
def Registry.call (serde : Serde) (fault : Fault) (r : Registry) : Call → Registry.Outcome Unit
  | .upsert entry => r.upsert serde fault entry
  | .rename id title now => (r.rename serde fault id title now).forget
  | .remove id => (r.remove serde fault id).forget
  | .updatePreferences id pinned archived tags =>
    (r.updatePreferences serde fault id pinned archived tags).forget
  | .setResourceConfiguration entry record => r.setResourceConfiguration serde fault entry record
  | .beginDeletion id plan => r.beginDeletion serde fault id plan

/-- A registry and the bytes in its file. -/
structure Store where
  registry : Registry
  disk : Option (List UInt8)

/-- A call is made, and its save goes as it goes. -/
def Store.step (serde : Serde) (s : Store) (op : Call × Fault) : Store :=
  let outcome := s.registry.call serde op.2 op.1
  ⟨outcome.registry, outcome.written.or s.disk⟩

end Sessions
