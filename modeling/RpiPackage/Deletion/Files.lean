import RpiPackage.Deletion.Plan
import RpiPackage.Lib.Table
import RpiPackage.Reply

/-!
# Files of a history

The file system as a map from paths to what is there, and what a deletion asks of it: whether a
directory is the one it was, what a file is, whether its header is that of the session, and which
histories of the session there are. No component of a checked path is a link, so the path is its
own canonical form. The time that a scan may take is left out.
-/

namespace Deletion

open Json Result Service

/-- What is at a path. -/
inductive Node where
  | file (fingerprint : Fingerprint) (content : List UInt8)
  | dir (identity : DirectoryIdentity)
  | symlink
  | special
  deriving DecidableEq, Repr

abbrev FileSystem : Type := Table PathBuf Node

def maxDirEntries : Nat := 10000
def headerLimit : Nat := 64 * 1024

/-! ### Errors -/

def deletionError (kind : ReplyKind) (code message : String) : ServiceError :=
  (kind, .object [("code", .string code), ("error", .string message)])

def unsafePath : ServiceError :=
  deletionError .accessDenied "deletion_unsafe_path" "Unsafe history deletion path"

def unavailable : ServiceError :=
  deletionError .unavailable "deletion_io" "History deletion I/O failed"

def changed : ServiceError :=
  deletionError .conflict "deletion_identity_changed" "History deletion identity changed"

def unknown : ServiceError :=
  deletionError .conflict "deletion_unknown_history" "Unrecognized native history layout or format"

def bound : ServiceError :=
  deletionError .limitExceeded "deletion_scan_limit" "History discovery budget exceeded"

def duplicateHistory : ServiceError :=
  deletionError .conflict "deletion_duplicate_history" "Multiple native histories for session"

namespace FileSystem

variable (fs : FileSystem)

/-! ### Paths -/

def metadata (path : PathBuf) : Except ServiceError (Option Node) :=
  match fs.get path with
  | some .symlink => .error unsafePath
  | node => .ok node

def unsafePart : Component → Bool
  | .parentDir | .curDir => true
  | .normal name => name == "." || name == ".."
  | .rootDir => false

def checkParts (current : PathBuf) : List Component → Except ServiceError Unit
  | [] => .ok ()
  | part :: parts => do
    failIf (unsafePart part = true) unsafePath
    let _ ← fs.metadata (current ++ [part])
    checkParts (current ++ [part]) parts

/-- No component of the path is a link. -/
def checkComponents (path : PathBuf) : Except ServiceError Unit := do
  failIf (PathBuf.isAbsolute path = false) unsafePath
  fs.checkParts [] path

def canonicalize (path : PathBuf) : Except ServiceError PathBuf :=
  if (fs.get path).isSome then .ok path else .error unavailable

end FileSystem

open FileSystem

/-- The directory is as it was. -/
def DirectoryAnchor.check (fs : FileSystem) (a : DirectoryAnchor) : Except ServiceError Unit := do
  fs.checkComponents a.path
  match ← fs.metadata a.path, a.identity with
  | some (.dir identity), some expected => do
    failIf (identity ≠ expected) changed
    let canonical ← fs.canonicalize a.path
    failIf (canonical ≠ a.path) unsafePath
  | none, none => .ok ()
  | _, _ => .error changed

namespace FileSystem

variable (fs : FileSystem)

/-- The fingerprint of a file in a directory. -/
def inspect (path : PathBuf) (root : DirectoryAnchor) :
    Except ServiceError (Option Fingerprint) := do
  failIf (root.path.isPrefixOf path = false) unsafePath
  fs.checkComponents path
  match ← fs.metadata path with
  | none => return none
  | some (.file fingerprint _) => do
    let canonical ← fs.canonicalize path
    failIf (root.path.isPrefixOf canonical = false) unsafePath
    return some fingerprint
  | some _ => throw unsafePath

/-! ### Headers -/

def firstLine : List UInt8 → List UInt8
  | [] => []
  | b :: bs => if b = 10 then [b] else b :: firstLine bs

/-- The header of a history is that of the session; the parser of a line is `serde_json`. -/
def header (fromSlice : List UInt8 → Option Value) (path : PathBuf) (id : String)
    (expected : Fingerprint) : Except ServiceError Unit :=
  match fs.get path with
  | some (.file fingerprint content) => do
    failIf (fingerprint ≠ expected) changed
    let line := firstLine (content.take headerLimit)
    failIf (line.getLast? ≠ some 10) unknown
    let value ← okOr (fromSlice line) unknown
    failIf ((value.index "kind").asStr ≠ some "header" ∨ (value.index "version").asI64 ≠ some 4 ∨
        (value.index "id").asStr ≠ some id ∨
        (value.get "progressFormat").any (fun p => p.asStr != some "assistant-progress-v1") = true)
      unknown
  | _ => .error unavailable

/-! ### Discovery -/

/-- The names in a directory. -/
def readDir (dir : PathBuf) : Except ServiceError (List String) :=
  match fs.get dir with
  | some (.dir _) =>
    .ok (fs.keys.filterMap fun path =>
      if path.dropLast = dir then PathBuf.fileName path else none)
  | _ => .error unavailable

/-- What has been seen so far, and the directories to look into next. -/
structure Scan where
  count : Nat
  found : Option PathBuf
  orphans : List PathBuf
  next : List PathBuf

def Scan.start : Scan := ⟨0, none, [], []⟩

def scanEntry (root : DirectoryAnchor) (id : String) (depth : Nat) (dir : PathBuf) (s : Scan)
    (name : String) : Except ServiceError Scan := do
  let s := { s with count := s.count + 1 }
  failIf (maxDirEntries < s.count) bound
  let path := dir ++ [.normal name]
  match ← fs.metadata path with
  | none => throw changed
  | some (.dir _) =>
    if depth = 0 ∨ (depth = 1 ∧ (PathBuf.fileName dir).any canonicalId = true) then
      return { s with next := s.next ++ [path] }
    else throw unknown
  | some _ =>
    if primaryName name id then do
      let relative := path.drop root.path.length
      failIf (validRelative relative id = false) unknown
      let _ ← okOr (← fs.inspect path root) changed
      failIf (s.found.isSome = true) duplicateHistory
      return { s with found := some relative }
    else if orphanName name id then do
      let _ ← okOr (← fs.inspect path root) changed
      return { s with orphans := s.orphans ++ [path] }
    else return s

def scanDir (root : DirectoryAnchor) (id : String) (depth : Nat) (s : Scan) (dir : PathBuf) :
    Except ServiceError Scan := do
  let names ← fs.readDir dir
  names.foldlM (fs.scanEntry root id depth dir) s

/-- The directories of one depth are looked into before those below them. -/
def scanLevels (root : DirectoryAnchor) (id : String) : Nat → Nat → Scan → Except ServiceError Scan
  | 0, _, s => .ok s
  | levels + 1, depth, s => do
    let s ← s.next.foldlM (fs.scanDir root id depth) { s with next := [] }
    scanLevels root id levels (depth + 1) s

/-- The histories and companions below a directory, at most two directories down. -/
def scan (root : DirectoryAnchor) (id : String) : Except ServiceError Scan :=
  fs.scanLevels root id 3 0 { Scan.start with next := [root.path] }

/-- A companion of the history that was found. -/
def isCompanion (root : DirectoryAnchor) (found : Option PathBuf) (path : PathBuf) : Bool :=
  found.any fun h =>
    companionSuffixes.any fun s => PathBuf.append (PathBuf.join root.path h) s == path

def discover (root : DirectoryAnchor) (id : String) (retryOrphans : List PathBuf) :
    Except ServiceError (Option PathBuf) :=
  if root.identity = none then .ok none
  else do
    let s ← fs.scan root id
    failIf (s.orphans.any (fun p => !retryOrphans.contains p && !isCompanion root s.found p) = true)
      unknown
    return s.found

end FileSystem

end Deletion
