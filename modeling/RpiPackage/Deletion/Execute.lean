import RpiPackage.Deletion.Files

/-!
# Execution of a plan

The files of a plan are looked at, and removed one after the other as long as they are the ones
that were captured. The execution may stop at any removal, by a crash or an I/O error, and be made
again from the same plan.
-/

namespace Deletion

open Json Result Service

/-- The lock of the native session, held by its file. -/
structure NativeLock where
  path : PathBuf
  identity : DirectoryIdentity

/-- What the system makes of an attempt to take a lock: whether another process holds it, and the
fingerprint of the file if it has to be created. -/
structure LockAttempt where
  contended : Bool
  created : Fingerprint

def sessionInUse : ServiceError :=
  deletionError .conflict "session_in_use" "Native session is in use"

def invalidPlan : ServiceError :=
  deletionError .invalidInput "deletion_invalid_plan" "Invalid history deletion manifest"

namespace NativeLock

def check (fs : FileSystem) (lock : NativeLock) (root : DirectoryAnchor) :
    Except ServiceError Unit := do
  let current ← okOr (← fs.inspect lock.path root) changed
  failIf (current.identity ≠ lock.identity) changed

/-- The file is opened or created. -/
def openFile (fs : FileSystem) (path : PathBuf) (created : Fingerprint) :
    Except ServiceError (FileSystem × Fingerprint) :=
  match fs.get path with
  | some (.file fingerprint _) => .ok (fs, fingerprint)
  | some (.dir _) => .error unavailable
  | some _ => .error unsafePath
  | none =>
    match fs.get path.dropLast with
    | some (.dir _) => .ok (fs.put path (.file created []), created)
    | _ => .error unavailable

/-- The lock file may have been created even when the lock is refused. -/
def acquire (fs : FileSystem) (primary : PathBuf) (root : DirectoryAnchor) (attempt : LockAttempt) :
    FileSystem × Except ServiceError NativeLock :=
  let path := PathBuf.append primary ".lock"
  match fs.inspect path root with
  | .error e => (fs, .error e)
  | .ok before =>
    match openFile fs path attempt.created with
    | .error e => (fs, .error e)
    | .ok (fs, opened) =>
      (fs, do
        failIf (before.any (fun f => f.identity != opened.identity) = true) changed
        failIf (attempt.contended = true) sessionInUse
        let lock : NativeLock := ⟨path, opened.identity⟩
        lock.check fs root
        return lock)

end NativeLock

/-- Why an execution ends before it is done. -/
inductive Stop where
  | refused (error : ServiceError)
  | interrupted

/-- The files an execution leaves, and how it ended. -/
structure Execution where
  files : FileSystem
  result : Except Stop Unit

namespace DeletionPlan

variable (plan : DeletionPlan)

def isSidecar (kind : FileKind) : Bool :=
  kind == .primaryTmp || kind == .progress || kind == .progressTmp

/-- The companions that a retry finds without their history. -/
def allowed : List PathBuf :=
  plan.files.filterMap fun file =>
    if isSidecar file.kind then (plan.path file.kind).map Prod.fst else none

def verifyCandidates (fs : FileSystem) : Except ServiceError Unit := do
  let found ← fs.discover plan.root plan.id plan.allowed
  failIf (found.isSome = true ∧ found ≠ plan.primary) changed

def preflightKind (fromSlice : List UInt8 → Option Value) (fs : FileSystem) (kind : FileKind) :
    Except ServiceError Unit :=
  match plan.path kind with
  | none => .ok ()
  | some (path, root) => do
    match ← fs.inspect path root, plan.captured kind with
    | some actual, some expected => do
      failIf (actual ≠ expected.fingerprint) changed
      if kind = .primary then fs.header fromSlice path plan.id actual else .ok ()
    | none, _ => .ok ()
    | some _, none => throw changed

def preflight (fromSlice : List UInt8 → Option Value) (fs : FileSystem) :
    Except ServiceError Unit :=
  kinds.forM (plan.preflightKind fromSlice fs)

/-- The directories are as they were, and the lock is held. -/
def checkBindings (lock : Option NativeLock) (fs : FileSystem) : Except ServiceError Unit := do
  plan.root.check fs
  plan.timings.check fs
  lock.toList.forM fun lock => lock.check fs plan.root

/-- Everything that is looked at before the first removal. -/
def beforeRemoval (fromSlice : List UInt8 → Option Value) (lock : Option NativeLock)
    (fs : FileSystem) : Except ServiceError Unit := do
  plan.checkBindings lock fs
  plan.verifyCandidates fs
  plan.preflight fromSlice fs

/-- A captured file is looked at again: its path if it is still to be removed. -/
def recheck (lock : Option NativeLock) (fs : FileSystem) (kind : FileKind) :
    Except ServiceError (Option PathBuf) :=
  match plan.captured kind with
  | none => .ok none
  | some captured => do
    plan.checkBindings lock fs
    let (path, root) ← okOr (plan.path kind) unsafePath
    match ← fs.inspect path root with
    | none => return none
    | some actual => do
      failIf (actual ≠ captured.fingerprint) changed
      return some path

/-- The removals, of which only so many may go through. -/
def removeFiles (lock : Option NativeLock) : Option Nat → FileSystem → List FileKind → Execution
  | stop, fs, [] => ⟨fs, if stop.isSome then .error .interrupted else .ok ()⟩
  | stop, fs, kind :: kinds =>
    match plan.recheck lock fs kind with
    | .error e => ⟨fs, .error (.refused e)⟩
    | .ok none => removeFiles lock stop fs kinds
    | .ok (some path) =>
      match stop with
      | some 0 => ⟨fs, .error .interrupted⟩
      | some (n + 1) => removeFiles lock (some n) (fs.erase path) kinds
      | none => removeFiles lock none (fs.erase path) kinds

/-- No file of the plan may be there at the end. -/
def afterRemoval (lock : Option NativeLock) (fs : FileSystem) : Except ServiceError Unit := do
  plan.verifyCandidates fs
  kinds.forM fun kind =>
    match plan.path kind with
    | none => .ok ()
    | some (path, root) => do
      let current ← fs.inspect path root
      failIf (current.isSome = true) changed
  plan.checkBindings lock fs

/-- The execution of a plan by the holder of the lock, until it is done or stops. -/
def executeLocked (fromSlice : List UInt8 → Option Value) (lock : Option NativeLock)
    (stop : Option Nat) (fs : FileSystem) : Execution :=
  match plan.beforeRemoval fromSlice lock fs with
  | .error e => ⟨fs, .error (.refused e)⟩
  | .ok () =>
    let x := plan.removeFiles lock stop fs kinds
    match x.result with
    | .error _ => x
    | .ok () => { x with result := (plan.afterRemoval lock x.files).mapError .refused }

/-- The lock of the plan, if it has a native history. -/
def acquireLock (attempt : LockAttempt) (fs : FileSystem) :
    FileSystem × Except ServiceError (Option NativeLock) :=
  match plan.primary with
  | none => (fs, .ok none)
  | some p =>
    let (fs, lock) := NativeLock.acquire fs (PathBuf.join plan.root.path p) plan.root attempt
    (fs, lock.map some)

/-- What is checked before a persisted plan is executed once more. -/
def admission (fs : FileSystem) : Except ServiceError Unit := do
  (plan.validate plan.id).mapError fun _ => invalidPlan
  plan.root.check fs
  plan.timings.check fs

/-- The execution of a persisted plan. -/
def execute (fromSlice : List UInt8 → Option Value) (attempt : LockAttempt) (stop : Option Nat)
    (fs : FileSystem) : Execution :=
  match plan.admission fs with
  | .error e => ⟨fs, .error (.refused e)⟩
  | .ok () =>
    let (fs, lock) := plan.acquireLock attempt fs
    match lock with
    | .error e => ⟨fs, .error (.refused e)⟩
    | .ok lock => plan.executeLocked fromSlice lock stop fs

end DeletionPlan

end Deletion
