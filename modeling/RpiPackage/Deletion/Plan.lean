import RpiPackage.Lib.Result
import RpiPackage.Lib.Rust

/-!
# Deletion plans

The manifest of a history that is to be deleted: its two directories as they were, the relative
path of its main file, and the fingerprint of each of the six files it may have. All other paths
are derived from these. A path is the list of its components.
-/

namespace Deletion

open Result

inductive Component where
  | rootDir
  | curDir
  | parentDir
  | normal (name : String)
  deriving DecidableEq, Repr

abbrev PathBuf : Type := List Component

namespace PathBuf

def isAbsolute (path : PathBuf) : Bool := path.head? == some .rootDir

def fileName (path : PathBuf) : Option String :=
  match path.getLast? with
  | some (.normal name) => some name
  | _ => none

def join (path other : PathBuf) : PathBuf := if isAbsolute other then other else path ++ other

/-- The suffix goes to the last name. -/
def append (path : PathBuf) (suffix : String) : PathBuf :=
  match fileName path with
  | some name => path.dropLast ++ [.normal (name ++ suffix)]
  | none => path ++ [.normal suffix]

end PathBuf

/-- A time, in nanoseconds from the Unix epoch. -/
abbrev SystemTime : Type := Int

structure DirectoryIdentity where
  created : Option SystemTime
  dev : Option UInt64
  ino : Option UInt64
  deriving DecidableEq, Repr

structure DirectoryAnchor where
  path : PathBuf
  identity : Option DirectoryIdentity
  deriving DecidableEq, Repr

structure Fingerprint where
  len : UInt64
  modified : Option SystemTime
  identity : DirectoryIdentity
  deriving DecidableEq, Repr

inductive FileKind where
  | primary
  | primaryTmp
  | progress
  | progressTmp
  | timing
  | timingTmp
  deriving DecidableEq, Repr

def kinds : List FileKind := [.primary, .primaryTmp, .progress, .progressTmp, .timing, .timingTmp]

namespace FileKind

/-- A file of the timings rather than of the native history. -/
def isTiming (kind : FileKind) : Bool := kind == .timing || kind == .timingTmp

lemma mem_kinds (kind : FileKind) : kind ∈ kinds := by
  cases kind <;> decide

end FileKind

structure PlannedFile where
  kind : FileKind
  fingerprint : Fingerprint
  deriving DecidableEq, Repr

structure DeletionPlan where
  version : UInt8
  id : String
  root : DirectoryAnchor
  timings : DirectoryAnchor
  primary : Option PathBuf
  files : List PlannedFile
  deriving DecidableEq, Repr

/-! ### Names -/

/-- A UUID as it is printed, in lower case with its hyphens. -/
def canonicalId (id : String) : Bool :=
  id.length == 36 && id.toList.zipIdx.all fun (c, i) =>
    if i = 8 ∨ i = 13 ∨ i = 18 ∨ i = 23 then c == '-'
    else ('0' ≤ c && c ≤ '9') || ('a' ≤ c && c ≤ 'f')

def stripSuffix (name suffix : String) : Option String :=
  if suffix.toList.isSuffixOf name.toList then
    some (String.ofList (name.toList.take (name.length - suffix.length)))
  else none

def primaryName (name id : String) : Bool :=
  let suffix := "_" ++ id ++ ".jsonl"
  decide (suffix.utf8ByteSize < name.utf8ByteSize) && (stripSuffix name suffix).isSome

def companionSuffixes : List String := [".tmp", ".progress.jsonl", ".progress.jsonl.tmp"]

def orphanName (name id : String) : Bool :=
  companionSuffixes.any fun suffix => (stripSuffix name suffix).any fun main => primaryName main id

def validPart : Component → Bool
  | .normal s => s != "" && decide (s.utf8ByteSize ≤ 1024) &&
    !s.toList.any (fun c => c == ':' || c == '\\' || c == '/') && !s.toList.any Rust.isControl
  | _ => false

def validRelative (path : PathBuf) (id : String) : Bool :=
  decide (1 ≤ path.length ∧ path.length ≤ 3) && path.all validPart &&
    (path.length != 3 || path.head? == some (.normal id)) &&
    (PathBuf.fileName path).any fun s => primaryName s id

/-! ### Plans -/

def invalidManifest : String := "Invalid history deletion manifest"

namespace DirectoryAnchor

def validPath (a : DirectoryAnchor) : Bool :=
  PathBuf.isAbsolute a.path && a.path.all (fun
    | .parentDir | .curDir => false
    | .normal name => name != "." && name != ".."
    | .rootDir => true) && (PathBuf.fileName a.path).isSome

end DirectoryAnchor

namespace DeletionPlan

def kindsOf (plan : DeletionPlan) : List FileKind := plan.files.map PlannedFile.kind

/-- The structure of a plan that may have been written by anyone. -/
def validate (plan : DeletionPlan) (id : String) : Except String Unit :=
  let valid := plan.version == 1 && canonicalId id && plan.id == id &&
    [plan.root, plan.timings].all DirectoryAnchor.validPath &&
    plan.primary.all (fun p => validRelative p id) &&
    decide (plan.files.length ≤ kinds.length)
  let native := plan.kindsOf.any fun kind => !kind.isTiming
  failIf (valid = false ∨ ¬plan.kindsOf.Nodup ∨
      plan.primary.isSome ≠ plan.kindsOf.contains .primary ∨
      (native = true ∧ plan.primary = none) ∨
      (plan.root.identity = none ∧ plan.primary.isSome = true) ∨
      (plan.timings.identity = none ∧ plan.kindsOf.any FileKind.isTiming = true))
    invalidManifest

def companionSuffix : FileKind → String
  | .primaryTmp => ".tmp"
  | .progress => ".progress.jsonl"
  | .progressTmp => ".progress.jsonl.tmp"
  | _ => ""

/-- The path of a file and the directory it has to be in. -/
def path (plan : DeletionPlan) (kind : FileKind) : Option (PathBuf × DirectoryAnchor) :=
  match kind with
  | .timing => some (PathBuf.join plan.timings.path [.normal (plan.id ++ ".json")], plan.timings)
  | .timingTmp =>
    some (PathBuf.append (PathBuf.join plan.timings.path [.normal (plan.id ++ ".json")]) ".tmp",
      plan.timings)
  | kind =>
    plan.primary.map fun p =>
      (PathBuf.append (PathBuf.join plan.root.path p) (companionSuffix kind), plan.root)

/-- What was captured of a file. -/
def captured (plan : DeletionPlan) (kind : FileKind) : Option PlannedFile :=
  plan.files.find? fun f => f.kind == kind

end DeletionPlan

end Deletion
