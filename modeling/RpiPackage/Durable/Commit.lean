import RpiPackage.Durable.Valid

/-!
# Committing a candidate state

The journal writer: the changes that lead from one state to another, the choice between a delta
and a snapshot, and the append.
-/

namespace Durable

open Json Serde

def runMeta (run : RunCheckpoint) : JournalChange :=
  .setRunMeta run.id run.status run.startedRevision run.updatedRevision run.outcome run.recoveryOf

/-- The tools that share the identity of `before`. -/
def ToolCheckpoint.sameIdentity (before tool : ToolCheckpoint) : Bool :=
  match before.callKey with
  | some key => tool.callKey == some key
  | none => tool.callKey.isNone && tool.callId == before.callId

/-- Per-tool updates for the positions that differ, unless one of them cannot be addressed. -/
def toolUpdates (current : List ToolCheckpoint) :
    List (ToolCheckpoint × ToolCheckpoint) → Option (List JournalChange)
  | [] => some []
  | (before, after) :: rest =>
    if before = after then toolUpdates current rest
    else if !(before.callKey == after.callKey && before.callId == after.callId)
        || before.name != after.name || before.params != after.params
        || current.countP before.sameIdentity != 1 then
      none
    else
      (toolUpdates current rest).map
        (.updateTool after.callId after.callKey after.status after.result :: ·)

def toolChanges (current next : List ToolCheckpoint) : Option (List JournalChange) :=
  if next.length = current.length + 1 ∧ next.take current.length = current then
    next.getLast?.map fun tool => [.appendTool tool]
  else if current.length = maxJournalEntries ∧ next.length = maxJournalEntries ∧
      next.take (maxJournalEntries - 1) = current.drop 1 then
    next.getLast?.map fun tool => [.appendTool tool]
  else if current.length = next.length then
    match toolUpdates current (current.zip next) with
    | some (change :: changes) => some (change :: changes)
    | _ => none
  else none

def stepUpdate (p : Step × Step) : Option JournalChange :=
  if p.1.status ≠ p.2.status ∨ p.1.note ≠ p.2.note then
    some (.updateStep p.2.id p.2.status p.2.note)
  else none

def workflowUpdates (before after : Workflow) : List JournalChange :=
  (if before.name ≠ after.name ∨ before.status ≠ after.status ∨ before.reason ≠ after.reason then
    [.setWorkflowMeta after.name after.status after.reason]
  else []) ++
  (before.steps.zip after.steps).filterMap stepUpdate

def workflowChanges (current next : Option Workflow) : List JournalChange :=
  match current, next with
  | some before, some after =>
    if before.steps.length = after.steps.length ∧
        (before.steps.zip after.steps).all fun p => p.1.id == p.2.id && p.1.title == p.2.title then
      match workflowUpdates before after with
      | [] => [.setWorkflow next]
      | changes => changes
    else [.setWorkflow next]
  | _, _ => [.setWorkflow next]

def runChanges (current next : Option RunCheckpoint) : List JournalChange :=
  match current, next with
  | none, none => []
  | some _, none | none, some _ => [.setRun next]
  | some before, some after =>
    if before.id ≠ after.id then [.setRun next]
    else
      (if before.id ≠ after.id ∨ before.status ≠ after.status ∨
          before.startedRevision ≠ after.startedRevision ∨
          before.updatedRevision ≠ after.updatedRevision ∨ before.outcome ≠ after.outcome ∨
          before.recoveryOf ≠ after.recoveryOf then
        [runMeta after]
      else []) ++
      match toolChanges before.tools after.tools with
      | some changes => changes
      | none => if before.tools ≠ after.tools then [.setTools after.tools] else []

def queueChanges (current next : List QueueItem) : List JournalChange :=
  if current = next then []
  else if next.length = current.length + 1 ∧ next.take current.length = current then
    (next.getLast?.map JournalChange.appendQueue).toList
  else if current.length = next.length then
    match (current.zip next).filter fun p => p.1 != p.2 with
    | [p] => [.updateQueue p.2]
    | _ => [.setQueue next]
  else [.setQueue next]

def journalChanges (current next : DurableState) : List JournalChange :=
  (if current.workflow ≠ next.workflow then workflowChanges current.workflow next.workflow
  else []) ++
  (if current.nextRunId ≠ next.nextRunId ∨ current.nextQueueId ≠ next.nextQueueId then
    [.setCounters next.nextRunId next.nextQueueId]
  else []) ++
  runChanges current.run next.run ++
  queueChanges current.queue next.queue

def journalRecord (current next : DurableState) (journalMeta : JournalMeta) :
    JournalRecord JournalKind where
  format := journalFormat
  version := journalVersion
  kind := .delta
  baseRevision := current.revision
  revision := next.revision
  baseEntryId := journalMeta.anchorEntryId
  state := none
  changes := some (journalChanges current next)

def snapshotRecord (current next : DurableState) (journalMeta : JournalMeta) :
    JournalRecord JournalKind where
  format := journalFormat
  version := journalVersion
  kind := .snapshot
  baseRevision := current.revision
  revision := next.revision
  baseEntryId := journalMeta.anchorEntryId
  state := some next
  changes := none

/-- The state a commit stores: the next revision, recorded in the run as well. -/
def stamped (revision : UInt64) (next : DurableState) : DurableState :=
  { next with
    revision
    run := next.run.map fun run => { run with updatedRevision := revision } }

def useSnapshot (journalMeta : JournalMeta) (delta snapshot : JournalRecord JournalKind) : Bool :=
  journalMeta.forceSnapshot || journalMeta.anchorEntryId.isNone
    || decide (snapshotInterval ≤ journalMeta.commitsSinceSnapshot + 1)
    || decide (snapshot.encode.compactSize ≤ delta.encode.compactSize)

/-- What a commit asks the host to append. -/
def appendPayload (record : JournalRecord JournalKind) : Value :=
  .object [("customType", .string entryType), ("data", record.encode)]

/-- A native id, which is never empty. -/
structure EntryId where
  value : String
  ne : value ≠ ""

/-- The entry the host writes for an append. -/
def nativeEntry (entryId : EntryId) (payload : Value) : Value :=
  .object [("type", .string "custom"), ("id", .string entryId.value),
    ("customType", payload.index "customType"), ("data", payload.index "data")]

lemma branchEnvelope_nativeEntry (entryId : EntryId) (record : JournalRecord JournalKind) :
    branchEnvelope (nativeEntry entryId (appendPayload record)) =
      .ok (entryId.value, record.encode) := by
  simp [branchEnvelope, isCanonicalEntry, branchEntryIdentity, nativeEntry, appendPayload,
    Value.index, List.lookup_cons, entryId.ne]

lemma branchEntryIdentity_nativeEntry (entryId : EntryId) (payload : Value) :
    branchEntryIdentity (nativeEntry entryId payload) = some entryId.value := by
  simp [branchEntryIdentity, nativeEntry, List.lookup_cons, entryId.ne]

/-- A commit up to its append: nothing to write, or the stored state with its record. -/
def prepareCommit (current : DurableState) (journalMeta : JournalMeta) (next : DurableState) :
    Except String (Option (DurableState × JournalRecord JournalKind × Bool)) :=
  if next = current then .ok none
  else
    match Rust.checkedSucc current.revision with
    | none => .error "durable revision exhausted"
    | some revision =>
      let next := stamped revision next
      let delta := journalRecord current next journalMeta
      if (journalChanges current next).isEmpty then
        .error "durable state changed without a journal change"
      else
        let snapshot := snapshotRecord current next journalMeta
        if useSnapshot journalMeta delta snapshot then .ok (some (next, snapshot, true))
        else .ok (some (next, delta, false))

/-- The journal metadata after a logged commit. -/
def JournalMeta.committed (journalMeta : JournalMeta) (snapshot : Bool) (entryId : String) :
    JournalMeta where
  anchorEntryId := some entryId
  commitsSinceSnapshot := if snapshot then 0 else journalMeta.commitsSinceSnapshot + 1
  forceSnapshot := false

/-- The append runs in the monad of the host. -/
def commitCandidate {m : Type → Type} [Monad m] (current : DurableState)
    (journalMeta : JournalMeta) (next : DurableState)
    (append : Value → m (Except String String)) :
    m (Except String (DurableState × JournalMeta)) := do
  match prepareCommit current journalMeta next with
  | .error error => return .error error
  | .ok none => return .ok (current, journalMeta)
  | .ok (some (next, record, snapshot)) =>
    match ← append (appendPayload record) with
    | .error error => return .error error
    | .ok entryId => return .ok (next, journalMeta.committed snapshot entryId)

end Durable
