import RpiPackage.Durable.Record
import RpiPackage.Lib.AnchoredLog

/-!
# The durable journal

The reader of `rpi-durable`: the bounds of a state, the interpreter of journal changes, and the
decoder that restores a state from the entries of a session branch.
-/

namespace Durable

open Json Serde

def maxSteps : Nat := 128
def maxNameChars : Nat := 500
def maxStepIdChars : Nat := 128
def maxStepTitleChars : Nat := 1000
def maxNoteChars : Nat := 4000
def maxJournalEntries : Nat := 64
def maxQueueTextChars : Nat := 4000
def snapshotInterval : UInt64 := 32

structure JournalMeta where
  anchorEntryId : Option String
  commitsSinceSnapshot : UInt64
  forceSnapshot : Bool
  deriving DecidableEq, Repr

/-- `JournalMeta::default()`. -/
def JournalMeta.default : JournalMeta := ⟨none, 0, true⟩

/-! ### Bounds of a state -/

def longerThan (max : Nat) (s : String) : Bool := decide (max < s.length)

def Step.outOfBounds (step : Step) : Bool :=
  step.id == "" || longerThan maxStepIdChars step.id || longerThan maxStepTitleChars step.title
    || step.note.any (longerThan maxNoteChars)

def ToolCheckpoint.outOfBounds (tool : ToolCheckpoint) : Bool :=
  longerThan (maxSummaryChars + 1) tool.callId
    || tool.callKey.any (fun key => key == "" || longerThan (maxSummaryChars + 8) key)
    || longerThan (maxSummaryChars + 1) tool.name || longerThan (maxSummaryChars + 1) tool.params
    || longerThan (maxSummaryChars + 1) tool.result

def QueueItem.outOfBounds (item : QueueItem) : Bool :=
  Rust.trim item.id == "" || longerThan maxStepIdChars item.id
    || longerThan maxQueueTextChars item.text || longerThan maxNoteChars item.note

def validateWorkflow (workflow : Workflow) : Except String Unit :=
  if Rust.trim workflow.name == "" || longerThan maxNameChars workflow.name
      || workflow.steps.isEmpty || decide (maxSteps < workflow.steps.length) then
    .error "durable journal workflow exceeds its bounds"
  else if workflow.steps.any Step.outOfBounds then
    .error "durable journal contains an invalid workflow step"
  else if (workflow.steps.zip workflow.steps.tail).any (fun p => p.1.id == p.2.id)
      || Rust.hasDuplicate Step.id workflow.steps then
    .error "durable journal contains duplicate workflow step IDs"
  else .ok ()

def validateRun (run : RunCheckpoint) : Except String Unit :=
  if Rust.trim run.id == "" || longerThan maxStepIdChars run.id
      || decide (maxJournalEntries < run.tools.length) then
    .error "durable journal contains too many tool entries"
  else if run.tools.any ToolCheckpoint.outOfBounds then
    .error "durable journal contains an oversized tool summary"
  else .ok ()

def validateQueue (queue : List QueueItem) : Except String Unit :=
  if decide (maxQueueItems < queue.length) || queue.any QueueItem.outOfBounds then
    .error "durable journal contains an invalid queue"
  else if Rust.hasDuplicate QueueItem.id queue then
    .error "durable journal contains duplicate queue item IDs"
  else .ok ()

def validateState (value : DurableState) : Except String Unit := do
  if let some workflow := value.workflow then validateWorkflow workflow
  if let some run := value.run then validateRun run
  validateQueue value.queue

/-! ### Changes -/

def setWorkflowMeta (name : String) (status : WorkflowStatus) (reason : Option String)
    (workflow : Workflow) : Workflow :=
  { workflow with name, status, reason }

def setRunMeta (id : String) (status : RunStatus) (startedRevision updatedRevision : UInt64)
    (outcome recoveryOf : String) (run : RunCheckpoint) : RunCheckpoint :=
  { run with id, status, startedRevision, updatedRevision, outcome, recoveryOf }

/-- The newest `maxToolEntries` of the tools, which is what `drain` leaves. -/
def newestTools (tools : List ToolCheckpoint) : List ToolCheckpoint :=
  tools.drop (tools.length - maxToolEntries)

/-- The tools an `updateTool` change addresses. -/
def ToolCheckpoint.addressed (callId : String) (callKey : Option String)
    (tool : ToolCheckpoint) : Bool :=
  tool.callKey == callKey && (callKey.isSome || tool.callId == callId)

/-- What a change does to a state, before the result is validated. -/
def editState (state : DurableState) : JournalChange → Except String DurableState
  | .setWorkflow workflow => .ok { state with workflow }
  | .setWorkflowMeta name status reason =>
    match state.workflow with
    | some workflow => .ok { state with workflow := setWorkflowMeta name status reason workflow }
    | none => .error "durable journal workflow metadata path has no workflow"
  | .updateStep stepId status note =>
    match state.workflow with
    | some workflow => do
      let steps ← Rust.updateFirst (fun step => step.id == stepId)
        (fun step => .ok { step with status, note })
        ("durable journal step path not found: " ++ stepId) workflow.steps
      .ok { state with workflow := some { workflow with steps } }
    | none => .error "durable journal step path has no workflow"
  | .setCounters nextRunId nextQueueId => .ok { state with nextRunId, nextQueueId }
  | .setRun run => .ok { state with run }
  | .setRunMeta id status startedRevision updatedRevision outcome recoveryOf =>
    match state.run with
    | some run =>
      .ok { state with
        run := setRunMeta id status startedRevision updatedRevision outcome recoveryOf run }
    | none => .error "durable journal run metadata path has no run"
  | .appendTool tool =>
    match state.run with
    | some run =>
      .ok { state with run := some { run with tools := newestTools (run.tools ++ [tool]) } }
    | none => .error "durable journal tool path has no run"
  | .updateTool callId callKey status result =>
    match state.run with
    | some run =>
      let count := run.tools.countP (ToolCheckpoint.addressed callId callKey)
      if count ≠ 1 then
        .error ("durable journal tool path matched " ++ toString count ++ " entries for " ++ callId)
      else
        let tools := run.tools.map fun tool =>
          if tool.addressed callId callKey then { tool with status, result } else tool
        .ok { state with run := some { run with tools } }
    | none => .error "durable journal tool path has no run"
  | .setTools tools =>
    if maxToolEntries < tools.length then
      .error "durable journal tool replacement exceeds its bound"
    else
      match state.run with
      | some run => .ok { state with run := some { run with tools } }
      | none => .error "durable journal tool path has no run"
  | .appendQueue item =>
    if decide (maxQueueItems ≤ state.queue.length)
        || state.queue.any (fun existing => existing.id == item.id) then
      .error "durable journal queue append is invalid"
    else .ok { state with queue := state.queue ++ [item] }
  | .updateQueue item => do
    let queue ← Rust.updateFirst (fun existing => existing.id == item.id) (fun _ => .ok item)
      ("durable journal queue path not found: " ++ item.id) state.queue
    .ok { state with queue }
  | .setQueue queue =>
    if maxQueueItems < queue.length then
      .error "durable journal queue replacement exceeds its bound"
    else .ok { state with queue }

/-- Both crates interpret a change the same way and then apply their own validation. -/
def applyChangeWith (validate : DurableState → Except String Unit) (state : DurableState)
    (change : JournalChange) : Except String DurableState := do
  let next ← editState state change
  validate next
  .ok next

def applyChange : DurableState → JournalChange → Except String DurableState :=
  applyChangeWith validateState

def unsupportedFormat {κ : Type} (record : JournalRecord κ) : Bool :=
  record.format != journalFormat || record.version != journalVersion

/-- The state a record stands for, before it is checked against the record's revision. -/
def recordState (base : DurableState) (record : JournalRecord JournalKind) :
    Except String DurableState :=
  match record.kind with
  | .snapshot =>
    if record.changes.isSome then .error "durable snapshot contains delta changes"
    else
      match record.state with
      | some state => .ok state
      | none => .error "durable snapshot has no complete state"
  | .delta =>
    if record.state.isSome then .error "durable delta contains a snapshot state"
    else
      match record.changes with
      | none => .error "durable delta has no changes"
      | some [] => .error "durable delta must contain a change"
      | some changes => do
        let next ← changes.foldlM applyChange base
        .ok { next with revision := record.revision }

def applyRecord (base : DurableState) (record : JournalRecord JournalKind) :
    Except String DurableState := do
  if unsupportedFormat record then throw "unsupported durable journal format or version"
  let next ← recordState base record
  if next.revision ≠ record.revision then
    throw "durable journal resulting revision does not match its state"
  validateState next
  .ok next

/-! ### Decoding a branch -/

structure BranchRecord (κ : Type) where
  record : JournalRecord κ
  entryId : String
  deriving DecidableEq, Repr

/-- A non-empty native id. -/
def branchEntryIdentity (entry : Value) : Option String :=
  match entry.get "id" with
  | some (.string value) => if value ≠ "" then some value else none
  | _ => none

def isCanonicalEntry (entry : Value) : Bool :=
  (entry.get "type").bind Value.asStr == some "custom"
    && (entry.get "customType").bind Value.asStr == some entryType

/-- The checks both readers make before they look at an entry's payload. -/
def branchEnvelope (entry : Value) : Except String (String × Value) :=
  if !isCanonicalEntry entry then
    .error "filtered durable branch contains an unexpected entry type"
  else
    match branchEntryIdentity entry with
    | none => .error "filtered durable branch entry has no valid native id"
    | some entryId =>
      match entry.get "data" with
      | none => .error "durable custom entry has no data"
      | some data => .ok (entryId, data)

/-- The part of a record that its kind calls for, and only that part. -/
def checkContents (record : JournalRecord JournalKind) : Except String Unit :=
  match record.kind with
  | .snapshot =>
    if record.state.isNone || record.changes.isSome then
      .error "durable snapshot must contain only a complete state"
    else .ok ()
  | .delta =>
    if record.state.isSome || record.changes.all List.isEmpty then
      .error "durable delta must contain non-empty changes only"
    else .ok ()

def checkSnapshot (record : JournalRecord JournalKind) : Except String Unit :=
  if record.kind = .snapshot then
    match record.state with
    | none => .error "durable snapshot has no complete state"
    | some snapshot =>
      if snapshot.revision ≠ record.revision then
        .error "durable snapshot state has the wrong revision"
      else validateState snapshot
  else .ok ()

def parseRecord (entryId : String) (data : Value) : Except String (BranchRecord JournalKind) := do
  let record ← (JournalRecord.decode JournalKind.decode .value data).mapError
    ("invalid durable journal record: " ++ ·)
  if unsupportedFormat record then throw "unsupported durable journal format or version"
  checkContents record
  if record.revision < record.baseRevision then throw "durable journal revision moves backwards"
  checkSnapshot record
  .ok ⟨record, entryId⟩

/-- The entries of a branch, parsed one by one; an envelope error ends the loop. -/
def parseEntries {ρ : Type} (parse : String → Value → Except String ρ) (entries : List Value) :
    Except String (List (Except String ρ)) :=
  entries.mapM fun entry => do
    let (entryId, data) ← branchEnvelope entry
    .ok (parse entryId data)

def isSnapshot (r : BranchRecord JournalKind) : Bool := r.record.kind == .snapshot

structure Replay where
  restored : DurableState
  anchor : Option String
  commitsSinceSnapshot : UInt64
  deriving DecidableEq, Repr

/-- One delta of the suffix. -/
def replayDelta (r : Replay) (branch : BranchRecord JournalKind) : Except String Replay := do
  let record := branch.record
  if record.kind = .snapshot then
    throw "unexpected durable snapshot after the selected snapshot anchor"
  if record.baseRevision ≠ r.restored.revision || record.baseEntryId ≠ r.anchor then
    throw "durable journal delta has a gap or wrong branch anchor"
  match Rust.checkedSucc r.restored.revision with
  | none => throw "durable revision overflow"
  | some revision =>
    if record.revision ≠ revision then
      throw "durable journal delta has a non-contiguous revision"
  let restored ← applyRecord r.restored record
  .ok ⟨restored, some branch.entryId, Rust.saturatingSucc r.commitsSinceSnapshot⟩

/-- The state the replay starts from, and whether the next commit must be a snapshot. -/
def replayBase : List (BranchRecord JournalKind) → Except String (Replay × Bool)
  | [] => .ok (⟨DurableState.default, none, 0⟩, true)
  | base :: _ =>
    if base.record.kind ≠ .snapshot then
      .error "durable journal has no self-contained snapshot base"
    else do
      let restored ← applyRecord DurableState.default base.record
      .ok (⟨restored, some base.entryId, 0⟩, false)

def replayRecords (records : List (BranchRecord JournalKind)) :
    Except String (DurableState × JournalMeta) := do
  let (start, forceSnapshot) ← replayBase records
  validateState start.restored
  let r ← (records.drop 1).foldlM replayDelta start
  .ok (r.restored, ⟨r.anchor, r.commitsSinceSnapshot, forceSnapshot⟩)

def decodeBranch (entries : List Value) : Except String (DurableState × JournalMeta) := do
  let log ← parseEntries parseRecord entries
  let (records, invalidRecords) := AnchoredLog.splitIndexed 0 log
  let records ← AnchoredLog.selectIndexed isSnapshot records invalidRecords
  replayRecords (records.map Prod.snd)

end Durable
