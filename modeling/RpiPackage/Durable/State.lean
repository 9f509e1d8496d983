import RpiPackage.Lib.Serde
import RpiPackage.Lib.Rust

/-!
# The durable state

The checkpoint schema shared by the journal writer and its readers (`rpi-durable-core`): a
workflow with its steps, the current run with its tool calls, and the work queue. The encoders and
decoders are the derived ones, attribute by attribute.
-/

namespace Durable

open Json Serde

def entryType : String := "durable-state"
def journalFormat : String := "rpi-durable-journal"
def journalVersion : UInt64 := 1
def maxQueueItems : Nat := 32
def maxToolEntries : Nat := 64
def maxSummaryChars : Nat := 1000

/-! ### Statuses -/

inductive WorkflowStatus where
  | running | paused | completed | failed
  deriving DecidableEq, Repr

inductive StepStatus where
  | pending | inProgress | completed
  deriving DecidableEq, Repr

inductive RunStatus where
  | queued | running | settled | failed | interrupted
  deriving DecidableEq, Repr

inductive ToolStatus where
  | started | completed | failed | interrupted | unknown
  deriving DecidableEq, Repr

inductive QueueStatus where
  | queued | claimed | completed | failed | cancelled
  deriving DecidableEq, Repr

def WorkflowStatus.asStr : WorkflowStatus → String
  | .running => "running"
  | .paused => "paused"
  | .completed => "completed"
  | .failed => "failed"

def StepStatus.name : StepStatus → String
  | .pending => "pending"
  | .inProgress => "in_progress"
  | .completed => "completed"

def RunStatus.asStr : RunStatus → String
  | .queued => "queued"
  | .running => "running"
  | .settled => "settled"
  | .failed => "failed"
  | .interrupted => "interrupted"

def ToolStatus.asStr : ToolStatus → String
  | .started => "started"
  | .completed => "completed"
  | .failed => "failed"
  | .interrupted => "interrupted"
  | .unknown => "unknown"

def QueueStatus.asStr : QueueStatus → String
  | .queued => "queued"
  | .claimed => "claimed"
  | .completed => "completed"
  | .failed => "failed"
  | .cancelled => "cancelled"

/-! ### Records -/

structure Step where
  id : String
  title : String
  status : StepStatus
  note : Option String
  deriving DecidableEq, Repr

structure Workflow where
  name : String
  status : WorkflowStatus
  steps : List Step
  reason : Option String
  deriving DecidableEq, Repr

structure ToolCheckpoint where
  callId : String
  callKey : Option String
  name : String
  params : String
  status : ToolStatus
  result : String
  deriving DecidableEq, Repr

structure RunCheckpoint where
  id : String
  status : RunStatus
  startedRevision : UInt64
  updatedRevision : UInt64
  outcome : String
  recoveryOf : String
  tools : List ToolCheckpoint
  deriving DecidableEq, Repr

structure QueueItem where
  id : String
  text : String
  status : QueueStatus
  createdRevision : UInt64
  updatedRevision : UInt64
  note : String
  deriving DecidableEq, Repr

structure DurableState where
  revision : UInt64 := 0
  nextRunId : UInt64 := 0
  nextQueueId : UInt64 := 0
  workflow : Option Workflow := none
  run : Option RunCheckpoint := none
  queue : List QueueItem := []
  deriving DecidableEq, Repr

/-- `DurableState::default()`. -/
def DurableState.default : DurableState := {}

/-! ### Derived encoders -/

def Step.encode (s : Step) : Value :=
  .object ([("id", .string s.id), ("title", .string s.title),
    ("status", .string s.status.name)] ++ skipNone "note" .string s.note)

def Workflow.encode (w : Workflow) : Value :=
  .object ([("name", .string w.name), ("status", .string w.status.asStr),
    ("steps", .array (w.steps.map Step.encode))] ++ skipNone "reason" .string w.reason)

def ToolCheckpoint.encode (t : ToolCheckpoint) : Value :=
  .object ([("callId", .string t.callId)] ++ skipNone "callKey" .string t.callKey
    ++ [("name", .string t.name)] ++ skipEmpty "params" t.params
    ++ [("status", .string t.status.asStr)] ++ skipEmpty "result" t.result)

def RunCheckpoint.encode (r : RunCheckpoint) : Value :=
  .object ([("id", .string r.id), ("status", .string r.status.asStr),
    ("startedRevision", number r.startedRevision), ("updatedRevision", number r.updatedRevision)]
    ++ skipEmpty "outcome" r.outcome ++ skipEmpty "recoveryOf" r.recoveryOf
    ++ [("tools", .array (r.tools.map ToolCheckpoint.encode))])

def QueueItem.encode (i : QueueItem) : Value :=
  .object ([("id", .string i.id), ("text", .string i.text), ("status", .string i.status.asStr),
    ("createdRevision", number i.createdRevision), ("updatedRevision", number i.updatedRevision)]
    ++ skipEmpty "note" i.note)

def DurableState.encode (s : DurableState) : Value :=
  .object ([("revision", number s.revision), ("nextRunId", number s.nextRunId),
    ("nextQueueId", number s.nextQueueId)] ++ skipNone "workflow" Workflow.encode s.workflow
    ++ skipNone "run" RunCheckpoint.encode s.run
    ++ [("queue", .array (s.queue.map QueueItem.encode))])

/-! ### Derived decoders -/

def WorkflowStatus.decode : Decoder WorkflowStatus :=
  unitEnum [("running", .running), ("paused", .paused), ("completed", .completed),
    ("failed", .failed)]

def StepStatus.decode : Decoder StepStatus :=
  unitEnum [("pending", .pending), ("in_progress", .inProgress), ("completed", .completed)]

def RunStatus.decode : Decoder RunStatus :=
  unitEnum [("queued", .queued), ("running", .running), ("settled", .settled),
    ("failed", .failed), ("interrupted", .interrupted)]

def ToolStatus.decode : Decoder ToolStatus :=
  unitEnum [("started", .started), ("completed", .completed), ("failed", .failed),
    ("interrupted", .interrupted), ("unknown", .unknown)]

def QueueStatus.decode : Decoder QueueStatus :=
  unitEnum [("queued", .queued), ("claimed", .claimed), ("completed", .completed),
    ("failed", .failed), ("cancelled", .cancelled)]

def Step.decode : Decoder Step := fun src v => do
  let f ← structFields ["id", "title", "status", "note"] false v
  return {
    id := ← f.required src "id" string
    title := ← f.required src "title" string
    status := ← f.required src "status" StepStatus.decode
    note := ← f.defaulted src "note" none (option string) }

def Workflow.decode : Decoder Workflow := fun src v => do
  let f ← structFields ["name", "status", "steps", "reason"] false v
  return {
    name := ← f.required src "name" string
    status := ← f.required src "status" WorkflowStatus.decode
    steps := ← f.required src "steps" (vec Step.decode)
    reason := ← f.defaulted src "reason" none (option string) }

def ToolCheckpoint.decode : Decoder ToolCheckpoint := fun src v => do
  let f ← structFields ["callId", "callKey", "name", "params", "status", "result"] false v
  return {
    callId := ← f.required src "callId" string
    callKey := ← f.defaulted src "callKey" none (option string)
    name := ← f.required src "name" string
    params := ← f.defaulted src "params" "" string
    status := ← f.required src "status" ToolStatus.decode
    result := ← f.defaulted src "result" "" string }

def RunCheckpoint.decode : Decoder RunCheckpoint := fun src v => do
  let f ← structFields ["id", "status", "startedRevision", "updatedRevision", "outcome",
    "recoveryOf", "tools"] false v
  return {
    id := ← f.required src "id" string
    status := ← f.required src "status" RunStatus.decode
    startedRevision := ← f.defaulted src "startedRevision" 0 u64
    updatedRevision := ← f.defaulted src "updatedRevision" 0 u64
    outcome := ← f.defaulted src "outcome" "" string
    recoveryOf := ← f.defaulted src "recoveryOf" "" string
    tools := ← f.defaulted src "tools" [] (vec ToolCheckpoint.decode) }

def QueueItem.decode : Decoder QueueItem := fun src v => do
  let f ← structFields ["id", "text", "status", "createdRevision", "updatedRevision", "note"]
    false v
  return {
    id := ← f.required src "id" string
    text := ← f.required src "text" string
    status := ← f.required src "status" QueueStatus.decode
    createdRevision := ← f.defaulted src "createdRevision" 0 u64
    updatedRevision := ← f.defaulted src "updatedRevision" 0 u64
    note := ← f.defaulted src "note" "" string }

def DurableState.decode : Decoder DurableState := fun src v => do
  let f ← structFields ["revision", "nextRunId", "nextQueueId", "workflow", "run", "queue"] false v
  return {
    revision := ← f.defaulted src "revision" 0 u64
    nextRunId := ← f.defaulted src "nextRunId" 0 u64
    nextQueueId := ← f.defaulted src "nextQueueId" 0 u64
    workflow := ← f.defaulted src "workflow" none (option Workflow.decode)
    run := ← f.defaulted src "run" none (option RunCheckpoint.decode)
    queue := ← f.defaulted src "queue" [] (vec QueueItem.decode) }

/-! ### Every value reads back as it was written -/

variable (src : Source)

@[simp] lemma WorkflowStatus.decode_asStr (s : WorkflowStatus) :
    WorkflowStatus.decode src (.string s.asStr) = .ok s := by
  cases s <;> simp [WorkflowStatus.decode, WorkflowStatus.asStr, unitEnum, List.lookup_cons]

@[simp] lemma StepStatus.decode_name (s : StepStatus) :
    StepStatus.decode src (.string s.name) = .ok s := by
  cases s <;> simp [StepStatus.decode, StepStatus.name, unitEnum, List.lookup_cons]

@[simp] lemma RunStatus.decode_asStr (s : RunStatus) :
    RunStatus.decode src (.string s.asStr) = .ok s := by
  cases s <;> simp [RunStatus.decode, RunStatus.asStr, unitEnum, List.lookup_cons]

@[simp] lemma ToolStatus.decode_asStr (s : ToolStatus) :
    ToolStatus.decode src (.string s.asStr) = .ok s := by
  cases s <;> simp [ToolStatus.decode, ToolStatus.asStr, unitEnum, List.lookup_cons]

@[simp] lemma QueueStatus.decode_asStr (s : QueueStatus) :
    QueueStatus.decode src (.string s.asStr) = .ok s := by
  cases s <;> simp [QueueStatus.decode, QueueStatus.asStr, unitEnum, List.lookup_cons]

lemma Step.decode_encode (s : Step) : Step.decode src s.encode = .ok s := by
  obtain ⟨id, title, status, note⟩ := s
  cases note <;>
    simp [Step.decode, Step.encode, Fields.required, Fields.defaulted, List.lookup_cons, option]

lemma Workflow.decode_encode (w : Workflow) : Workflow.decode src w.encode = .ok w := by
  obtain ⟨name, status, steps, reason⟩ := w
  have hsteps := vec_map (Step.decode_encode src) steps
  cases reason <;>
    simp [Workflow.decode, Workflow.encode, Fields.required, Fields.defaulted, List.lookup_cons,
      option, hsteps]

lemma ToolCheckpoint.decode_encode (t : ToolCheckpoint) :
    ToolCheckpoint.decode src t.encode = .ok t := by
  obtain ⟨callId, callKey, name, params, status, result⟩ := t
  cases callKey <;> by_cases hp : params = "" <;> by_cases hr : result = "" <;>
    simp [ToolCheckpoint.decode, ToolCheckpoint.encode, Fields.required, Fields.defaulted,
      List.lookup_cons, List.lookup_append, option, hp, hr]

lemma RunCheckpoint.decode_encode (r : RunCheckpoint) :
    RunCheckpoint.decode src r.encode = .ok r := by
  obtain ⟨id, status, startedRevision, updatedRevision, outcome, recoveryOf, tools⟩ := r
  have htools := vec_map (ToolCheckpoint.decode_encode src) tools
  by_cases ho : outcome = "" <;> by_cases hr : recoveryOf = "" <;>
    simp [RunCheckpoint.decode, RunCheckpoint.encode, Fields.required, Fields.defaulted,
      List.lookup_cons, List.lookup_append, ho, hr, htools]

lemma QueueItem.decode_encode (i : QueueItem) : QueueItem.decode src i.encode = .ok i := by
  obtain ⟨id, text, status, createdRevision, updatedRevision, note⟩ := i
  by_cases hn : note = "" <;>
    simp [QueueItem.decode, QueueItem.encode, Fields.required, Fields.defaulted,
      List.lookup_cons, hn]

@[simp] lemma Workflow.option_decode_nullable (w : Option Workflow) :
    option Workflow.decode src (nullable Workflow.encode w) = .ok w :=
  option_nullable (fun _ => Value.noConfusion) (Workflow.decode_encode src) w

@[simp] lemma RunCheckpoint.option_decode_nullable (r : Option RunCheckpoint) :
    option RunCheckpoint.decode src (nullable RunCheckpoint.encode r) = .ok r :=
  option_nullable (fun _ => Value.noConfusion) (RunCheckpoint.decode_encode src) r

lemma DurableState.decode_encode (s : DurableState) :
    DurableState.decode src s.encode = .ok s := by
  obtain ⟨revision, nextRunId, nextQueueId, workflow, run, queue⟩ := s
  have hworkflow := Workflow.option_decode_nullable src workflow
  have hrun := RunCheckpoint.option_decode_nullable src run
  have hqueue := vec_map (QueueItem.decode_encode src) queue
  cases workflow <;> cases run <;>
    simp only [nullable] at hworkflow hrun <;>
    simp [DurableState.decode, DurableState.encode, Fields.defaulted, List.lookup_cons,
      List.lookup_append, hworkflow, hrun, hqueue]

@[simp] lemma DurableState.option_decode_nullable (s : Option DurableState) :
    option DurableState.decode src (nullable DurableState.encode s) = .ok s :=
  option_nullable (fun _ => Value.noConfusion) (DurableState.decode_encode src) s

end Durable
