import RpiPackage.Durable.State

/-!
# Journal records

The records of the durable journal with their derived encoders and decoders. Both crates declare
the same changes and the same fields; they differ in the type of a record's kind.
-/

namespace Durable

open Json Serde

inductive JournalKind where
  | snapshot
  | delta
  deriving DecidableEq, Repr

inductive JournalChange where
  | setWorkflow (workflow : Option Workflow)
  | updateStep (stepId : String) (status : StepStatus) (note : Option String)
  | setWorkflowMeta (name : String) (status : WorkflowStatus) (reason : Option String)
  | setCounters (nextRunId nextQueueId : UInt64)
  | setRun (run : Option RunCheckpoint)
  | setRunMeta (id : String) (status : RunStatus) (startedRevision updatedRevision : UInt64)
      (outcome recoveryOf : String)
  | appendTool (tool : ToolCheckpoint)
  | updateTool (callId : String) (callKey : Option String) (status : ToolStatus) (result : String)
  | setTools (tools : List ToolCheckpoint)
  | appendQueue (item : QueueItem)
  | updateQueue (item : QueueItem)
  | setQueue (queue : List QueueItem)
  deriving DecidableEq, Repr

/-- A journal record. The writer and the reader of `rpi-durable` hold its kind as an enum, the
reader of `rpi-durable-core` as the string it was written as. -/
structure JournalRecord (κ : Type) where
  format : String
  version : UInt64
  kind : κ
  baseRevision : UInt64
  revision : UInt64
  baseEntryId : Option String
  state : Option DurableState
  changes : Option (List JournalChange)
  deriving DecidableEq, Repr

/-! ### Derived encoders and decoders -/

def JournalKind.name : JournalKind → String
  | .snapshot => "snapshot"
  | .delta => "delta"

def JournalKind.decode : Decoder JournalKind :=
  unitEnum [("snapshot", .snapshot), ("delta", .delta)]

def JournalChange.encode : JournalChange → Value
  | .setWorkflow workflow =>
    .object [("op", .string "setWorkflow"), ("workflow", nullable Workflow.encode workflow)]
  | .updateStep stepId status note =>
    .object [("op", .string "updateStep"), ("step_id", .string stepId),
      ("status", .string status.name), ("note", nullable .string note)]
  | .setWorkflowMeta name status reason =>
    .object [("op", .string "setWorkflowMeta"), ("name", .string name),
      ("status", .string status.asStr), ("reason", nullable .string reason)]
  | .setCounters nextRunId nextQueueId =>
    .object [("op", .string "setCounters"), ("next_run_id", number nextRunId),
      ("next_queue_id", number nextQueueId)]
  | .setRun run =>
    .object [("op", .string "setRun"), ("run", nullable RunCheckpoint.encode run)]
  | .setRunMeta id status startedRevision updatedRevision outcome recoveryOf =>
    .object [("op", .string "setRunMeta"), ("id", .string id), ("status", .string status.asStr),
      ("started_revision", number startedRevision), ("updated_revision", number updatedRevision),
      ("outcome", .string outcome), ("recovery_of", .string recoveryOf)]
  | .appendTool tool => .object [("op", .string "appendTool"), ("tool", tool.encode)]
  | .updateTool callId callKey status result =>
    .object [("op", .string "updateTool"), ("call_id", .string callId),
      ("call_key", nullable .string callKey), ("status", .string status.asStr),
      ("result", .string result)]
  | .setTools tools =>
    .object [("op", .string "setTools"), ("tools", .array (tools.map ToolCheckpoint.encode))]
  | .appendQueue item => .object [("op", .string "appendQueue"), ("item", item.encode)]
  | .updateQueue item => .object [("op", .string "updateQueue"), ("item", item.encode)]
  | .setQueue queue =>
    .object [("op", .string "setQueue"), ("queue", .array (queue.map QueueItem.encode))]

/-- The change enum is internally tagged, so what follows the tag is read through buffered
content. Its variants rename neither their fields nor deny unknown ones. -/
def JournalChange.decode : Decoder JournalChange := fun _ v => do
  let (op, body) ← tagged "op" v
  let src := Source.content
  match op with
  | "setWorkflow" =>
    let f ← structFields ["workflow"] false body
    return .setWorkflow (← f.optional src "workflow" Workflow.decode)
  | "updateStep" =>
    let f ← structFields ["step_id", "status", "note"] false body
    return .updateStep (← f.required src "step_id" string)
      (← f.required src "status" StepStatus.decode) (← f.optional src "note" string)
  | "setWorkflowMeta" =>
    let f ← structFields ["name", "status", "reason"] false body
    return .setWorkflowMeta (← f.required src "name" string)
      (← f.required src "status" WorkflowStatus.decode) (← f.optional src "reason" string)
  | "setCounters" =>
    let f ← structFields ["next_run_id", "next_queue_id"] false body
    return .setCounters (← f.required src "next_run_id" u64) (← f.required src "next_queue_id" u64)
  | "setRun" =>
    let f ← structFields ["run"] false body
    return .setRun (← f.optional src "run" RunCheckpoint.decode)
  | "setRunMeta" =>
    let f ← structFields ["id", "status", "started_revision", "updated_revision", "outcome",
      "recovery_of"] false body
    return .setRunMeta (← f.required src "id" string) (← f.required src "status" RunStatus.decode)
      (← f.required src "started_revision" u64) (← f.required src "updated_revision" u64)
      (← f.required src "outcome" string) (← f.required src "recovery_of" string)
  | "appendTool" =>
    let f ← structFields ["tool"] false body
    return .appendTool (← f.required src "tool" ToolCheckpoint.decode)
  | "updateTool" =>
    let f ← structFields ["call_id", "call_key", "status", "result"] false body
    return .updateTool (← f.required src "call_id" string)
      (← f.defaulted src "call_key" none (option string))
      (← f.required src "status" ToolStatus.decode) (← f.required src "result" string)
  | "setTools" =>
    let f ← structFields ["tools"] false body
    return .setTools (← f.required src "tools" (vec ToolCheckpoint.decode))
  | "appendQueue" =>
    let f ← structFields ["item"] false body
    return .appendQueue (← f.required src "item" QueueItem.decode)
  | "updateQueue" =>
    let f ← structFields ["item"] false body
    return .updateQueue (← f.required src "item" QueueItem.decode)
  | "setQueue" =>
    let f ← structFields ["queue"] false body
    return .setQueue (← f.required src "queue" (vec QueueItem.decode))
  | op => throw ("unknown variant `" ++ op ++ "`")

/-- The derived decoder of a record, over the decoder of its kind. -/
def JournalRecord.decode {κ : Type} (kind : Decoder κ) : Decoder (JournalRecord κ) := fun src v => do
  let f ← structFields ["format", "version", "kind", "baseRevision", "revision", "baseEntryId",
    "state", "changes"] true v
  return {
    format := ← f.required src "format" string
    version := ← f.required src "version" u64
    kind := ← f.required src "kind" kind
    baseRevision := ← f.required src "baseRevision" u64
    revision := ← f.required src "revision" u64
    baseEntryId := ← f.defaulted src "baseEntryId" none (option string)
    state := ← f.defaulted src "state" none (option DurableState.decode)
    changes := ← f.defaulted src "changes" none (option (vec JournalChange.decode)) }

def JournalRecord.encode (r : JournalRecord JournalKind) : Value :=
  .object [("format", .string r.format), ("version", number r.version),
    ("kind", .string r.kind.name), ("baseRevision", number r.baseRevision),
    ("revision", number r.revision), ("baseEntryId", nullable .string r.baseEntryId),
    ("state", nullable DurableState.encode r.state),
    ("changes", nullable (fun cs => .array (cs.map JournalChange.encode)) r.changes)]

@[simp] lemma JournalKind.decode_name (src : Source) (k : JournalKind) :
    JournalKind.decode src (.string k.name) = .ok k := by
  cases k <;> simp [JournalKind.decode, JournalKind.name, unitEnum, List.lookup_cons]

lemma JournalChange.decode_encode (src : Source) (c : JournalChange) :
    JournalChange.decode src c.encode = .ok c := by
  have htools := vec_map (ToolCheckpoint.decode_encode .content)
  have hqueue := vec_map (QueueItem.decode_encode .content)
  cases c <;> rw [JournalChange.decode, JournalChange.encode, tagged_cons (by simp)] <;>
    simp [List.lookup_cons, Fields.required, Fields.optional, Fields.defaulted, htools, hqueue,
      ToolCheckpoint.decode_encode, QueueItem.decode_encode]

lemma JournalRecord.decode_encode (src : Source) (r : JournalRecord JournalKind) :
    JournalRecord.decode JournalKind.decode src r.encode = .ok r := by
  have hchanges : option (vec JournalChange.decode) src
      (nullable (fun cs => .array (cs.map JournalChange.encode)) r.changes) = .ok r.changes :=
    option_nullable (fun _ => Value.noConfusion) (vec_map (JournalChange.decode_encode src)) _
  rw [JournalRecord.decode, JournalRecord.encode, structFields_strict (by simp)]
  simp [List.lookup_cons, Fields.required, Fields.defaulted, hchanges]

end Durable
