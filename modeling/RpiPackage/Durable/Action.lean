import RpiPackage.Durable.Valid

/-!
# Durable transitions

The pure transitions of `rpi-durable`: the actions of the tool, the run and tool records of the
event handlers, and the repair of a restored state. None of them touches the host. The digest of a
long call id is a parameter.
-/

namespace Durable

open Json

/-! ### Parameters -/

def text (value : Option Value) (field : String) (maxChars : Nat) : Except String String :=
  match value.bind Value.asStr with
  | none => .error (field ++ " is required")
  | some value =>
    if Rust.trim value = "" then .error (field ++ " must not be empty")
    else if maxChars < (Rust.trim value).length then
      .error (field ++ " exceeds " ++ toString maxChars ++ " characters")
    else .ok (Rust.trim value)

def optionalText (value : Option Value) (field : String) (maxChars : Nat) :
    Except String (Option String) :=
  match value with
  | none => .ok none
  | some .null => .ok none
  | some value => some <$> text (some value) field maxChars

/-- A string parameter that is neither trimmed nor bounded. -/
def strParam (params : Value) (field : String) : Option String :=
  (params.get field).bind Value.asStr

def parseStepValues : List Value → List Step → Except String (List Step)
  | [], steps => .ok steps
  | value :: values, steps => do
    let id ← text (value.get "id") "step id" maxStepIdChars
    let title ← text (value.get "title") "step title" maxStepTitleChars
    if steps.any fun step => step.id == id then throw ("duplicate step id: " ++ id)
    parseStepValues values (steps ++ [⟨id, title, .pending, none⟩])

def parseSteps (value : Option Value) : Except String (List Step) :=
  match value.bind Value.asArray with
  | none => .error "steps is required and must be an array"
  | some values =>
    if values.isEmpty then .error "steps must contain at least one item"
    else if maxSteps < values.length then
      .error ("steps cannot contain more than " ++ toString maxSteps ++ " items")
    else parseStepValues values []

/-! ### Workflow actions -/

/-- `workflow_mut` followed by an update that may be refused. -/
def workflowMut (state : DurableState) (f : Workflow → Except String Workflow) :
    Except String DurableState :=
  match state.workflow with
  | none => .error "no durable workflow is active; call durable with action start"
  | some workflow => do
    let workflow ← f workflow
    .ok { state with workflow := some workflow }

def requireRunning (workflow : Workflow) : Except String Unit :=
  if workflow.status ≠ .running then
    .error ("workflow is " ++ workflow.status.asStr
      ++ "; only a running workflow can be checkpointed")
  else .ok ()

def startWorkflow (next : DurableState) (params : Value) : Except String DurableState := do
  let name ← text (params.get "name") "name" maxNameChars
  let steps ← parseSteps (params.get "steps")
  .ok { next with workflow := some ⟨name, .running, steps, none⟩ }

def stepStatusParam (params : Value) : Except String StepStatus :=
  match (strParam params "status").getD "in_progress" with
  | "pending" => .ok .pending
  | "in_progress" => .ok .inProgress
  | "completed" => .ok .completed
  | _ => .error "status must be pending, in_progress, or completed"

def checkpoint (next : DurableState) (params : Value) : Except String DurableState := do
  let stepId ← text (params.get "step") "step" maxStepIdChars
  let status ← stepStatusParam params
  let note ← optionalText (params.get "note") "note" maxNoteChars
  workflowMut next fun workflow => do
    requireRunning workflow
    let steps ← Rust.updateFirst (fun step => step.id == stepId)
      (fun step => .ok { step with status, note := note.or step.note })
      ("step not found: " ++ stepId) workflow.steps
    .ok { workflow with steps }

def pause (next : DurableState) (params : Value) : Except String DurableState := do
  let reason ← optionalText (params.get "reason") "reason" maxNoteChars
  workflowMut next fun workflow =>
    if workflow.status ≠ .running then
      .error ("workflow is " ++ workflow.status.asStr ++ "; only a running workflow can be paused")
    else .ok { workflow with status := .paused, reason }

def resume (next : DurableState) : Except String DurableState :=
  workflowMut next fun workflow =>
    if workflow.status ≠ .paused then
      .error ("workflow is " ++ workflow.status.asStr ++ "; only a paused workflow can be resumed")
    else .ok { workflow with status := .running, reason := none }

def complete (next : DurableState) : Except String DurableState :=
  workflowMut next fun workflow => do
    requireRunning workflow
    if workflow.steps.any fun step => step.status != .completed then
      throw "all steps must be completed before completing the workflow"
    .ok { workflow with status := .completed, reason := none }

def failWorkflow (next : DurableState) (params : Value) : Except String DurableState := do
  let reason ← optionalText (params.get "reason") "reason" maxNoteChars
  workflowMut next fun workflow =>
    if workflow.status ≠ .running ∧ workflow.status ≠ .paused then
      .error ("workflow is " ++ workflow.status.asStr
        ++ "; only a running or paused workflow can fail")
    else
      .ok { workflow with status := .failed, reason := reason.or (some "workflow marked as failed") }

/-! ### Run actions -/

/-- The next run, and the state with its counter advanced. -/
def allocateRun (next : DurableState) (status : RunStatus) (recoveryOf : String) :
    DurableState × RunCheckpoint :=
  let nextRunId := Rust.saturatingSucc next.nextRunId
  ({ next with nextRunId },
    { id := "run-" ++ toString nextRunId.toNat
      status
      startedRevision := Rust.saturatingSucc next.revision
      updatedRevision := Rust.saturatingSucc next.revision
      outcome := ""
      recoveryOf
      tools := [] })

def startRun (next : DurableState) : DurableState :=
  let unfinished := next.run.filter fun run => run.status == .queued || run.status == .running
  let (next, run) := allocateRun next .running ((unfinished.map RunCheckpoint.id).getD "")
  { next with run := some run }

def recoverRun (next : DurableState) : Except String DurableState :=
  match next.run with
  | none => .error "no durable run is available to recover"
  | some previous =>
    if previous.status ≠ .interrupted then
      .error ("run is " ++ previous.status.asStr ++ "; only an interrupted run can be recovered")
    else
      let (next, run) := allocateRun next .queued previous.id
      .ok { next with run := some { run with tools := previous.tools } }

def forgetRun (next : DurableState) : Except String DurableState :=
  if next.run.isNone then .error "no durable run is recorded" else .ok { next with run := none }

/-- A started tool call given up with a result of its own. -/
def ToolCheckpoint.interrupt (result : String) (tool : ToolCheckpoint) : ToolCheckpoint :=
  if tool.status = .started then { tool with status := .interrupted, result } else tool

def settleRun (next : DurableState) : DurableState :=
  match next.run with
  | some run =>
    if run.status = .running then
      let tools := run.tools.map (ToolCheckpoint.interrupt "run settled without a durable tool result")
      { next with run := some { run with status := .settled, outcome := "settled", tools } }
    else next
  | none => next

/-- A started tool call of a run that was cut off; a partial result is kept. -/
def ToolCheckpoint.markInterrupted (tool : ToolCheckpoint) : ToolCheckpoint :=
  tool.interrupt
    (if tool.result = "" then "execution did not reach a durable result" else tool.result)

def markInterrupted (next : DurableState) : DurableState :=
  match next.run with
  | some run =>
    if run.status = .running then
      let tools := run.tools.map ToolCheckpoint.markInterrupted
      { next with run := some { run with status := .interrupted, outcome := "interrupted", tools } }
    else next
  | none => next

/-! ### Queue actions -/

def queueItemId (params : Value) : Except String String :=
  text (params.get "item") "item" maxStepIdChars

/-- The id the next enqueued item gets. -/
def nextItemId (state : DurableState) : String :=
  "item-" ++ toString (Rust.saturatingSucc state.nextQueueId).toNat

def enqueueItem (next : DurableState) (params : Value) : Except String DurableState := do
  if maxQueueItems ≤ next.queue.length then
    throw ("queue cannot contain more than " ++ toString maxQueueItems ++ " items")
  let itemText ← text (params.get "text") "text" maxQueueTextChars
  let revision := Rust.saturatingSucc next.revision
  .ok { next with
    nextQueueId := Rust.saturatingSucc next.nextQueueId
    queue := next.queue ++ [⟨nextItemId next, itemText, .queued, revision, revision, ""⟩] }

/-- `iter_mut().find` for a queue item, followed by an update that may be refused. -/
def updateItem (next : DurableState) (id : String) (f : QueueItem → Except String QueueItem) :
    Except String DurableState := do
  let queue ← Rust.updateFirst (fun item => item.id == id) f ("queue item not found: " ++ id)
    next.queue
  .ok { next with queue }

def claimItem (next : DurableState) (params : Value) : Except String DurableState := do
  let id ← queueItemId params
  updateItem next id fun item =>
    if item.status ≠ .queued then
      .error ("queue item " ++ id ++ " is " ++ item.status.asStr
        ++ "; only a queued item can be claimed")
    else
      .ok { item with status := .claimed, updatedRevision := Rust.saturatingSucc next.revision }

def finishStatus (params : Value) : Except String QueueStatus :=
  match strParam params "status" with
  | some "completed" => .ok .completed
  | some "failed" => .ok .failed
  | _ => .error "status must be completed or failed for queue finish"

def finishItem (next : DurableState) (params : Value) : Except String DurableState := do
  let id ← queueItemId params
  let status ← finishStatus params
  let note ← optionalText (params.get "note") "note" maxNoteChars
  updateItem next id fun item =>
    if item.status ≠ .claimed then
      .error ("queue item " ++ id ++ " is " ++ item.status.asStr
        ++ "; only a claimed item can be finished")
    else
      .ok { item with
        status, updatedRevision := Rust.saturatingSucc next.revision, note := note.getD "" }

def cancelItem (next : DurableState) (params : Value) : Except String DurableState := do
  let id ← queueItemId params
  let note ← optionalText (params.get "note") "note" maxNoteChars
  updateItem next id fun item =>
    if item.status ≠ .queued ∧ item.status ≠ .claimed then
      .error ("queue item " ++ id ++ " is " ++ item.status.asStr
        ++ "; only a queued or claimed item can be cancelled")
    else
      .ok { item with
        status := .cancelled
        updatedRevision := Rust.saturatingSucc next.revision
        note := note.getD "cancelled" }

/-! ### The tool action -/

def actionParam (params : Value) : String := (strParam params "action").getD "status"

def applyAction (current : DurableState) (params : Value) : Except String DurableState :=
  match actionParam params with
  | "status" => .ok current
  | "start_run" => .ok (startRun current)
  | "settle_run" => .ok (settleRun current)
  | "recover_run" => recoverRun current
  | "start" => startWorkflow current params
  | "checkpoint" => checkpoint current params
  | "pause" => pause current params
  | "resume" => resume current
  | "complete" => complete current
  | "fail" => failWorkflow current params
  | "reset" => .ok { current with workflow := none }
  | "recover" => recoverRun current
  | "forget_run" => forgetRun current
  | "enqueue" => enqueueItem current params
  | "claim" => claimItem current params
  | "finish" => finishItem current params
  | "cancel" => cancelItem current params
  | "queue" => .ok current
  | _ =>
    .error ("action must be one of: status, start, checkpoint, pause, resume, complete, fail, "
      ++ "reset, recover, forget_run, enqueue, queue, claim, finish, cancel")

/-! ### Tool records -/

def hexByte (b : UInt8) : List Char :=
  [Value.hexDigit (b.toNat / 16), Value.hexDigit (b.toNat % 16)]

/-- A call id cut to `maxSummaryChars` characters that ends in a digest of the whole id. -/
def digestedId (value digestHex : String) : String :=
  let suffix := "…" ++ digestHex
  Rust.takeChars value (maxSummaryChars - suffix.length) ++ suffix

/-- `summary`: a bounded text, marked where it was cut. -/
def summary (value : String) : String :=
  if maxSummaryChars < value.length then Rust.takeChars value maxSummaryChars ++ "…"
  else Rust.takeChars value maxSummaryChars

def fnvHash (value : String) : UInt64 :=
  value.toUTF8.toList.foldl (fun hash byte => (hash ^^^ byte.toUInt64) * 0x100000001b3)
    0xcbf29ce484222325

def hex16 (n : UInt64) : String :=
  String.ofList ((List.range 16).map fun i => Value.hexDigit (n.toNat / 16 ^ (15 - i) % 16))

def legacyHashedToolId (value : String) : Option String :=
  if value.length ≤ maxSummaryChars then none
  else some (digestedId value (hex16 (fnvHash value)))

def legacyToolCallId (value : String) : Bool :=
  value.length == maxSummaryChars + 1 && value.toList.getLast? == some '…'

def isAsciiHexdigit (c : Char) : Bool :=
  ('0' ≤ c && c ≤ '9') || ('a' ≤ c && c ≤ 'f') || ('A' ≤ c && c ≤ 'F')

def looksLikeGeneratedToolId (value : String) : Bool :=
  let chars := value.toList
  chars.length == maxSummaryChars && [64, 16].any fun hashChars =>
    chars[maxSummaryChars - (hashChars + 1)]? == some '…'
      && (chars.drop (maxSummaryChars - hashChars)).all isAsciiHexdigit

/-- The mark `restore_state_inner` puts on a call whose identity was truncated. -/
def ToolCheckpoint.markUnresolvable (tool : ToolCheckpoint) : ToolCheckpoint :=
  if legacyToolCallId tool.callId = true ∧ tool.status = .started then
    { tool with
      status := .unknown
      result :=
        if tool.result = "" then "tool identity was truncated before durable identity migration"
        else tool.result }
  else tool

def markUnresolvableLegacyTools (next : DurableState) : DurableState :=
  { next with
    run := next.run.map fun run =>
      { run with tools := run.tools.map ToolCheckpoint.markUnresolvable } }

section Digest

variable (sha256 : List UInt8 → Vector UInt8 32)

def toolCallId (value : String) : String :=
  if value.length ≤ maxSummaryChars then value
  else digestedId value (String.ofList ((sha256 value.toUTF8.toList).toList.flatMap hexByte))

def toolCallKey (value : String) : String :=
  if value.length ≤ maxSummaryChars then "raw:" ++ value else "hash:" ++ toolCallId sha256 value

def legacyToolMatches (tool : ToolCheckpoint) (callId stableId : String) : Bool :=
  if tool.callKey.isSome then false
  else if callId.length ≤ maxSummaryChars then
    tool.callId == callId && !looksLikeGeneratedToolId tool.callId
  else tool.callId == stableId || legacyHashedToolId callId == some tool.callId

def toolMatches (tool : ToolCheckpoint) (callId stableId key : String) : Bool :=
  tool.callKey == some key || legacyToolMatches tool callId stableId

def recordToolStart (next : DurableState) (callId name params : String) : DurableState :=
  match next.run with
  | none => next
  | some run =>
    let stableId := toolCallId sha256 callId
    let key := toolCallKey sha256 callId
    if run.tools.any fun tool =>
        toolMatches tool callId stableId key && tool.status != .unknown then
      next
    else
      let tool := ⟨stableId, some key, summary name, summary params, .started, ""⟩
      { next with run := some { run with tools := newestTools (run.tools ++ [tool]) } }

def recordToolEnd (next : DurableState) (callId name result : String) (isError : Bool) :
    DurableState :=
  match next.run with
  | none => next
  | some run =>
    let stableId := toolCallId sha256 callId
    let key := toolCallKey sha256 callId
    let matching := fun tool => toolMatches tool callId stableId key
    if run.tools.countP matching = 1 then
      let tools := run.tools.map fun tool =>
        if matching tool && tool.status == .started then
          { tool with
            status := if isError then .failed else .completed, result := summary result }
        else tool
      { next with run := some { run with tools } }
    else
      -- colliding truncated ids: the result is kept as an entry of its own
      let tool := ⟨stableId, some key, summary name, "", .unknown, summary result⟩
      { next with run := some { run with tools := newestTools (run.tools ++ [tool]) } }

/-- Every change of the durable state that a handler of the plugin makes. -/
inductive Transition where
  | action (params : Value)
  | startRun
  | recordToolStart (callId name params : String)
  | recordToolEnd (callId name result : String) (isError : Bool)
  | markInterrupted
  | settle

def Transition.apply (current : DurableState) : Transition → Except String DurableState
  | .action params => applyAction current params
  | .startRun => .ok (Durable.startRun current)
  | .recordToolStart callId name params =>
    .ok (Durable.recordToolStart sha256 current callId name params)
  | .recordToolEnd callId name result isError =>
    .ok (Durable.recordToolEnd sha256 current callId name result isError)
  | .markInterrupted => .ok (Durable.markInterrupted current)
  | .settle => .ok (settleRun current)

end Digest

end Durable
