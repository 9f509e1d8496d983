import RpiPackage.Durable.RoundTrip

/-!
# The reader of `rpi-durable-core`

The shared crate reads the same journal with a decoder of its own: it holds a record's kind as a
string, checks a record in another order, words some bounds differently, and applies a delta
without building a record of the result.
-/

namespace Durable

namespace Core

open Json Serde

def validateWorkflow (workflow : Workflow) : Except String Unit :=
  if Rust.trim workflow.name == "" || longerThan 500 workflow.name || workflow.steps.isEmpty
      || decide (128 < workflow.steps.length) then
    .error "durable journal workflow exceeds its bounds"
  else if workflow.steps.any Step.outOfBounds || Rust.hasDuplicate Step.id workflow.steps then
    .error "durable journal contains an invalid or duplicate workflow step"
  else .ok ()

def validateRun (run : RunCheckpoint) : Except String Unit :=
  if Rust.trim run.id == "" || longerThan 128 run.id
      || decide (maxToolEntries < run.tools.length) then
    .error "durable journal contains an invalid run or too many tool entries"
  else if run.tools.any ToolCheckpoint.outOfBounds then
    .error "durable journal contains an oversized tool summary"
  else .ok ()

def validateQueue (queue : List QueueItem) : Except String Unit :=
  if maxQueueItems < queue.length then .error "durable journal contains an invalid queue"
  else if queue.any QueueItem.outOfBounds || Rust.hasDuplicate QueueItem.id queue then
    .error "durable journal contains an invalid or duplicate queue item"
  else .ok ()

def validateState (state : DurableState) : Except String Unit := do
  if let some workflow := state.workflow then validateWorkflow workflow
  if let some run := state.run then validateRun run
  validateQueue state.queue

def applyChange : DurableState → JournalChange → Except String DurableState :=
  applyChangeWith validateState

def checkSnapshot (record : JournalRecord String) : Except String Unit :=
  if record.changes.isSome then .error "durable snapshot must contain only a complete state"
  else
    match record.state with
    | none => .error "durable snapshot has no state"
    | some state =>
      if state.revision ≠ record.revision then
        .error "durable snapshot state has the wrong revision"
      else validateState state

def checkDelta (record : JournalRecord String) : Except String Unit :=
  if record.state.isSome || record.changes.all List.isEmpty then
    .error "durable delta must contain non-empty changes only"
  else .ok ()

def checkKind (record : JournalRecord String) : Except String Unit :=
  match record.kind with
  | "snapshot" => checkSnapshot record
  | "delta" => checkDelta record
  | kind => .error ("unsupported durable journal kind: " ++ kind)

def parseRecord (id : String) (data : Value) : Except String (BranchRecord String) := do
  let record ← (JournalRecord.decode string .value data).mapError
    ("invalid durable journal record: " ++ ·)
  if unsupportedFormat record then throw "unsupported durable journal format or version"
  if record.revision < record.baseRevision then throw "durable journal revision moves backwards"
  checkKind record
  .ok ⟨record, id⟩

def isSnapshot (r : BranchRecord String) : Bool := r.record.kind == "snapshot"

/-- One delta of the suffix, on the state and the anchor before it. -/
def replayDelta (r : DurableState × String) (branch : BranchRecord String) :
    Except String (DurableState × String) := do
  let record := branch.record
  if record.baseRevision ≠ r.1.revision || record.baseEntryId ≠ some r.2 then
    throw "durable journal delta has a gap or wrong branch anchor"
  match Rust.checkedSucc r.1.revision with
  | none => throw "durable revision overflow"
  | some revision =>
    if record.revision ≠ revision then
      throw "durable journal delta has a non-contiguous revision"
  match record.changes with
  | none => .error "durable delta has no changes"
  | some changes => do
    let state ← changes.foldlM applyChange r.1
    let state := { state with revision := record.revision }
    validateState state
    .ok (state, branch.entryId)

def replayRecords : List (BranchRecord String) → Except String (Option DurableState)
  | [] => .ok none
  | base :: rest =>
    if base.record.kind ≠ "snapshot" then
      .error "durable journal has no self-contained snapshot base"
    else
      match base.record.state with
      | none => .error "durable snapshot has no state"
      | some state => do
        let r ← rest.foldlM replayDelta (state, base.entryId)
        .ok (some r.1)

def replayEntries (entries : List Value) : Except String (Option Value) := do
  let log ← parseEntries parseRecord entries
  let (records, invalid) := AnchoredLog.splitIndexed 0 log
  let records ← AnchoredLog.selectIndexed isSnapshot records invalid
  let state ← replayRecords (records.map Prod.snd)
  .ok (state.map DurableState.encode)

def decodeState : Option Value → Except String DurableState
  | none => .ok .default
  | some value => (DurableState.decode .value value).mapError ("decode durable state: " ++ ·)

/-- `DurableState::try_from_branch`. -/
def tryFromBranch (entries : List Value) : Except String DurableState :=
  replayEntries entries >>= decodeState

/-! ### Reading as a replay of the selected records -/

lemma replayEntries_eq (entries : List Value) :
    replayEntries entries = parseEntries parseRecord entries >>= fun log =>
      AnchoredLog.select isSnapshot log >>= fun records =>
        Option.map DurableState.encode <$> replayRecords records := by
  unfold replayEntries
  refine congrArg _ (funext fun log => ?_)
  rw [← AnchoredLog.selectIndexed_eq_select isSnapshot 0 log]
  rcases AnchoredLog.splitIndexed 0 log with ⟨records, invalid⟩
  cases h : AnchoredLog.selectIndexed isSnapshot records invalid <;> simp [h]
  rfl

lemma tryFromBranch_eq_ok {entries : List Value} {state : DurableState} :
    tryFromBranch entries = .ok state ↔ ∃ log records, parseEntries parseRecord entries = .ok log ∧
      AnchoredLog.select isSnapshot log = .ok records ∧
        ∃ r, replayRecords records = .ok r ∧ r.getD .default = state := by
  have hdecode : ∀ r : Option DurableState,
      decodeState (r.map DurableState.encode) = .ok state ↔ r.getD .default = state := by
    intro r
    cases r with
    | none => simp [decodeState]
    | some s => simp [decodeState, DurableState.decode_encode]
  unfold tryFromBranch
  simp only [replayEntries_eq, Result.bind_eq_ok, Result.map_eq_ok]
  constructor
  · rintro ⟨_, ⟨log, hlog, records, hrecords, r, hr, rfl⟩, h⟩
    exact ⟨log, records, hlog, hrecords, r, hr, (hdecode r).mp h⟩
  · rintro ⟨log, records, hlog, hrecords, r, hr, h⟩
    exact ⟨_, ⟨log, hlog, records, hrecords, r, hr, rfl⟩, (hdecode r).mpr h⟩

/-! ### The bounds are the same -/

lemma validateWorkflow_eq_ok {workflow : Workflow} :
    validateWorkflow workflow = .ok () ↔ workflow.Valid := by
  simp only [validateWorkflow, Result.ite_error_eq_ok, Bool.or_eq_true, beq_iff_eq, not_or,
    List.isEmpty_iff, decide_eq_true_eq, Bool.not_eq_true, longerThan_eq_false, and_true,
    List.any_eq_false, Step.outOfBounds_eq_false, Rust.hasDuplicate_eq_false]
  constructor
  · rintro ⟨⟨⟨⟨h₁, h₂⟩, h₃⟩, h₄⟩, h₅, h₆⟩
    exact ⟨h₁, h₂, h₃, Nat.le_of_not_lt h₄, h₅, h₆⟩
  · rintro ⟨h₁, h₂, h₃, h₄, h₅, h₆⟩
    exact ⟨⟨⟨⟨h₁, h₂⟩, h₃⟩, Nat.not_lt_of_le h₄⟩, h₅, h₆⟩

lemma validateRun_eq_ok {run : RunCheckpoint} : validateRun run = .ok () ↔ run.Valid := by
  simp only [validateRun, Result.ite_error_eq_ok, Bool.or_eq_true, beq_iff_eq, not_or,
    decide_eq_true_eq, Bool.not_eq_true, longerThan_eq_false, and_true, List.any_eq_false,
    ToolCheckpoint.outOfBounds_eq_false]
  constructor
  · rintro ⟨⟨⟨h₁, h₂⟩, h₃⟩, h₄⟩
    exact ⟨h₁, h₂, Nat.le_of_not_lt h₃, h₄⟩
  · rintro ⟨h₁, h₂, h₃, h₄⟩
    exact ⟨⟨⟨h₁, h₂⟩, Nat.not_lt_of_le h₃⟩, h₄⟩

lemma validateQueue_eq_ok {queue : List QueueItem} :
    validateQueue queue = .ok () ↔ QueueValid queue := by
  simp only [validateQueue, Result.ite_error_eq_ok, Bool.or_eq_true, not_or, Bool.not_eq_true,
    and_true, List.any_eq_false, QueueItem.outOfBounds_eq_false, Rust.hasDuplicate_eq_false]
  constructor
  · rintro ⟨h₁, h₂, h₃⟩
    exact ⟨Nat.le_of_not_lt h₁, h₂, h₃⟩
  · rintro ⟨h₁, h₂, h₃⟩
    exact ⟨Nat.not_lt_of_le h₁, h₂, h₃⟩

/-- Both crates accept the same states. -/
theorem validateState_eq_ok {state : DurableState} :
    validateState state = .ok () ↔ state.Valid := by
  have hvalid : state.Valid ↔ (∀ w ∈ state.workflow, w.Valid) ∧ (∀ r ∈ state.run, r.Valid) ∧
      QueueValid state.queue :=
    ⟨fun h => ⟨h.workflow, h.run, h.queue⟩, fun h => ⟨h.1, h.2.1, h.2.2⟩⟩
  rw [hvalid, validateState]
  cases state.workflow <;> cases state.run <;>
    simp [Result.check_bind_eq_ok, validateWorkflow_eq_ok, validateRun_eq_ok, validateQueue_eq_ok]

end Core

end Durable
