import RpiPackage.Durable.Journal

/-!
# Valid states

The bounds `validate_state` checks, as a predicate on each part of a state. A part is valid or
not whatever the other parts hold, so a change to one part only has to keep that part valid.
-/

namespace Durable

/-! ### The parts -/

structure Step.Valid (step : Step) : Prop where
  id_ne : step.id ≠ ""
  id_le : step.id.length ≤ maxStepIdChars
  title_le : step.title.length ≤ maxStepTitleChars
  note_le : ∀ note ∈ step.note, note.length ≤ maxNoteChars

structure Workflow.Valid (workflow : Workflow) : Prop where
  name_ne : Rust.trim workflow.name ≠ ""
  name_le : workflow.name.length ≤ maxNameChars
  steps_ne : workflow.steps ≠ []
  steps_le : workflow.steps.length ≤ maxSteps
  steps_valid : ∀ step ∈ workflow.steps, step.Valid
  ids_nodup : (workflow.steps.map Step.id).Nodup

structure ToolCheckpoint.Valid (tool : ToolCheckpoint) : Prop where
  callId_le : tool.callId.length ≤ maxSummaryChars + 1
  callKey_ok : ∀ key ∈ tool.callKey, key ≠ "" ∧ key.length ≤ maxSummaryChars + 8
  name_le : tool.name.length ≤ maxSummaryChars + 1
  params_le : tool.params.length ≤ maxSummaryChars + 1
  result_le : tool.result.length ≤ maxSummaryChars + 1

structure RunCheckpoint.Valid (run : RunCheckpoint) : Prop where
  id_ne : Rust.trim run.id ≠ ""
  id_le : run.id.length ≤ maxStepIdChars
  tools_le : run.tools.length ≤ maxJournalEntries
  tools_valid : ∀ tool ∈ run.tools, tool.Valid

structure QueueItem.Valid (item : QueueItem) : Prop where
  id_ne : Rust.trim item.id ≠ ""
  id_le : item.id.length ≤ maxStepIdChars
  text_le : item.text.length ≤ maxQueueTextChars
  note_le : item.note.length ≤ maxNoteChars

structure QueueValid (queue : List QueueItem) : Prop where
  length_le : queue.length ≤ maxQueueItems
  items_valid : ∀ item ∈ queue, item.Valid
  ids_nodup : (queue.map QueueItem.id).Nodup

structure DurableState.Valid (state : DurableState) : Prop where
  workflow : ∀ w ∈ state.workflow, w.Valid
  run : ∀ r ∈ state.run, r.Valid
  queue : QueueValid state.queue

/-! ### The checks decide the bounds -/

lemma longerThan_eq_false {max : Nat} {s : String} : longerThan max s = false ↔ s.length ≤ max := by
  simp [longerThan]

lemma Step.outOfBounds_eq_false {step : Step} : step.outOfBounds = false ↔ step.Valid := by
  simp only [outOfBounds, Bool.or_eq_false_iff, beq_eq_false_iff_ne, longerThan_eq_false,
    Option.any_eq_false]
  exact ⟨fun ⟨⟨⟨h₁, h₂⟩, h₃⟩, h₄⟩ => ⟨h₁, h₂, h₃, h₄⟩, fun ⟨h₁, h₂, h₃, h₄⟩ => ⟨⟨⟨h₁, h₂⟩, h₃⟩, h₄⟩⟩

lemma ToolCheckpoint.outOfBounds_eq_false {tool : ToolCheckpoint} :
    tool.outOfBounds = false ↔ tool.Valid := by
  simp only [outOfBounds, Bool.or_eq_false_iff, beq_eq_false_iff_ne, longerThan_eq_false,
    Option.any_eq_false]
  exact ⟨fun ⟨⟨⟨⟨h₁, h₂⟩, h₃⟩, h₄⟩, h₅⟩ => ⟨h₁, h₂, h₃, h₄, h₅⟩,
    fun ⟨h₁, h₂, h₃, h₄, h₅⟩ => ⟨⟨⟨⟨h₁, h₂⟩, h₃⟩, h₄⟩, h₅⟩⟩

lemma QueueItem.outOfBounds_eq_false {item : QueueItem} :
    item.outOfBounds = false ↔ item.Valid := by
  simp only [outOfBounds, Bool.or_eq_false_iff, beq_eq_false_iff_ne, longerThan_eq_false]
  exact ⟨fun ⟨⟨⟨h₁, h₂⟩, h₃⟩, h₄⟩ => ⟨h₁, h₂, h₃, h₄⟩, fun ⟨h₁, h₂, h₃, h₄⟩ => ⟨⟨⟨h₁, h₂⟩, h₃⟩, h₄⟩⟩

/-- Steps without a repeated id have none repeated next to each other. -/
lemma adjacent_ids_differ {steps : List Step} (h : (steps.map Step.id).Nodup) :
    (steps.zip steps.tail).any (fun p => p.1.id == p.2.id) = false := by
  induction steps with
  | nil => rfl
  | cons s steps ih =>
    obtain ⟨hs, h⟩ := List.nodup_cons.mp h
    cases steps with
    | nil => rfl
    | cons t steps =>
      have hne : (s.id == t.id) = false := by
        apply beq_eq_false_iff_ne.mpr
        intro heq
        exact hs (by simp [heq])
      have hrest := ih h
      rw [List.tail_cons] at hrest ⊢
      simp [hne, hrest]

lemma validateWorkflow_eq_ok {workflow : Workflow} :
    validateWorkflow workflow = .ok () ↔ workflow.Valid := by
  simp only [validateWorkflow, Result.ite_error_eq_ok, Bool.or_eq_true, beq_iff_eq, not_or,
    List.isEmpty_iff, decide_eq_true_eq, Bool.not_eq_true, longerThan_eq_false, and_true,
    List.any_eq_false, Step.outOfBounds_eq_false, Rust.hasDuplicate_eq_false]
  constructor
  · rintro ⟨⟨⟨⟨h₁, h₂⟩, h₃⟩, h₄⟩, h₅, -, h₆⟩
    exact ⟨h₁, h₂, h₃, Nat.le_of_not_lt h₄, h₅, h₆⟩
  · rintro ⟨h₁, h₂, h₃, h₄, h₅, h₆⟩
    refine ⟨⟨⟨⟨h₁, h₂⟩, h₃⟩, Nat.not_lt_of_le h₄⟩, h₅, ?_, h₆⟩
    simpa using adjacent_ids_differ h₆

lemma validateRun_eq_ok {run : RunCheckpoint} : validateRun run = .ok () ↔ run.Valid := by
  simp only [validateRun, Result.ite_error_eq_ok, Bool.or_eq_true, beq_iff_eq, not_or,
    decide_eq_true_eq, Bool.not_eq_true, longerThan_eq_false, and_true, List.any_eq_false,
    ToolCheckpoint.outOfBounds_eq_false]
  constructor
  · rintro ⟨⟨⟨h₁, h₂⟩, h₃⟩, h₄⟩
    exact ⟨h₁, h₂, Nat.le_of_not_lt h₃, h₄⟩
  · rintro ⟨h₁, h₂, h₃, h₄⟩
    exact ⟨⟨⟨h₁, h₂⟩, Nat.not_lt_of_le h₃⟩, h₄⟩

lemma validateQueue_eq_ok {queue : List QueueItem} :
    validateQueue queue = .ok () ↔ QueueValid queue := by
  simp only [validateQueue, Result.ite_error_eq_ok, Bool.or_eq_true, not_or, decide_eq_true_eq,
    Bool.not_eq_true, and_true, List.any_eq_false, QueueItem.outOfBounds_eq_false,
    Rust.hasDuplicate_eq_false]
  constructor
  · rintro ⟨⟨h₁, h₂⟩, h₃⟩
    exact ⟨Nat.le_of_not_lt h₁, h₂, h₃⟩
  · rintro ⟨h₁, h₂, h₃⟩
    exact ⟨⟨Nat.not_lt_of_le h₁, h₂⟩, h₃⟩

theorem validateState_eq_ok {state : DurableState} :
    validateState state = .ok () ↔ state.Valid := by
  have hvalid : state.Valid ↔ (∀ w ∈ state.workflow, w.Valid) ∧ (∀ r ∈ state.run, r.Valid) ∧
      QueueValid state.queue :=
    ⟨fun h => ⟨h.workflow, h.run, h.queue⟩, fun ⟨h₁, h₂, h₃⟩ => ⟨h₁, h₂, h₃⟩⟩
  rw [hvalid, validateState]
  cases state.workflow <;> cases state.run <;>
    simp [Result.check_bind_eq_ok, validateWorkflow_eq_ok, validateRun_eq_ok, validateQueue_eq_ok]

/-! ### Validity of the edited parts -/

lemma DurableState.Valid.withWorkflow {state : DurableState} (h : state.Valid)
    {workflow : Option Workflow} (hw : ∀ w ∈ workflow, w.Valid) :
    ({ state with workflow } : DurableState).Valid := ⟨hw, h.run, h.queue⟩

lemma DurableState.Valid.withRun {state : DurableState} (h : state.Valid)
    {run : Option RunCheckpoint} (hr : ∀ r ∈ run, r.Valid) :
    ({ state with run } : DurableState).Valid := ⟨h.workflow, hr, h.queue⟩

lemma DurableState.Valid.withQueue {state : DurableState} (h : state.Valid)
    {queue : List QueueItem} (hq : QueueValid queue) :
    ({ state with queue } : DurableState).Valid := ⟨h.workflow, h.run, hq⟩

/-- A workflow stays valid when its steps are replaced by valid ones with the same ids. -/
lemma Workflow.Valid.withSteps {workflow : Workflow} (h : workflow.Valid) {steps : List Step}
    (hids : steps.map Step.id = workflow.steps.map Step.id)
    (hsteps : ∀ step ∈ steps, step.Valid) : ({ workflow with steps } : Workflow).Valid where
  name_ne := h.name_ne
  name_le := h.name_le
  steps_ne := by
    intro hnil
    have : steps = [] := hnil
    rw [this, List.map_nil, eq_comm, List.map_eq_nil_iff] at hids
    exact h.steps_ne hids
  steps_le := by
    have := congrArg List.length hids
    simp only [List.length_map] at this
    exact this ▸ h.steps_le
  steps_valid := hsteps
  ids_nodup := hids ▸ h.ids_nodup

lemma RunCheckpoint.Valid.withTools {run : RunCheckpoint} (h : run.Valid)
    {tools : List ToolCheckpoint} (hlen : tools.length ≤ maxJournalEntries)
    (htools : ∀ tool ∈ tools, tool.Valid) : ({ run with tools } : RunCheckpoint).Valid :=
  ⟨h.id_ne, h.id_le, hlen, htools⟩

end Durable
