import RpiPackage.Durable.Action

/-!
# What a transition can do

Every transition of the durable state is one of four edits. Each of them keeps the revision, and
keeps the state valid if an enqueued item gets an id the queue does not hold yet.
-/

namespace Durable

open Json

/-- The status changes of a queue item. -/
inductive ItemMove : QueueStatus → QueueStatus → Prop where
  | claim : ItemMove .queued .claimed
  | complete : ItemMove .claimed .completed
  | fail : ItemMove .claimed .failed
  | cancelQueued : ItemMove .queued .cancelled
  | cancelClaimed : ItemMove .claimed .cancelled

/-- The edits of a state; only an action that `enqueues` makes the queue longer. -/
inductive Edit (enqueues : Prop) (before : DurableState) : DurableState → Prop where
  | workflow (workflow : Option Workflow)
      (valid : (∀ w ∈ before.workflow, w.Valid) → ∀ w ∈ workflow, w.Valid) :
      Edit enqueues before { before with workflow }
  | run (nextRunId : UInt64) (run : Option RunCheckpoint)
      (valid : (∀ r ∈ before.run, r.Valid) → ∀ r ∈ run, r.Valid) :
      Edit enqueues before { before with nextRunId, run }
  | enqueue (item : QueueItem) (allowed : enqueues) (room : before.queue.length < maxQueueItems)
      (valid : item.Valid) (fresh : item.id = nextItemId before) (status : item.status = .queued) :
      Edit enqueues before { before with
        nextQueueId := Rust.saturatingSucc before.nextQueueId
        queue := before.queue ++ [item] }
  | move (left right : List QueueItem) (item item' : QueueItem)
      (queue : before.queue = left ++ item :: right) (id : item'.id = item.id)
      (valid : item.Valid → item'.Valid) (status : ItemMove item.status item'.status) :
      Edit enqueues before { before with queue := left ++ item' :: right }

namespace Edit

variable {enqueues : Prop} {before after : DurableState}

lemma keep : Edit enqueues before before := .workflow before.workflow id

/-- A queue of unchanged length holds the same ids at the same positions. -/
lemma ids_eq (h : Edit enqueues before after) (hlen : after.queue.length = before.queue.length) :
    after.queue.map QueueItem.id = before.queue.map QueueItem.id := by
  cases h with
  | workflow | run => rfl
  | enqueue => simp at hlen
  | move left right item item' hqueue hid => simp [hqueue, hid]

lemma valid (h : Edit enqueues before after) (hbefore : before.Valid)
    (hfresh : enqueues → nextItemId before ∉ before.queue.map QueueItem.id) : after.Valid := by
  cases h with
  | workflow workflow hvalid => exact ⟨hvalid hbefore.workflow, hbefore.run, hbefore.queue⟩
  | run nextRunId run hvalid => exact ⟨hbefore.workflow, hvalid hbefore.run, hbefore.queue⟩
  | enqueue item hallowed hroom hvalid hid =>
    have hq := hbefore.queue
    refine ⟨hbefore.workflow, hbefore.run, ⟨?_, ?_, ?_⟩⟩
    · simpa using Nat.succ_le_of_lt hroom
    · intro i hi
      rcases List.mem_append.mp hi with h | h
      · exact hq.items_valid i h
      · rwa [List.mem_singleton.mp h]
    · rw [List.map_append, List.nodup_append]
      refine ⟨hq.ids_nodup, by simp, ?_⟩
      rintro a ha b hb rfl
      rw [List.map_singleton, List.mem_singleton, hid] at hb
      exact hfresh hallowed (hb ▸ ha)
  | move left right item item' hqueue hid hvalid =>
    obtain ⟨hlen, hitems, hnodup⟩ := hbefore.queue
    rw [hqueue] at hlen hitems hnodup
    refine ⟨hbefore.workflow, hbefore.run, ⟨by simpa using hlen, ?_, by simpa [hid] using hnodup⟩⟩
    intro i hi
    rcases List.mem_append.mp hi with h | h
    · exact hitems i (List.mem_append_left _ h)
    · rcases List.mem_cons.mp h with rfl | h
      · exact hvalid (hitems item (by simp))
      · exact hitems i (by simp [h])

end Edit

/-! ### Parameters -/

lemma text_eq_ok {value : Option Value} {field s : String} {max : Nat}
    (h : text value field max = .ok s) : Rust.trim s ≠ "" ∧ s ≠ "" ∧ s.length ≤ max := by
  unfold text at h
  split at h
  · cases h
  · rename_i raw _
    rw [Result.ite_error_eq_ok, Result.ite_error_eq_ok] at h
    obtain ⟨hne, hlen, h⟩ := h
    obtain rfl := Except.ok.inj h
    exact ⟨Rust.trim_trim_ne_empty hne, hne, Nat.le_of_not_lt hlen⟩

lemma optionalText_eq_ok {value : Option Value} {field : String} {max : Nat} {o : Option String}
    (h : optionalText value field max = .ok o) : ∀ s ∈ o, s.length ≤ max := by
  unfold optionalText at h
  split at h
  · cases h; simp
  · cases h; simp
  · obtain ⟨s, hs, rfl⟩ := Result.map_eq_ok.mp h
    rintro _ ⟨⟩
    exact (text_eq_ok hs).2.2

/-- The steps parsed so far stay valid and distinct. -/
lemma parseStepValues_eq_ok {values : List Value} {steps result : List Step}
    (h : parseStepValues values steps = .ok result) (hvalid : ∀ step ∈ steps, step.Valid)
    (hnodup : (steps.map Step.id).Nodup) :
    (∀ step ∈ result, step.Valid) ∧ (result.map Step.id).Nodup ∧
      result.length = steps.length + values.length := by
  induction values generalizing steps with
  | nil =>
    obtain rfl := Except.ok.inj h
    exact ⟨hvalid, hnodup, rfl⟩
  | cons value values ih =>
    obtain ⟨id, hid, h⟩ := Result.bind_eq_ok.mp h
    obtain ⟨title, htitle, h⟩ := Result.bind_eq_ok.mp h
    obtain ⟨-, hid₁, hid₂⟩ := text_eq_ok hid
    obtain ⟨-, -, htitle⟩ := text_eq_ok htitle
    split at h
    · cases h
    rename_i hfresh
    simp only [List.any_eq_true, beq_iff_eq, not_exists, not_and] at hfresh
    have hvalid' : ∀ step ∈ steps ++ [(⟨id, title, .pending, none⟩ : Step)], step.Valid := by
      intro step hstep
      rcases List.mem_append.mp hstep with h | h
      · exact hvalid step h
      · rw [List.mem_singleton.mp h]
        exact ⟨hid₁, hid₂, htitle, nofun⟩
    have hnodup' : ((steps ++ [(⟨id, title, .pending, none⟩ : Step)]).map Step.id).Nodup := by
      rw [List.map_append, List.nodup_append]
      refine ⟨hnodup, by simp, ?_⟩
      rintro a ha b hb rfl
      obtain ⟨step, hstep, rfl⟩ := List.mem_map.mp ha
      exact hfresh step hstep (by simpa using hb)
    obtain ⟨h₁, h₂, h₃⟩ := ih h hvalid' hnodup'
    refine ⟨h₁, h₂, ?_⟩
    rw [h₃, List.length_append, List.length_singleton, List.length_cons]
    omega

/-! ### Workflow actions -/

/-- An update of the workflow is an edit when it keeps a valid workflow valid. -/
lemma workflowMut_edit {enqueues : Prop} {before after : DurableState}
    {f : Workflow → Except String Workflow}
    (hf : ∀ w w', f w = .ok w' → w.Valid → w'.Valid) (h : workflowMut before f = .ok after) :
    Edit enqueues before after := by
  unfold workflowMut at h
  split at h
  · cases h
  · rename_i workflow hworkflow
    obtain ⟨w', hw', h⟩ := Result.bind_eq_ok.mp h
    obtain rfl := Except.ok.inj h
    refine .workflow (some w') fun hvalid => ?_
    rintro _ ⟨⟩
    exact hf _ _ hw' (hvalid workflow hworkflow)

/-- The status and the reason of a workflow are free. -/
lemma Workflow.Valid.withStatus {workflow : Workflow} (h : workflow.Valid) (status : WorkflowStatus)
    (reason : Option String) : ({ workflow with status, reason } : Workflow).Valid :=
  ⟨h.name_ne, h.name_le, h.steps_ne, h.steps_le, h.steps_valid, h.ids_nodup⟩

section Actions

variable {enqueues : Prop} {before after : DurableState} {params : Value}

lemma startWorkflow_edit (h : startWorkflow before params = .ok after) :
    Edit enqueues before after := by
  obtain ⟨name, hname, h⟩ := Result.bind_eq_ok.mp h
  obtain ⟨steps, hsteps, h⟩ := Result.bind_eq_ok.mp h
  obtain rfl := Except.ok.inj h
  obtain ⟨hname₁, -, hname₂⟩ := text_eq_ok hname
  unfold parseSteps at hsteps
  split at hsteps
  · cases hsteps
  rename_i values _
  rw [Result.ite_error_eq_ok, Result.ite_error_eq_ok] at hsteps
  obtain ⟨hne, hle, hsteps⟩ := hsteps
  obtain ⟨hvalid, hnodup, hlen⟩ := parseStepValues_eq_ok hsteps nofun List.nodup_nil
  rw [List.length_nil, Nat.zero_add] at hlen
  refine .workflow _ fun _ => ?_
  rintro _ ⟨⟩
  refine ⟨hname₁, hname₂, ?_, hlen ▸ Nat.le_of_not_lt hle, hvalid, hnodup⟩
  rintro rfl
  exact hne (List.isEmpty_iff.mpr (List.length_eq_zero_iff.mp hlen.symm))

lemma checkpoint_edit (h : checkpoint before params = .ok after) : Edit enqueues before after := by
  obtain ⟨stepId, -, h⟩ := Result.bind_eq_ok.mp h
  obtain ⟨status, -, h⟩ := Result.bind_eq_ok.mp h
  obtain ⟨note, hnote, h⟩ := Result.bind_eq_ok.mp h
  refine workflowMut_edit (fun w w' hw hvalid => ?_) h
  obtain ⟨-, hw⟩ := Result.check_bind_eq_ok.mp hw
  obtain ⟨steps, hsteps, hw⟩ := Result.bind_eq_ok.mp hw
  obtain rfl := Except.ok.inj hw
  obtain ⟨left, a, b, right, hbefore, rfl, -, -, hb⟩ := Rust.updateFirst_eq_ok.mp hsteps
  obtain rfl := Except.ok.inj hb
  have hsteps := hvalid.steps_valid
  rw [hbefore] at hsteps
  refine hvalid.withSteps (by simp [hbefore]) fun step hstep => ?_
  rcases List.mem_append.mp hstep with h | h
  · exact hsteps step (List.mem_append_left _ h)
  rcases List.mem_cons.mp h with rfl | h
  · have ha := hsteps a (by simp)
    refine ⟨ha.id_ne, ha.id_le, ha.title_le, fun s hs => ?_⟩
    rcases note with - | note
    · exact ha.note_le s hs
    · exact optionalText_eq_ok hnote s hs
  · exact hsteps step (by simp [h])

lemma pause_edit (h : pause before params = .ok after) : Edit enqueues before after := by
  obtain ⟨reason, -, h⟩ := Result.bind_eq_ok.mp h
  refine workflowMut_edit (fun w w' hw hvalid => ?_) h
  rw [Result.ite_error_eq_ok] at hw
  obtain rfl := Except.ok.inj hw.2
  exact hvalid.withStatus _ _

lemma resume_edit (h : resume before = .ok after) : Edit enqueues before after := by
  refine workflowMut_edit (fun w w' hw hvalid => ?_) h
  rw [Result.ite_error_eq_ok] at hw
  obtain rfl := Except.ok.inj hw.2
  exact hvalid.withStatus _ _

lemma complete_edit (h : complete before = .ok after) : Edit enqueues before after := by
  refine workflowMut_edit (fun w w' hw hvalid => ?_) h
  obtain ⟨-, hw⟩ := Result.check_bind_eq_ok.mp hw
  split at hw
  · cases hw
  · obtain rfl := Except.ok.inj hw
    exact hvalid.withStatus _ _

lemma failWorkflow_edit (h : failWorkflow before params = .ok after) :
    Edit enqueues before after := by
  obtain ⟨reason, -, h⟩ := Result.bind_eq_ok.mp h
  refine workflowMut_edit (fun w w' hw hvalid => ?_) h
  rw [Result.ite_error_eq_ok] at hw
  obtain rfl := Except.ok.inj hw.2
  exact hvalid.withStatus _ _

/-! ### Run actions -/

omit enqueues before after params in
/-- A numbered id is not blank and stays short. -/
lemma numberedId_ok {word : String} (hw : Rust.trim word ≠ "") (hlen : word.length ≤ 8)
    (n : UInt64) : Rust.trim (word ++ toString n.toNat) ≠ "" ∧
      (word ++ toString n.toNat).length ≤ maxStepIdChars := by
  constructor
  · exact Rust.trim_append_ne_empty hw _
  · have hn : n.toNat < 10 ^ 20 := Nat.lt_trans n.toNat_lt (by decide)
    have hdigits : n.toNat.repr.length ≤ 20 := (Nat.length_repr_le_iff (by decide)).mpr hn
    rw [String.length_append, Nat.toString_eq_repr, maxStepIdChars]
    omega

omit enqueues after params in
lemma allocateRun_valid (status : RunStatus) (recoveryOf : String) {tools : List ToolCheckpoint}
    (hlen : tools.length ≤ maxJournalEntries) (htools : ∀ tool ∈ tools, tool.Valid) :
    ({ (allocateRun before status recoveryOf).2 with tools } : RunCheckpoint).Valid := by
  have hword : Rust.trim "run-" ≠ "" := by decide
  obtain ⟨hne, hle⟩ := numberedId_ok hword (by decide) (Rust.saturatingSucc before.nextRunId)
  exact ⟨hne, hle, hlen, htools⟩

lemma startRun_edit (before : DurableState) : Edit enqueues before (startRun before) := by
  refine .run _ _ fun _ => ?_
  rintro _ ⟨⟩
  exact allocateRun_valid _ _ (Nat.zero_le _) nofun

lemma recoverRun_edit (h : recoverRun before = .ok after) : Edit enqueues before after := by
  unfold recoverRun at h
  split at h
  · cases h
  rename_i previous hprevious
  rw [Result.ite_error_eq_ok] at h
  obtain rfl := Except.ok.inj h.2
  refine .run _ _ fun hvalid => ?_
  rintro _ ⟨⟩
  have hp := hvalid previous hprevious
  exact allocateRun_valid _ _ hp.tools_le hp.tools_valid

lemma forgetRun_edit (h : forgetRun before = .ok after) : Edit enqueues before after := by
  rw [forgetRun, Result.ite_error_eq_ok] at h
  obtain rfl := Except.ok.inj h.2
  exact .run before.nextRunId none fun _ => nofun

omit enqueues before after params in
lemma ToolCheckpoint.Valid.interrupt {tool : ToolCheckpoint} (h : tool.Valid) {result : String}
    (hresult : result.length ≤ maxSummaryChars + 1) : (tool.interrupt result).Valid := by
  unfold ToolCheckpoint.interrupt
  split
  · exact ⟨h.callId_le, h.callKey_ok, h.name_le, h.params_le, hresult⟩
  · exact h

/-- Ending the current run keeps its id and maps its tool calls. -/
lemma endRun_edit {run : RunCheckpoint} (hrun : before.run = some run) (status : RunStatus)
    (outcome : String) {f : ToolCheckpoint → ToolCheckpoint} (hf : ∀ t, t.Valid → (f t).Valid) :
    Edit enqueues before { before with
      run := some { run with status, outcome, tools := run.tools.map f } } := by
  refine .run before.nextRunId _ fun hvalid => ?_
  rintro _ ⟨⟩
  have hr := hvalid run hrun
  refine ⟨hr.id_ne, hr.id_le, by simpa using hr.tools_le, fun tool htool => ?_⟩
  obtain ⟨t, ht, rfl⟩ := List.mem_map.mp htool
  exact hf t (hr.tools_valid t ht)

lemma settleRun_edit (before : DurableState) : Edit enqueues before (settleRun before) := by
  unfold settleRun
  split
  · rename_i run hrun
    split
    · exact endRun_edit hrun _ _ fun t ht => ht.interrupt (by decide)
    · exact .keep
  · exact .keep

lemma markInterrupted_edit (before : DurableState) :
    Edit enqueues before (markInterrupted before) := by
  unfold markInterrupted
  split
  · rename_i run hrun
    split
    · refine endRun_edit hrun _ _ fun t ht => ht.interrupt ?_
      split
      · decide
      · exact ht.result_le
    · exact .keep
  · exact .keep

/-! ### Queue actions -/

lemma enqueueItem_eq_ok (h : enqueueItem before params = .ok after) :
    ∃ item : QueueItem, before.queue.length < maxQueueItems ∧ item.Valid ∧
      item.id = nextItemId before ∧ item.status = .queued ∧
      after = { before with
        nextQueueId := Rust.saturatingSucc before.nextQueueId
        queue := before.queue ++ [item] } := by
  unfold enqueueItem at h
  split at h
  · cases h
  rename_i hroom
  obtain ⟨itemText, htext, h⟩ := Result.bind_eq_ok.mp h
  have hword : Rust.trim "item-" ≠ "" := by decide
  obtain ⟨hne, hle⟩ := numberedId_ok hword (by decide) (Rust.saturatingSucc before.nextQueueId)
  obtain rfl := Except.ok.inj h
  let revision := Rust.saturatingSucc before.revision
  let item : QueueItem := ⟨nextItemId before, itemText, .queued, revision, revision, ""⟩
  have hvalid : item.Valid := ⟨hne, hle, (text_eq_ok htext).2.2, Nat.zero_le _⟩
  exact ⟨item, Nat.lt_of_not_le hroom, hvalid, rfl, rfl, rfl⟩

lemma enqueueItem_edit (hallowed : enqueues) (h : enqueueItem before params = .ok after) :
    Edit enqueues before after := by
  obtain ⟨item, hroom, hvalid, hid, hstatus, rfl⟩ := enqueueItem_eq_ok h
  exact .enqueue item hallowed hroom hvalid hid hstatus

lemma updateItem_edit {id : String} {f : QueueItem → Except String QueueItem}
    (hf : ∀ i i', f i = .ok i' → i'.id = i.id ∧ (i.Valid → i'.Valid) ∧ ItemMove i.status i'.status)
    (h : updateItem before id f = .ok after) : Edit enqueues before after := by
  obtain ⟨queue, hqueue, h⟩ := Result.bind_eq_ok.mp h
  obtain rfl := Except.ok.inj h
  obtain ⟨left, a, b, right, hbefore, rfl, -, -, hb⟩ := Rust.updateFirst_eq_ok.mp hqueue
  obtain ⟨hid, hvalid, hmove⟩ := hf a b hb
  exact .move left right a b hbefore hid hvalid hmove

omit enqueues before after params in
/-- The status, the revision and a bounded note of an item are free. -/
lemma QueueItem.Valid.withStatus {item : QueueItem} (h : item.Valid) (status : QueueStatus)
    (updatedRevision : UInt64) {note : String} (hnote : note.length ≤ maxNoteChars) :
    ({ item with status, updatedRevision, note } : QueueItem).Valid :=
  ⟨h.id_ne, h.id_le, h.text_le, hnote⟩

omit enqueues before after params in
lemma getD_length_le {value : Option Value} {field : String} {note : Option String} {max : Nat}
    (hnote : optionalText value field max = .ok note) {default : String}
    (hdefault : default.length ≤ max) : (note.getD default).length ≤ max := by
  cases note with
  | none => exact hdefault
  | some note => exact optionalText_eq_ok hnote note rfl

lemma claimItem_edit (h : claimItem before params = .ok after) : Edit enqueues before after := by
  obtain ⟨id, -, h⟩ := Result.bind_eq_ok.mp h
  refine updateItem_edit (fun item item' hitem => ?_) h
  rw [Result.ite_error_eq_ok, not_ne_iff] at hitem
  obtain ⟨hstatus, hitem⟩ := hitem
  obtain rfl := Except.ok.inj hitem
  exact ⟨rfl, fun hvalid => hvalid.withStatus _ _ hvalid.note_le, hstatus ▸ .claim⟩

lemma finishItem_edit (h : finishItem before params = .ok after) : Edit enqueues before after := by
  obtain ⟨id, -, h⟩ := Result.bind_eq_ok.mp h
  obtain ⟨status, hfinish, h⟩ := Result.bind_eq_ok.mp h
  obtain ⟨note, hnote, h⟩ := Result.bind_eq_ok.mp h
  refine updateItem_edit (fun item item' hitem => ?_) h
  rw [Result.ite_error_eq_ok, not_ne_iff] at hitem
  obtain ⟨hstatus, hitem⟩ := hitem
  obtain rfl := Except.ok.inj hitem
  refine ⟨rfl, fun hvalid => hvalid.withStatus _ _ (getD_length_le hnote (Nat.zero_le _)), ?_⟩
  rw [hstatus]
  unfold finishStatus at hfinish
  split at hfinish <;> cases hfinish
  · exact .complete
  · exact .fail

lemma cancelItem_edit (h : cancelItem before params = .ok after) : Edit enqueues before after := by
  obtain ⟨id, -, h⟩ := Result.bind_eq_ok.mp h
  obtain ⟨note, hnote, h⟩ := Result.bind_eq_ok.mp h
  refine updateItem_edit (fun item item' hitem => ?_) h
  rw [Result.ite_error_eq_ok] at hitem
  obtain ⟨hstatus, hitem⟩ := hitem
  obtain rfl := Except.ok.inj hitem
  refine ⟨rfl, fun hvalid => hvalid.withStatus _ _ (getD_length_le hnote (by decide)), ?_⟩
  rcases Decidable.not_and_iff_not_or_not.mp hstatus with hq | hc
  · exact not_ne_iff.mp hq ▸ .cancelQueued
  · exact not_ne_iff.mp hc ▸ .cancelClaimed

/-! ### The tool action -/

theorem applyAction_edit (h : applyAction before params = .ok after) :
    Edit (actionParam params = "enqueue") before after := by
  unfold applyAction at h
  split at h
  · exact Except.ok.inj h ▸ .keep
  · exact Except.ok.inj h ▸ startRun_edit before
  · exact Except.ok.inj h ▸ settleRun_edit before
  · exact recoverRun_edit h
  · exact startWorkflow_edit h
  · exact checkpoint_edit h
  · exact pause_edit h
  · exact resume_edit h
  · exact complete_edit h
  · exact failWorkflow_edit h
  · exact Except.ok.inj h ▸ .workflow none fun _ => nofun
  · exact recoverRun_edit h
  · exact forgetRun_edit h
  · exact enqueueItem_edit ‹_› h
  · exact claimItem_edit h
  · exact finishItem_edit h
  · exact cancelItem_edit h
  · exact Except.ok.inj h ▸ .keep
  · cases h

lemma applyAction_enqueue (henqueue : actionParam params = "enqueue")
    (h : applyAction before params = .ok after) : enqueueItem before params = .ok after := by
  simpa [applyAction, henqueue] using h

end Actions

/-! ### Tool records -/

lemma summary_length_le (value : String) : (summary value).length ≤ maxSummaryChars + 1 := by
  have hcut : (Rust.takeChars value maxSummaryChars).length ≤ maxSummaryChars := by
    rw [Rust.length_takeChars]
    exact Nat.min_le_left _ _
  unfold summary
  split
  · rw [String.length_append]
    exact Nat.add_le_add_right hcut 1
  · exact Nat.le_succ_of_le hcut

lemma newestTools_length_le (tools : List ToolCheckpoint) :
    (newestTools tools).length ≤ maxJournalEntries := by
  have : (newestTools tools).length ≤ maxToolEntries := by
    rw [newestTools, List.length_drop]
    omega
  exact this

section Digest

variable (sha256 : List UInt8 → Vector UInt8 32)

/-- A call id is bounded, digested or not. -/
lemma toolCallId_length_le (callId : String) :
    (toolCallId sha256 callId).length ≤ maxSummaryChars := by
  have hhex : ∀ bytes : List UInt8, (bytes.flatMap hexByte).length = 2 * bytes.length := by
    intro bytes
    induction bytes with
    | nil => rfl
    | cons b bytes ih =>
      rw [List.flatMap_cons, List.length_append, ih, List.length_cons]
      simp only [hexByte, List.length_cons, List.length_nil]
      omega
  unfold toolCallId
  split
  · assumption
  · have hellipsis : "…".length = 1 := by decide
    simp only [digestedId, String.length_append, Rust.length_takeChars, String.length_ofList, hhex,
      Vector.length_toList, hellipsis, maxSummaryChars]
    omega

/-- The key of a call id is bounded and not empty. -/
lemma toolCallKey_ok (callId : String) :
    toolCallKey sha256 callId ≠ "" ∧ (toolCallKey sha256 callId).length ≤ maxSummaryChars + 8 := by
  have hid := toolCallId_length_le sha256 callId
  have hraw : "raw:".length = 4 := by decide
  have hhash : "hash:".length = 5 := by decide
  have hpos : ∀ s : String, 0 < s.length → s ≠ "" := by
    rintro _ h rfl
    exact absurd h (by decide)
  unfold toolCallKey
  split
  · refine ⟨hpos _ ?_, ?_⟩ <;> rw [String.length_append] <;> omega
  · refine ⟨hpos _ ?_, ?_⟩ <;> rw [String.length_append] <;> omega

/-- The entry a tool record adds. -/
lemma toolRecord_valid (callId name : String) {params result : String} (status : ToolStatus)
    (hparams : params.length ≤ maxSummaryChars + 1)
    (hresult : result.length ≤ maxSummaryChars + 1) :
    (⟨toolCallId sha256 callId, some (toolCallKey sha256 callId), summary name, params, status,
      result⟩ : ToolCheckpoint).Valid := by
  refine ⟨Nat.le_succ_of_le (toolCallId_length_le sha256 callId), ?_, summary_length_le name,
    hparams, hresult⟩
  rintro _ ⟨⟩
  exact toolCallKey_ok sha256 callId

/-- Adding an entry drops the oldest ones beyond the bound. -/
lemma addTool_edit {enqueues : Prop} {before : DurableState} {run : RunCheckpoint}
    (hrun : before.run = some run) {tool : ToolCheckpoint} (htool : tool.Valid) :
    Edit enqueues before { before with
      run := some { run with tools := newestTools (run.tools ++ [tool]) } } := by
  refine .run before.nextRunId _ fun hvalid => ?_
  rintro _ ⟨⟩
  have hr := hvalid run hrun
  refine hr.withTools (newestTools_length_le _) fun t ht => ?_
  rcases List.mem_append.mp (List.mem_of_mem_drop ht) with h | h
  · exact hr.tools_valid t h
  · rwa [List.mem_singleton.mp h]

lemma recordToolStart_edit {enqueues : Prop} (before : DurableState)
    (callId name params : String) :
    Edit enqueues before (recordToolStart sha256 before callId name params) := by
  unfold recordToolStart
  split
  · exact .keep
  rename_i run hrun
  dsimp only
  split
  · exact .keep
  · exact addTool_edit hrun
      (toolRecord_valid sha256 callId name _ (summary_length_le params) (Nat.zero_le _))

lemma recordToolEnd_edit {enqueues : Prop} (before : DurableState) (callId name result : String)
    (isError : Bool) :
    Edit enqueues before (recordToolEnd sha256 before callId name result isError) := by
  unfold recordToolEnd
  split
  · exact .keep
  rename_i run hrun
  dsimp only
  split
  · refine .run before.nextRunId _ fun hvalid => ?_
    rintro _ ⟨⟩
    have hr := hvalid run hrun
    refine hr.withTools (by simpa using hr.tools_le) fun tool htool => ?_
    obtain ⟨t, ht, rfl⟩ := List.mem_map.mp htool
    have hv := hr.tools_valid t ht
    split
    · exact ⟨hv.callId_le, hv.callKey_ok, hv.name_le, hv.params_le, summary_length_le result⟩
    · exact hv
  · exact addTool_edit hrun
      (toolRecord_valid sha256 callId name _ (Nat.zero_le _) (summary_length_le result))

/-- The transitions that enqueue. -/
def Transition.Enqueues : Transition → Prop
  | .action params => actionParam params = "enqueue"
  | _ => False

theorem Transition.apply_edit {t : Transition} {before after : DurableState}
    (h : t.apply sha256 before = .ok after) : Edit t.Enqueues before after := by
  cases t with
  | action params => exact applyAction_edit h
  | startRun => exact Except.ok.inj h ▸ startRun_edit before
  | recordToolStart callId name params =>
    exact Except.ok.inj h ▸ recordToolStart_edit sha256 before callId name params
  | recordToolEnd callId name result isError =>
    exact Except.ok.inj h ▸ recordToolEnd_edit sha256 before callId name result isError
  | markInterrupted => exact Except.ok.inj h ▸ markInterrupted_edit before
  | settle => exact Except.ok.inj h ▸ settleRun_edit before

end Digest

end Durable
