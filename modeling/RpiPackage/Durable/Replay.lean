import RpiPackage.Durable.Commit
import Mathlib.Data.List.Forall2

/-!
# Replaying a delta

Interpreting `journal_changes current next` leads to `next`, through states that are valid after
every single change. The replay may start from a state that differs from `current` in a retouch of
its tool calls, as the reader applies one to what it decoded; the result then differs from `next`
in the same retouch.
-/

namespace Durable

/-! ### Retouching tool calls -/

/-- A normalization of tool calls that keeps their identity and what they were called with. -/
structure Retouch (m : ToolCheckpoint → ToolCheckpoint) : Prop where
  idem : ∀ tool, m (m tool) = m tool
  callId : ∀ tool, (m tool).callId = tool.callId
  callKey : ∀ tool, (m tool).callKey = tool.callKey
  name : ∀ tool, (m tool).name = tool.name
  params : ∀ tool, (m tool).params = tool.params
  valid : ∀ tool, tool.Valid → (m tool).Valid

def RunCheckpoint.mapTools (m : ToolCheckpoint → ToolCheckpoint) (run : RunCheckpoint) :
    RunCheckpoint :=
  { run with tools := run.tools.map m }

def DurableState.mapTools (m : ToolCheckpoint → ToolCheckpoint) (state : DurableState) :
    DurableState :=
  { state with run := state.run.map (RunCheckpoint.mapTools m) }

lemma Retouch.id : Retouch id :=
  ⟨fun _ => rfl, fun _ => rfl, fun _ => rfl, fun _ => rfl, fun _ => rfl, fun _ h => h⟩

lemma Retouch.map_map {m : ToolCheckpoint → ToolCheckpoint} (hm : Retouch m)
    (tools : List ToolCheckpoint) : (tools.map m).map m = tools.map m := by
  rw [List.map_map]
  exact List.map_congr_left fun t _ => hm.idem t

lemma Retouch.mapTools_valid {m : ToolCheckpoint → ToolCheckpoint} (hm : Retouch m)
    {state : DurableState} (h : state.Valid) : (state.mapTools m).Valid := by
  refine ⟨h.workflow, fun run hrun => ?_, h.queue⟩
  obtain ⟨r, hr, rfl⟩ := Option.map_eq_some_iff.mp hrun
  have hv := h.run r hr
  refine hv.withTools (by simpa using hv.tools_le) fun tool htool => ?_
  obtain ⟨t, ht, rfl⟩ := List.mem_map.mp htool
  exact hm.valid t (hv.tools_valid t ht)

lemma DurableState.mapTools_id (state : DurableState) : state.mapTools id = state := by
  have : RunCheckpoint.mapTools id = id := funext fun run => by simp [RunCheckpoint.mapTools]
  simp [mapTools, this]

lemma ToolCheckpoint.addressed_eq_sameIdentity (before tool : ToolCheckpoint) :
    tool.addressed before.callId before.callKey = before.sameIdentity tool := by
  cases h : before.callKey with
  | none => cases ht : tool.callKey <;> simp [addressed, sameIdentity, h, ht]
  | some key => simp [addressed, sameIdentity, h]

/-- Whether a tool is addressed depends on its identity alone. -/
lemma ToolCheckpoint.addressed_congr {t t' : ToolCheckpoint} (hid : t.callId = t'.callId)
    (hkey : t.callKey = t'.callKey) (callId : String) (callKey : Option String) :
    t.addressed callId callKey = t'.addressed callId callKey := by
  simp [addressed, hid, hkey]

lemma forall₂_of_zip_all {before after : List Step} (hlen : before.length = after.length)
    (hall : (before.zip after).all (fun p => p.1.id == p.2.id && p.1.title == p.2.title) = true) :
    List.Forall₂ (fun x y => x.id = y.id ∧ x.title = y.title) before after := by
  rw [List.forall₂_iff_zip]
  exact ⟨hlen, fun h => by simpa using List.all_eq_true.mp hall _ h⟩

section Replay

variable {validate : DurableState → Except String Unit}
variable (hvalidate : ∀ state : DurableState, validate state = .ok () ↔ state.Valid)

include hvalidate

lemma applyChangeWith_eq_ok {state next : DurableState} {change : JournalChange}
    (hedit : editState state change = .ok next) (hnext : next.Valid) :
    applyChangeWith validate state change = .ok next := by
  rw [applyChangeWith, hedit, Result.ok_bind, (hvalidate next).mpr hnext]
  rfl

/-- Whatever was replayed has been validated after its last change. -/
lemma valid_of_foldlM {changes : List JournalChange} {state next : DurableState}
    (hstate : state.Valid)
    (h : changes.foldlM (applyChangeWith validate) state = .ok next) : next.Valid := by
  induction changes generalizing state with
  | nil =>
    obtain rfl := Except.ok.inj h
    exact hstate
  | cons change changes ih =>
    rw [List.foldlM_cons, Result.bind_eq_ok] at h
    obtain ⟨mid, hmid, h⟩ := h
    obtain ⟨edited, -, hmid⟩ := Result.bind_eq_ok.mp hmid
    obtain ⟨hok, hmid⟩ := Result.check_bind_eq_ok.mp hmid
    obtain rfl := Except.ok.inj hmid
    exact ih ((hvalidate edited).mp hok) h

/-! ### Workflow changes -/

/-- The steps already replayed are `done`; the induction is on the pairs that are left. -/
lemma replay_stepUpdates {before after : List Step}
    (hsame : List.Forall₂ (fun x y => x.id = y.id ∧ x.title = y.title) before after)
    (hafter : ∀ step ∈ after, step.Valid) {state : DurableState} {workflow : Workflow}
    (hstate : state.Valid) (hworkflow : state.workflow = some workflow) (done : List Step)
    (hsteps : workflow.steps = done ++ before) :
    ((before.zip after).filterMap stepUpdate).foldlM (applyChangeWith validate) state =
      .ok { state with workflow := some { workflow with steps := done ++ after } } := by
  induction hsame generalizing state workflow done with
  | nil => simp [← hsteps, ← hworkflow]
  | @cons b a bs as hab hrest ih =>
    have hw := hstate.workflow workflow hworkflow
    have hafter' : ∀ step ∈ as, step.Valid := fun step h =>
      hafter step (List.mem_cons_of_mem _ h)
    by_cases hdiff : b.status ≠ a.status ∨ b.note ≠ a.note
    · have hnodup := hw.ids_nodup
      rw [hsteps, List.map_append, List.map_cons] at hnodup
      have hdone : ∀ step ∈ done, (step.id == a.id) = false := by
        intro step hstep
        rw [beq_eq_false_iff_ne, ← hab.1]
        exact (List.nodup_append.mp hnodup).2.2 _ (List.mem_map_of_mem hstep) _ List.mem_cons_self
      have hupdate : Rust.updateFirst (fun step => step.id == a.id)
          (fun step => .ok { step with status := a.status, note := a.note })
          ("durable journal step path not found: " ++ a.id) workflow.steps =
            .ok (done ++ a :: bs) := by
        refine Rust.updateFirst_eq_ok.mpr ⟨done, b, a, bs, hsteps, rfl, hdone, by simp [hab.1], ?_⟩
        rw [hab.1, hab.2]
      have hids : (done ++ a :: bs).map Step.id = workflow.steps.map Step.id := by
        simp [hsteps, hab.1]
      have hvalid : ∀ step ∈ done ++ a :: bs, step.Valid := by
        intro step hstep
        rcases List.mem_append.mp hstep with h | h
        · exact hw.steps_valid step (by simp [hsteps, h])
        · rcases List.mem_cons.mp h with rfl | h
          · exact hafter step List.mem_cons_self
          · exact hw.steps_valid step (by simp [hsteps, h])
      have hnext : ({ state with
          workflow := some { workflow with steps := done ++ a :: bs } } : DurableState).Valid :=
        hstate.withWorkflow (by simpa using hw.withSteps hids hvalid)
      have hedit : editState state (.updateStep a.id a.status a.note) =
          .ok { state with workflow := some { workflow with steps := done ++ a :: bs } } := by
        simp only [editState, hworkflow, hupdate, Result.ok_bind]
      rw [List.zip_cons_cons, List.filterMap_cons, stepUpdate, if_pos hdiff, List.foldlM_cons,
        applyChangeWith_eq_ok hvalidate hedit hnext, Result.ok_bind,
        ih hafter' hnext rfl _ (List.append_cons done a bs)]
      simp
    · have hba : b = a := by
        obtain ⟨hs, hn⟩ := not_or.mp hdiff
        rw [not_ne_iff] at hs hn
        cases b; cases a; simp_all
      rw [List.zip_cons_cons, List.filterMap_cons, stepUpdate, if_neg hdiff,
        ih hafter' hstate hworkflow (done ++ [a]) (by simp [hsteps, hba])]
      simp

lemma replay_workflowUpdates {state : DurableState} {before after : Workflow}
    (hstate : state.Valid) (hbefore : state.workflow = some before) (hafter : after.Valid)
    (hsame : List.Forall₂ (fun x y => x.id = y.id ∧ x.title = y.title) before.steps after.steps) :
    (workflowUpdates before after).foldlM (applyChangeWith validate) state =
      .ok { state with workflow := some after } := by
  -- after the metadata change, the workflow is `after` with the steps of `before`
  let mid : Workflow := { after with steps := before.steps }
  have hids : before.steps.map Step.id = after.steps.map Step.id := by
    rw [← List.forall₂_eq_eq_eq, List.forall₂_map_left_iff, List.forall₂_map_right_iff]
    exact hsame.imp fun _ _ h => h.1
  have hmid : mid.Valid :=
    hafter.withSteps hids (hstate.workflow before hbefore).steps_valid
  have hmeta : (if before.name ≠ after.name ∨ before.status ≠ after.status ∨
        before.reason ≠ after.reason then
      [JournalChange.setWorkflowMeta after.name after.status after.reason]
      else []).foldlM (applyChangeWith validate) state =
        .ok { state with workflow := some mid } := by
    split
    · have hedit : editState state (.setWorkflowMeta after.name after.status after.reason) =
          .ok { state with workflow := some mid } := by
        simp only [editState, hbefore, setWorkflowMeta, mid]
      rw [List.foldlM_cons, applyChangeWith_eq_ok hvalidate hedit
        (hstate.withWorkflow (by simpa using hmid)), Result.ok_bind]
      rfl
    · rename_i hsame
      simp only [not_or, not_ne_iff] at hsame
      have : before = mid := by
        obtain ⟨h₁, h₂, h₃⟩ := hsame
        cases before; cases after; simp_all [mid]
      simp [← this, ← hbefore]
  have hstate' : ({ state with workflow := some mid } : DurableState).Valid :=
    hstate.withWorkflow (by simpa using hmid)
  rw [workflowUpdates, List.foldlM_append, hmeta, Result.ok_bind,
    replay_stepUpdates hvalidate hsame hafter.steps_valid hstate' rfl [] rfl]
  simp [mid]

lemma replay_setWorkflow {state : DurableState} {workflow : Option Workflow}
    (hstate : state.Valid) (hworkflow : ∀ w ∈ workflow, w.Valid) :
    [JournalChange.setWorkflow workflow].foldlM (applyChangeWith validate) state =
      .ok { state with workflow } := by
  rw [List.foldlM_cons, applyChangeWith_eq_ok hvalidate rfl (hstate.withWorkflow hworkflow),
    Result.ok_bind]
  rfl

lemma replay_workflowChanges {state : DurableState} {next : Option Workflow}
    (hstate : state.Valid) (hnext : ∀ w ∈ next, w.Valid) :
    (workflowChanges state.workflow next).foldlM (applyChangeWith validate) state =
      .ok { state with workflow := next } := by
  unfold workflowChanges
  split
  · rename_i before after hbefore
    split
    · rename_i hsame
      have hforall := forall₂_of_zip_all hsame.1 hsame.2
      split
      · exact replay_setWorkflow hvalidate hstate hnext
      · exact replay_workflowUpdates hvalidate hstate hbefore (hnext after rfl) hforall
    · exact replay_setWorkflow hvalidate hstate hnext
  · exact replay_setWorkflow hvalidate hstate hnext

/-! ### Tool changes -/

variable {m : ToolCheckpoint → ToolCheckpoint} (hm : Retouch m)

include hm

/-- The calls already replayed are `done`; the induction is on the pairs that are left. -/
lemma replay_toolUpdates {current : List ToolCheckpoint} {stored after : List ToolCheckpoint}
    (hlen : stored.length = after.length) {state : DurableState} {run : RunCheckpoint}
    {changes : List JournalChange} (hstate : state.Valid) (hrun : state.run = some run)
    (done : List ToolCheckpoint) (htools : run.tools = done ++ stored)
    (hcount : ∀ callId callKey, (done ++ stored).countP (ToolCheckpoint.addressed callId callKey) =
      current.countP (ToolCheckpoint.addressed callId callKey))
    (hafter : ∀ tool ∈ after, tool.Valid)
    (hchanges : toolUpdates current ((stored.map m).zip after) = some changes) :
    ∃ tools, changes.foldlM (applyChangeWith validate) state =
        .ok { state with run := some { run with tools := done ++ tools } } ∧
      tools.map m = after.map m := by
  induction stored generalizing after state run done changes with
  | nil =>
    obtain rfl : after = [] := List.length_eq_zero_iff.mp hlen.symm
    obtain rfl : changes = [] := by simpa [toolUpdates] using hchanges.symm
    exact ⟨[], by simp [← htools, ← hrun], rfl⟩
  | cons d stored ih =>
    obtain ⟨n, after, rfl⟩ := List.exists_cons_of_length_eq_add_one hlen.symm
    have hlen' : stored.length = after.length := by simpa using hlen
    have hafter' : ∀ tool ∈ after, tool.Valid := fun t h => hafter t (List.mem_cons_of_mem _ h)
    have hr := hstate.run run hrun
    rw [List.map_cons, List.zip_cons_cons, toolUpdates] at hchanges
    split at hchanges
    · rename_i heq
      obtain ⟨tools, hfold, hmap⟩ := ih hlen' hstate hrun (done ++ [d]) (by simp [htools])
        (by simpa using hcount) hafter' hchanges
      refine ⟨d :: tools, by simpa using hfold, ?_⟩
      rw [List.map_cons, List.map_cons, hmap, ← heq, hm.idem]
    · split at hchanges
      · cases hchanges
      rename_i hsame
      obtain ⟨rest, hrest, rfl⟩ := Option.map_eq_some_iff.mp hchanges
      simp only [Bool.or_eq_true, Bool.not_eq_true', Bool.and_eq_false_iff, beq_eq_false_iff_ne,
        bne_iff_ne, not_or, not_not, hm.callId, hm.callKey, hm.name, hm.params, ne_eq] at hsame
      obtain ⟨⟨⟨⟨hkey, hid⟩, hname⟩, hparams⟩, hunique⟩ := hsame
      have haddressed : ToolCheckpoint.addressed n.callId n.callKey = (m d).sameIdentity := by
        funext tool
        rw [← ToolCheckpoint.addressed_eq_sameIdentity, hm.callId, hm.callKey, hid, hkey]
      have hone : (done ++ d :: stored).countP (ToolCheckpoint.addressed n.callId n.callKey) = 1 := by
        rw [hcount, haddressed, hunique]
      have hd : d.addressed n.callId n.callKey = true := by
        simp [ToolCheckpoint.addressed, hid, hkey]
      have hedited := Rust.map_ite_of_countP_eq_one hone hd
        fun tool => { tool with status := n.status, result := n.result }
      have hn : ({ d with status := n.status, result := n.result } : ToolCheckpoint) = n := by
        rw [hid, hkey, hname, hparams]
      rw [hn] at hedited
      have hvalid : ∀ tool ∈ done ++ n :: stored, tool.Valid := by
        intro tool htool
        rcases List.mem_append.mp htool with h | h
        · exact hr.tools_valid tool (by simp [htools, h])
        · rcases List.mem_cons.mp h with rfl | h
          · exact hafter tool List.mem_cons_self
          · exact hr.tools_valid tool (by simp [htools, h])
      have hlength : (done ++ n :: stored).length ≤ maxJournalEntries := by
        have := hr.tools_le
        rw [htools] at this
        simpa using this
      let state' : DurableState :=
        { state with run := some { run with tools := done ++ n :: stored } }
      have hstate' : state'.Valid :=
        hstate.withRun (by simpa using hr.withTools hlength hvalid)
      have hedit : editState state (.updateTool n.callId n.callKey n.status n.result) =
          .ok state' := by
        simp only [editState, hrun, htools, hone, hedited]
        rfl
      have hcount' : ∀ callId callKey,
          (done ++ [n] ++ stored).countP (ToolCheckpoint.addressed callId callKey) =
            current.countP (ToolCheckpoint.addressed callId callKey) := by
        intro callId callKey
        rw [← hcount]
        simp [List.countP_append, List.countP_cons,
          ToolCheckpoint.addressed_congr hid hkey callId callKey]
      have hrun' : state'.run = some { run with tools := done ++ n :: stored } := rfl
      obtain ⟨tools, hfold, hmap⟩ :=
        ih hlen' hstate' hrun' (done ++ [n]) (by simp) hcount' hafter' hrest
      refine ⟨n :: tools, ?_, by rw [List.map_cons, List.map_cons, hmap]⟩
      rw [List.foldlM_cons, applyChangeWith_eq_ok hvalidate hedit hstate', Result.ok_bind, hfold]
      simp [state']

omit hvalidate hm in
lemma newestTools_append {tools : List ToolCheckpoint} (tool : ToolCheckpoint)
    (h : tools.length < maxToolEntries) : newestTools (tools ++ [tool]) = tools ++ [tool] := by
  have : (tools ++ [tool]).length - maxToolEntries = 0 := by simp; omega
  rw [newestTools, this, List.drop_zero]

omit hvalidate hm in
lemma newestTools_append_full {tools : List ToolCheckpoint} (tool : ToolCheckpoint)
    (h : tools.length = maxToolEntries) :
    newestTools (tools ++ [tool]) = tools.drop 1 ++ [tool] := by
  have hlen : (tools ++ [tool]).length - maxToolEntries = 1 := by simp [h]
  rw [newestTools, hlen, List.drop_append_of_le_length (by rw [h]; decide)]

omit hm in
/-- Appending a tool is replayed by any new list of tools that the bound leaves. -/
lemma replay_appendTool {state : DurableState} {run : RunCheckpoint} {tool : ToolCheckpoint}
    {tools : List ToolCheckpoint} (hstate : state.Valid) (hrun : state.run = some run)
    (htool : tool.Valid) (htools : newestTools (run.tools ++ [tool]) = tools) :
    [JournalChange.appendTool tool].foldlM (applyChangeWith validate) state =
      .ok { state with run := some { run with tools } } := by
  have hr := hstate.run run hrun
  have hvalid : ({ run with tools } : RunCheckpoint).Valid := by
    refine hr.withTools ?_ ?_
    · have : tools.length ≤ maxToolEntries := by
        rw [← htools, newestTools, List.length_drop]
        omega
      exact this
    · intro t ht
      have hmem : t ∈ run.tools ++ [tool] := by
        rw [← htools] at ht
        exact List.mem_of_mem_drop ht
      rcases List.mem_append.mp hmem with h | h
      · exact hr.tools_valid t h
      · rwa [List.mem_singleton.mp h]
  have hedit : editState state (.appendTool tool) =
      .ok { state with run := some { run with tools } } := by
    simp only [editState, hrun, htools]
  rw [List.foldlM_cons, applyChangeWith_eq_ok hvalidate hedit
    (hstate.withRun (by simpa using hvalid)), Result.ok_bind]
  rfl

lemma replay_toolChanges {state : DurableState} {run : RunCheckpoint}
    {after : List ToolCheckpoint} {changes : List JournalChange} (hstate : state.Valid)
    (hrun : state.run = some run) (hlen : after.length ≤ maxJournalEntries)
    (hafter : ∀ tool ∈ after, tool.Valid)
    (hchanges : toolChanges (run.tools.map m) after = some changes) :
    ∃ tools, changes.foldlM (applyChangeWith validate) state =
        .ok { state with run := some { run with tools } } ∧
      tools.map m = after.map m := by
  have hidem := hm.map_map run.tools
  unfold toolChanges at hchanges
  split at hchanges
  · rename_i happend
    obtain ⟨tool, hlast, rfl⟩ := Option.map_eq_some_iff.mp hchanges
    obtain ⟨hlength, htake⟩ := happend
    have heq := Rust.eq_take_append_getLast hlength hlast
    rw [htake] at heq
    have hlt : run.tools.length < maxToolEntries := by
      rw [hlength, List.length_map] at hlen
      exact hlen
    have htool := hafter tool (heq ▸ List.mem_append_right _ List.mem_cons_self)
    refine ⟨run.tools ++ [tool],
      replay_appendTool hvalidate hstate hrun htool (newestTools_append tool hlt), ?_⟩
    rw [heq, List.map_append, List.map_append, hidem]
  split at hchanges
  · rename_i hshift
    obtain ⟨tool, hlast, rfl⟩ := Option.map_eq_some_iff.mp hchanges
    obtain ⟨hfull, hlength, htake⟩ := hshift
    rw [List.length_map] at hfull
    have hlength' : after.length = (maxJournalEntries - 1) + 1 := hlength
    have heq := Rust.eq_take_append_getLast hlength' hlast
    rw [htake, ← List.map_drop] at heq
    have htool := hafter tool (heq ▸ List.mem_append_right _ List.mem_cons_self)
    refine ⟨run.tools.drop 1 ++ [tool],
      replay_appendTool hvalidate hstate hrun htool (newestTools_append_full tool hfull), ?_⟩
    rw [heq, List.map_append, List.map_append, List.map_drop, List.map_drop, hidem]
  split at hchanges
  · rename_i hsame
    have hlength : run.tools.length = after.length := by simpa using hsame
    split at hchanges
    · rename_i change rest hupdates
      obtain rfl := Option.some.inj hchanges
      have hcount : ∀ callId callKey,
          ([] ++ run.tools).countP (ToolCheckpoint.addressed callId callKey) =
            (run.tools.map m).countP (ToolCheckpoint.addressed callId callKey) := by
        intro callId callKey
        rw [List.countP_map]
        refine List.countP_congr fun t _ => ?_
        rw [Function.comp_apply, ToolCheckpoint.addressed_congr (hm.callId t) (hm.callKey t)]
      exact replay_toolUpdates hvalidate hm hlength hstate hrun [] rfl hcount hafter hupdates
    · cases hchanges
  · cases hchanges

/-! ### Run changes -/

omit hvalidate hm in
lemma RunCheckpoint.ext_meta {r r' : RunCheckpoint} (hid : r.id = r'.id)
    (hstatus : r.status = r'.status) (hstarted : r.startedRevision = r'.startedRevision)
    (hupdated : r.updatedRevision = r'.updatedRevision) (houtcome : r.outcome = r'.outcome)
    (hrecovery : r.recoveryOf = r'.recoveryOf) : { r' with tools := r.tools } = r := by
  cases r; cases r'; simp_all

omit hm in
lemma replay_setRun {state : DurableState} {run : Option RunCheckpoint} (hstate : state.Valid)
    (hrun : ∀ r ∈ run, r.Valid) :
    [JournalChange.setRun run].foldlM (applyChangeWith validate) state =
      .ok { state with run } := by
  rw [List.foldlM_cons, applyChangeWith_eq_ok hvalidate rfl (hstate.withRun hrun), Result.ok_bind]
  rfl

omit hm in
lemma replay_setTools {state : DurableState} {run : RunCheckpoint} {tools : List ToolCheckpoint}
    (hstate : state.Valid) (hrun : state.run = some run) (hlen : tools.length ≤ maxJournalEntries)
    (htools : ∀ tool ∈ tools, tool.Valid) :
    [JournalChange.setTools tools].foldlM (applyChangeWith validate) state =
      .ok { state with run := some { run with tools } } := by
  have hbound : ¬maxToolEntries < tools.length := Nat.not_lt_of_le hlen
  have hedit : editState state (.setTools tools) =
      .ok { state with run := some { run with tools } } := by
    simp only [editState, hrun, if_neg hbound]
  have hvalid := (hstate.run run hrun).withTools hlen htools
  rw [List.foldlM_cons, applyChangeWith_eq_ok hvalidate hedit
    (hstate.withRun (by simpa using hvalid)), Result.ok_bind]
  rfl

omit hm in
/-- The metadata change turns `before` into `after` with the tools of `before`. -/
lemma replay_runMeta {state : DurableState} {before after : RunCheckpoint} (hstate : state.Valid)
    (hrun : state.run = some before) (hafter : after.Valid) :
    [runMeta after].foldlM (applyChangeWith validate) state =
      .ok { state with run := some { after with tools := before.tools } } := by
  have hr := hstate.run before hrun
  have hvalid := hafter.withTools hr.tools_le hr.tools_valid
  have hedit : editState state (runMeta after) =
      .ok { state with run := some { after with tools := before.tools } } := by
    simp only [runMeta, editState, hrun, setRunMeta]
  rw [List.foldlM_cons, applyChangeWith_eq_ok hvalidate hedit
    (hstate.withRun (by simpa using hvalid)), Result.ok_bind]
  rfl

lemma replay_runChanges {state : DurableState} {next : Option RunCheckpoint}
    (hstate : state.Valid) (hnext : ∀ r ∈ next, r.Valid) :
    ∃ run, (runChanges (state.run.map (RunCheckpoint.mapTools m)) next).foldlM
        (applyChangeWith validate) state = .ok { state with run } ∧
      run.map (RunCheckpoint.mapTools m) = next.map (RunCheckpoint.mapTools m) := by
  cases hbefore : state.run with
  | none =>
    cases next with
    | none => exact ⟨none, by simp only [runChanges, Option.map_none]; simp [← hbefore], rfl⟩
    | some after => exact ⟨some after, replay_setRun hvalidate hstate hnext, rfl⟩
  | some before =>
    cases next with
    | none => exact ⟨none, replay_setRun hvalidate hstate hnext, rfl⟩
    | some after =>
      have hafter := hnext after rfl
      simp only [Option.map_some, runChanges, RunCheckpoint.mapTools]
      split
      · exact ⟨some after, replay_setRun hvalidate hstate hnext, rfl⟩
      rename_i hid
      -- whether or not the metadata is written, it is that of `after` from here on
      let mid : DurableState := { state with run := some { after with tools := before.tools } }
      have hr := hstate.run before hbefore
      have hmid : mid.Valid := by
        have hvalid := hafter.withTools hr.tools_le hr.tools_valid
        exact hstate.withRun (by simpa using hvalid)
      have hmeta : (if before.id ≠ after.id ∨ before.status ≠ after.status ∨
            before.startedRevision ≠ after.startedRevision ∨
            before.updatedRevision ≠ after.updatedRevision ∨ before.outcome ≠ after.outcome ∨
            before.recoveryOf ≠ after.recoveryOf then [runMeta after] else []).foldlM
          (applyChangeWith validate) state = .ok mid := by
        split
        · exact replay_runMeta hvalidate hstate hbefore hafter
        · rename_i hsame
          simp only [not_or, not_ne_iff] at hsame
          obtain ⟨h₁, h₂, h₃, h₄, h₅, h₆⟩ := hsame
          simp only [List.foldlM_nil, Result.pure_eq_ok, mid,
            RunCheckpoint.ext_meta h₁ h₂ h₃ h₄ h₅ h₆, ← hbefore]
      simp only [List.foldlM_append, hmeta, Result.ok_bind]
      split
      · rename_i changes hchanges
        obtain ⟨tools, hfold, hmap⟩ := replay_toolChanges hvalidate hm hmid rfl hafter.tools_le
          hafter.tools_valid hchanges
        refine ⟨some { after with tools }, hfold, ?_⟩
        simp only [Option.map_some, RunCheckpoint.mapTools, hmap]
      · split
        · refine ⟨some after, ?_, rfl⟩
          rw [replay_setTools hvalidate hmid rfl hafter.tools_le hafter.tools_valid]
        · rename_i hsame
          rw [not_ne_iff] at hsame
          refine ⟨some { after with tools := before.tools }, rfl, ?_⟩
          simp only [Option.map_some, RunCheckpoint.mapTools, ← hsame, hm.map_map]

/-! ### Queue changes -/

omit hm

lemma replay_setQueue {state : DurableState} {queue : List QueueItem} (hstate : state.Valid)
    (hqueue : QueueValid queue) :
    [JournalChange.setQueue queue].foldlM (applyChangeWith validate) state =
      .ok { state with queue } := by
  have hbound : ¬maxQueueItems < queue.length := Nat.not_lt_of_le hqueue.length_le
  have hedit : editState state (.setQueue queue) = .ok { state with queue } := by
    simp only [editState, if_neg hbound]
  rw [List.foldlM_cons, applyChangeWith_eq_ok hvalidate hedit (hstate.withQueue hqueue),
    Result.ok_bind]
  rfl

lemma replay_appendQueue {state : DurableState} {item : QueueItem} (hstate : state.Valid)
    (hqueue : QueueValid (state.queue ++ [item])) :
    [JournalChange.appendQueue item].foldlM (applyChangeWith validate) state =
      .ok { state with queue := state.queue ++ [item] } := by
  have hlen : ¬maxQueueItems ≤ state.queue.length := by
    have := hqueue.length_le
    rw [List.length_append, List.length_singleton] at this
    omega
  have hfresh : ¬∃ existing ∈ state.queue, existing.id = item.id := by
    rintro ⟨existing, hmem, hid⟩
    have hnodup := hqueue.ids_nodup
    rw [List.map_append, List.nodup_append] at hnodup
    exact hnodup.2.2 _ (List.mem_map_of_mem hmem) _ (by simp) hid
  have hedit : editState state (.appendQueue item) =
      .ok { state with queue := state.queue ++ [item] } := by
    simp [editState, hlen]
    simpa using hfresh
  rw [List.foldlM_cons, applyChangeWith_eq_ok hvalidate hedit (hstate.withQueue hqueue),
    Result.ok_bind]
  rfl

omit hvalidate in
/-- The one position where two queues of equal length differ. -/
lemma zip_eq_of_filter_singleton {before after : List QueueItem} {p : QueueItem × QueueItem}
    (hlen : before.length = after.length)
    (h : (before.zip after).filter (fun p => p.1 != p.2) = [p]) :
    ∃ left right, before = left ++ p.1 :: right ∧ after = left ++ p.2 :: right := by
  induction before generalizing after with
  | nil => cases h
  | cons b before ih =>
    obtain ⟨a, after, rfl⟩ := List.exists_cons_of_length_eq_add_one hlen.symm
    have hlen' : before.length = after.length := by simpa using hlen
    rw [List.zip_cons_cons, List.filter_cons] at h
    split at h
    · obtain ⟨rfl, hrest⟩ := List.cons.inj h
      have heq : ∀ q ∈ before.zip after, q.1 = q.2 := by
        simpa [List.filter_eq_nil_iff] using hrest
      have hsame : List.Forall₂ (· = ·) before after := by
        rw [List.forall₂_iff_zip]
        exact ⟨hlen', fun hq => heq _ hq⟩
      rw [List.forall₂_eq_eq_eq] at hsame
      exact ⟨[], before, rfl, by rw [hsame]; rfl⟩
    · rename_i hba
      obtain ⟨left, right, rfl, rfl⟩ := ih hlen' h
      have hba : b = a := by simpa using hba
      exact ⟨b :: left, right, rfl, by rw [hba]; rfl⟩

/-- Queues keep the items they have: a queue of the same length holds the same ids. -/
lemma replay_queueChanges {state : DurableState} {next : List QueueItem} (hstate : state.Valid)
    (hnext : QueueValid next)
    (hids : next.length = state.queue.length →
      next.map QueueItem.id = state.queue.map QueueItem.id) :
    (queueChanges state.queue next).foldlM (applyChangeWith validate) state =
      .ok { state with queue := next } := by
  unfold queueChanges
  split
  · rename_i heq
    simp [← heq]
  split
  · rename_i happend
    obtain ⟨hlen, htake⟩ := happend
    obtain ⟨item, hlast⟩ : ∃ item, next.getLast? = some item := by
      rw [← Option.isSome_iff_exists, List.getLast?_isSome]
      rintro rfl
      simp at hlen
    have heq := Rust.eq_take_append_getLast hlen hlast
    rw [htake] at heq
    rw [hlast, heq]
    exact replay_appendQueue hvalidate hstate (heq ▸ hnext)
  split
  · rename_i hlen
    split
    · rename_i p hp
      obtain ⟨left, right, hbefore, rfl⟩ := zip_eq_of_filter_singleton hlen hp
      have hids := hids hlen.symm
      have hnodup := hstate.queue.ids_nodup
      rw [hbefore, List.map_append, List.map_cons] at hids hnodup
      rw [List.map_append, List.map_cons, List.append_cancel_left_eq, List.cons.injEq] at hids
      have hleft : ∀ item ∈ left, (item.id == p.2.id) = false := by
        intro item hitem
        rw [beq_eq_false_iff_ne, hids.1]
        exact (List.nodup_append.mp hnodup).2.2 _ (List.mem_map_of_mem hitem) _
          List.mem_cons_self
      have hupdate : Rust.updateFirst (fun existing => existing.id == p.2.id) (fun _ => .ok p.2)
          ("durable journal queue path not found: " ++ p.2.id) state.queue =
            .ok (left ++ p.2 :: right) :=
        Rust.updateFirst_eq_ok.mpr
          ⟨left, p.1, p.2, right, hbefore, rfl, hleft, by simp [hids.1], rfl⟩
      have hedit : editState state (.updateQueue p.2) =
          .ok { state with queue := left ++ p.2 :: right } := by
        simp only [editState, hupdate, Result.ok_bind]
      rw [List.foldlM_cons, applyChangeWith_eq_ok hvalidate hedit (hstate.withQueue hnext),
        Result.ok_bind]
      rfl
    · exact replay_setQueue hvalidate hstate hnext
  · exact replay_setQueue hvalidate hstate hnext

/-! ### The whole delta -/

omit hvalidate in
/-- The changes of a delta that come before those of the queue. -/
def changesBeforeQueue (current next : DurableState) : List JournalChange :=
  (if current.workflow ≠ next.workflow then workflowChanges current.workflow next.workflow
  else []) ++
  (if current.nextRunId ≠ next.nextRunId ∨ current.nextQueueId ≠ next.nextQueueId then
    [.setCounters next.nextRunId next.nextQueueId]
  else []) ++
  runChanges current.run next.run

omit hvalidate in
lemma journalChanges_eq (current next : DurableState) :
    journalChanges current next =
      changesBeforeQueue current next ++ queueChanges current.queue next.queue := rfl

include hm

lemma replay_changesBeforeQueue {stored next : DurableState} (hstored : stored.Valid)
    (hworkflow : ∀ w ∈ next.workflow, w.Valid) (hrun : ∀ r ∈ next.run, r.Valid) :
    ∃ run, (changesBeforeQueue (stored.mapTools m) next).foldlM (applyChangeWith validate) stored =
        .ok { next with revision := stored.revision, run, queue := stored.queue } ∧
      run.map (RunCheckpoint.mapTools m) = next.run.map (RunCheckpoint.mapTools m) := by
  have hfirst : (if (stored.mapTools m).workflow ≠ next.workflow then
        workflowChanges (stored.mapTools m).workflow next.workflow else []).foldlM
      (applyChangeWith validate) stored = .ok { stored with workflow := next.workflow } := by
    split
    · exact replay_workflowChanges hvalidate hstored hworkflow
    · rename_i hsame
      have hsame : stored.workflow = next.workflow := not_ne_iff.mp hsame
      simp [← hsame]
  let s₁ : DurableState := { stored with workflow := next.workflow }
  have h₁ : s₁.Valid := hstored.withWorkflow hworkflow
  let s₂ : DurableState :=
    { s₁ with nextRunId := next.nextRunId, nextQueueId := next.nextQueueId }
  have h₂ : s₂.Valid := ⟨h₁.workflow, h₁.run, h₁.queue⟩
  have hcounters : (if (stored.mapTools m).nextRunId ≠ next.nextRunId ∨
          (stored.mapTools m).nextQueueId ≠ next.nextQueueId then
        [JournalChange.setCounters next.nextRunId next.nextQueueId] else []).foldlM
      (applyChangeWith validate) s₁ = .ok s₂ := by
    have hedit : editState s₁ (.setCounters next.nextRunId next.nextQueueId) = .ok s₂ := rfl
    split
    · rw [List.foldlM_cons, applyChangeWith_eq_ok hvalidate hedit h₂, Result.ok_bind]
      rfl
    · rename_i hsame
      obtain ⟨hrunId, hqueueId⟩ := not_or.mp hsame
      have hrunId : stored.nextRunId = next.nextRunId := not_ne_iff.mp hrunId
      have hqueueId : stored.nextQueueId = next.nextQueueId := not_ne_iff.mp hqueueId
      simp [s₂, s₁, ← hrunId, ← hqueueId]
  obtain ⟨run, hfold, hmap⟩ := replay_runChanges hvalidate hm h₂ hrun
  refine ⟨run, ?_, hmap⟩
  rw [changesBeforeQueue, List.foldlM_append, List.foldlM_append, hfirst, Result.ok_bind,
    hcounters, Result.ok_bind]
  exact hfold

theorem replay_journalChanges {stored next : DurableState} (hstored : stored.Valid)
    (hnext : next.Valid)
    (hids : next.queue.length = stored.queue.length →
      next.queue.map QueueItem.id = stored.queue.map QueueItem.id) :
    ∃ run, (journalChanges (stored.mapTools m) next).foldlM (applyChangeWith validate) stored =
        .ok { next with revision := stored.revision, run } ∧
      run.map (RunCheckpoint.mapTools m) = next.run.map (RunCheckpoint.mapTools m) := by
  obtain ⟨run, hfold, hmap⟩ :=
    replay_changesBeforeQueue hvalidate hm hstored hnext.workflow hnext.run
  have hmid := valid_of_foldlM hvalidate hstored hfold
  refine ⟨run, ?_, hmap⟩
  rw [journalChanges_eq, List.foldlM_append, hfold, Result.ok_bind]
  exact replay_queueChanges hvalidate hmid hnext.queue hids

end Replay

end Durable
