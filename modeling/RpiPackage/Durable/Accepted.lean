import RpiPackage.Durable.Session

/-!
# Committing on top of an accepted journal

A journal the reader accepts may hold any ids and counters within the bounds, not only those this
writer makes. Committing an action on top of it keeps it readable, with one exception: an item
enqueued under an id the queue already holds.
-/

namespace Durable

open Json Serde AnchoredLog

lemma ToolCheckpoint.markUnresolvable_retouch : Retouch ToolCheckpoint.markUnresolvable where
  idem tool := by
    unfold markUnresolvable
    by_cases h : legacyToolCallId tool.callId = true ∧ tool.status = .started
    · rw [if_pos h]
      exact if_neg fun h => by simp at h
    · rw [if_neg h, if_neg h]
  callId tool := by unfold markUnresolvable; split <;> rfl
  callKey tool := by unfold markUnresolvable; split <;> rfl
  name tool := by unfold markUnresolvable; split <;> rfl
  params tool := by unfold markUnresolvable; split <;> rfl
  valid tool h := by
    unfold markUnresolvable
    split
    · refine ⟨h.callId_le, h.callKey_ok, h.name_le, h.params_le, ?_⟩
      dsimp only
      split
      · decide
      · exact h.result_le
    · exact h

lemma markUnresolvableLegacyTools_eq (state : DurableState) :
    markUnresolvableLegacyTools state = state.mapTools ToolCheckpoint.markUnresolvable := rfl

lemma Retouch.mapTools_mapTools {m : ToolCheckpoint → ToolCheckpoint} (hm : Retouch m)
    (state : DurableState) : (state.mapTools m).mapTools m = state.mapTools m := by
  have hrun : ∀ run : RunCheckpoint, (run.mapTools m).mapTools m = run.mapTools m := fun run => by
    simp only [RunCheckpoint.mapTools, hm.map_map]
  have hmap : RunCheckpoint.mapTools m ∘ RunCheckpoint.mapTools m = RunCheckpoint.mapTools m :=
    funext hrun
  simp only [DurableState.mapTools, Option.map_map, hmap]

/-! ### An id the queue already holds -/

lemma queueChanges_append (queue : List QueueItem) (item : QueueItem) :
    queueChanges queue (queue ++ [item]) = [.appendQueue item] := by
  have hne : queue ≠ queue ++ [item] := fun h => by simpa using congrArg List.length h
  rw [queueChanges, if_neg hne, if_pos ⟨by simp, by simp⟩]
  simp

lemma appendQueue_fresh {state next : DurableState} {item : QueueItem}
    (h : applyChange state (.appendQueue item) = .ok next) :
    item.id ∉ state.queue.map QueueItem.id := by
  intro hmem
  obtain ⟨existing, hmem, hid⟩ := List.mem_map.mp hmem
  have hany : state.queue.any (fun existing => existing.id == item.id) = true :=
    List.any_eq_true.mpr ⟨existing, hmem, by simp [hid]⟩
  simp [applyChange, applyChangeWith, editState, hany] at h

/-- The changes of such a delta are replayed up to the item that is already there. -/
lemma replay_duplicate {m : ToolCheckpoint → ToolCheckpoint} (hm : Retouch m)
    {stored next final : DurableState} {item : QueueItem} (hstored : stored.Valid)
    (hworkflow : ∀ w ∈ next.workflow, w.Valid) (hrun : ∀ r ∈ next.run, r.Valid)
    (hqueue : next.queue = stored.queue ++ [item])
    (hdup : item.id ∈ stored.queue.map QueueItem.id) :
    (journalChanges (stored.mapTools m) next).foldlM applyChange stored ≠ .ok final := by
  intro hfold
  obtain ⟨run, hbefore, -⟩ :=
    replay_changesBeforeQueue (fun _ => validateState_eq_ok) hm hstored hworkflow hrun
  rw [journalChanges_eq, List.foldlM_append] at hfold
  obtain ⟨mid, hmid, hlast⟩ := Result.bind_eq_ok.mp hfold
  obtain rfl := Except.ok.inj (hbefore.symm.trans hmid)
  have hchanges : queueChanges (stored.mapTools m).queue next.queue = [.appendQueue item] :=
    hqueue ▸ queueChanges_append stored.queue item
  rw [hchanges, List.foldlM_cons] at hlast
  obtain ⟨last, hlast, -⟩ := Result.bind_eq_ok.mp hlast
  exact appendQueue_fresh hlast hdup

/-- A branch is unreadable after a commit that enqueued an id twice, as a snapshot and as a
delta. -/
lemma decodeBranch_append_duplicate {m : ToolCheckpoint → ToolCheckpoint} (hm : Retouch m)
    {entries : List Value} {stored next committed : DurableState} {journalMeta : JournalMeta}
    {record : JournalRecord JournalKind} {snapshot : Bool} {entry params : Value}
    {entryId : String} (hdecode : decodeBranch entries = .ok (stored, journalMeta))
    (haction : enqueueItem (stored.mapTools m) params = .ok next)
    (hcommit : prepareCommit (stored.mapTools m) journalMeta next =
      .ok (some (committed, record, snapshot)))
    (hmem : nextItemId stored ∈ stored.queue.map QueueItem.id)
    (hentry : branchEnvelope entry = .ok (entryId, record.encode))
    (r : DurableState × JournalMeta) : decodeBranch (entries ++ [entry]) ≠ .ok r := by
  intro hr
  obtain ⟨item, -, -, hid, -, hnext⟩ := enqueueItem_eq_ok haction
  obtain ⟨-, ⟨revision, hrevision, rfl⟩, hne, hrecord⟩ := prepareCommit_eq_some hcommit
  have hstored := decodeBranch_valid hdecode
  have hdup : item.id ∈ stored.queue.map QueueItem.id := hid ▸ hmem
  have hqueue : (stamped revision next).queue = stored.queue ++ [item] :=
    congrArg DurableState.queue hnext
  have hle : stored.revision ≤ revision := by
    rw [UInt64.le_iff_toNat_le]
    exact hrevision ▸ Nat.le_succ _
  rcases hrecord with ⟨rfl, rfl⟩ | ⟨rfl, rfl, hforce, hanchor, -⟩
  · -- a snapshot that does not pass validation is an unparsed record, and nothing follows it
    obtain ⟨log, records, hparse, -, -⟩ := decodeBranch_eq_ok.mp hdecode
    have happend := parseEntries_append hparse hentry
    obtain ⟨log', records', hparse', hselect', -⟩ := decodeBranch_eq_ok.mp hr
    obtain rfl := Except.ok.inj (happend.symm.trans hparse')
    rcases hp : parseRecord entryId _ with e | branch
    · rw [hp] at hselect'
      obtain ⟨e', he⟩ := select_append_error isSnapshot log e
      exact nomatch he.symm.trans hselect'
    · obtain ⟨hdecoded, hsound, -⟩ := parseRecord_eq_ok.mp hp
      rw [JournalRecord.decode_encode, Except.ok.injEq] at hdecoded
      rw [← hdecoded] at hsound
      obtain ⟨-, state, hstate, -, hvalid⟩ := hsound.snapshot rfl
      obtain rfl := Option.some.inj hstate
      have hnodup := hvalid.queue.ids_nodup
      rw [hqueue, List.map_append, List.nodup_append] at hnodup
      exact hnodup.2.2 _ hdup _ (by simp) rfl
  · -- the delta appends the item to a queue that already holds its id
    have hsound := journalRecord_wellFormed journalMeta hle hne
    rw [decodeBranch_append_delta hdecode hentry hsound rfl hanchor, Result.map_eq_ok] at hr
    obtain ⟨r', hr', -⟩ := hr
    obtain ⟨-, -, -, -, restored, happly, -⟩ := replayDelta_eq_ok.mp hr'
    obtain ⟨-, hstate, -, -⟩ := applyRecord_eq_ok.mp happly
    rw [recordState_delta rfl rfl rfl hne, Result.map_eq_ok] at hstate
    obtain ⟨final, hfold, -⟩ := hstate
    have hvalid := hm.mapTools_valid hstored
    have hworkflow : ∀ w ∈ (stamped revision next).workflow, w.Valid := hnext ▸ hvalid.workflow
    have hrun : ∀ r ∈ (stamped revision next).run, r.Valid :=
      hnext ▸ (stamped_valid hvalid revision).run
    exact replay_duplicate hm hstored hworkflow hrun hqueue hdup hfold

/-! ### Actions on an accepted journal -/

/-- A commit whose append succeeds either had nothing to write or logged what it prepared. -/
lemma commitCandidate_logs_eq_ok {current next committed : DurableState}
    {journalMeta journalMeta' : JournalMeta} {entries extended : List Value} {entryId : EntryId}
    (h : commitCandidate current journalMeta next (nativeAppend (.logs entryId)) entries =
      (.ok (committed, journalMeta'), extended)) :
    (next = current ∧ committed = current ∧ extended = entries) ∨ ∃ record snapshot,
      prepareCommit current journalMeta next = .ok (some (committed, record, snapshot)) ∧
        extended = entries ++ [nativeEntry entryId (appendPayload record)] := by
  rw [commitCandidate_nativeAppend] at h
  rcases hprepare : prepareCommit current journalMeta next with
    error | _ | ⟨stored, record, snapshot⟩
  · rw [hprepare] at h
    cases h
  · rw [hprepare] at h
    cases h
    exact .inl ⟨prepareCommit_eq_none hprepare, rfl, rfl⟩
  · rw [hprepare] at h
    cases h
    exact .inr ⟨record, snapshot, rfl, rfl⟩

section Action

variable {m : ToolCheckpoint → ToolCheckpoint} {entries extended : List Value}
variable {decoded next committed : DurableState} {journalMeta journalMeta' : JournalMeta}
variable {params : Value} {entryId : EntryId}

/-- What still reads back did not enqueue an id the queue already held. -/
lemma fresh_of_decodeBranch_action (hm : Retouch m)
    (hdecode : decodeBranch entries = .ok (decoded, journalMeta))
    (haction : applyAction (decoded.mapTools m) params = .ok next)
    (hcommit : commitCandidate (decoded.mapTools m) journalMeta next
      (nativeAppend (.logs entryId)) entries = (.ok (committed, journalMeta'), extended))
    {r : DurableState × JournalMeta} (hr : decodeBranch extended = .ok r)
    (henqueue : actionParam params = "enqueue") :
    nextItemId decoded ∉ decoded.queue.map QueueItem.id := by
  intro hmem
  have hitem := applyAction_enqueue henqueue haction
  rcases commitCandidate_logs_eq_ok hcommit with ⟨rfl, -, -⟩ | ⟨record, snapshot, hprepare, rfl⟩
  · obtain ⟨item, -, -, -, -, hitem⟩ := enqueueItem_eq_ok hitem
    simpa using congrArg (fun s => s.queue.length) hitem
  · exact decodeBranch_append_duplicate hm hdecode hitem hprepare hmem
      (branchEnvelope_nativeEntry entryId record) r hr

lemma decodeBranch_action_of_fresh (hm : Retouch m)
    (hdecode : decodeBranch entries = .ok (decoded, journalMeta))
    (haction : applyAction (decoded.mapTools m) params = .ok next)
    (hcommit : commitCandidate (decoded.mapTools m) journalMeta next
      (nativeAppend (.logs entryId)) entries = (.ok (committed, journalMeta'), extended))
    (hfresh : actionParam params = "enqueue" →
      nextItemId decoded ∉ decoded.queue.map QueueItem.id) :
    ∃ r, decodeBranch extended = .ok r ∧ r.1.mapTools m = committed.mapTools m := by
  have hedit := applyAction_edit haction
  rcases commitCandidate_logs_eq_ok hcommit with
    ⟨-, rfl, rfl⟩ | ⟨record, snapshot, hprepare, rfl⟩
  · exact ⟨_, hdecode, (hm.mapTools_mapTools decoded).symm⟩
  · have hvalid := hedit.valid (hm.mapTools_valid (decodeBranch_valid hdecode)) hfresh
    obtain ⟨result, hresult, hmap⟩ := decodeBranch_append_commit hm hdecode hprepare hvalid
      hedit.ids_eq (branchEnvelope_nativeEntry entryId record)
    exact ⟨_, hresult, hmap⟩

/-- A change below the last revision is prepared, as a delta or as a snapshot. -/
lemma prepareCommit_of_changed {current next : DurableState} {revision : UInt64}
    (hne : next ≠ current) (hrevision : Rust.checkedSucc current.revision = some revision)
    (hchanges : journalChanges current (stamped revision next) ≠ []) (journalMeta : JournalMeta) :
    ∃ record snapshot, prepareCommit current journalMeta next =
      .ok (some (stamped revision next, record, snapshot)) := by
  simp only [prepareCommit, if_neg hne, hrevision, List.isEmpty_iff, if_neg hchanges]
  split
  · exact ⟨_, _, rfl⟩
  · exact ⟨_, _, rfl⟩

/-- Whether the state in memory is the decoded one or the repaired one, an action committed on top
of it reads back exactly when it does not enqueue an id the queue already holds. -/
theorem decodeBranch_action_iff {current : DurableState}
    (hdecode : decodeBranch entries = .ok (decoded, journalMeta))
    (hcurrent : current = decoded ∨ current = markUnresolvableLegacyTools decoded)
    (haction : applyAction current params = .ok next)
    (hcommit : commitCandidate current journalMeta next (nativeAppend (.logs entryId)) entries =
      (.ok (committed, journalMeta'), extended)) :
    (∃ r, decodeBranch extended = .ok r ∧
        markUnresolvableLegacyTools r.1 = markUnresolvableLegacyTools committed) ↔
      ¬(actionParam params = "enqueue" ∧
        nextItemId current ∈ current.queue.map QueueItem.id) := by
  rw [not_and]
  rcases hcurrent with rfl | rfl
  · rw [← current.mapTools_id] at haction hcommit
    constructor
    · rintro ⟨r, hr, -⟩
      exact fresh_of_decodeBranch_action .id hdecode haction hcommit hr
    · intro hfresh
      obtain ⟨r, hr, heq⟩ := decodeBranch_action_of_fresh .id hdecode haction hcommit hfresh
      rw [DurableState.mapTools_id, DurableState.mapTools_id] at heq
      exact ⟨r, hr, congrArg _ heq⟩
  · have hm := ToolCheckpoint.markUnresolvable_retouch
    rw [markUnresolvableLegacyTools_eq decoded] at haction hcommit
    constructor
    · rintro ⟨r, hr, -⟩ henqueue
      have hfresh := fresh_of_decodeBranch_action hm hdecode haction hcommit hr henqueue
      exact hfresh
    · intro hfresh
      exact decodeBranch_action_of_fresh hm hdecode haction hcommit hfresh

end Action

/-- An enqueue on the empty journal reads back. -/
theorem decodeBranch_enqueue_on_empty :
    let params : Value := .object [("action", .string "enqueue"), ("text", .string "x")]
    let item : QueueItem := ⟨"item-1", "x", .queued, 1, 1, ""⟩
    let committed : DurableState := { revision := 1, nextQueueId := 1, queue := [item] }
    let record := snapshotRecord .default committed .default
    (∃ r, decodeBranch [nativeEntry ⟨"e1", by decide⟩ (appendPayload record)] = .ok r ∧
        markUnresolvableLegacyTools r.1 = markUnresolvableLegacyTools committed) ↔
      ¬(actionParam params = "enqueue" ∧
        nextItemId .default ∈ DurableState.default.queue.map QueueItem.id) :=
  decodeBranch_action_iff (rfl : decodeBranch [] = .ok (.default, .default)) (.inl rfl) (by rfl)
    (by rfl)

/-! ### A counter behind the ids -/

/-- A snapshot with one item and no counters, which are then read as zero. -/
def behindEntry : Value :=
  .object [("type", .string "custom"), ("id", .string "e1"), ("customType", .string "durable-state"),
    ("data", .object [("format", .string "rpi-durable-journal"), ("version", Serde.number 1),
      ("kind", .string "snapshot"), ("baseRevision", Serde.number 0),
      ("revision", Serde.number 1), ("state", .object [("revision", Serde.number 1),
        ("queue", .array [.object [("id", .string "item-1"), ("text", .string "first"),
          ("status", .string "queued")]])])])]

def behindState : DurableState :=
  { revision := 1, queue := [⟨"item-1", "first", .queued, 0, 0, ""⟩] }

def behindNext : DurableState :=
  { revision := 1, nextQueueId := 1,
    queue := [⟨"item-1", "first", .queued, 0, 0, ""⟩, ⟨"item-1", "second", .queued, 2, 2, ""⟩] }

def behindEnqueue : Value := .object [("action", .string "enqueue"), ("text", .string "second")]

lemma decodeBranch_behindEntry :
    decodeBranch [behindEntry] = .ok (behindState, ⟨some "e1", 0, false⟩) := rfl

/-- Enqueueing on top of it makes a second item of the same id, and the journal unreadable. -/
theorem enqueue_behind_unreadable :
    ¬∀ (entries extended : List Value) (decoded next committed : DurableState)
      (journalMeta journalMeta' : JournalMeta) (params : Value) (entryId : EntryId),
      decodeBranch entries = .ok (decoded, journalMeta) →
      applyAction (markUnresolvableLegacyTools decoded) params = .ok next →
      commitCandidate (markUnresolvableLegacyTools decoded) journalMeta next
        (nativeAppend (.logs entryId)) entries = (.ok (committed, journalMeta'), extended) →
      ∃ r, decodeBranch extended = .ok r ∧
        markUnresolvableLegacyTools r.1 = markUnresolvableLegacyTools committed := by
  intro h
  have hnext : applyAction behindState behindEnqueue = .ok behindNext := by rfl
  obtain ⟨r, extended, hcommit⟩ : ∃ r extended, commitCandidate behindState ⟨some "e1", 0, false⟩
      behindNext (nativeAppend (.logs ⟨"e2", by decide⟩)) [behindEntry] = (.ok r, extended) := by
    have hne : behindNext ≠ behindState := by decide
    have hrevision : Rust.checkedSucc behindState.revision = some 2 := rfl
    have hchanges : journalChanges behindState (stamped 2 behindNext) ≠ [] := by decide
    obtain ⟨record, snapshot, hprepare⟩ :=
      prepareCommit_of_changed hne hrevision hchanges ⟨some "e1", 0, false⟩
    rw [commitCandidate_nativeAppend, hprepare]
    exact ⟨_, _, rfl⟩
  obtain ⟨r', hr', -⟩ := h _ _ _ _ _ _ _ _ _ decodeBranch_behindEntry hnext hcommit
  have hfresh := fresh_of_decodeBranch_action ToolCheckpoint.markUnresolvable_retouch
    decodeBranch_behindEntry hnext hcommit hr' rfl
  exact hfresh (by decide)

end Durable
