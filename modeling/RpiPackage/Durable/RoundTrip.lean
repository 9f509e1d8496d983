import RpiPackage.Durable.Replay

/-!
# Reading back a commit

The reader of the branch and the writer of commits agree: after a commit is logged, the branch
decodes to the state the commit stored, up to a retouch of tool calls that separated the two
before.
-/

namespace Durable

open Json Serde AnchoredLog

/-! ### Decoding as a replay of the selected records -/

lemma decodeBranch_eq (entries : List Value) :
    decodeBranch entries =
      parseEntries parseRecord entries >>= fun log => select isSnapshot log >>= replayRecords := by
  unfold decodeBranch
  refine congrArg _ (funext fun log => ?_)
  rw [← selectIndexed_eq_select isSnapshot 0 log]
  rcases splitIndexed 0 log with ⟨records, invalid⟩
  cases h : selectIndexed isSnapshot records invalid <;> simp [h]

lemma decodeBranch_eq_ok {entries : List Value} {r : DurableState × JournalMeta} :
    decodeBranch entries = .ok r ↔ ∃ log records, parseEntries parseRecord entries = .ok log ∧
      select isSnapshot log = .ok records ∧ replayRecords records = .ok r := by
  rw [decodeBranch_eq, Result.bind_eq_ok]
  simp only [Result.bind_eq_ok, exists_and_left]

lemma parseEntries_eq_ok {ρ : Type} {parse : String → Value → Except String ρ}
    {entries : List Value} {log : List (Except String ρ)} :
    parseEntries parse entries = .ok log ↔ ∃ payloads, entries.mapM branchEnvelope = .ok payloads ∧
      log = payloads.map fun p => parse p.1 p.2 := by
  induction entries generalizing log with
  | nil =>
    constructor
    · intro h
      obtain rfl := Except.ok.inj h
      exact ⟨[], rfl, rfl⟩
    · rintro ⟨payloads, h, rfl⟩
      obtain rfl := Except.ok.inj h
      rfl
  | cons entry entries ih =>
    unfold parseEntries at ih ⊢
    rw [Result.mapM_cons_eq_ok]
    constructor
    · rintro ⟨x, log', hx, hlog, rfl⟩
      obtain ⟨p, hp, hx⟩ := Result.bind_eq_ok.mp hx
      obtain rfl := Except.ok.inj hx
      obtain ⟨payloads, hpayloads, rfl⟩ := ih.mp hlog
      exact ⟨p :: payloads, Result.mapM_cons_eq_ok.mpr ⟨p, payloads, hp, hpayloads, rfl⟩, rfl⟩
    · rintro ⟨payloads, h, rfl⟩
      obtain ⟨p, payloads', hp, hpayloads, rfl⟩ := Result.mapM_cons_eq_ok.mp h
      exact ⟨_, _, Result.bind_eq_ok.mpr ⟨p, hp, rfl⟩, ih.mpr ⟨payloads', hpayloads, rfl⟩, rfl⟩

/-- An entry whose envelope is sound adds one parsed or unparsed record. -/
lemma parseEntries_append {ρ : Type} {parse : String → Value → Except String ρ}
    {entries : List Value} {log : List (Except String ρ)} {entry data : Value} {entryId : String}
    (h : parseEntries parse entries = .ok log) (hentry : branchEnvelope entry = .ok (entryId, data)) :
    parseEntries parse (entries ++ [entry]) = .ok (log ++ [parse entryId data]) := by
  refine Result.mapM_append_ok h ?_
  rw [List.mapM_cons, hentry]
  rfl

/-! ### Records the writer makes -/

/-- What the reader asks of a record. -/
structure JournalRecord.WellFormed (record : JournalRecord JournalKind) : Prop where
  format : unsupportedFormat record = false
  forward : record.baseRevision ≤ record.revision
  snapshot : record.kind = .snapshot → record.changes = none ∧
    ∃ state, record.state = some state ∧ state.revision = record.revision ∧ state.Valid
  delta : record.kind = .delta → record.state = none ∧ ∃ changes, record.changes = some changes ∧
    changes ≠ []

lemma check_eq_ok {record : JournalRecord JournalKind} :
    checkContents record = .ok () ∧ checkSnapshot record = .ok () ↔
      (record.kind = .snapshot → record.changes = none ∧
        ∃ state, record.state = some state ∧ state.revision = record.revision ∧ state.Valid) ∧
      (record.kind = .delta → record.state = none ∧ ∃ changes, record.changes = some changes ∧
        changes ≠ []) := by
  unfold checkContents checkSnapshot
  cases record.kind <;> cases record.state <;> cases record.changes <;>
    simp [validateState_eq_ok]

lemma parseRecord_eq_ok {entryId : String} {data : Value} {branch : BranchRecord JournalKind} :
    parseRecord entryId data = .ok branch ↔
      JournalRecord.decode JournalKind.decode .value data = .ok branch.record ∧
        branch.record.WellFormed ∧ branch.entryId = entryId := by
  simp only [parseRecord, Result.bind_eq_ok, Result.mapError_eq_ok, Result.throw_eq_error,
    Result.error_bind, Result.ite_error_eq_ok, Bool.not_eq_true, UInt64.not_lt]
  constructor
  · rintro ⟨record, hdecode, hformat, ⟨⟩, hcontents, hforward, ⟨⟩, hsnapshot, h⟩
    obtain rfl := Except.ok.inj h
    obtain ⟨h₁, h₂⟩ := check_eq_ok.mp ⟨hcontents, hsnapshot⟩
    exact ⟨hdecode, ⟨hformat, hforward, h₁, h₂⟩, rfl⟩
  · rintro ⟨hdecode, ⟨hformat, hforward, h₁, h₂⟩, rfl⟩
    obtain ⟨hcontents, hsnapshot⟩ := check_eq_ok.mpr ⟨h₁, h₂⟩
    exact ⟨_, hdecode, hformat, (), hcontents, hforward, (), hsnapshot, rfl⟩

/-- A sound record reads back from what was written. -/
lemma JournalRecord.WellFormed.parseRecord {record : JournalRecord JournalKind}
    (h : record.WellFormed) (entryId : String) :
    Durable.parseRecord entryId record.encode = .ok ⟨record, entryId⟩ :=
  parseRecord_eq_ok.mpr ⟨record.decode_encode .value, h, rfl⟩

lemma snapshotRecord_wellFormed {current next : DurableState} (journalMeta : JournalMeta)
    (hforward : current.revision ≤ next.revision) (hnext : next.Valid) :
    (snapshotRecord current next journalMeta).WellFormed where
  format := rfl
  forward := hforward
  snapshot _ := ⟨rfl, next, rfl, rfl, hnext⟩
  delta := nofun

lemma journalRecord_wellFormed {current next : DurableState} (journalMeta : JournalMeta)
    (hforward : current.revision ≤ next.revision) (hchanges : journalChanges current next ≠ []) :
    (journalRecord current next journalMeta).WellFormed where
  format := rfl
  forward := hforward
  snapshot := nofun
  delta _ := ⟨rfl, _, rfl, hchanges⟩

/-! ### Replaying -/

lemma applyRecord_eq_ok {base next : DurableState} {record : JournalRecord JournalKind} :
    applyRecord base record = .ok next ↔ unsupportedFormat record = false ∧
      recordState base record = .ok next ∧ next.revision = record.revision ∧ next.Valid := by
  simp only [applyRecord, Result.throw_eq_error, Result.error_bind, Result.ite_error_eq_ok,
    Bool.not_eq_true, Result.bind_eq_ok, not_not, ne_eq]
  constructor
  · rintro ⟨hformat, next, hnext, hrevision, ⟨⟩, hvalid, h⟩
    obtain rfl := Except.ok.inj h
    exact ⟨hformat, hnext, hrevision, validateState_eq_ok.mp hvalid⟩
  · rintro ⟨hformat, hnext, hrevision, hvalid⟩
    exact ⟨hformat, next, hnext, hrevision, (), validateState_eq_ok.mpr hvalid, rfl⟩

lemma recordState_snapshot {record : JournalRecord JournalKind} {state : DurableState}
    (hkind : record.kind = .snapshot) (hstate : record.state = some state)
    (hchanges : record.changes = none) (base : DurableState) :
    recordState base record = .ok state := by
  simp [recordState, hkind, hstate, hchanges]

lemma recordState_delta {record : JournalRecord JournalKind} {changes : List JournalChange}
    (hkind : record.kind = .delta) (hstate : record.state = none)
    (hchanges : record.changes = some changes) (hne : changes ≠ []) (base : DurableState) :
    recordState base record =
      (fun next => { next with revision := record.revision }) <$>
        changes.foldlM applyChange base := by
  obtain ⟨c, cs, rfl⟩ := List.exists_cons_of_ne_nil hne
  simp only [recordState, hkind, hstate, hchanges, Option.isSome_none, Bool.false_eq_true, if_false]
  rfl

lemma replayDelta_eq_ok {r r' : Replay} {branch : BranchRecord JournalKind} :
    replayDelta r branch = .ok r' ↔ branch.record.kind = .delta ∧
      branch.record.baseRevision = r.restored.revision ∧ branch.record.baseEntryId = r.anchor ∧
      branch.record.revision.toNat = r.restored.revision.toNat + 1 ∧
      ∃ restored, applyRecord r.restored branch.record = .ok restored ∧
        r' = ⟨restored, some branch.entryId, Rust.saturatingSucc r.commitsSinceSnapshot⟩ := by
  have hkind : branch.record.kind ≠ .snapshot ↔ branch.record.kind = .delta := by
    cases branch.record.kind <;> simp
  simp only [replayDelta, Result.throw_eq_error, Result.error_bind, Result.ite_error_eq_ok,
    Bool.or_eq_true, decide_eq_true_eq, not_or, ne_eq, not_not, ← Rust.checkedSucc_eq_some]
  cases hsucc : Rust.checkedSucc r.restored.revision with
  | none => simp
  | some revision =>
    simp only [Result.ite_error_eq_ok, not_not, Result.bind_eq_ok, Option.some.injEq]
    constructor
    · rintro ⟨h₁, ⟨h₂, h₃⟩, h₄, restored, happly, h⟩
      exact ⟨hkind.mp h₁, h₂, h₃, h₄.symm, restored, happly, (Except.ok.inj h).symm⟩
    · rintro ⟨h₁, h₂, h₃, h₄, restored, happly, rfl⟩
      exact ⟨hkind.mpr h₁, ⟨h₂, h₃⟩, h₄.symm, restored, happly, rfl⟩

/-- One more record after a replay that had a base is one more step. -/
lemma replayRecords_append {records : List (BranchRecord JournalKind)} (hne : records ≠ [])
    (branch : BranchRecord JournalKind) :
    replayRecords (records ++ [branch]) = replayRecords records >>= fun r =>
      (fun r' => (r'.restored, ⟨r'.anchor, r'.commitsSinceSnapshot, r.2.forceSnapshot⟩)) <$>
        replayDelta ⟨r.1, r.2.anchorEntryId, r.2.commitsSinceSnapshot⟩ branch := by
  obtain ⟨base, rest, rfl⟩ := List.exists_cons_of_ne_nil hne
  have hbase : replayBase (base :: (rest ++ [branch])) = replayBase (base :: rest) := rfl
  simp only [replayRecords, List.cons_append, hbase, List.drop_succ_cons, List.drop_zero,
    List.foldlM_append]
  rcases replayBase (base :: rest) with e | ⟨start, force⟩
  · rfl
  rcases hv : validateState start.restored with e | ⟨⟩
  · simp [hv]
  rcases hf : rest.foldlM replayDelta start with e | r
  · simp [hv, hf]
  rcases hd : replayDelta r branch with e | r' <;> simp [hv, hf, hd]

/-- What a replay starts from and ends in has been validated. -/
lemma replayRecords_valid {records : List (BranchRecord JournalKind)} {state : DurableState}
    {journalMeta : JournalMeta} (h : replayRecords records = .ok (state, journalMeta)) :
    state.Valid := by
  obtain ⟨⟨start, force⟩, -, h⟩ := Result.bind_eq_ok.mp h
  obtain ⟨hvalid, h⟩ := Result.check_bind_eq_ok.mp h
  obtain ⟨r, hr, h⟩ := Result.bind_eq_ok.mp h
  obtain ⟨rfl, rfl⟩ := Prod.mk.inj (Except.ok.inj h)
  have hfold : ∀ (rest : List (BranchRecord JournalKind)) (r r' : Replay), r.restored.Valid →
      rest.foldlM replayDelta r = .ok r' → r'.restored.Valid := by
    intro rest
    induction rest with
    | nil =>
      intro r r' hr h
      exact Except.ok.inj h ▸ hr
    | cons branch rest ih =>
      intro r r' _ h
      rw [List.foldlM_cons, Result.bind_eq_ok] at h
      obtain ⟨mid, hmid, h⟩ := h
      obtain ⟨-, -, -, -, restored, happly, rfl⟩ := replayDelta_eq_ok.mp hmid
      exact ih _ _ (applyRecord_eq_ok.mp happly).2.2.2 h
  exact hfold _ _ _ (validateState_eq_ok.mp hvalid) hr

lemma decodeBranch_valid {entries : List Value} {state : DurableState} {journalMeta : JournalMeta}
    (h : decodeBranch entries = .ok (state, journalMeta)) : state.Valid := by
  obtain ⟨log, records, -, -, h⟩ := decodeBranch_eq_ok.mp h
  exact replayRecords_valid h

/-- Only an empty replay leaves no anchor. -/
lemma replayRecords_nil : replayRecords [] = .ok (DurableState.default, JournalMeta.default) := by
  rfl

/-! ### Appending to a branch -/

lemma decodeBranch_append_snapshot {entries : List Value} {r : DurableState × JournalMeta}
    {entry : Value} {entryId : String} {record : JournalRecord JournalKind} {state : DurableState}
    (h : decodeBranch entries = .ok r)
    (hentry : branchEnvelope entry = .ok (entryId, record.encode)) (hrecord : record.WellFormed)
    (hkind : record.kind = .snapshot) (hstate : record.state = some state) :
    decodeBranch (entries ++ [entry]) = .ok (state, ⟨some entryId, 0, false⟩) := by
  obtain ⟨log, records, hparse, -, -⟩ := decodeBranch_eq_ok.mp h
  have happend := parseEntries_append hparse hentry
  rw [hrecord.parseRecord] at happend
  have hbranch : isSnapshot ⟨record, entryId⟩ = true := by simp [isSnapshot, hkind]
  refine decodeBranch_eq_ok.mpr ⟨_, _, happend, select_append_base isSnapshot hbranch _, ?_⟩
  obtain ⟨hchanges, state', hstate', hrevision, hvalid⟩ := hrecord.snapshot hkind
  obtain rfl := Option.some.inj (hstate.symm.trans hstate')
  have happly : applyRecord DurableState.default record = .ok state :=
    applyRecord_eq_ok.mpr
      ⟨hrecord.format, recordState_snapshot hkind hstate hchanges _, hrevision, hvalid⟩
  simp [replayRecords, replayBase, hkind, happly, validateState_eq_ok.mpr hvalid]

/-- A logged delta is replayed on top of what the branch decoded to before. -/
lemma decodeBranch_append_delta {entries : List Value} {state : DurableState}
    {journalMeta : JournalMeta} {entry : Value} {entryId : String}
    {record : JournalRecord JournalKind} (h : decodeBranch entries = .ok (state, journalMeta))
    (hentry : branchEnvelope entry = .ok (entryId, record.encode)) (hrecord : record.WellFormed)
    (hkind : record.kind = .delta) (hanchor : journalMeta.anchorEntryId ≠ none) :
    decodeBranch (entries ++ [entry]) =
      (fun r => (r.restored, ⟨r.anchor, r.commitsSinceSnapshot, journalMeta.forceSnapshot⟩)) <$>
        replayDelta ⟨state, journalMeta.anchorEntryId, journalMeta.commitsSinceSnapshot⟩
          ⟨record, entryId⟩ := by
  obtain ⟨log, records, hparse, hselect, hreplay⟩ := decodeBranch_eq_ok.mp h
  have happend := parseEntries_append hparse hentry
  rw [hrecord.parseRecord] at happend
  have hrecords : records ≠ [] := by
    rintro rfl
    obtain ⟨-, rfl⟩ := Prod.mk.inj (Except.ok.inj (replayRecords_nil.symm.trans hreplay))
    exact hanchor rfl
  have hbranch : isSnapshot ⟨record, entryId⟩ = false := by simp [isSnapshot, hkind]
  have hselect' := select_append_ok isSnapshot hbranch log
  rw [hselect, Result.map_ok] at hselect'
  rw [decodeBranch_eq, happend, Result.ok_bind, hselect', Result.ok_bind,
    replayRecords_append hrecords, hreplay, Result.ok_bind]

/-! ### Commits -/

/-- What a commit that reaches its append has decided. -/
lemma prepareCommit_eq_some {current next committed : DurableState} {journalMeta : JournalMeta}
    {record : JournalRecord JournalKind} {snapshot : Bool}
    (h : prepareCommit current journalMeta next = .ok (some (committed, record, snapshot))) :
    next ≠ current ∧
      (∃ revision, revision.toNat = current.revision.toNat + 1 ∧
        committed = stamped revision next) ∧
      journalChanges current committed ≠ [] ∧
      (snapshot = true ∧ record = snapshotRecord current committed journalMeta ∨
        snapshot = false ∧ record = journalRecord current committed journalMeta ∧
          journalMeta.forceSnapshot = false ∧ journalMeta.anchorEntryId ≠ none ∧
          journalMeta.commitsSinceSnapshot + 1 < snapshotInterval) := by
  unfold prepareCommit at h
  split at h
  · cases h
  rename_i hne
  split at h
  · cases h
  rename_i revision hrevision
  refine ⟨hne, ?_⟩
  dsimp only at h
  split at h
  · cases h
  rename_i hchanges
  rw [Bool.not_eq_true, List.isEmpty_eq_false_iff] at hchanges
  split at h
  · obtain ⟨rfl, rfl, rfl⟩ := by simpa using h
    exact ⟨⟨revision, Rust.checkedSucc_eq_some.mp hrevision, rfl⟩, hchanges, .inl ⟨rfl, rfl⟩⟩
  · rename_i hdelta
    obtain ⟨rfl, rfl, rfl⟩ := by simpa using h
    simp only [useSnapshot, Bool.or_eq_true, decide_eq_true_eq, not_or, Bool.not_eq_true,
      Option.isNone_iff_eq_none, UInt64.not_le] at hdelta
    obtain ⟨⟨⟨hforce, hanchor⟩, hinterval⟩, -⟩ := hdelta
    exact ⟨⟨revision, Rust.checkedSucc_eq_some.mp hrevision, rfl⟩, hchanges,
      .inr ⟨rfl, rfl, hforce, hanchor, hinterval⟩⟩

lemma prepareCommit_eq_none {current next : DurableState} {journalMeta : JournalMeta}
    (h : prepareCommit current journalMeta next = .ok none) : next = current := by
  unfold prepareCommit at h
  split at h
  · assumption
  split at h
  · cases h
  dsimp only at h
  split at h
  · cases h
  split at h <;> cases h

lemma stamped_valid {next : DurableState} (h : next.Valid) (revision : UInt64) :
    (stamped revision next).Valid := by
  refine ⟨h.workflow, fun run hrun => ?_, h.queue⟩
  obtain ⟨r, hr, rfl⟩ := Option.map_eq_some_iff.mp hrun
  have hv := h.run r hr
  exact ⟨hv.id_ne, hv.id_le, hv.tools_le, hv.tools_valid⟩

/-- The record a commit appends reads back as the committed state. -/
theorem decodeBranch_append_commit {m : ToolCheckpoint → ToolCheckpoint} (hm : Retouch m)
    {entries : List Value} {stored next committed : DurableState} {journalMeta : JournalMeta}
    {record : JournalRecord JournalKind} {snapshot : Bool} {entry : Value} {entryId : String}
    (hdecode : decodeBranch entries = .ok (stored, journalMeta))
    (hcommit : prepareCommit (stored.mapTools m) journalMeta next =
      .ok (some (committed, record, snapshot)))
    (hnext : next.Valid) (hqueue : next.queue.length = stored.queue.length →
      next.queue.map QueueItem.id = stored.queue.map QueueItem.id)
    (hentry : branchEnvelope entry = .ok (entryId, record.encode)) :
    ∃ result, decodeBranch (entries ++ [entry]) = .ok (result, ⟨some entryId,
        if snapshot then 0 else Rust.saturatingSucc journalMeta.commitsSinceSnapshot, false⟩) ∧
      result.mapTools m = committed.mapTools m := by
  obtain ⟨-, ⟨revision, hrevision, rfl⟩, hne, hrecord⟩ := prepareCommit_eq_some hcommit
  have hvalid := stamped_valid hnext revision
  have hle : stored.revision ≤ revision := by
    rw [UInt64.le_iff_toNat_le]
    exact hrevision ▸ Nat.le_succ _
  rcases hrecord with ⟨rfl, rfl⟩ | ⟨rfl, rfl, hforce, hanchor, -⟩
  · have hsound := snapshotRecord_wellFormed journalMeta hle hvalid
    exact ⟨_, decodeBranch_append_snapshot hdecode hentry hsound rfl rfl, rfl⟩
  · have hstored := decodeBranch_valid hdecode
    obtain ⟨run, hfold, hmap⟩ :=
      replay_journalChanges (fun _ => validateState_eq_ok) hm hstored hvalid hqueue
    have hresult := valid_of_foldlM (fun _ => validateState_eq_ok) hstored hfold
    let delta := journalRecord (stored.mapTools m) (stamped revision next) journalMeta
    have happly : applyRecord stored delta = .ok { stamped revision next with run } := by
      refine applyRecord_eq_ok.mpr
        ⟨rfl, ?_, rfl, ⟨hresult.workflow, hresult.run, hresult.queue⟩⟩
      rw [recordState_delta rfl rfl rfl hne]
      exact congrArg (Functor.map _) hfold
    have hdelta : replayDelta
        ⟨stored, journalMeta.anchorEntryId, journalMeta.commitsSinceSnapshot⟩ ⟨delta, entryId⟩ =
          .ok ⟨_, some entryId, Rust.saturatingSucc journalMeta.commitsSinceSnapshot⟩ :=
      replayDelta_eq_ok.mpr ⟨rfl, rfl, rfl, hrevision, _, happly, rfl⟩
    have hsound := journalRecord_wellFormed journalMeta hle hne
    have happend := decodeBranch_append_delta hdecode hentry hsound rfl hanchor
    rw [hdelta, Result.map_ok, hforce] at happend
    refine ⟨_, happend, ?_⟩
    simp only [DurableState.mapTools, hmap]

/-! ### Deltas -/

end Durable
