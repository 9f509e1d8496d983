import RpiPackage.Durable.RoundTrip
import RpiPackage.Durable.Transition

/-!
# A session and its journal

A session holds a durable state and commits the result of each transition to the branch of the
native host. The host either refuses an append or logs the record as an entry with a native id of
its own. After every step the branch decodes to the state the session holds.
-/

namespace Durable

open Json Serde

/-! ### The native branch -/

inductive AppendOutcome where
  | fails (error : String)
  | logs (entryId : EntryId)

def nativeAppend (outcome : AppendOutcome) (payload : Value) :
    StateM (List Value) (Except String String) := fun log =>
  match outcome with
  | .fails error => (.error error, log)
  | .logs entryId => (.ok entryId.value, log ++ [nativeEntry entryId payload])

/-! ### Steps of a session -/

structure Session where
  state : DurableState
  journalMeta : JournalMeta
  log : List Value

def Session.empty : Session := ⟨DurableState.default, JournalMeta.default, []⟩

def Session.commit (s : Session) (next : DurableState) (outcome : AppendOutcome) : Session :=
  match commitCandidate s.state s.journalMeta next (nativeAppend outcome) s.log with
  | (.ok (state, journalMeta), log) => ⟨state, journalMeta, log⟩
  | (.error _, log) => { s with log }

def Session.step (sha256 : List UInt8 → Vector UInt8 32) (s : Session)
    (p : Transition × AppendOutcome) : Session :=
  match p.1.apply sha256 s.state with
  | .ok next => s.commit next p.2
  | .error _ => s

def Session.run (sha256 : List UInt8 → Vector UInt8 32)
    (steps : List (Transition × AppendOutcome)) : Session :=
  steps.foldl (Session.step sha256) Session.empty

/-- The host's log and the answer of a commit, by what the commit has prepared. -/
lemma commitCandidate_nativeAppend (current : DurableState) (journalMeta : JournalMeta)
    (next : DurableState) (outcome : AppendOutcome) (log : List Value) :
    commitCandidate current journalMeta next (nativeAppend outcome) log =
      match prepareCommit current journalMeta next, outcome with
      | .error error, _ => (.error error, log)
      | .ok none, _ => (.ok (current, journalMeta), log)
      | .ok (some _), .fails error => (.error error, log)
      | .ok (some (committed, record, snapshot)), .logs entryId =>
        (.ok (committed, journalMeta.committed snapshot entryId.value),
          log ++ [nativeEntry entryId (appendPayload record)]) := by
  unfold commitCandidate
  rcases prepareCommit current journalMeta next with error | _ | ⟨committed, record, snapshot⟩
  · cases outcome <;> rfl
  · cases outcome <;> rfl
  · cases outcome <;> rfl

/-- A commit either leaves the session as it is or logs what it prepared. -/
lemma Session.commit_cases (s : Session) (next : DurableState) (outcome : AppendOutcome) :
    s.commit next outcome = s ∨ ∃ committed record snapshot entryId,
      prepareCommit s.state s.journalMeta next = .ok (some (committed, record, snapshot)) ∧
      s.commit next outcome = ⟨committed, s.journalMeta.committed snapshot entryId.value,
        s.log ++ [nativeEntry entryId (appendPayload record)]⟩ := by
  unfold Session.commit
  rw [commitCandidate_nativeAppend]
  rcases hprepare : prepareCommit s.state s.journalMeta next with
    error | _ | ⟨committed, record, snapshot⟩
  · exact .inl rfl
  · exact .inl rfl
  · cases outcome with
    | fails error => exact .inl rfl
    | logs entryId => exact .inr ⟨committed, record, snapshot, entryId, rfl, rfl⟩

/-! ### What every session keeps -/

/-- The items were numbered by the counter, and the counter grows no faster than the revision. -/
structure DurableState.Numbered (state : DurableState) : Prop where
  counter_le : state.nextQueueId.toNat ≤ state.revision.toNat
  ids : ∀ item ∈ state.queue, ∃ n ≤ state.nextQueueId.toNat, item.id = "item-" ++ toString n

lemma itemId_inj {n k : Nat} (h : "item-" ++ toString n = "item-" ++ toString k) : n = k := by
  have hdigits : n.repr.toList = k.repr.toList := by
    have := congrArg String.toList h
    rwa [String.toList_append, String.toList_append, List.append_cancel_left_eq] at this
  rw [Nat.toList_repr, Nat.toList_repr] at hdigits
  rw [← Nat.ofDigitChars_ten_toDigits (n := n), hdigits, Nat.ofDigitChars_ten_toDigits]

/-- While revisions are left, the next item gets an id of its own. -/
lemma DurableState.Numbered.nextItemId_fresh {state : DurableState} (h : state.Numbered)
    (hrevision : state.revision.toNat + 1 < 2 ^ 64) :
    nextItemId state ∉ state.queue.map QueueItem.id := by
  intro hmem
  obtain ⟨item, hitem, hid⟩ := List.mem_map.mp hmem
  obtain ⟨n, hn, hitem⟩ := h.ids item hitem
  have heq := itemId_inj (hitem.symm.trans hid)
  rw [Rust.toNat_saturatingSucc] at heq
  have := h.counter_le
  omega

/-- Committing an edit keeps the items numbered. -/
lemma DurableState.Numbered.commit {enqueues : Prop} {before after : DurableState}
    (h : before.Numbered) (hedit : Edit enqueues before after) {revision : UInt64}
    (hrevision : revision.toNat = before.revision.toNat + 1) :
    (stamped revision after).Numbered := by
  have hcounter := h.counter_le
  cases hedit with
  | workflow | run => exact ⟨by simp [stamped, hrevision]; omega, h.ids⟩
  | move left right item item' hqueue hid =>
    refine ⟨by simp [stamped, hrevision]; omega, fun i hi => ?_⟩
    have hids := h.ids
    rw [hqueue] at hids
    rcases List.mem_append.mp hi with hi | hi
    · exact hids i (List.mem_append_left _ hi)
    rcases List.mem_cons.mp hi with rfl | hi
    · rw [hid]
      exact hids item (by simp)
    · exact hids i (by simp [hi])
  | enqueue item _ _ _ hid =>
    have hsucc := Rust.toNat_saturatingSucc before.nextQueueId
    refine ⟨by simp [stamped, hrevision]; omega, fun i hi => ?_⟩
    rcases List.mem_append.mp hi with hi | hi
    · obtain ⟨n, hn, hi⟩ := h.ids i hi
      refine ⟨n, ?_, hi⟩
      exact Nat.le_trans hn (UInt64.le_iff_toNat_le.mp (Rust.le_saturatingSucc _))
    · obtain rfl := List.mem_singleton.mp hi
      exact ⟨_, Nat.le_refl _, hid⟩

/-- What holds of a session after any steps. -/
structure Session.Inv (s : Session) : Prop where
  decodes : decodeBranch s.log = .ok (s.state, s.journalMeta)
  anchored : s.journalMeta.anchorEntryId = s.log.getLast?.bind branchEntryIdentity
  commits_lt : s.journalMeta.commitsSinceSnapshot < snapshotInterval
  numbered : s.state.Numbered

lemma Session.Inv.empty : Session.empty.Inv where
  decodes := rfl
  anchored := rfl
  commits_lt := by decide
  numbered := ⟨Nat.le_refl _, nofun⟩

/-- Below the snapshot interval the reader counts the commits as the writer does. -/
lemma succ_of_lt_snapshotInterval {n : UInt64} (h : n < snapshotInterval) :
    Rust.saturatingSucc n = n + 1 := by
  have hn : n.toNat < 32 := UInt64.lt_iff_toNat_lt.mp h
  exact if_pos (by omega)

lemma Session.Inv.step (sha256 : List UInt8 → Vector UInt8 32) {s : Session} (h : s.Inv)
    (p : Transition × AppendOutcome) : (s.step sha256 p).Inv := by
  unfold Session.step
  split
  · rename_i next hnext
    have hedit := Transition.apply_edit sha256 hnext
    rcases s.commit_cases next p.2 with heq | ⟨committed, record, snapshot, entryId, hprep, heq⟩
    · rw [heq]
      exact h
    · rw [heq]
      obtain ⟨-, ⟨revision, hrevision, rfl⟩, -, hrecord⟩ := prepareCommit_eq_some hprep
      have hlt : s.state.revision.toNat + 1 < 2 ^ 64 := hrevision ▸ revision.toNat_lt
      have hvalid := hedit.valid (decodeBranch_valid h.decodes)
        fun _ => h.numbered.nextItemId_fresh hlt
      rw [← s.state.mapTools_id] at hprep
      obtain ⟨result, hdecode, hresult⟩ := decodeBranch_append_commit Retouch.id h.decodes hprep
        hvalid hedit.ids_eq (branchEnvelope_nativeEntry entryId record)
      rw [DurableState.mapTools_id, DurableState.mapTools_id] at hresult
      refine ⟨?_, by simp [JournalMeta.committed, branchEntryIdentity_nativeEntry], ?_,
        h.numbered.commit hedit hrevision⟩
      · rw [hdecode, hresult, succ_of_lt_snapshotInterval h.commits_lt]
        rfl
      · rcases hrecord with ⟨rfl, -⟩ | ⟨rfl, -, -, -, hinterval⟩
        · exact (by decide : (0 : UInt64) < snapshotInterval)
        · exact hinterval
  · exact h

theorem Session.run_inv (sha256 : List UInt8 → Vector UInt8 32)
    (steps : List (Transition × AppendOutcome)) : (Session.run sha256 steps).Inv :=
  List.foldlRecOn steps _ .empty fun _ h p _ => h.step sha256 p

/-- After any steps the log decodes to the state and the metadata in memory, which is anchored at
the last entry. -/
theorem Session.run_roundTrip (sha256 : List UInt8 → Vector UInt8 32)
    (steps : List (Transition × AppendOutcome)) :
    decodeBranch (Session.run sha256 steps).log =
        .ok ((Session.run sha256 steps).state, (Session.run sha256 steps).journalMeta) ∧
      (Session.run sha256 steps).journalMeta.anchorEntryId =
        (Session.run sha256 steps).log.getLast?.bind branchEntryIdentity :=
  ⟨(Session.run_inv sha256 steps).decodes, (Session.run_inv sha256 steps).anchored⟩

end Durable
