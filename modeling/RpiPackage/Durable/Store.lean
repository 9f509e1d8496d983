import RpiPackage.Durable.Action
import RpiPackage.Durable.RoundTrip

/-!
# The store of the plugin

The state the plugin keeps in memory between calls, with the append it asks of the host, the
restore of a branch and the commit of a mutation. Each function here runs while the store is
locked, so it is one step of a client. The payloads issued to the host are recorded in order.
-/

namespace Durable

open Json

structure Store where
  state : DurableState
  journalMeta : JournalMeta
  initialized : Bool
  restoreError : Option String

/-- `Store::default()`. -/
def Store.default : Store := ⟨DurableState.default, JournalMeta.default, false, none⟩

/-! ### Appends -/

def appendEntryIdentity (response : Value) : Option String :=
  match response.get "entryId" with
  | some (.string value) => if value ≠ "" then some value else none
  | _ => none

/-- What the plugin makes of the answer to an append. -/
def acknowledge (reply : Except String Value) : Except String String :=
  match reply with
  | .error error =>
    -- a call that succeeded with an unreadable answer may have committed
    if Rust.startsWith error "invalid runtime response:" then
      .error ("durable append acknowledgement is unknown: " ++ error)
    else .error error
  | .ok response =>
    match appendEntryIdentity response with
    | some entryId => .ok entryId
    | none =>
      .error ("durable append acknowledgement is unknown: AppendEntry returned no usable entryId; "
        ++ "durable journal is unusable until the branch is explicitly reloaded")

def isUnknown (error : String) : Bool :=
  Rust.startsWith error "durable append acknowledgement is unknown:"

def appendEntry (reply : Except String Value) (payload : Value) :
    StateM (List Value) (Except String String) := do
  modify (· ++ [payload])
  return acknowledge reply

/-! ### Restores -/

/-- The answers of the host during a restore. -/
structure RestoreReply where
  branch : Except String Value
  append : Except String Value

/-- The state and the metadata of a branch, with the truncated tool calls marked. -/
def loadBranch (branch : Except String Value) : Except String (DurableState × JournalMeta) := do
  let value ← branch
  if (value.get "filtered").bind Value.asBool ≠ some true then
    throw "GetSessionBranch must confirm filtered: true; upgrade the native host"
  match (value.get "entries").bind Value.asArray with
  | none => throw "GetSessionBranch returned no valid entries array"
  | some entries =>
    let (restored, journalMeta) ← decodeBranch entries
    return (markUnresolvableLegacyTools restored, journalMeta)

def restoreStateInner (reply : RestoreReply) : StateM (List Value) (Except String Store) := do
  match loadBranch reply.branch with
  | .error error => return .error error
  | .ok (restored, journalMeta) =>
    if markInterrupted restored ≠ restored then
      match ← commitCandidate restored journalMeta (markInterrupted restored)
          (appendEntry reply.append) with
      | .error error => return .error error
      | .ok (restored, journalMeta) => return .ok ⟨restored, journalMeta, true, none⟩
    else return .ok ⟨restored, journalMeta, true, none⟩

/-- The store after a restore that failed. -/
def failRestore (error : String) : Store :=
  ⟨DurableState.default, JournalMeta.default, true, some error⟩

def restoreState (reply : RestoreReply) : StateM (List Value) (Except String Unit × Store) := do
  match ← restoreStateInner reply with
  | .ok store => return (.ok (), store)
  | .error error => return (.error error, failRestore error)

/-- The first caller restores the branch; the others find the store initialized or failed. -/
def Store.ensureInitialized (store : Store) (reply : RestoreReply) :
    StateM (List Value) (Except String Unit × Store) := do
  match store.restoreError with
  | some error => return (.error ("durable branch restore failed: " ++ error), store)
  | none =>
    if store.initialized then return (.ok (), store)
    else
      match ← restoreState reply with
      | (.ok _, store) => return (.ok (), store)
      | (.error error, store) => return (.error ("durable branch restore failed: " ++ error), store)

/-! ### Commits -/

def Store.commitState (store : Store) (current next : DurableState) (reply : Except String Value) :
    StateM (List Value) (Except String DurableState × Store) := do
  match store.restoreError with
  | some error => return (.error ("durable branch restore failed: " ++ error), store)
  | none =>
    if store.state ≠ current then
      return (.error "durable state changed concurrently; retry the operation", store)
    else
      match ← commitCandidate current store.journalMeta next (appendEntry reply) with
      | .ok (state, journalMeta) => return (.ok state, { store with state, journalMeta })
      | .error error =>
        if isUnknown error then
          return (.error error, { store with initialized := true, restoreError := some error })
        else return (.error error, store)

/-! ### What an append can do -/

/-- A payload that commits `next` on top of a state. -/
def Prepares (current : DurableState) (journalMeta : JournalMeta) (next committed : DurableState)
    (snapshot : Bool) (payload : Value) : Prop :=
  ∃ record, prepareCommit current journalMeta next = .ok (some (committed, record, snapshot)) ∧
    payload = appendPayload record

lemma commitCandidate_appendEntry (current : DurableState) (journalMeta : JournalMeta)
    (next : DurableState) (reply : Except String Value) (issued : List Value) :
    commitCandidate current journalMeta next (appendEntry reply) issued =
      match prepareCommit current journalMeta next, acknowledge reply with
      | .error error, _ => (.error error, issued)
      | .ok none, _ => (.ok (current, journalMeta), issued)
      | .ok (some (_, record, _)), .error error =>
        (.error error, issued ++ [appendPayload record])
      | .ok (some (committed, record, snapshot)), .ok entryId =>
        (.ok (committed, journalMeta.committed snapshot entryId),
          issued ++ [appendPayload record]) := by
  unfold commitCandidate appendEntry
  rcases prepareCommit current journalMeta next with error | _ | ⟨committed, record, snapshot⟩
  · cases acknowledge reply <;> rfl
  · cases acknowledge reply <;> rfl
  · cases acknowledge reply <;> rfl

/-- A commit that fails before its append has not asked the host for anything. -/
lemma isUnknown_of_prepareCommit {current next : DurableState} {journalMeta : JournalMeta}
    {error : String} (h : prepareCommit current journalMeta next = .error error) :
    isUnknown error = false := by
  unfold prepareCommit at h
  split at h
  · cases h
  split at h
  · obtain rfl := Except.error.inj h
    rfl
  dsimp only at h
  split at h
  · obtain rfl := Except.error.inj h
    rfl
  split at h <;> cases h

/-- A commit on top of the state the store holds. -/
lemma Store.commitState_current {store : Store} (hfree : store.restoreError = none)
    (next : DurableState) (reply : Except String Value) (issued : List Value) :
    store.commitState store.state next reply issued =
      match prepareCommit store.state store.journalMeta next, acknowledge reply with
      | .error error, _ => ((.error error, store), issued)
      | .ok none, _ => ((.ok store.state, store), issued)
      | .ok (some (_, record, _)), .error error =>
        ((.error error,
          if isUnknown error then { store with initialized := true, restoreError := some error }
          else store), issued ++ [appendPayload record])
      | .ok (some (committed, record, snapshot)), .ok entryId =>
        ((.ok committed, { store with
          state := committed, journalMeta := store.journalMeta.committed snapshot entryId }),
          issued ++ [appendPayload record]) := by
  obtain ⟨state, journalMeta, initialized, restoreError⟩ := store
  obtain rfl : restoreError = none := hfree
  unfold Store.commitState
  simp only [ne_eq, not_true_eq_false, ite_false, bind, StateT.bind, commitCandidate_appendEntry]
  rcases hprepare : prepareCommit state journalMeta next with
    error | _ | ⟨committed, record, snapshot⟩
  · simp only [isUnknown_of_prepareCommit hprepare]
    rfl
  · rfl
  · rcases acknowledge reply with error | entryId
    · by_cases hunknown : isUnknown error = true
      · simp only [hunknown, ite_true]
        rfl
      · simp only [hunknown]
        rfl
    · rfl

/-- Everything a commit can do: be refused, find nothing to write, or issue one append of what it
prepared on top of the store, which the host refuses, leaves unknown or logs. -/
inductive Store.CommitOutcome (store : Store) (current next : DurableState)
    (reply : Except String Value) : Except String DurableState → Store → List Value → Prop where
  | refused (error : String) : CommitOutcome store current next reply (.error error) store []
  | unchanged (free : store.restoreError = none) (current_eq : store.state = current)
      (next_eq : next = current) : CommitOutcome store current next reply (.ok current) store []
  | failed (error : String) (committed : DurableState) (snapshot : Bool) (payload : Value)
      (free : store.restoreError = none) (current_eq : store.state = current)
      (prepares : Prepares current store.journalMeta next committed snapshot payload)
      (answer : acknowledge reply = .error error) :
      CommitOutcome store current next reply (.error error)
        (if isUnknown error then { store with initialized := true, restoreError := some error }
        else store) [payload]
  | logged (entryId : String) (committed : DurableState) (snapshot : Bool) (payload : Value)
      (free : store.restoreError = none) (current_eq : store.state = current)
      (prepares : Prepares current store.journalMeta next committed snapshot payload)
      (answer : acknowledge reply = .ok entryId) :
      CommitOutcome store current next reply (.ok committed)
        { store with
          state := committed, journalMeta := store.journalMeta.committed snapshot entryId }
        [payload]

lemma Store.commitState_outcome (store : Store) (current next : DurableState)
    (reply : Except String Value) :
    store.CommitOutcome current next reply (store.commitState current next reply []).1.1
      (store.commitState current next reply []).1.2 (store.commitState current next reply []).2 := by
  rcases hfree : store.restoreError with _ | error
  · by_cases hcurrent : store.state = current
    · subst hcurrent
      rw [store.commitState_current hfree]
      rcases hprepare : prepareCommit store.state store.journalMeta next with
        error | _ | ⟨committed, record, snapshot⟩
      · exact .refused error
      · exact .unchanged hfree rfl (prepareCommit_eq_none hprepare)
      · rcases hanswer : acknowledge reply with error | entryId
        · exact .failed error committed snapshot _ hfree rfl ⟨record, hprepare, rfl⟩ hanswer
        · exact .logged entryId committed snapshot _ hfree rfl ⟨record, hprepare, rfl⟩ hanswer
    · simp only [Store.commitState, hfree, ne_eq, hcurrent, not_false_eq_true, ite_true]
      exact .refused _
  · simp only [Store.commitState, hfree]
    exact .refused _

/-- Everything a restore can do, with what it issues. -/
inductive RestoreOutcome (reply : RestoreReply) : Except String Store → List Value → Prop where
  | refused (error : String) : RestoreOutcome reply (.error error) []
  | clean (restored : DurableState) (journalMeta : JournalMeta)
      (loads : loadBranch reply.branch = .ok (restored, journalMeta))
      (settled : markInterrupted restored = restored) :
      RestoreOutcome reply (.ok ⟨restored, journalMeta, true, none⟩) []
  | failed (error : String) (restored committed : DurableState) (journalMeta : JournalMeta)
      (snapshot : Bool) (payload : Value)
      (loads : loadBranch reply.branch = .ok (restored, journalMeta))
      (prepares : Prepares restored journalMeta (markInterrupted restored) committed snapshot
        payload) (answer : acknowledge reply.append = .error error) :
      RestoreOutcome reply (.error error) [payload]
  | logged (entryId : String) (restored committed : DurableState) (journalMeta : JournalMeta)
      (snapshot : Bool) (payload : Value)
      (loads : loadBranch reply.branch = .ok (restored, journalMeta))
      (prepares : Prepares restored journalMeta (markInterrupted restored) committed snapshot
        payload) (answer : acknowledge reply.append = .ok entryId) :
      RestoreOutcome reply
        (.ok ⟨committed, journalMeta.committed snapshot entryId, true, none⟩) [payload]

lemma restoreStateInner_outcome {reply : RestoreReply} {result : Except String Store}
    {issued : List Value} (h : restoreStateInner reply [] = (result, issued)) :
    RestoreOutcome reply result issued := by
  obtain ⟨rfl, rfl⟩ := Prod.ext_iff.mp h
  unfold restoreStateInner
  rcases hload : loadBranch reply.branch with error | ⟨restored, journalMeta⟩
  · exact .refused error
  · by_cases hsettled : markInterrupted restored = restored
    · simp only [ne_eq, hsettled, not_true_eq_false, ite_false]
      exact .clean restored journalMeta hload hsettled
    · simp only [ne_eq, hsettled, not_false_eq_true, ite_true, bind, StateT.bind,
        commitCandidate_appendEntry]
      rcases hprepare : prepareCommit restored journalMeta (markInterrupted restored) with
        error | _ | ⟨committed, record, snapshot⟩
      · exact .refused error
      · exact absurd (prepareCommit_eq_none hprepare) hsettled
      · rcases hanswer : acknowledge reply.append with error | entryId
        · exact .failed error restored committed journalMeta snapshot _ hload
            ⟨record, hprepare, rfl⟩ hanswer
        · exact .logged entryId restored committed journalMeta snapshot _ hload
            ⟨record, hprepare, rfl⟩ hanswer

/-- A restore only appends the repair of the branch it has just read. -/
lemma RestoreOutcome.prepares {reply : RestoreReply} {result : Except String Store}
    {issued : List Value} (h : RestoreOutcome reply result issued) {payload : Value}
    (hissued : payload ∈ issued) :
    ∃ restored journalMeta committed snapshot,
      loadBranch reply.branch = .ok (restored, journalMeta) ∧
      Prepares restored journalMeta (markInterrupted restored) committed snapshot payload := by
  cases h with
  | refused | clean => cases hissued
  | failed error restored committed journalMeta snapshot _ loads prepares
  | logged entryId restored committed journalMeta snapshot _ loads prepares =>
    obtain rfl := List.mem_singleton.mp hissued
    exact ⟨restored, journalMeta, committed, snapshot, loads, prepares⟩

end Durable
