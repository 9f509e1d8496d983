import RpiPackage.Durable.Clients
import RpiPackage.Durable.Accepted

/-!
# Every order of steps

What holds of a store that any number of clients share, whatever the order of their steps, of the
restores and of the answers of the host. An append that a client issues commits its request on top
of what the store holds at that moment. An item is claimed once, unless a restore loads a branch
on which it was not claimed. An unknown answer stops the clients until a restore succeeds.
-/

namespace Durable

open Json

/-! ### Claimed items -/

/-- The item an id names. -/
def DurableState.item? (state : DurableState) (id : String) : Option QueueItem :=
  state.queue.find? fun item => item.id == id

/-- The id names an item that cannot be claimed any more. -/
def DurableState.Taken (state : DurableState) (id : String) : Prop :=
  ∃ item, state.item? id = some item ∧ item.status ≠ .queued

lemma ItemMove.ne_queued {before after : QueueStatus} (h : ItemMove before after) :
    after ≠ .queued := by
  cases h <;> exact QueueStatus.noConfusion

/-- No edit makes an item claimable again. -/
lemma Edit.taken {enqueues : Prop} {before after : DurableState} (h : Edit enqueues before after)
    {id : String} (htaken : before.Taken id) : after.Taken id := by
  obtain ⟨found, hfound, hstatus⟩ := htaken
  cases h with
  | workflow | run => exact ⟨found, hfound, hstatus⟩
  | enqueue item =>
    refine ⟨found, ?_, hstatus⟩
    simp only [DurableState.item?] at hfound ⊢
    rw [List.find?_append, hfound, Option.some_or]
  | move left right item item' hqueue hid _ hmove =>
    simp only [DurableState.item?, hqueue, List.find?_append, List.find?_cons] at hfound
    by_cases hitem : item.id = id
    · rcases hleft : left.find? fun item => item.id == id with _ | first
      · refine ⟨item', ?_, hmove.ne_queued⟩
        simp [DurableState.item?, List.find?_append, hleft, hid, hitem]
      · refine ⟨first, ?_, ?_⟩
        · simp [DurableState.item?, List.find?_append, hleft]
        · rw [hleft, Option.some_or, Option.some.injEq] at hfound
          exact hfound ▸ hstatus
    · refine ⟨found, ?_, hstatus⟩
      have hne : (item.id == id) = false := beq_eq_false_iff_ne.mpr hitem
      simpa [DurableState.item?, List.find?_append, List.find?_cons, hid, hne] using hfound

lemma ensureRun_edit (before : DurableState) : Edit False before (ensureRun before) := by
  unfold ensureRun
  split
  · exact startRun_edit before
  · exact .keep

lemma Request.apply_taken {sha256 : List UInt8 → Vector UInt8 32} {request : Request}
    {before after : DurableState} (h : request.apply sha256 before = .ok after) {id : String}
    (htaken : before.Taken id) : after.Taken id := by
  cases request with
  | durable params => exact (applyAction_edit h).taken htaken
  | agentStart =>
    obtain rfl := Except.ok.inj h
    have hedit : Edit False before (startRun before) := startRun_edit before
    exact hedit.taken htaken
  | toolExecutionStart callId name params =>
    obtain rfl := Except.ok.inj h
    have hrun := (ensureRun_edit before).taken htaken
    split
    · have hedit : Edit False (ensureRun before) _ :=
        recordToolStart_edit sha256 (ensureRun before) callId name params
      exact hedit.taken hrun
    · exact hrun
  | toolExecutionEnd callId name result isError =>
    obtain rfl := Except.ok.inj h
    have hrun := (ensureRun_edit before).taken htaken
    have hedit : Edit False (ensureRun before) _ :=
      recordToolEnd_edit sha256 (ensureRun before) callId name result isError
    exact hedit.taken hrun
  | agentSettled =>
    obtain rfl := Except.ok.inj h
    have hedit : Edit False before (settleRun before) := settleRun_edit before
    exact hedit.taken htaken
  | sessionShutdown =>
    obtain rfl := Except.ok.inj h
    have hedit : Edit False before (markInterrupted before) := markInterrupted_edit before
    exact hedit.taken htaken

/-- An accepted claim takes the queued item its id names. -/
lemma applyAction_claim {params : Value} {before after : DurableState} {id : String}
    (haction : actionParam params = "claim") (hid : queueItemId params = .ok id)
    (h : applyAction before params = .ok after) :
    (∃ item, before.item? id = some item ∧ item.status = .queued) ∧
      ∃ item, after.item? id = some item ∧ item.status = .claimed := by
  have hclaim : claimItem before params = .ok after := by simpa [applyAction, haction] using h
  simp only [claimItem, hid, Result.ok_bind] at hclaim
  obtain ⟨queue, hqueue, hafter⟩ := Result.bind_eq_ok.mp hclaim
  obtain rfl := Except.ok.inj hafter
  obtain ⟨left, item, item', right, hbefore, rfl, hleft, hitem, hstep⟩ :=
    Rust.updateFirst_eq_ok.mp hqueue
  rw [Result.ite_error_eq_ok, not_ne_iff] at hstep
  obtain ⟨hstatus, hstep⟩ := hstep
  obtain rfl := Except.ok.inj hstep
  have hnone : left.find? (fun item => item.id == id) = none :=
    List.find?_eq_none.mpr fun x hx => by simp [hleft x hx]
  constructor
  · refine ⟨item, ?_, hstatus⟩
    simp only [DurableState.item?, hbefore, List.find?_append, hnone, Option.none_or]
    exact List.find?_cons_of_pos hitem
  · simp only [DurableState.item?, List.find?_append, hnone, Option.none_or]
    exact ⟨_, List.find?_cons_of_pos hitem, rfl⟩

/-! ### What happens in a step -/

section Digest

variable (sha256 : List UInt8 → Vector UInt8 32)

/-- The step commits a request, and the client gets the result. -/
def System.Answers (s : System) (op : Op) (request : Request)
    (result : Except String DurableState) : Prop :=
  ∃ client reply current next, op = .commit client reply ∧
    s.clients client = .computed request current next ∧
    (s.store.commitState current next reply []).1.1 = result

/-- The step is a successful claim of the item an id names. -/
def System.Claims (s : System) (op : Op) (id : String) : Prop :=
  ∃ params committed, s.Answers op (.durable params) (.ok committed) ∧
    actionParam params = "claim" ∧ queueItemId params = .ok id

/-- The step is a restore that succeeds with this store. -/
def System.Loads (s : System) (op : Op) (store : Store) : Prop :=
  ∃ reply, op.restores s = some reply ∧ (restoreStateInner reply []).1 = .ok store ∧
    (s.next sha256 op).store = store

/-- The host's answer to the append that a step may issue. -/
def Op.appendReply (s : System) : Op → Option (Except String Value)
  | .commit _ reply => some reply
  | op => (op.restores s).map RestoreReply.append

/-- The step issues an append whose answer leaves open whether the host logged it. -/
def System.AckUnknown (s : System) (op : Op) : Prop :=
  s.issued sha256 op ≠ [] ∧ ∃ reply error, op.appendReply s = some reply ∧
    acknowledge reply = .error error ∧ isUnknown error = true

/-! ### A client commits what it computed -/

/-- A computed state is the request applied to the state that was read. -/
def Client.Applied : Client → Prop
  | .computed request current next => request.apply sha256 current = .ok next
  | _ => True

def System.Applied (s : System) : Prop := ∀ client, (s.clients client).Applied sha256

variable {sha256} {s : System}

lemma System.Applied.setClient (h : s.Applied sha256) (client : Nat) {phase : Client}
    (hphase : phase.Applied sha256) : (s.setClient client phase).Applied sha256 := by
  intro i
  by_cases hclient : i = client
  · subst hclient
    simpa [System.setClient] using hphase
  · simpa [System.setClient, hclient] using h i

lemma Store.read_applied (store : Store) (request : Request) :
    (store.read request).Applied sha256 := by
  unfold Store.read
  split
  · split <;> trivial
  · trivial

lemma System.Applied.next (h : s.Applied sha256) (op : Op) : (s.next sha256 op).Applied sha256 := by
  unfold System.next
  cases op with
  | enter client request reply =>
    rcases hclient : s.clients client with _ | _ | _ | _
    · simp only [System.step, hclient, bind, StateT.bind]
      rcases s.store.ensureInitialized reply [] with ⟨⟨error | _, store⟩, issued⟩
      · exact h
      · exact System.Applied.setClient (s := { s with store }) h client trivial
    all_goals
      simp only [System.step, hclient]
      exact h
  | read client =>
    rcases hclient : s.clients client with _ | request | _ | _
    · simp only [System.step, hclient]
      exact h
    · simp only [System.step, hclient]
      exact h.setClient client (s.store.read_applied request)
    all_goals
      simp only [System.step, hclient]
      exact h
  | apply client =>
    rcases hclient : s.clients client with _ | _ | ⟨request, current⟩ | _
    · simp only [System.step, hclient]
      exact h
    · simp only [System.step, hclient]
      exact h
    · simp only [System.step, hclient]
      rcases happly : request.apply sha256 current with error | next
      · exact h.setClient client trivial
      · exact h.setClient client happly
    · simp only [System.step, hclient]
      exact h
  | commit client reply =>
    rcases hclient : s.clients client with _ | _ | _ | ⟨request, current, next⟩
    · simp only [System.step, hclient]
      exact h
    · simp only [System.step, hclient]
      exact h
    · simp only [System.step, hclient]
      exact h
    · simp only [System.step, hclient, bind, StateT.bind]
      rcases s.store.commitState current next reply [] with ⟨⟨_, store⟩, issued⟩
      exact System.Applied.setClient (s := { s with store }) h client trivial
  | restore reply =>
    simp only [System.step, bind, StateT.bind]
    rcases restoreState reply [] with ⟨⟨_, store⟩, issued⟩
    exact h

lemma System.run_applied (ops : List Op) : (System.run sha256 ops).Applied sha256 := by
  have hstart : System.start.Applied sha256 := fun _ => trivial
  exact Run.invariant (fun _ op h => h.next op) hstart ops

lemma System.Applied.computed (h : s.Applied sha256) {client : Nat} {request : Request}
    {current next : DurableState} (hclient : s.clients client = .computed request current next) :
    request.apply sha256 current = .ok next := by
  have happlied := h client
  rwa [hclient] at happlied

/-! ### One step -/

/-- What a commit does to the system, by its result. -/
lemma System.Answers.outcome (sha256 : List UInt8 → Vector UInt8 32) {op : Op} {request : Request} {result : Except String DurableState}
    (h : s.Answers op request result) :
    ∃ client reply current next store issued, op = .commit client reply ∧
      s.clients client = .computed request current next ∧
      s.store.CommitOutcome current next reply result store issued ∧
      (s.next sha256 op).store = store := by
  obtain ⟨client, reply, current, next, rfl, hclient, rfl⟩ := h
  refine ⟨client, reply, current, next, _, _, rfl, hclient,
    s.store.commitState_outcome current next reply, ?_⟩
  simp only [System.next, System.step, hclient]
  rfl

/-- An append commits what a client computed from the store, or repairs the branch a restore has
just read. -/
lemma System.Applied.issued (h : s.Applied sha256) {op : Op} {payload : Value}
    (hissued : payload ∈ s.issued sha256 op) :
    (∃ client reply request next committed snapshot, op = .commit client reply ∧
      s.store.restoreError = none ∧ request.apply sha256 s.store.state = .ok next ∧
      s.clients client = .computed request s.store.state next ∧
      Prepares s.store.state s.store.journalMeta next committed snapshot payload) ∨
    ∃ reply restored journalMeta committed snapshot, op.restores s = some reply ∧
      loadBranch reply.branch = .ok (restored, journalMeta) ∧
      Prepares restored journalMeta (markInterrupted restored) committed snapshot payload := by
  have hstep := s.step_outcome sha256 op
  generalize s.next sha256 op = s', s.issued sha256 op = issued at hstep hissued
  cases hstep with
  | quiet => cases hissued
  | commit client reply request current next result store issued ready outcome =>
    left
    have happly := h.computed ready
    cases outcome with
    | refused | unchanged => cases hissued
    | failed error committed snapshot _ free current_eq prepares
    | logged entryId committed snapshot _ free current_eq prepares =>
      obtain rfl := List.mem_singleton.mp hissued
      subst current_eq
      exact ⟨client, reply, request, next, committed, snapshot, rfl, free, happly, ready, prepares⟩
  | restored _ reply store clients issued restores result
  | notRestored _ reply error clients issued restores result =>
    obtain ⟨restored, journalMeta, committed, snapshot, loads, prepares⟩ :=
      (restoreStateInner_outcome result).prepares hissued
    exact .inr ⟨reply, restored, journalMeta, committed, snapshot, restores, loads, prepares⟩

/-- A request that is refused, or whose append fails, leaves the state and its metadata. -/
lemma System.Answers.error {op : Op} {request : Request} {error : String}
    (h : s.Answers op request (.error error)) :
    (s.next sha256 op).store.state = s.store.state ∧
      (s.next sha256 op).store.journalMeta = s.store.journalMeta := by
  obtain ⟨client, reply, current, next, store, issued, rfl, hclient, houtcome, hstore⟩ :=
    h.outcome sha256
  rw [hstore]
  cases houtcome with
  | refused => exact ⟨rfl, rfl⟩
  | failed => split <;> exact ⟨rfl, rfl⟩

/-- A request that succeeds is applied to the state the store holds. -/
lemma System.Applied.answers_ok (h : s.Applied sha256) {op : Op} {request : Request}
    {committed : DurableState} (hanswers : s.Answers op request (.ok committed)) :
    (s.next sha256 op).store.state = committed ∧
      ∃ next, request.apply sha256 s.store.state = .ok next ∧
        (next = s.store.state ∧ committed = next ∨
          ∃ revision, revision.toNat = s.store.state.revision.toNat + 1 ∧
            committed = stamped revision next) := by
  obtain ⟨client, reply, current, next, store, issued, rfl, hclient, houtcome, hstore⟩ :=
    hanswers.outcome sha256
  have happly := h.computed hclient
  rw [hstore]
  cases houtcome with
  | unchanged free current_eq next_eq =>
    subst current_eq next_eq
    exact ⟨rfl, _, happly, .inl ⟨rfl, rfl⟩⟩
  | logged entryId _ snapshot payload free current_eq prepares =>
    subst current_eq
    obtain ⟨record, hprepare, -⟩ := prepares
    obtain ⟨-, hcommitted, -⟩ := prepareCommit_eq_some hprepare
    exact ⟨rfl, next, happly, .inr hcommitted⟩

/-- The store does not let the item be claimed. -/
def Store.Holds (store : Store) (id : String) : Prop :=
  store.restoreError ≠ none ∨ store.state.Taken id

/-- Only a restore that loads the item as queued, or without it, lets it be claimed again. -/
lemma System.Applied.holds_next (h : s.Applied sha256) {id : String} (hholds : s.store.Holds id)
    (op : Op) : (s.next sha256 op).store.Holds id ∨
      ∃ store, s.Loads sha256 op store ∧ ¬store.state.Taken id := by
  have hstep := s.step_outcome sha256 op
  unfold System.Loads
  generalize s.next sha256 op = s', s.issued sha256 op = issued at hstep ⊢
  cases hstep with
  | quiet => exact .inl hholds
  | commit client reply request current next result store issued ready outcome =>
    left
    show store.Holds id
    have happly := h.computed ready
    cases outcome with
    | refused | unchanged => exact hholds
    | failed error =>
      split
      · exact .inl (Option.some_ne_none error)
      · exact hholds
    | logged entryId committed snapshot payload free current_eq prepares =>
      subst current_eq
      obtain ⟨record, hprepare, -⟩ := prepares
      obtain ⟨-, ⟨revision, -, rfl⟩, -⟩ := prepareCommit_eq_some hprepare
      have htaken := hholds.resolve_left (not_not_intro free)
      exact .inr (Request.apply_taken happly htaken)
  | restored _ reply store clients issued restores result =>
    by_cases htaken : store.state.Taken id
    · exact .inl (.inr htaken)
    · exact .inr ⟨store, ⟨reply, restores, by rw [result], rfl⟩, htaken⟩
  | notRestored _ reply error clients issued restores result =>
    exact .inl (.inl (Option.some_ne_none error))

/-- Once the store refuses clients, only a successful restore lets it accept them. -/
lemma System.latched_next (hlatched : s.store.restoreError ≠ none) (op : Op) :
    (s.next sha256 op).store.restoreError ≠ none ∨ ∃ store, s.Loads sha256 op store := by
  have hstep := s.step_outcome sha256 op
  unfold System.Loads
  generalize s.next sha256 op = s', s.issued sha256 op = issued at hstep ⊢
  cases hstep with
  | quiet => exact .inl hlatched
  | commit client reply request current next result store issued ready outcome =>
    left
    show store.restoreError ≠ none
    cases outcome with
    | refused | unchanged => exact hlatched
    | failed error _ _ _ free | logged entryId _ _ _ free => exact absurd free hlatched
  | restored _ reply store clients issued restores result =>
    exact .inr ⟨store, reply, restores, by rw [result], rfl⟩
  | notRestored _ reply error clients issued restores result =>
    exact .inl (Option.some_ne_none error)

lemma Op.appendReply_of_restores {op : Op} {reply : RestoreReply}
    (h : op.restores s = some reply) : op.appendReply s = some reply.append := by
  cases op with
  | commit client reply => cases h
  | enter client request reply => simp only [Op.appendReply, h, Option.map_some]
  | restore reply => simp only [Op.appendReply, h, Option.map_some]
  | read client | apply client => cases h

/-- An answer that leaves an append open makes the store refuse clients. -/
lemma System.AckUnknown.latched {op : Op} (h : s.AckUnknown sha256 op) :
    (s.next sha256 op).store.restoreError ≠ none := by
  obtain ⟨hissued, reply, error, hreply, hanswer, hunknown⟩ := h
  have hstep := s.step_outcome sha256 op
  generalize s.next sha256 op = s', s.issued sha256 op = issued at hstep hissued ⊢
  cases hstep with
  | quiet => exact absurd rfl hissued
  | commit client reply request current next result store issued ready outcome =>
    obtain rfl := Option.some.inj hreply
    show store.restoreError ≠ none
    cases outcome with
    | refused | unchanged => exact absurd rfl hissued
    | failed error' _ _ _ _ _ _ answer =>
      obtain rfl := Except.error.inj (hanswer.symm.trans answer)
      rw [if_pos hunknown]
      exact Option.some_ne_none error
    | logged _ _ _ _ _ _ _ answer => cases hanswer.symm.trans answer
  | restored _ reply' store clients issued restores result =>
    obtain rfl := Option.some.inj (hreply.symm.trans (Op.appendReply_of_restores restores))
    cases restoreStateInner_outcome result with
    | clean => exact absurd rfl hissued
    | logged _ _ _ _ _ _ _ _ answer => cases hanswer.symm.trans answer
  | notRestored _ reply error clients issued restores result => exact Option.some_ne_none error

/-- A successful claim finds the item queued and takes it. -/
lemma System.Applied.claims (h : s.Applied sha256) {op : Op} {id : String} (hclaims : s.Claims op id) :
    ¬s.store.Holds id ∧ (s.next sha256 op).store.Holds id := by
  obtain ⟨params, committed, hanswers, haction, hid⟩ := hclaims
  obtain ⟨client, reply, current, next, store, issued, rfl, hclient, houtcome, hstore⟩ :=
    hanswers.outcome sha256
  obtain ⟨⟨item, hitem, hqueued⟩, item', hitem', hclaimed⟩ :=
    applyAction_claim haction hid (h.computed hclient)
  rw [hstore]
  cases houtcome with
  | unchanged free current_eq next_eq =>
    rw [next_eq, hitem] at hitem'
    obtain rfl := Option.some.inj hitem'
    exact absurd (hqueued.symm.trans hclaimed) QueueStatus.noConfusion
  | logged entryId _ snapshot payload free current_eq prepares =>
    subst current_eq
    obtain ⟨record, hprepare, -⟩ := prepares
    obtain ⟨-, ⟨revision, -, rfl⟩, -⟩ := prepareCommit_eq_some hprepare
    constructor
    · rintro (hfree | ⟨found, hfound, hstatus⟩)
      · exact hfree free
      · obtain rfl := Option.some.inj (hitem.symm.trans hfound)
        exact hstatus hqueued
    · exact .inr ⟨item', hitem', by rw [hclaimed]; exact QueueStatus.noConfusion⟩

/-- A store that refuses clients lets only a restore reach the host. -/
lemma System.Applied.issued_latched (h : s.Applied sha256) (hlatched : s.store.restoreError ≠ none)
    {op : Op} (hop : ∀ reply, op ≠ .restore reply) : s.issued sha256 op = [] := by
  rw [List.eq_nil_iff_forall_not_mem]
  intro payload hissued
  rcases h.issued hissued with ⟨_, _, _, _, _, _, -, hfree, -⟩ | ⟨reply, _, _, _, _, hrestores, -⟩
  · exact hlatched hfree
  · cases op with
    | enter client request reply' =>
      simp only [Op.restores] at hrestores
      split at hrestores
      · rename_i hfree
        simp only [Bool.and_eq_true, Option.isNone_iff_eq_none] at hfree
        exact hlatched hfree.1.2
      · cases hrestores
    | restore reply' => exact hop reply' rfl
    | read client | apply client => cases hrestores
    | commit client reply' => cases hrestores

/-! ### Runs -/

variable {ops between : List Op} {op later : Op}

/-- Between two successful claims of one item a restore loads it as queued, or without it. -/
lemma System.claimed_once {id : String} (hfirst : (System.run sha256 ops).Claims op id)
    (hsecond : (System.run sha256 (ops ++ op :: between)).Claims later id) :
    ∃ left restore right store, between = left ++ restore :: right ∧
      (System.run sha256 (ops ++ op :: left)).Loads sha256 restore store ∧
      ¬store.state.Taken id := by
  have hholds := ((System.run_applied ops).claims hfirst).2
  have hlost := ((System.run_applied _).claims hsecond).1
  obtain ⟨left, restore, right, rfl, hleft, hbreak⟩ :=
    Run.exists_breaking_step_between (P := fun s : System => s.store.Holds id) hholds hlost
  obtain ⟨store, hloads, htaken⟩ :=
    ((System.run_applied _).holds_next hleft restore).resolve_left hbreak
  exact ⟨left, restore, right, store, rfl, hloads, htaken⟩

/-- Between an answer that leaves an append open and the next append a restore succeeds. -/
lemma System.latched_until_restore (hunknown : (System.run sha256 ops).AckUnknown sha256 op)
    (hlater : ∀ reply, later ≠ .restore reply)
    (hissued : (System.run sha256 (ops ++ op :: between)).issued sha256 later ≠ []) :
    ∃ left restore right store, between = left ++ restore :: right ∧
      (System.run sha256 (ops ++ op :: left)).Loads sha256 restore store := by
  have hlost : ¬(System.run sha256 (ops ++ op :: between)).store.restoreError ≠ none :=
    fun hlatched => hissued ((System.run_applied _).issued_latched hlatched hlater)
  obtain ⟨left, restore, right, rfl, hleft, hbreak⟩ := Run.exists_breaking_step_between
    (P := fun s : System => s.store.restoreError ≠ none) hunknown.latched hlost
  obtain ⟨store, hloads⟩ := (System.latched_next hleft restore).resolve_left hbreak
  exact ⟨left, restore, right, store, rfl, hloads⟩

end Digest

/-- After any steps of any clients: an append commits a request on top of the state and the anchor
of the store, or the repair of the branch that a restore is loading; an item is claimed once until
a restore loads a branch where it is unclaimed; a request that is refused or whose append fails
leaves the state and the metadata as they are, and any other is applied to the state the store
holds; an unknown answer lets only restores reach the host until one of them succeeds. -/
theorem System.run_safe (sha256 : List UInt8 → Vector UInt8 32) (ops : List Op) (op : Op) :
    (∀ payload ∈ (System.run sha256 ops).issued sha256 op,
      (∃ client reply request next committed snapshot, op = .commit client reply ∧
        (System.run sha256 ops).store.restoreError = none ∧
        request.apply sha256 (System.run sha256 ops).store.state = .ok next ∧
        (System.run sha256 ops).clients client =
          .computed request (System.run sha256 ops).store.state next ∧
        Prepares (System.run sha256 ops).store.state (System.run sha256 ops).store.journalMeta next
          committed snapshot payload) ∨
      ∃ reply restored journalMeta committed snapshot,
        op.restores (System.run sha256 ops) = some reply ∧
        loadBranch reply.branch = .ok (restored, journalMeta) ∧
        Prepares restored journalMeta (markInterrupted restored) committed snapshot payload) ∧
    (∀ between later id, (System.run sha256 ops).Claims op id →
      (System.run sha256 (ops ++ op :: between)).Claims later id →
      ∃ left restore right store, between = left ++ restore :: right ∧
        (System.run sha256 (ops ++ op :: left)).Loads sha256 restore store ∧
        ¬store.state.Taken id) ∧
    (∀ request error, (System.run sha256 ops).Answers op request (.error error) →
      (System.run sha256 (ops ++ [op])).store.state = (System.run sha256 ops).store.state ∧
      (System.run sha256 (ops ++ [op])).store.journalMeta =
        (System.run sha256 ops).store.journalMeta) ∧
    (∀ request committed, (System.run sha256 ops).Answers op request (.ok committed) →
      (System.run sha256 (ops ++ [op])).store.state = committed ∧
      ∃ next, request.apply sha256 (System.run sha256 ops).store.state = .ok next ∧
        (next = (System.run sha256 ops).store.state ∧ committed = next ∨
          ∃ revision, revision.toNat = (System.run sha256 ops).store.state.revision.toNat + 1 ∧
            committed = stamped revision next)) ∧
    (∀ between later, (System.run sha256 ops).AckUnknown sha256 op →
      (∀ reply, later ≠ .restore reply) →
      (System.run sha256 (ops ++ op :: between)).issued sha256 later ≠ [] →
      ∃ left restore right store, between = left ++ restore :: right ∧
        (System.run sha256 (ops ++ op :: left)).Loads sha256 restore store) := by
  have hnext : System.run sha256 (ops ++ [op]) = (System.run sha256 ops).next sha256 op :=
    Run.after_append _ _ [op]
  have happlied : (System.run sha256 ops).Applied sha256 := System.run_applied ops
  refine ⟨fun payload hissued => happlied.issued hissued, ?_, ?_, ?_, ?_⟩
  · intro between later id hfirst hsecond
    exact System.claimed_once hfirst hsecond
  · intro request error hanswers
    rw [hnext]
    exact hanswers.error
  · intro request committed hanswers
    rw [hnext]
    exact happlied.answers_ok hanswers
  · intro between later hunknown hlater hissued
    exact System.latched_until_restore hunknown hlater hissued

/-! ### A branch without the claim -/

/-- A snapshot with one queued item. -/
def queuedEntry : Value :=
  .object [("type", .string "custom"), ("id", .string "e1"), ("customType", .string "durable-state"),
    ("data", .object [("format", .string "rpi-durable-journal"), ("version", Serde.number 1),
      ("kind", .string "snapshot"), ("baseRevision", Serde.number 0),
      ("revision", Serde.number 1), ("state", .object [("revision", Serde.number 1),
        ("nextQueueId", Serde.number 1), ("queue", .array [.object [("id", .string "item-1"),
          ("text", .string "work"), ("status", .string "queued")]])])])]

def queuedState : DurableState :=
  { revision := 1, nextQueueId := 1, queue := [⟨"item-1", "work", .queued, 0, 0, ""⟩] }

def claimedNext : DurableState :=
  { revision := 1, nextQueueId := 1, queue := [⟨"item-1", "work", .claimed, 0, 2, ""⟩] }

def queuedStore : Store := ⟨queuedState, ⟨some "e1", 0, false⟩, true, none⟩

/-- The host navigates to the branch that ends in the snapshot. -/
def queuedReply : RestoreReply where
  branch := .ok (.object [("filtered", .bool true), ("entries", .array [queuedEntry])])
  append := .error "read only"

def claimRequest : Request :=
  .durable (.object [("action", .string "claim"), ("item", .string "item-1")])

/-- A client computes the claim on top of the branch. -/
def claimSteps : List Op :=
  [.restore queuedReply, .enter 0 claimRequest queuedReply, .read 0, .apply 0]

def claimCommit : Op := .commit 0 (.ok (.object [("entryId", .string "e2")]))

section Digest

variable {sha256 : List UInt8 → Vector UInt8 32} {s : System}

lemma System.after_claimSteps (sha256 : List UInt8 → Vector UInt8 32) (h : s.clients 0 = .idle) :
    (Run.after (System.next sha256) s claimSteps).store = queuedStore ∧
      (Run.after (System.next sha256) s claimSteps).clients 0 =
        .computed claimRequest queuedState claimedNext := by
  have hrestore : s.next sha256 (.restore queuedReply) = { s with store := queuedStore } := rfl
  have henter : System.next sha256 { s with store := queuedStore } (.enter 0 claimRequest queuedReply)
      = { s with store := queuedStore }.setClient 0 (.entered claimRequest) := by
    simp only [System.next, System.step, h]
    rfl
  simp only [claimSteps, Run.after_cons, Run.after_nil, hrestore, henter]
  exact ⟨rfl, rfl⟩

lemma System.claimCommit_claims (hstore : s.store = queuedStore)
    (hclient : s.clients 0 = .computed claimRequest queuedState claimedNext) :
    s.Claims claimCommit "item-1" := by
  have hne : claimedNext ≠ queuedState := by decide
  have hchanges : journalChanges queuedState (stamped 2 claimedNext) ≠ [] := by decide
  obtain ⟨record, snapshot, hprepare⟩ :=
    prepareCommit_of_changed hne (rfl : Rust.checkedSucc queuedState.revision = some 2) hchanges
      queuedStore.journalMeta
  refine ⟨_, stamped 2 claimedNext, ⟨0, _, _, _, rfl, hclient, ?_⟩, rfl, rfl⟩
  have hcommit := @Store.commitState_current queuedStore rfl claimedNext
    (.ok (.object [("entryId", .string "e2")])) []
  rw [hstore, show queuedState = queuedStore.state from rfl, hcommit,
    show prepareCommit queuedStore.state _ _ = _ from hprepare]
  rfl

lemma System.claimCommit_idle (sha256 : List UInt8 → Vector UInt8 32)
    (hclient : s.clients 0 = .computed claimRequest queuedState claimedNext) :
    (s.next sha256 claimCommit).clients 0 = .idle := by
  simp only [System.next, System.step, claimCommit, hclient]
  rfl

end Digest

/-- After the branch is replaced by an earlier one, the item is claimed a second time. -/
theorem System.claimed_again :
    ¬∀ (sha256 : List UInt8 → Vector UInt8 32) (ops between : List Op) (op later : Op)
      (id : String), (System.run sha256 ops).Claims op id →
      ¬(System.run sha256 (ops ++ op :: between)).Claims later id := by
  intro h
  obtain ⟨hstore, hclient⟩ :=
    System.after_claimSteps (s := System.start) (fun _ => .replicate 32 0) rfl
  have hidle := System.claimCommit_idle (fun _ => .replicate 32 0) hclient
  obtain ⟨hstore', hclient'⟩ := System.after_claimSteps _ hidle
  refine h _ claimSteps claimSteps claimCommit claimCommit "item-1"
    (System.claimCommit_claims hstore hclient) ?_
  rw [System.run, Run.after_append, Run.after_cons]
  exact System.claimCommit_claims hstore' hclient'

end Durable
