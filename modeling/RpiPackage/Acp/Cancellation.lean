import RpiPackage.Acp.Answered

/-!
# The cancellation of a request

A cancellation takes some steps of the dispatcher, and other tasks go on between them. Each of them
touches what belongs to the request that is named. A prompt is cancelled through its session, and
a number that no request of the client has is taken for a request of the agent.
-/

namespace Acp

open Json

lemma Request.Cancels.id_eq {P : Parsers} {r' r : Request} {id : RpcId} (h : r'.Cancels P r)
    (hmethod : r'.method = "$/cancel_request")
    (hid : Connection.requestId r'.params = some id) : r.id = some id := by
  rcases h with ⟨-, id', hid', hr⟩ | ⟨hother, -⟩ | ⟨hother, -⟩
  · obtain rfl := Option.some.inj (hid'.symm.trans hid)
    exact hr
  · rw [hmethod] at hother
    exact absurd hother (by decide)
  · rw [hmethod] at hother
    exact absurd hother (by decide)

lemma Writer.get_cancelRequest_of_ne {k k' : UInt64} (h : k' ≠ k) (w : Writer) :
    (w.cancelRequest k).pending.get k' = w.pending.get k' := by
  unfold Writer.cancelRequest
  split
  · exact Table.get_erase_of_ne h _
  · rfl

lemma Writer.closed_cancelRequest (w : Writer) (k : UInt64) :
    (w.cancelRequest k).closed = w.closed := by
  unfold Writer.cancelRequest
  split <;> rfl

namespace Connection

variable {P : Parsers} {s s' : Connection} {n m : Nat} {key : String} {id : RpcId}

/-! ### What the dispatcher has found -/

/-- The tables of the requests and the dispatcher are as before. -/
structure Stays (s s' : Connection) : Prop where
  requests : s'.requests = s.requests
  prompts : s'.prompts = s.prompts
  lists : s'.lists = s.lists
  queries : s'.queries = s.queries
  dispatcher : s'.dispatcher = s.dispatcher

lemma stays_answer (s : Connection) (n : Nat) (reply : Reply) : Stays s (s.answer n reply) := by
  obtain ⟨out, hanswer⟩ := exists_answer_eq s n reply
  rw [hanswer]
  exact ⟨rfl, rfl, rfl, rfl, rfl⟩

lemma stays_work (s : Connection) (n : Nat) (wrap : Work → Task) (work : Work) (progress : Progress) :
    Stays s (s.work n wrap work progress) := by
  unfold Connection.work
  split
  · split <;> exact ⟨rfl, rfl, rfl, rfl, rfl⟩
  · split
    · obtain ⟨h₁, h₂, h₃, h₄, h₅⟩ := stays_answer s n ‹Reply›
      exact ⟨h₁, h₂, h₃, h₄, h₅⟩
    · exact ⟨rfl, rfl, rfl, rfl, rfl⟩
  · exact ⟨rfl, rfl, rfl, rfl, rfl⟩

lemma stays_subscription (s : Connection) (n : Nat) (task : Subscription) (progress : Progress) :
    Stays s (s.subscription n task progress) := by
  unfold subscription
  dsimp only
  split
  case h_5 =>
    obtain ⟨h₁, h₂, h₃, h₄, h₅⟩ := stays_answer s n ‹Reply›
    exact ⟨h₁, h₂, h₃, h₄, h₅⟩
  case h_6 =>
    split
    · exact ⟨rfl, rfl, rfl, rfl, rfl⟩
    · unfold notify write
      split <;> exact ⟨rfl, rfl, rfl, rfl, rfl⟩
  case h_4 => split <;> exact ⟨rfl, rfl, rfl, rfl, rfl⟩
  all_goals exact ⟨rfl, rfl, rfl, rfl, rfl⟩

lemma stays_progress (s : Connection) (n : Nat) (progress : Progress) :
    Stays s (s.progress n progress) := by
  unfold Connection.progress
  split
  · exact ⟨rfl, rfl, rfl, rfl, rfl⟩
  · exact stays_work ..
  · exact stays_work ..
  · exact stays_work ..
  · split
    · split <;> exact ⟨rfl, rfl, rfl, rfl, rfl⟩
    · exact stays_work ..
  · exact stays_subscription ..

/-- What is received while a request is served changes the writer alone. -/
lemma stays_receive (hbusy : s.dispatcher.current = some n) (message : Value) :
    Stays s (s.receive message) := by
  have hidle : s.dispatcher ≠ .idle := by
    intro hidle
    rw [hidle] at hbusy
    cases hbusy
  unfold receive
  split
  · split <;> exact ⟨rfl, rfl, rfl, rfl, rfl⟩
  · split
    · exact absurd ‹_› hidle
    · exact ⟨rfl, rfl, rfl, rfl, rfl⟩
  · exact ⟨rfl, rfl, rfl, rfl, rfl⟩
  · split
    · exact absurd ‹_› hidle
    · exact ⟨rfl, rfl, rfl, rfl, rfl⟩

/-- A request that is taken is served, or answered at once. -/
lemma dispatcher_accept (s : Connection) (request : Request) :
    (s.accept request).dispatcher = s.dispatcher ∨
      ∃ n, (s.accept request).dispatcher = .serving n := by
  unfold accept
  dsimp only
  split
  · split
    · exact .inl (stays_answer _ _ _).dispatcher
    · exact .inr ⟨_, rfl⟩
  · exact .inr ⟨_, rfl⟩

lemma dispatcher_receive (s : Connection) (message : Value) :
    (s.receive message).dispatcher = s.dispatcher ∨
      ∃ n, (s.receive message).dispatcher = .serving n := by
  unfold receive
  split
  · split <;> exact .inl rfl
  · split
    · split
      · exact .inl rfl
      · exact dispatcher_accept s _
    · exact .inl rfl
  · exact .inl rfl
  · split
    · unfold write
      split <;> exact .inl rfl
    · exact .inl rfl

/-- While a cancellation is served, nothing with its id has been found only as long as no prompt, no
list and no query has it; and what is waited for has the id. -/
structure Cancelling (s : Connection) : Prop where
  found : ∀ n subscriptions wait rest id, s.dispatcher = .retiring n subscriptions wait rest →
    (s.request n).method = "$/cancel_request" → requestId (s.request n).params = some id →
    ∃ found, rest = .cancelled found id ∧
      (found = false → wait = none ∧ s.prompts.get id.requestKey = none ∧
        s.lists.get id.requestKey = none ∧ s.queries.get id.requestKey = none) ∧
      ∀ task, wait = some task → (s.request task).id = some id

lemma Cancelling.stays (h : Cancelling s) (hs : Stays s s') : Cancelling s' := by
  refine ⟨fun n subscriptions wait rest id hretiring => ?_⟩
  rw [hs.dispatcher] at hretiring
  simp only [request_of_requests hs.requests, hs.prompts, hs.lists, hs.queries]
  exact h.found n subscriptions wait rest id hretiring

lemma cancelling_of_not_retiring
    (h : ∀ n subscriptions wait rest, s.dispatcher ≠ .retiring n subscriptions wait rest) : Cancelling s :=
  ⟨fun n subscriptions wait rest _ hretiring => absurd hretiring (h n subscriptions wait rest)⟩

/-! ### The first step -/

lemma exists_cancelList_eq (s : Connection) (key : String) : ∃ tasks, s.cancelList key = { s with tasks } := by
  unfold cancelList
  split
  · split
    · exact ⟨_, rfl⟩
    · exact ⟨s.tasks, rfl⟩
  · exact ⟨s.tasks, rfl⟩

lemma exists_cancelQuery_eq (s : Connection) (key : String) :
    ∃ tasks, s.cancelQuery key = { s with tasks, queries := (s.cancelQuery key).queries } := by
  unfold cancelQuery abortQuery
  split
  · split
    · exact ⟨_, rfl⟩
    · exact ⟨s.tasks, rfl⟩
  · exact ⟨s.tasks, rfl⟩

lemma get_queries_cancelQuery (s : Connection) (key key' : String) :
    (s.cancelQuery key).queries.get key' = if key' = key then none else s.queries.get key' := by
  have hqueries : (s.cancelQuery key).queries.get key' = (s.queries.erase key).get key' := by
    unfold cancelQuery
    split
    · unfold abortQuery
      split <;> rfl
    · rename_i hnone
      by_cases hkey : key' = key
      · subst hkey
        rw [Table.get_erase_self]
        exact hnone
      · rw [Table.get_erase_of_ne hkey]
  rw [hqueries]
  split
  · rename_i hkey
    rw [hkey, Table.get_erase_self]
  · rename_i hkey
    rw [Table.get_erase_of_ne hkey]

/-- A prompt is cancelled through its session. -/
def cancelPrompt (s : Connection) (key : String) : Connection :=
  match s.prompts.get key with
  | some task => s.abort task.session
  | none => s

/-- The tables and the tasks after a cancellation has looked for its id. -/
def search (s : Connection) (key : String) : Connection :=
  ((s.cancelPrompt key).cancelList key).cancelQuery key

lemma cancelRequest_eq {params : Value} (hid : requestId params = some id) :
    s.cancelRequest n params = { s.search id.requestKey with
      pending := s.pending.erase id.requestKey
      dispatcher := .retiring n (s.pending.get id.requestKey).toList none
        (.cancelled (s.prompts.contains id.requestKey || s.lists.contains id.requestKey ||
          s.queries.contains id.requestKey) id) } := by
  have hpending : (s.search id.requestKey).pending = s.pending := by
    unfold search
    obtain ⟨tasks, hlist⟩ := exists_cancelList_eq (s.cancelPrompt id.requestKey) id.requestKey
    obtain ⟨tasks', hquery⟩ := exists_cancelQuery_eq
      ((s.cancelPrompt id.requestKey).cancelList id.requestKey) id.requestKey
    rw [hquery, hlist]
    unfold cancelPrompt
    split <;> rfl
  have hsearch : s.cancelRequest n params = { s.search id.requestKey with
      pending := (s.search id.requestKey).pending.erase id.requestKey
      dispatcher := .retiring n ((s.search id.requestKey).pending.get id.requestKey).toList none
        (.cancelled (s.prompts.contains id.requestKey || s.lists.contains id.requestKey ||
          s.queries.contains id.requestKey) id) } := by
    unfold cancelRequest search cancelPrompt
    split
    · rename_i hnone
      cases hid.symm.trans hnone
    · rename_i hsome
      obtain rfl := Option.some.inj (hsome.symm.trans hid)
      rfl
  rw [hsearch, hpending]

lemma flagged_search (h : Indexed P s) {C : Nat → Prop}
    (hC : ∀ {m : Nat}, s.Owns id.requestKey m → C m) : Flagged C s (s.search id.requestKey) := by
  refine flagged_cancelId h hC ?_
  unfold cancelPrompt
  split
  · exact flagged_abort C s _
  · exact .refl C s

/-! ### Steps -/

lemma requests_dispatch (h : Guarded P s) (hbusy : s.dispatcher.current = some n) (o : Oracle) :
    (s.dispatch P o).requests = s.requests := by
  have hidle : s.dispatcher ≠ .idle := by
    intro hidle
    rw [hidle] at hbusy
    cases hbusy
  have hchange := change_dispatch h o
  generalize s.dispatch P o = s' at hchange ⊢
  cases hchange with
  | settled hs => exact hs.requests
  | ended hs => exact hs.requests
  | accepted _ hi => exact absurd hi hidle
  | duplicate _ _ hi => exact absurd hi hidle
  | @answered n before _ reply hcurrent hbefore hs =>
    obtain ⟨out, hanswer⟩ := exists_answer_eq before n reply
    rw [hs.requests, hanswer]
    exact hbefore.requests
  | spawned hserving hspawns => exact hspawns.requests
  | subscribed => rfl
  | retired _ _ _ hflagged => exact hflagged.requests
  | waited => rfl
  | gaveUp => rfl
  | skipped => rfl
  | cancelled => rfl
  | worked => rfl
  | @written n reply task =>
    obtain ⟨out, hanswer⟩ := exists_answer_eq s n reply
    rw [hanswer]
    rfl
  | unpended => rfl
  | finished => rfl

lemma serve_cancelRequest (o : Oracle) (hmethod : (s.request n).method = "$/cancel_request") :
    s.serve P o n = s.cancelRequest n (s.request n).params := by
  unfold serve
  dsimp only
  rw [if_pos hmethod]

lemma current_finish (s : Connection) (o : Oracle) (n : Nat) (rest : Rest) :
    (s.finish o n rest).dispatcher.current = none := by
  cases rest with
  | unsubscribed | cancelled | sessionCancelled => rfl
  | stopped sessionId method =>
    unfold finish
    dsimp only
    split <;> rfl

lemma dispatch_waiting {subscriptions : List String} {task : Nat} {rest : Rest}
    (h : s.dispatcher = .retiring n subscriptions (some task) rest) (o : Oracle) :
    s.dispatch P o = { s with dispatcher := .retiring n subscriptions none rest } ∨ s.dispatch P o = s := by
  unfold Connection.dispatch
  rw [h]
  dsimp only
  split
  · exact .inl rfl
  · exact .inr rfl

lemma dispatch_cons (hi : Indexed P s) {subscriptionId : String} {subscriptions : List String} {rest : Rest}
    (h : s.dispatcher = .retiring n (subscriptionId :: subscriptions) none rest) (o : Oracle) :
    (∃ entry task, s.entries.get subscriptionId = some entry ∧ s.tasks entry.task = .subscription task ∧
      s.dispatch P o = { { s with entries := s.entries.erase subscriptionId }.setTask entry.task
          (.subscription { task with cancelled := true }) with
        dispatcher := .retiring n subscriptions (some entry.task) rest.find }) ∨
    s.dispatch P o = { s with dispatcher := .retiring n subscriptions none rest } := by
  unfold Connection.dispatch
  rw [h]
  dsimp only
  split
  · rename_i entry hentry
    obtain ⟨task, htask, -⟩ := hi.entries subscriptionId entry hentry
    refine .inl ⟨entry, task, hentry, htask, ?_⟩
    unfold cancelSubscription
    simp only [htask]
    rfl
  · exact .inr rfl

lemma dispatch_nil {rest : Rest} (h : s.dispatcher = .retiring n [] none rest) (o : Oracle) :
    s.dispatch P o = s.finish o n rest := by
  unfold Connection.dispatch
  rw [h]

/-- The dispatcher goes on with what it has to retire. -/
lemma Cancelling.retire (hi : Indexed P s) (hb : Blamed P s) (h : Cancelling s) {o : Oracle}
    {subs subs' : List String} {wait wait' : Option Nat} {rest rest' : Rest}
    (hdispatcher : s.dispatcher = .retiring n subs wait rest)
    (hretiring : (s.dispatch P o).dispatcher = .retiring n subs' wait' rest')
    (hmethod : (s.request n).method = "$/cancel_request")
    (hid : requestId (s.request n).params = some id) :
    ∃ found, rest' = .cancelled found id ∧
      (found = false → wait' = none ∧ (s.dispatch P o).prompts.get id.requestKey = none ∧
        (s.dispatch P o).lists.get id.requestKey = none ∧
        (s.dispatch P o).queries.get id.requestKey = none) ∧
      ∀ task, wait' = some task → (s.request task).id = some id := by
  obtain ⟨found, rfl, hfound, hwait⟩ := h.found n subs wait rest id hdispatcher hmethod hid
  cases wait with
  | some task =>
    rcases dispatch_waiting (P := P) hdispatcher o with heq | heq
    · rw [heq] at hretiring ⊢
      obtain ⟨-, -, rfl, rfl⟩ := Dispatcher.retiring.inj hretiring
      exact ⟨found, rfl, fun hf => absurd (hfound hf).1 (Option.some_ne_none task), fun _ h => (nomatch h)⟩
    · rw [heq] at hretiring ⊢
      obtain ⟨-, -, rfl, rfl⟩ := Dispatcher.retiring.inj (hdispatcher.symm.trans hretiring)
      exact ⟨found, rfl, hfound, hwait⟩
  | none =>
    cases subs with
    | nil =>
      have hnone := current_finish s o n (.cancelled found id)
      rw [dispatch_nil hdispatcher] at hretiring
      rw [hretiring] at hnone
      cases hnone
    | cons subscriptionId subs =>
      rcases dispatch_cons hi hdispatcher o with ⟨entry, task, hentry, -, heq⟩ | heq
      · rw [heq] at hretiring ⊢
        obtain ⟨-, -, rfl, rfl⟩ := Dispatcher.retiring.inj hretiring
        refine ⟨true, rfl, fun hf => (nomatch hf), fun t ht => ?_⟩
        obtain rfl := Option.some.inj ht
        exact (hb.retires n _ _ _ hdispatcher _ List.mem_cons_self entry hentry).id_eq hmethod hid
      · rw [heq] at hretiring ⊢
        obtain ⟨-, -, rfl, rfl⟩ := Dispatcher.retiring.inj hretiring
        exact ⟨found, rfl, hfound, fun _ h => (nomatch h)⟩

lemma Cancelling.dispatch (hg : Guarded P s) (hb : Blamed P s) (h : Cancelling s) (o : Oracle) :
    Cancelling (s.dispatch P o) := by
  refine ⟨fun n subscriptions wait rest id hretiring hmethod hid => ?_⟩
  have hguarded := (change_dispatch hg o).guarded hg
  obtain ⟨hlength, -⟩ := hguarded.current n (by rw [hretiring]; rfl)
  cases hdispatcher : s.dispatcher with
  | idle | ended =>
    rw [Connection.dispatch, hdispatcher] at hretiring
    rw [hdispatcher] at hretiring
    cases hretiring
  | serving m =>
    have hbusy : s.dispatcher.current = some m := by rw [hdispatcher]; rfl
    have hrequests := requests_dispatch hg hbusy o
    obtain rfl : m = n := by
      have hm := (hg.current m hbusy).1
      rw [hrequests, ← hm] at hlength
      exact (Nat.succ.inj hlength).symm
    rw [request_of_requests hrequests] at hmethod hid
    have hserve : s.dispatch P o = s.cancelRequest m (s.request m).params := by
      rw [Connection.dispatch, hdispatcher]
      exact serve_cancelRequest o hmethod
    rw [hserve, cancelRequest_eq hid] at hretiring ⊢
    obtain ⟨-, -, rfl, rfl⟩ := Dispatcher.retiring.inj hretiring
    refine ⟨_, rfl, fun hfound => ?_, fun _ hwait => (nomatch hwait)⟩
    rw [Bool.or_eq_false_iff, Bool.or_eq_false_iff] at hfound
    obtain ⟨⟨hprompts, hlists⟩, hqueries⟩ := hfound
    have hflagged : Flagged (fun _ => True) s (s.search id.requestKey) :=
      flagged_search hg.indexed fun _ => trivial
    refine ⟨rfl, ?_, ?_, ?_⟩
    · exact (congrArg (Table.get · _) hflagged.prompts).trans (Table.contains_eq_false.mp hprompts)
    · exact (congrArg (Table.get · _) hflagged.lists).trans (Table.contains_eq_false.mp hlists)
    · refine Option.eq_none_iff_forall_ne_some.mpr fun task htask => ?_
      have hold := hflagged.queries _ task htask
      rw [Table.contains_eq_false.mp hqueries] at hold
      cases hold
  | retiring m subs w r =>
    have hbusy : s.dispatcher.current = some m := by rw [hdispatcher]; rfl
    have hrequests := requests_dispatch hg hbusy o
    obtain rfl : m = n := by
      have hm := (hg.current m hbusy).1
      rw [hrequests, ← hm] at hlength
      exact (Nat.succ.inj hlength).symm
    rw [request_of_requests hrequests] at hmethod hid
    simp only [request_of_requests hrequests]
    exact h.retire hg.indexed hb hdispatcher hretiring hmethod hid

/-- Every step keeps what is known of a cancellation. -/
lemma Cancelling.step (hg : Guarded P s) (hb : Blamed P s) (h : Cancelling s) (event : Event) :
    Cancelling (step P s event) := by
  cases event with
  | receive message =>
    cases hcurrent : s.dispatcher.current with
    | some n => exact h.stays (stays_receive hcurrent message)
    | none =>
      refine cancelling_of_not_retiring fun n subscriptions wait rest hretiring => ?_
      rcases dispatcher_receive s message with hsame | ⟨m, hserving⟩
      · exact not_retiring_of_current hcurrent (hsame.symm.trans hretiring)
      · cases hserving.symm.trans hretiring
  | dispatch o => exact h.dispatch hg hb o
  | giveUp =>
    show Cancelling s.giveUp
    unfold giveUp
    split
    · rename_i n subscriptions task rest hretiring
      refine ⟨fun m subs wait rest' id heq hmethod hid => ?_⟩
      obtain ⟨rfl, rfl, rfl, rfl⟩ := Dispatcher.retiring.inj heq
      obtain ⟨found, rfl, hfound, -⟩ := h.found n _ _ _ id hretiring hmethod hid
      exact ⟨found, rfl, fun hf => absurd (hfound hf).1 (Option.some_ne_none task), fun _ h => (nomatch h)⟩
    · exact h
  | progress n progress => exact h.stays (stays_progress s n progress)
  | writer event => exact h.stays ⟨rfl, rfl, rfl, rfl, rfl⟩
  | stop =>
    unfold Connection.step
    dsimp only
    split
    · exact cancelling_of_not_retiring fun _ _ _ _ hretiring => (nomatch hretiring)
    · exact h

lemma cancelling_after (P : Parsers) (catalog : Option CatalogError) (events : List Event) :
    Kept P ((start catalog).after P events) ∧ Cancelling ((start catalog).after P events) := by
  refine Run.invariant (P := fun s => Kept P s ∧ Cancelling s) (fun s event h => ?_)
    ⟨kept_after P catalog [], cancelling_of_not_retiring nofun⟩ events
  have hchange := step_change h.1.guarded event
  exact ⟨⟨hchange.guarded h.1.guarded, hchange.blamed h.1.guarded h.1.blamed,
    hchange.counted h.1.guarded h.1.blamed h.1.counted⟩, h.2.step h.1.guarded h.1.blamed event⟩

/-! ### What a cancellation touches -/

/-- The `n`-th request cancels the requests with an id. Of the other requests nothing changes, apart
from a run in the session of a prompt with the id. A request of the agent is cancelled when it has the
number and no prompt, list or query of the client has it. The connection is closed only because a
subscription with the id has not ended in time. -/
structure OnlyTouches (n : Nat) (id : RpcId) (s s' : Connection) : Prop where
  requests : s'.requests = s.requests
  sessions : s'.sessions = s.sessions
  prompts : s'.prompts = s.prompts
  lists : s'.lists = s.lists
  queries : ∀ key, key ≠ id.requestKey → s'.queries.get key = s.queries.get key
  pending : ∀ key, key ≠ id.requestKey → s'.pending.get key = s.pending.get key
  entries : ∀ subscriptionId, s'.entries.get subscriptionId = s.entries.get subscriptionId ∨
    ∃ entry, s.entries.get subscriptionId = some entry ∧ (s.request entry.task).id = some id
  tasks : ∀ m, s'.tasks m = s.tasks m ∨ ((s.request m).id = some id ∧ Marks (s.tasks m) (s'.tasks m))
  aborts : ∀ session, s'.aborts session = s.aborts session ∨
    ∃ task, s.prompts.get id.requestKey = some task ∧ task.session = session ∧
      (s.request task.task).id = some id ∧ s'.aborts session = s.aborts session + 1
  out : s'.out = s.out ∨ ∃ reply, s'.out = (s.answer n reply).out
  writer : s'.writer = s.writer ∨
    (∃ k, id.asU64 = some k ∧ s'.writer = s.writer.cancelRequest k ∧
      (∀ k', k' ≠ k → s'.writer.pending.get k' = s.writer.pending.get k') ∧
      s.prompts.get id.requestKey = none ∧ s.lists.get id.requestKey = none ∧
      s.queries.get id.requestKey = none) ∨
    (s'.writer = s.writer.close ∧
      ∃ task, s.dispatcher.wait = some task ∧ (s.request task).id = some id)

lemma onlyTouches_dispatcher (s : Connection) (n : Nat) (id : RpcId) (dispatcher : Dispatcher) :
    OnlyTouches n id s { s with dispatcher } :=
  ⟨rfl, rfl, rfl, rfl, fun _ _ => rfl, fun _ _ => rfl, fun _ => .inl rfl, fun _ => .inl rfl,
    fun _ => .inl rfl, .inl rfl, .inl rfl⟩

lemma aborts_cancelPrompt (s : Connection) (key : String) (session : Nat) :
    (s.cancelPrompt key).aborts session = s.aborts session ∨
      ∃ task, s.prompts.get key = some task ∧ task.session = session ∧
        (s.cancelPrompt key).aborts session = s.aborts session + 1 := by
  unfold cancelPrompt
  split
  · rename_i task hget
    by_cases hsession : session = task.session
    · subst hsession
      exact .inr ⟨task, hget, rfl, Function.update_self ..⟩
    · exact .inl (Function.update_of_ne hsession ..)
  · exact .inl rfl

/-- What a cancellation has looked for, apart from the tasks and the queries. -/
lemma exists_search_eq (s : Connection) (key : String) : ∃ tasks queries,
    s.search key = { s.cancelPrompt key with tasks, queries } ∧
      ∀ key', key' ≠ key → queries.get key' = s.queries.get key' := by
  obtain ⟨tasks, hlist⟩ := exists_cancelList_eq (s.cancelPrompt key) key
  obtain ⟨tasks', hquery⟩ := exists_cancelQuery_eq ((s.cancelPrompt key).cancelList key) key
  refine ⟨tasks', (((s.cancelPrompt key).cancelList key).cancelQuery key).queries, ?_, fun key' hkey => ?_⟩
  · rw [search, hquery, hlist]
  · rw [get_queries_cancelQuery, if_neg hkey, hlist]
    unfold cancelPrompt
    split <;> rfl

lemma cancelPrompt_eq (s : Connection) (key : String) :
    s.cancelPrompt key = { s with aborts := (s.cancelPrompt key).aborts } := by
  unfold cancelPrompt
  split <;> rfl

lemma onlyTouches_cancelRequest (h : Indexed P s) {params : Value} (hid : requestId params = some id) :
    OnlyTouches n id s (s.cancelRequest n params) := by
  rw [cancelRequest_eq hid]
  have hflagged : Flagged (fun m => (s.request m).id = some id) s (s.search id.requestKey) :=
    flagged_search h fun howns => howns.id_of_key
  obtain ⟨tasks, queries, hsearch, hqueries⟩ := exists_search_eq s id.requestKey
  have haborts : (s.search id.requestKey).aborts = (s.cancelPrompt id.requestKey).aborts := by
    rw [hsearch]
  constructor
  case requests => exact hflagged.requests
  case sessions =>
    rw [hsearch, cancelPrompt_eq]
  case prompts => exact hflagged.prompts
  case lists => exact hflagged.lists
  case queries =>
    intro key hkey
    rw [hsearch]
    exact hqueries key hkey
  case pending => exact fun key hkey => Table.get_erase_of_ne hkey _
  case entries => exact fun subscriptionId => .inl (congrArg (Table.get · _) hflagged.entries)
  case tasks => exact fun m => (hflagged.only m).imp_right fun hm => ⟨hm, hflagged.tasks m⟩
  case aborts =>
    intro session
    show (s.search id.requestKey).aborts session = _ ∨ ∃ task, _ ∧ _ ∧ _ ∧
      (s.search id.requestKey).aborts session = _
    rw [haborts]
    refine (aborts_cancelPrompt s id.requestKey session).imp_right ?_
    rintro ⟨task, hget, hsession, hcount⟩
    exact ⟨task, hget, hsession, (h.prompts _ task hget).id_of_key, hcount⟩
  case out => exact .inl hflagged.out
  case writer => exact .inl hflagged.writer

lemma onlyTouches_cancelSubscription {subscriptionId : String} {entry : Entry} {task : Subscription}
    (hentry : s.entries.get subscriptionId = some entry)
    (htask : s.tasks entry.task = .subscription task) (hid : (s.request entry.task).id = some id)
    (dispatcher : Dispatcher) :
    OnlyTouches n id s { { s with entries := s.entries.erase subscriptionId }.setTask entry.task
      (.subscription { task with cancelled := true }) with dispatcher } := by
  refine ⟨rfl, rfl, rfl, rfl, fun _ _ => rfl, fun _ _ => rfl, fun other => ?_, fun m => ?_,
    fun _ => .inl rfl, .inl rfl, .inl rfl⟩
  · by_cases hother : other = subscriptionId
    · subst hother
      exact .inr ⟨entry, hentry, hid⟩
    · exact .inl (Table.get_erase_of_ne hother _)
  · by_cases hm : m = entry.task
    · subst hm
      refine .inr ⟨hid, ?_⟩
      rw [htask]
      exact (tasks_setTask_self s entry.task _).symm ▸ .subscription task
    · exact .inl (tasks_setTask_of_ne hm s _)

/-- What is written and answered, while the writer is open or not. -/
lemma onlyTouches_answered {out : List Frame} {writer : Writer} {dispatcher : Dispatcher}
    (hout : out = s.out ∨ ∃ reply, out = (s.answer n reply).out)
    (hwriter : writer = s.writer ∨
      (∃ k, id.asU64 = some k ∧ writer = s.writer.cancelRequest k ∧
        (∀ k', k' ≠ k → writer.pending.get k' = s.writer.pending.get k') ∧
        s.prompts.get id.requestKey = none ∧ s.lists.get id.requestKey = none ∧
        s.queries.get id.requestKey = none) ∨
      (writer = s.writer.close ∧
        ∃ task, s.dispatcher.wait = some task ∧ (s.request task).id = some id)) :
    OnlyTouches n id s { s with out, writer, dispatcher } :=
  ⟨rfl, rfl, rfl, rfl, fun _ _ => rfl, fun _ _ => rfl, fun _ => .inl rfl, fun _ => .inl rfl,
    fun _ => .inl rfl, hout, hwriter⟩

lemma out_answer_of_closed {writer : Writer} (h : writer.closed = s.writer.closed) (reply : Reply) :
    ({ s with writer }.answer n reply).out = (s.answer n reply).out := by
  have hrequest : ({ s with writer } : Connection).request n = s.request n :=
    request_of_requests rfl n
  unfold answer
  rw [hrequest]
  cases (s.request n).id with
  | none => rfl
  | some id =>
    unfold write
    dsimp only
    rw [h]
    split <;> rfl

lemma onlyTouches_finish (h : Cancelling s) (o : Oracle) {rest : Rest}
    (hdispatcher : s.dispatcher = .retiring n [] none rest)
    (hmethod : (s.request n).method = "$/cancel_request")
    (hid : requestId (s.request n).params = some id) : OnlyTouches n id s (s.finish o n rest) := by
  obtain ⟨found, rfl, hfound, -⟩ := h.found n [] none rest id hdispatcher hmethod hid
  unfold finish
  dsimp only
  split
  · rename_i k hk
    obtain ⟨out, hanswer⟩ := exists_answer_eq { s with writer := s.writer.cancelRequest k } n success
    have hout : out = (s.answer n success).out := by
      rw [← out_answer_of_closed (Writer.closed_cancelRequest s.writer k), hanswer]
    obtain ⟨-, hprompts, hlists, hqueries⟩ := hfound rfl
    rw [hanswer]
    exact onlyTouches_answered (.inr ⟨success, hout⟩) (.inr (.inl ⟨k, hk, rfl,
      fun k' hne => Writer.get_cancelRequest_of_ne hne s.writer, hprompts, hlists, hqueries⟩))
  · obtain ⟨out, hanswer⟩ := exists_answer_eq s n success
    have hout : out = (s.answer n success).out := by rw [hanswer]
    rw [hanswer]
    exact onlyTouches_answered (.inr ⟨success, hout⟩) (.inl rfl)

/-- The agent asks its client something under the number 1, and the client then cancels a request 1
that it has never sent. -/
def strayCancellation : List Event :=
  [.writer (.call 0 (.request "session/request_permission" ⟨.null, trivial⟩ none)), .writer (.run 0 .go),
    .writer (.run 0 .go),
    .receive (rpcRequest 7 "$/cancel_request" (.object [("requestId", .number (.posInt 1))])),
    .dispatch obliging, .dispatch obliging]

end Connection

end Acp
