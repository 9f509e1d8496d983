import RpiPackage.Acp.Effects
import RpiPackage.Acp.Framing

/-!
# What can happen to a connection

Every step of a connection is one of a few changes: a request is taken, answered at once, or
becomes a task; tasks go on; a request tells other tasks to stop.
-/

namespace Acp

open Json

namespace Request

/-- The request `r'` cancels the request `r`, by its id, by its session, or by its subscription. -/
def Cancels (P : Parsers) (r' r : Request) : Prop :=
  (r'.method = "$/cancel_request" ∧
    ∃ id, Connection.requestId r'.params = some id ∧ r.id = some id) ∨
  (r'.method ∈ ["session/cancel", "session/close", "session/delete"] ∧
    ∃ sessionId, requiredString r'.params "sessionId" = .ok sessionId ∧
      r.session P = some sessionId) ∨
  (r'.method = "session/tool_program_unsubscribe" ∧
    r.method = "session/tool_program_subscribe" ∧
    ∃ ids, P.unsubscribe r'.params = some ids ∧ P.subscribe r.params = some ids)

end Request

/-- A task has just begun; a subscription begins otherwise. -/
inductive Fresh : Task → Prop where
  | prompt : Fresh (.prompt .running)
  | logout : Fresh (.logout .running)
  | list : Fresh (.list .running false)
  | query : Fresh (.query .running false)

/-- A task goes on by itself. -/
inductive Works (closed : Bool) : Task → Task → Prop where
  | prompt (reply : Reply) : Works closed (.prompt .running) (.prompt (.answering reply))
  | logout (reply : Reply) : Works closed (.logout .running) (.logout (.answering reply))
  | list (cancelled : Bool) (reply : Reply) :
      Works closed (.list .running cancelled) (.list (.answering reply) cancelled)
  | query (aborted : Bool) (reply : Reply) :
      Works closed (.query .running aborted) (.query (.answering reply) aborted)
  | stopped (work : Work) : Works closed (.query work true) (.query .over true)
  | resolved (task : Subscription) (result : Started) (hstage : task.stage = .starting) :
      Works closed (.subscription task) (.subscription { task with
        stage := .resolved (if task.cancelled then none else some result) })
  | dropped (task : Subscription) (result : Option Started) (hstage : task.stage = .unpended result)
      (hwhy : result = none ∨ task.cancelled = true ∨ closed = true) :
      Works closed (.subscription task) (.subscription { task with stage := .finishing })
  | decided (task : Subscription) (result : Started) (hstage : task.stage = .unpended (some result))
      (reply : Reply) (streams : Bool) :
      Works closed (.subscription task)
        (.subscription { task with stage := .answering reply streams })
  | ended (task : Subscription) (hstage : task.stage = .streaming) :
      Works closed (.subscription task) (.subscription { task with stage := .finishing })

/-- A task writes its response. -/
inductive Writes : Task → Reply → Task → Prop where
  | prompt (reply : Reply) : Writes (.prompt (.answering reply)) reply (.prompt .over)
  | logout (reply : Reply) : Writes (.logout (.answering reply)) reply (.logout .over)
  | list (reply : Reply) (cancelled : Bool) :
      Writes (.list (.answering reply) cancelled) reply (.list .over cancelled)
  | query (reply : Reply) (aborted : Bool) :
      Writes (.query (.answering reply) aborted) reply (.query .over aborted)
  | subscription (task : Subscription) (reply : Reply) (streams : Bool)
      (hstage : task.stage = .answering reply streams) :
      Writes (.subscription task) reply
        (.subscription { task with stage := if streams then .streaming else .finishing })

namespace Connection

variable {P : Parsers} {s s' : Connection} {n m : Nat} {key sessionId : String}

/-- A request has become a task, and leaves the dispatcher. -/
structure Spawns (P : Parsers) (n : Nat) (task : Task) (s s' : Connection) : Prop where
  fresh : Fresh task
  asked : task.isQuery = true → (s.request n).method ∈ queryMethods
  requests : s'.requests = s.requests
  tasks : s'.tasks = Function.update s.tasks n task
  entries : s'.entries = s.entries
  pending : s'.pending = s.pending
  prompts : ∀ key task, s'.prompts.get key = some task →
    s.prompts.get key = some task ∨ s.Owns key task.task
  lists : ∀ key n, s'.lists.get key = some n → s.lists.get key = some n ∨ s.Owns key n
  queries : ∀ key t, s'.queries.get key = some t → s.queries.get key = some t ∨
    (t.task = n ∧ s.Owns key n ∧ task.isQuery = true ∧ (s.request n).session P = some t.sessionId)
  out : s'.out = s.out
  writer : s'.writer = s.writer
  idle : s'.dispatcher = .idle

inductive Change (P : Parsers) (s : Connection) : Connection → Prop where
  | settled {s' : Connection} (h : Settles s s') (hdispatcher : s'.dispatcher = s.dispatcher) :
      Change P s s'
  | ended {s' : Connection} (h : Settles s s') (hclosed : s'.writer.closed = true)
      (hcurrent : s'.dispatcher.current = none) : Change P s s'
  | accepted (request : Request) (hidle : s.dispatcher = .idle) (hopen : s.writer.closed = false) :
      Change P s { { s with requests := s.requests ++ [request] }.reap with
        dispatcher := .serving s.requests.length }
  | duplicate (request : Request) (reply : Reply) (hidle : s.dispatcher = .idle)
      (hopen : s.writer.closed = false) :
      Change P s ({ s with requests := s.requests ++ [request] }.reap.answer s.requests.length reply)
  | answered {n : Nat} {before s' : Connection} (reply : Reply)
      (hcurrent : s.dispatcher.Serves n) (hbefore : Settles s before)
      (h : Settles (before.answer n reply) s') (hidle : s'.dispatcher = .idle) : Change P s s'
  | spawned {n : Nat} {task : Task} {s' : Connection} (hserving : s.dispatcher = .serving n)
      (h : Spawns P n task s s') : Change P s s'
  | subscribed {n : Nat} {sessionId subscriptionId : String} (nextToken : UInt64)
      (hserving : s.dispatcher = .serving n) (howns : s.Owns (s.key n) n)
      (hasks : s.Asks P n sessionId subscriptionId)
      (hfree : s.entries.get subscriptionId = none) :
      Change P s ({ s with
        nextToken
        entries := s.entries.put subscriptionId ⟨sessionId, s.nextToken, n⟩
        pending := s.pending.put (s.key n) subscriptionId }.setTask n
          (.subscription ⟨sessionId, subscriptionId, s.nextToken, .starting, false⟩)).idle
  | retired {n : Nat} {before : Connection} (subscriptions : List String) (rest : Rest)
      (hserving : s.dispatcher = .serving n)
      (h : Flagged (fun m => (s.request n).Cancels P (s.request m)) s before)
      (hsubscriptions : ∀ subscriptionId ∈ subscriptions, ∀ entry,
        s.entries.get subscriptionId = some entry →
          (s.request n).Cancels P (s.request entry.task)) :
      Change P s { before with dispatcher := .retiring n subscriptions none rest }
  | waited {n task : Nat} {subscriptions : List String} {rest : Rest}
      (hretiring : s.dispatcher = .retiring n subscriptions (some task) rest)
      (hover : (s.tasks task).isOver = true) :
      Change P s { s with dispatcher := .retiring n subscriptions none rest }
  | gaveUp {n task : Nat} {subscriptions : List String} {rest : Rest}
      (hretiring : s.dispatcher = .retiring n subscriptions (some task) rest) :
      Change P s { s.close with dispatcher := .retiring n subscriptions none rest }
  | skipped {n : Nat} {subscriptionId : String} {subscriptions : List String} {rest : Rest}
      (hretiring : s.dispatcher = .retiring n (subscriptionId :: subscriptions) none rest) :
      Change P s { s with dispatcher := .retiring n subscriptions none rest }
  | cancelled {n : Nat} {subscriptionId : String} {subscriptions : List String} {rest : Rest}
      {entry : Entry} {task : Subscription}
      (hretiring : s.dispatcher = .retiring n (subscriptionId :: subscriptions) none rest)
      (hentry : s.entries.get subscriptionId = some entry)
      (htask : s.tasks entry.task = .subscription task) :
      Change P s { { s with entries := s.entries.erase subscriptionId }.setTask entry.task
          (.subscription { task with cancelled := true }) with
        dispatcher := .retiring n subscriptions (some entry.task) rest.find }
  | worked {n : Nat} {task : Task} (h : Works s.writer.closed (s.tasks n) task) :
      Change P s (s.setTask n task)
  | written {n : Nat} {reply : Reply} {task : Task} (h : Writes (s.tasks n) reply task) :
      Change P s ((s.answer n reply).setTask n task)
  | unpended {n : Nat} {task : Subscription} {result : Option Started}
      (htask : s.tasks n = .subscription task) (hstage : task.stage = .resolved result) :
      Change P s ({ s with pending := s.pending.erase (s.key n) }.setTask n
        (.subscription { task with stage := .unpended result }))
  | finished {n : Nat} {task : Subscription} {entries : Table String Entry}
      (htask : s.tasks n = .subscription task) (hstage : task.stage = .finishing)
      (hentries : ∀ subscriptionId entry, entries.get subscriptionId = some entry ↔
        s.entries.get subscriptionId = some entry ∧ entry.task ≠ n) :
      Change P s ({ s with entries }.setTask n (.subscription { task with stage := .over }))

/-! ### Requests that are served at once -/

/-- The request is answered, and nothing else happens to the tasks. -/
inductive Answers (n : Nat) (s s' : Connection) : Prop where
  | intro (before : Connection) (reply : Reply) (hbefore : Settles s before)
      (h : Settles (before.answer n reply) s')

lemma answers_answer (s : Connection) (n : Nat) (reply : Reply) : Answers n s (s.answer n reply) :=
  .intro s reply (.refl s) (.refl _)

lemma Answers.notify (h : Answers n s s') (updates : List (String × Value)) :
    Answers n s (s'.notify updates) := by
  obtain ⟨before, reply, hbefore, h⟩ := h
  exact .intro before reply hbefore (h.trans (settles_notify s' updates))

lemma Answers.change (h : Answers n s s') (hcurrent : s.dispatcher.Serves n) :
    Change P s s'.idle := by
  obtain ⟨before, reply, hbefore, h⟩ := h
  exact .answered reply hcurrent hbefore (h.trans (settles_dispatcher s' .idle)) rfl

lemma answers_initializeConnection (P : Parsers) (o : Oracle) (params : Value) :
    Answers n s (s.initializeConnection P o n params) := by
  unfold initializeConnection
  repeat' split
  all_goals exact answers_answer s n _

lemma answers_authenticate (params : Value) : Answers n s (s.authenticate n params) := by
  unfold authenticate
  split
  all_goals exact answers_answer s n _

lemma answers_newSession (P : Parsers) (o : Oracle) (params : Value) :
    Answers n s (s.newSession P o n params) := by
  unfold newSession
  repeat' split
  case h_4 =>
    apply Answers.notify
    exact .intro _ (.result o.result) (settles_sessions s _ s.nextToken) (.refl _)
  all_goals exact answers_answer s n _

lemma answers_durable (P : Parsers) (o : Oracle) (params : Value) :
    Answers n s (s.durable P o n params) := by
  unfold durable
  repeat' split
  all_goals first
    | exact answers_answer s n _
    | exact (answers_answer s n _).notify o.updates

lemma answers_setConfigOption (o : Oracle) (params : Value) :
    Answers n s (s.setConfigOption o n params) := by
  unfold setConfigOption
  repeat' split
  all_goals exact answers_answer s n _

lemma change_loadSession (P : Parsers) (o : Oracle) (method : String) (params : Value)
    (hcurrent : s.dispatcher.Serves n) :
    Change P s (s.loadSession P o n method params).idle := by
  unfold loadSession
  repeat' split
  case h_2.isTrue =>
    refine Answers.change ?_ hcurrent
    apply Answers.notify
    exact .intro _ (.result o.result) (settles_sessions s _ s.nextToken) (.refl _)
  case h_2.isFalse =>
    exact .ended ((settles_close s).trans (settles_dispatcher _ .idle)) rfl rfl
  all_goals exact (answers_answer s n _).change hcurrent

/-! ### Requests that become tasks -/

lemma owns_key (hlt : n < s.requests.length) (hid : (s.request n).id.isNone ≠ true) :
    s.Owns (s.key n) n := by
  refine ⟨hlt, ?_⟩
  unfold key
  cases h : (s.request n).id with
  | none =>
    rw [h] at hid
    exact absurd rfl hid
  | some id => exact ⟨id, rfl, rfl⟩

lemma current_of_serving (hserving : s.dispatcher = .serving n) : s.dispatcher.Serves n := by
  rw [hserving]
  exact ⟨rfl, rfl⟩

lemma change_answer (reply : Reply) (hserving : s.dispatcher = .serving n) :
    Change P s (s.answer n reply).idle :=
  (answers_answer s n reply).change (current_of_serving hserving)

lemma change_logout (params : Value) (hserving : s.dispatcher = .serving n) :
    Change P s (s.logout n params).idle := by
  unfold logout
  split
  · refine .spawned hserving (?_ : Spawns P n (.logout .running) s _)
    exact ⟨.logout, by simp [Task.isQuery], rfl, rfl, rfl, rfl, fun _ _ h => .inl h,
      fun _ _ h => .inl h, fun _ _ h => .inl h, rfl, rfl, rfl⟩
  · exact change_answer _ hserving

lemma get_put {α : Type*} {table : Table String α} {key key' : String} {a b : α}
    (h : (table.put key a).get key' = some b) :
    table.get key' = some b ∨ (key' = key ∧ b = a) := by
  by_cases hkey : key' = key
  · subst hkey
    rw [Table.get_put_self] at h
    exact .inr ⟨rfl, (Option.some.inj h).symm⟩
  · rw [Table.get_put_of_ne hkey] at h
    exact .inl h

lemma change_startList (params : Value) (hserving : s.dispatcher = .serving n)
    (howns : s.Owns (s.key n) n) : Change P s (s.startList P n params).idle := by
  unfold startList
  repeat' split
  case h_2 =>
    refine .spawned hserving (?_ : Spawns P n (.list .running false) s _)
    refine ⟨.list, by simp [Task.isQuery], rfl, rfl, rfl, rfl, fun _ _ h => .inl h, ?_,
      fun _ _ h => .inl h, rfl, rfl, rfl⟩
    intro key m hm
    rcases get_put hm with hold | ⟨rfl, rfl⟩
    · exact .inl hold
    · exact .inr howns
  all_goals exact change_answer _ hserving

lemma change_startQuery (params : Value) (hserving : s.dispatcher = .serving n)
    (howns : s.Owns (s.key n) n) (hmethod : (s.request n).method ∈ queryMethods)
    (hparams : (s.request n).params = params) :
    Change P s (s.startQuery P n (s.request n).method params).idle := by
  unfold startQuery
  split
  · exact change_answer _ hserving
  rename_i sessionId hchild
  split
  · exact change_answer _ hserving
  split
  · exact change_answer _ hserving
  refine .spawned hserving (?_ : Spawns P n (.query .running false) s _)
  refine ⟨.query, fun _ => hmethod, rfl, rfl, rfl, rfl, fun _ _ h => .inl h, fun _ _ h => .inl h, ?_,
    rfl, rfl, rfl⟩
  intro key task htask
  rcases get_put htask with hold | ⟨rfl, rfl⟩
  · exact .inl hold
  · refine .inr ⟨rfl, howns, rfl, ?_⟩
    show (s.request n).session P = some sessionId
    rw [Request.session, if_pos hmethod, hparams]
    exact hchild

lemma change_startPrompt (params : Value) (hserving : s.dispatcher = .serving n)
    (howns : s.Owns (s.key n) n) : Change P s (s.startPrompt P n params).idle := by
  unfold startPrompt
  repeat' split
  case h_2 =>
    refine .spawned hserving (?_ : Spawns P n (.prompt .running) s _)
    refine ⟨.prompt, by simp [Task.isQuery], rfl, rfl, rfl, rfl, ?_, fun _ _ h => .inl h,
      fun _ _ h => .inl h, rfl, rfl, rfl⟩
    intro key task htask
    rcases get_put htask with hold | ⟨rfl, rfl⟩
    · exact .inl hold
    · exact .inr howns
  all_goals exact change_answer _ hserving

lemma change_subscribe (params : Value) (hserving : s.dispatcher = .serving n)
    (howns : s.Owns (s.key n) n)
    (hmethod : (s.request n).method = "session/tool_program_subscribe")
    (hparams : (s.request n).params = params) : Change P s (s.subscribe P n params).idle := by
  unfold subscribe
  split
  · exact change_answer _ hserving
  rename_i sessionId subscriptionId hsubscribe
  have hwith : ∀ reply : Reply, Change P s ({ s with nextToken := s.nextToken + 1 }.answer n reply).idle := by
    intro reply
    refine .answered reply (current_of_serving hserving) ?_ (settles_dispatcher _ .idle) rfl
    exact settles_sessions s s.sessions _
  split
  · exact change_answer _ hserving
  split
  · exact change_answer _ hserving
  dsimp only
  split
  · exact hwith _
  split
  · exact hwith _
  · rename_i hcontains
    refine .subscribed _ hserving howns ⟨hmethod, by rw [hparams]; exact hsubscribe⟩ ?_
    simpa [Table.contains] using hcontains

/-! ### Requests that end tasks -/

/-- A request with the key of another one has its id. -/
lemma Owns.id_of_key {id : RpcId} (h : s.Owns id.requestKey n) : (s.request n).id = some id := by
  obtain ⟨-, id', hid, hkey⟩ := h
  rw [hid, RpcId.requestKey_injective hkey]

lemma Indexed.request_of_entry (h : Indexed P s) {subscriptionId : String} {entry : Entry}
    (hentry : s.entries.get subscriptionId = some entry) :
    s.Asks P entry.task entry.sessionId subscriptionId := by
  obtain ⟨task, htask, -, hsession, hid, -⟩ := h.entries subscriptionId entry hentry
  have hasks := h.asks entry.task task htask
  rwa [hsession, hid] at hasks

lemma Asks.session {subscriptionId : String} (h : s.Asks P n sessionId subscriptionId) :
    (s.request n).session P = some sessionId := by
  rw [Request.session, h.1, if_neg (by decide), if_pos rfl, h.2]
  rfl

lemma change_unsubscribe (h : Indexed P s) (params : Value) (hserving : s.dispatcher = .serving n)
    (hmethod : (s.request n).method = "session/tool_program_unsubscribe")
    (hparams : (s.request n).params = params) : Change P s (s.unsubscribe P n params) := by
  unfold unsubscribe
  split
  · exact change_answer _ hserving
  rename_i sessionId subscriptionId hunsubscribe
  split
  · exact change_answer _ hserving
  rename_i entry hentry
  split
  · exact change_answer _ hserving
  · rename_i hsession
    refine .retired _ _ hserving (.refl _ s) ?_
    intro id hid entry' hentry'
    obtain rfl := List.mem_singleton.mp hid
    obtain rfl := Option.some.inj (hentry.symm.trans hentry')
    have hasks := h.request_of_entry hentry
    rw [not_ne_iff.mp hsession] at hasks
    exact .inr (.inr ⟨hmethod, hasks.1, _, hparams ▸ hunsubscribe, hasks.2⟩)

/-- The request that waits for its snapshot under an id has the entry of its subscription. -/
lemma Indexed.task_of_pending (h : Indexed P s) {subscriptionId : String} {entry : Entry}
    (hpending : s.pending.get key = some subscriptionId)
    (hentry : s.entries.get subscriptionId = some entry) : s.Owns key entry.task := by
  obtain ⟨m, task, howns, htask, hearly, hid⟩ := h.pending key subscriptionId hpending
  obtain ⟨task', htask', hstage', -, hid', -⟩ := h.entries subscriptionId entry hentry
  have hstage : task.stage.isOver = false := by
    cases hcase : task.stage <;> simp_all [Stage.early, Stage.isOver]
  rwa [h.distinct entry.task m task' task htask' htask hstage' hstage (hid'.trans hid.symm)]

lemma flagged_abort (C : Nat → Prop) (s : Connection) (session : Nat) :
    Flagged C s (s.abort session) :=
  ⟨rfl, rfl, rfl, fun _ _ h => h, fun _ _ h => h, rfl, fun _ => .same _, fun _ => .inl rfl, rfl, rfl⟩

lemma flagged_cancelId (h : Indexed P s) {s₁ : Connection} {id : RpcId} {C : Nat → Prop}
    (hC : ∀ {m : Nat}, s.Owns id.requestKey m → C m) (hprompt : Flagged C s s₁) :
    Flagged C s ((s₁.cancelList id.requestKey).cancelQuery id.requestKey) := by
  have hlist : Flagged C s (s₁.cancelList id.requestKey) := by
    refine hprompt.trans (flagged_cancelList ?_)
    intro m hm
    rw [hprompt.lists] at hm
    exact hC (h.lists _ m hm)
  refine hlist.trans (flagged_cancelQuery ?_)
  intro task htask
  exact hC (h.queries _ task (hlist.queries _ task htask)).1

lemma flagged_erasePending (C : Nat → Prop) (s : Connection) (key : String) :
    Flagged C s { s with pending := s.pending.erase key } :=
  ⟨rfl, rfl, rfl, fun _ _ h => h, fun _ _ h => (Table.get_of_get_erase h).2, rfl,
    fun _ => .same _, fun _ => .inl rfl, rfl, rfl⟩

/-- What has the id is told to stop, once the prompt has been. -/
lemma change_cancelId (h : Indexed P s) {s₁ : Connection} {id : RpcId} (found : Bool)
    (hserving : s.dispatcher = .serving n) (hmethod : (s.request n).method = "$/cancel_request")
    (hid : requestId (s.request n).params = some id)
    (hprompt : Flagged (fun m => (s.request n).Cancels P (s.request m)) s s₁) :
    Change P s { (s₁.cancelList id.requestKey).cancelQuery id.requestKey with
      pending := ((s₁.cancelList id.requestKey).cancelQuery id.requestKey).pending.erase
        id.requestKey
      dispatcher := .retiring n
        (((s₁.cancelList id.requestKey).cancelQuery id.requestKey).pending.get
          id.requestKey).toList none (.cancelled found id) } := by
  have hcancels : ∀ {m : Nat}, s.Owns id.requestKey m →
      (s.request n).Cancels P (s.request m) :=
    fun howns => .inl ⟨hmethod, id, hid, howns.id_of_key⟩
  have hflagged := flagged_cancelId h hcancels hprompt
  refine .retired _ _ hserving (hflagged.trans (flagged_erasePending _ _ id.requestKey)) ?_
  intro subscriptionId hmem entry hentry
  have hpending := hflagged.pending _ _ (Option.mem_toList.mp hmem)
  exact hcancels (h.task_of_pending hpending hentry)

lemma change_cancelRequest (h : Indexed P s) (params : Value)
    (hserving : s.dispatcher = .serving n)
    (hmethod : (s.request n).method = "$/cancel_request")
    (hparams : (s.request n).params = params) : Change P s (s.cancelRequest n params) := by
  unfold cancelRequest
  split
  · exact change_answer _ hserving
  rename_i id hid
  dsimp only
  split
  · exact change_cancelId h _ hserving hmethod (hparams ▸ hid) (flagged_abort _ s _)
  · exact change_cancelId h _ hserving hmethod (hparams ▸ hid) (.refl _ s)

/-- The queries and the subscriptions of a session are told to stop. -/
lemma change_retire (h : Indexed P s) (rest : Rest) (hserving : s.dispatcher = .serving n)
    (hmethod : (s.request n).method ∈ ["session/cancel", "session/close", "session/delete"])
    (hsession : requiredString (s.request n).params "sessionId" = .ok sessionId) :
    Change P s { s.cancelQueries sessionId with
      dispatcher := .retiring n ((s.cancelQueries sessionId).subscriptionsOf sessionId) none rest } := by
  have hcancels : ∀ {m : Nat}, (s.request m).session P = some sessionId →
      (s.request n).Cancels P (s.request m) :=
    fun hm => .inr (.inl ⟨hmethod, sessionId, hsession, hm⟩)
  have hflagged : Flagged (fun m => (s.request n).Cancels P (s.request m)) s
      (s.cancelQueries sessionId) := by
    apply flagged_cancelQueries
    rintro key task htask rfl
    exact hcancels (h.queries key task htask).2.2
  refine .retired _ rest hserving hflagged ?_
  intro subscriptionId hmem entry hentry
  unfold subscriptionsOf at hmem
  rw [hflagged.entries] at hmem
  obtain ⟨p, hp, rfl⟩ := List.mem_map.mp hmem
  obtain ⟨hp, hsame⟩ := List.mem_filter.mp hp
  obtain rfl := Option.some.inj ((Table.get_of_mem_entries hp).symm.trans hentry)
  have hasks := (h.request_of_entry hentry).session
  rw [beq_iff_eq.mp hsame] at hasks
  exact hcancels hasks

lemma change_sessionCancel (h : Indexed P s) (params : Value)
    (hserving : s.dispatcher = .serving n) (hmethod : (s.request n).method = "session/cancel")
    (hparams : (s.request n).params = params) : Change P s (s.sessionCancel n params) := by
  unfold sessionCancel
  split
  · exact change_answer _ hserving
  · rename_i sessionId hsession
    refine change_retire h _ hserving ?_ (hparams ▸ hsession)
    simp [hmethod]

lemma change_closeSession (h : Indexed P s) (method : String) (params : Value)
    (hserving : s.dispatcher = .serving n)
    (hmethod : (s.request n).method = "session/close" ∨ (s.request n).method = "session/delete")
    (hparams : (s.request n).params = params) : Change P s (s.closeSession n method params) := by
  unfold closeSession
  split
  · exact change_answer _ hserving
  split
  · exact change_answer _ hserving
  · rename_i sessionId hsession
    refine change_retire h _ hserving ?_ (hparams ▸ hsession)
    simpa using .inr hmethod

lemma change_finish (o : Oracle) (rest : Rest) (hcurrent : s.dispatcher.Serves n) :
    Change P s (s.finish o n rest) := by
  cases rest with
  | unsubscribed => exact (answers_answer s n success).change hcurrent
  | cancelled found id =>
    dsimp only [finish]
    split
    · exact .answered _ hcurrent (settles_cancelRequest s _) (settles_dispatcher _ .idle) rfl
    · exact (answers_answer s n success).change hcurrent
  | sessionCancelled sessionId =>
    exact .answered _ hcurrent (settles_abortSession s sessionId) (settles_dispatcher _ .idle) rfl
  | stopped sessionId method =>
    unfold finish
    dsimp only
    split
    · exact .answered _ hcurrent (settles_stopLiveSession s sessionId)
        (settles_dispatcher _ .idle) rfl
    · refine .ended ?_ rfl rfl
      exact ((settles_stopLiveSession s sessionId).trans (settles_close _)).trans
        (settles_dispatcher _ .ended)

/-! ### Steps -/

/-- What holds of every connection; a subscription that has not ended is in the registry, unless
the request that cancels it waits for it or has given up. -/
structure Guarded (P : Parsers) (s : Connection) : Prop where
  indexed : Indexed P s
  current : ∀ n, s.dispatcher.current = some n → n + 1 = s.requests.length ∧ s.tasks n = .none
  held : ∀ n task, s.tasks n = .subscription task → task.stage.isOver = false →
    (∃ entry, s.entries.get task.subscriptionId = some entry ∧ entry.task = n) ∨
      s.dispatcher.wait = some n ∨ (s.writer.closed = true ∧ s.dispatcher.isServing = false)

lemma change_ite {c : Prop} [Decidable c] {a b : Connection} (ha : c → Change P s a)
    (hb : ¬c → Change P s b) : Change P s (if c then a else b) := by
  by_cases hc : c
  · rw [if_pos hc]
    exact ha hc
  · rw [if_neg hc]
    exact hb hc

lemma change_ite_idle {c : Prop} [Decidable c] {a b : Connection} (ha : c → Change P s a.idle)
    (hb : ¬c → Change P s b.idle) : Change P s (if c then a else b).idle := by
  by_cases hc : c
  · rw [if_pos hc]
    exact ha hc
  · rw [if_neg hc]
    exact hb hc

/-- One arm of the dispatcher after the other. -/
lemma change_serve (h : Guarded P s) (o : Oracle) (hserving : s.dispatcher = .serving n) :
    Change P s (s.serve P o n) := by
  have hlt : n < s.requests.length := by
    have := (h.current n (current_of_serving hserving).1).1
    omega
  have hcurrent := current_of_serving hserving
  refine change_ite (fun hmethod => ?_) fun _ => ?_
  · exact change_cancelRequest h.indexed _ hserving hmethod rfl
  refine change_ite (fun hmethod => ?_) fun _ => ?_
  · exact change_sessionCancel h.indexed _ hserving hmethod rfl
  refine change_ite (fun hid => ?_) fun hid => ?_
  · -- a request without an id is left unanswered
    have hnone : (s.request n).id = none := by simpa using hid
    have hanswer : s.answer n success = s := by simp [answer, hnone]
    have hchange := change_answer (P := P) success hserving
    rwa [hanswer] at hchange
  have howns := owns_key hlt hid
  refine change_ite (fun hmethod => ?_) fun _ => ?_
  · exact change_closeSession h.indexed _ _ hserving hmethod rfl
  refine change_ite (fun hmethod => ?_) fun _ => ?_
  · exact change_unsubscribe h.indexed _ hserving hmethod rfl
  refine change_ite_idle (fun _ => change_startList _ hserving howns) fun _ => ?_
  refine change_ite_idle (fun _ => (answers_initializeConnection P o _).change hcurrent) fun _ => ?_
  refine change_ite_idle (fun _ => (answers_authenticate _).change hcurrent) fun _ => ?_
  refine change_ite_idle (fun _ => change_logout _ hserving) fun _ => ?_
  refine change_ite_idle (fun _ => (answers_newSession P o _).change hcurrent) fun _ => ?_
  refine change_ite_idle (fun hmethod => change_startQuery _ hserving howns hmethod rfl) fun _ => ?_
  refine change_ite_idle (fun hmethod => change_subscribe _ hserving howns hmethod rfl) fun _ => ?_
  refine change_ite_idle (fun _ => (answers_durable P o _).change hcurrent) fun _ => ?_
  refine change_ite_idle (fun _ => change_startPrompt _ hserving howns) fun _ => ?_
  refine change_ite_idle (fun _ => change_loadSession P o _ _ hcurrent) fun _ => ?_
  refine change_ite_idle (fun _ => (answers_setConfigOption o _).change hcurrent) fun _ => ?_
  exact change_answer _ hserving

lemma change_refl (s : Connection) : Change P s s := .settled (.refl s) rfl

lemma change_dispatch (h : Guarded P s) (o : Oracle) : Change P s (s.dispatch P o) := by
  unfold dispatch
  split
  · rename_i n hserving
    exact change_serve h o hserving
  · rename_i n subscriptions task rest hretiring
    split
    · rename_i hover
      exact .waited hretiring hover
    · exact change_refl s
  · rename_i n subscriptionId subscriptions rest hretiring
    split
    · rename_i entry hentry
      obtain ⟨task, htask, -⟩ := h.indexed.entries subscriptionId entry hentry
      unfold cancelSubscription
      simp only [htask]
      exact .cancelled hretiring hentry htask
    · exact .skipped hretiring
  · rename_i n rest hretiring
    refine change_finish o rest ?_
    rw [hretiring]
    exact ⟨rfl, rfl⟩
  · exact change_refl s
  · exact change_refl s

lemma change_giveUp (P : Parsers) (s : Connection) : Change P s s.giveUp := by
  unfold giveUp
  split
  · rename_i n subscriptions task rest hretiring
    exact .gaveUp hretiring
  · exact change_refl s

lemma change_accept (request : Request) (hidle : s.dispatcher = .idle)
    (hopen : s.writer.closed = false) : Change P s (s.accept request) := by
  unfold accept
  dsimp only
  split
  · split
    · exact .duplicate request _ hidle hopen
    · exact .accepted request hidle hopen
  · exact .accepted request hidle hopen

lemma change_receive (P : Parsers) (s : Connection) (message : Value) :
    Change P s (s.receive message) := by
  unfold receive
  split
  · rename_i id result hparse
    split
    · rename_i numericId hid
      refine .settled ?_ rfl
      exact settles_of_out rfl rfl rfl rfl rfl rfl (fun _ _ h => h) rfl
        (Writer.quiet_resolveChecked s.writer numericId result).closed
    · exact change_refl s
  · split
    · rename_i hidle
      split
      · exact change_refl s
      · rename_i hopen
        exact change_accept _ hidle (by simpa using hopen)
    · exact change_refl s
  · exact change_refl s
  · rename_i error _ hparse
    split
    · refine .settled (settles_write s ?_) ?_
      · intro frame hframe n
        obtain rfl := List.mem_singleton.mp hframe
        rfl
      · unfold write
        split <;> rfl
    · exact change_refl s

/-- A task whose work is done writes its response. -/
lemma change_work (wrap : Work → Task) {work : Work} (htask : s.tasks n = wrap work)
    (hworks : ∀ reply, Works s.writer.closed (wrap .running) (wrap (.answering reply)))
    (hwrites : ∀ reply, Writes (wrap (.answering reply)) reply (wrap .over)) (progress : Progress) :
    Change P s (s.work n wrap work progress) := by
  unfold Connection.work
  split
  · split
    · refine .worked ?_
      rw [htask]
      exact hworks _
    · exact change_refl s
  · split
    · refine .written ?_
      rw [htask]
      exact hwrites _
    · exact change_refl s
  · exact change_refl s

lemma change_subscription (h : Guarded P s) {task : Subscription}
    (htask : s.tasks n = .subscription task) (progress : Progress) :
    Change P s (s.subscription n task progress) := by
  unfold subscription
  dsimp only
  split
  · rename_i result hstage
    refine .worked ?_
    rw [htask]
    exact .resolved task result hstage
  · rename_i result hstage
    exact .unpended htask hstage
  · rename_i hstage
    refine .worked ?_
    rw [htask]
    exact .dropped task none hstage (.inl rfl)
  · rename_i result hstage
    split
    · rename_i hwhy
      refine .worked ?_
      rw [htask]
      exact .dropped task (some result) hstage (.inr (by simpa using hwhy))
    · refine .worked ?_
      rw [htask]
      exact .decided task result hstage _ _
  · rename_i reply streams hstage
    refine .written ?_
    rw [htask]
    exact .subscription task reply streams hstage
  · rename_i item hstage
    split
    · refine .worked ?_
      rw [htask]
      exact .ended task hstage
    · refine .settled (settles_notify s _) ?_
      unfold notify write
      split <;> rfl
  · rename_i hstage
    refine .worked ?_
    rw [htask]
    exact .ended task hstage
  · rename_i hstage
    have hover : task.stage.isOver = false := by rw [hstage]; rfl
    refine .finished htask hstage ?_
    -- an entry under the id of the subscription is its own
    have hown : ∀ entry, s.entries.get task.subscriptionId = some entry →
        entry.task = n ∧ entry.token = task.token := by
      intro entry hentry
      obtain ⟨task', htask', hstage', -, hid, htoken⟩ := h.indexed.entries _ entry hentry
      obtain rfl := h.indexed.distinct entry.task n task' task htask' htask hstage' hover hid
      obtain rfl := Task.subscription.inj (htask'.symm.trans htask)
      exact ⟨rfl, htoken.symm⟩
    have hother : ∀ id entry, id ≠ task.subscriptionId → s.entries.get id = some entry →
        entry.task ≠ n := by
      rintro id entry hne hentry rfl
      obtain ⟨task', htask', -, -, hid, -⟩ := h.indexed.entries id entry hentry
      obtain rfl := Task.subscription.inj (htask'.symm.trans htask)
      exact hne hid.symm
    intro id entry
    split
    · rename_i entry' hentry'
      rw [if_pos (hown entry' hentry').2]
      constructor
      · intro hget
        obtain ⟨hne, hold⟩ := Table.get_of_get_erase hget
        exact ⟨hold, hother id entry hne hold⟩
      · rintro ⟨hold, hne⟩
        rw [Table.get_erase_of_ne ?_]
        · exact hold
        · rintro rfl
          exact hne (hown entry hold).1
    · rename_i hnone
      constructor
      · intro hold
        refine ⟨hold, hother id entry ?_ hold⟩
        rintro rfl
        rw [hnone] at hold
        cases hold
      · exact fun hold => hold.1
  · exact change_refl s

lemma change_progress (h : Guarded P s) (n : Nat) (progress : Progress) :
    Change P s (s.progress n progress) := by
  unfold Connection.progress
  split
  · exact change_refl s
  · rename_i work htask
    exact change_work .prompt htask Works.prompt Writes.prompt progress
  · rename_i work htask
    exact change_work .logout htask Works.logout Writes.logout progress
  · rename_i work cancelled htask
    exact change_work (.list · cancelled) htask (Works.list cancelled)
      (Writes.list · cancelled) progress
  · rename_i work aborted htask
    split
    · split
      · rename_i haborted
        subst haborted
        refine .worked ?_
        rw [htask]
        exact .stopped work
      · exact change_refl s
    · exact change_work (.query · aborted) htask (Works.query aborted)
        (Writes.query · aborted) progress
  · rename_i task htask
    exact change_subscription h htask progress

/-- A step is one of the changes. -/
lemma step_change (h : Guarded P s) (event : Event) : Change P s (step P s event) := by
  cases event with
  | receive message => exact change_receive P s message
  | dispatch o => exact change_dispatch h o
  | giveUp => exact change_giveUp P s
  | progress n progress => exact change_progress h n progress
  | writer event =>
    refine .settled ?_ rfl
    refine settles_of_out rfl rfl rfl rfl rfl rfl (fun _ _ h => h) rfl ?_
    exact fun hclosed => Turns.Moves.isSealed (Writer.moves_step s.writer event) hclosed
  | stop =>
    unfold step
    dsimp only
    split
    · exact .ended ((settles_close s).trans (settles_dispatcher _ .ended)) rfl rfl
    · exact change_refl s

end Connection

end Acp
