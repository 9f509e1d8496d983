import RpiPackage.Acp.Dispatch

/-!
# The registries of a connection

The tables of a connection point at the tasks of the requests whose ids are their keys, and the
subscriptions that have not ended have different ids.
-/

namespace Acp

open Json

def Task.isQuery : Task → Bool
  | .query _ _ => true
  | _ => false

namespace Stage

/-- The request of the subscription is among the pending ones. -/
def early : Stage → Bool
  | .starting | .resolved _ => true
  | _ => false

def isOver : Stage → Bool
  | .over => true
  | _ => false

end Stage

namespace Request

/-- The session that a child query or a subscription is about. -/
def session (r : Request) (P : Parsers) : Option String :=
  if r.method ∈ Connection.queryMethods then P.childQuery r.method r.params
  else if r.method = "session/tool_program_subscribe" then (P.subscribe r.params).map Prod.fst
  else none

end Request

namespace Connection

/-- The `n`-th request has an id with this key. -/
def Owns (s : Connection) (key : String) (n : Nat) : Prop :=
  n < s.requests.length ∧ ∃ id, (s.request n).id = some id ∧ id.requestKey = key

/-- The request of a subscription. -/
def Asks (s : Connection) (P : Parsers) (n : Nat) (sessionId subscriptionId : String) : Prop :=
  (s.request n).method = "session/tool_program_subscribe" ∧
    P.subscribe (s.request n).params = some (sessionId, subscriptionId)

structure Indexed (P : Parsers) (s : Connection) : Prop where
  born : ∀ n, s.requests.length ≤ n → s.tasks n = .none
  prompts : ∀ key task, s.prompts.get key = some task → s.Owns key task.task
  lists : ∀ key n, s.lists.get key = some n → s.Owns key n
  queries : ∀ key task, s.queries.get key = some task → s.Owns key task.task ∧
    (s.tasks task.task).isQuery = true ∧ (s.request task.task).session P = some task.sessionId
  asked : ∀ n, (s.tasks n).isQuery = true → (s.request n).method ∈ queryMethods
  asks : ∀ n task, s.tasks n = .subscription task →
    s.Asks P n task.sessionId task.subscriptionId
  entries : ∀ subscriptionId entry, s.entries.get subscriptionId = some entry →
    ∃ task, s.tasks entry.task = .subscription task ∧ task.stage.isOver = false ∧
      task.sessionId = entry.sessionId ∧ task.subscriptionId = subscriptionId ∧
      task.token = entry.token
  pending : ∀ key subscriptionId, s.pending.get key = some subscriptionId →
    ∃ n task, s.Owns key n ∧ s.tasks n = .subscription task ∧ task.stage.early = true ∧
      task.subscriptionId = subscriptionId
  distinct : ∀ n m task task', s.tasks n = .subscription task → s.tasks m = .subscription task' →
    task.stage.isOver = false → task'.stage.isOver = false →
    task.subscriptionId = task'.subscriptionId → n = m

/-- A task after some steps of it. -/
inductive Evolves : Task → Task → Prop where
  | same (task : Task) : Evolves task task
  | prompt (work work' : Work) : Evolves (.prompt work) (.prompt work')
  | logout (work work' : Work) : Evolves (.logout work) (.logout work')
  | list (work work' : Work) (cancelled cancelled' : Bool) :
      Evolves (.list work cancelled) (.list work' cancelled')
  | query (work work' : Work) (aborted aborted' : Bool) :
      Evolves (.query work aborted) (.query work' aborted')
  | subscription (task : Subscription) (stage : Stage) (cancelled : Bool)
      (hover : task.stage.isOver = true → stage.isOver = true) :
      Evolves (.subscription task) (.subscription { task with stage, cancelled })

variable {P : Parsers} {s s' : Connection} {n m : Nat} {key : String}

lemma Evolves.isQuery {task task' : Task} (h : Evolves task task') : task'.isQuery = task.isQuery := by
  cases h <;> rfl

/-- A subscription comes from one with the same names, that was not over before it is over. -/
lemma Evolves.of_subscription {task : Task} {t' : Subscription}
    (h : Evolves task (.subscription t')) : ∃ t, task = .subscription t ∧
      t'.sessionId = t.sessionId ∧ t'.subscriptionId = t.subscriptionId ∧ t'.token = t.token ∧
      (t'.stage.isOver = false → t.stage.isOver = false) := by
  cases h with
  | same => exact ⟨t', rfl, rfl, rfl, rfl, id⟩
  | subscription t stage cancelled hover =>
    refine ⟨t, rfl, rfl, rfl, rfl, ?_⟩
    intro hstage
    cases hbefore : t.stage.isOver with
    | false => rfl
    | true =>
      rw [show stage.isOver = false from hstage] at hover
      exact absurd (hover hbefore) (by simp)

lemma request_of_requests (h : s'.requests = s.requests) (n : Nat) : s'.request n = s.request n := by
  unfold request
  rw [h]

lemma request_append (request : Request) (h : n < s.requests.length)
    (hrequests : s'.requests = s.requests ++ [request]) : s'.request n = s.request n := by
  unfold Connection.request
  rw [hrequests, List.getD_eq_getElem?_getD, List.getElem?_append_left h,
    ← List.getD_eq_getElem?_getD]

/-- The requests stay, and the tasks go on. -/
structure Goes (s s' : Connection) : Prop where
  length : s.requests.length ≤ s'.requests.length
  request : ∀ n < s.requests.length, s'.request n = s.request n
  tasks : ∀ n, Evolves (s.tasks n) (s'.tasks n)

lemma Goes.owns (h : Goes s s') (howns : s.Owns key n) : s'.Owns key n := by
  obtain ⟨hlt, hid⟩ := howns
  refine ⟨Nat.lt_of_lt_of_le hlt h.length, ?_⟩
  rw [h.request n hlt]
  exact hid

lemma Indexed.lt_of_task (h : Indexed P s) (htask : s.tasks n ≠ .none) : n < s.requests.length := by
  by_contra hle
  exact htask (h.born n (Nat.le_of_not_lt hle))

/-- Tables that only lose bindings stay indexed. -/
lemma Indexed.mono (h : Indexed P s) (hgoes : Goes s s')
    (hborn : ∀ n, s.tasks n = .none → s'.tasks n = .none)
    (hprompts : ∀ key task, s'.prompts.get key = some task → s.prompts.get key = some task)
    (hlists : ∀ key n, s'.lists.get key = some n → s.lists.get key = some n)
    (hqueries : ∀ key task, s'.queries.get key = some task → s.queries.get key = some task)
    (hentries : ∀ id entry, s'.entries.get id = some entry → s.entries.get id = some entry ∧
      ∀ task, s'.tasks entry.task = .subscription task → task.stage.isOver = false)
    (hpending : ∀ key id, s'.pending.get key = some id → s.pending.get key = some id ∧
      ∀ n task task', s.Owns key n → s.tasks n = .subscription task → task.stage.early = true →
        s'.tasks n = .subscription task' → task'.stage.early = true) : Indexed P s' where
  born n hn := hborn n (h.born n (Nat.le_trans hgoes.length hn))
  prompts key task htask := hgoes.owns (h.prompts key task (hprompts key task htask))
  lists key n hn := hgoes.owns (h.lists key n (hlists key n hn))
  queries key task htask := by
    obtain ⟨howns, hquery, hsession⟩ := h.queries key task (hqueries key task htask)
    refine ⟨hgoes.owns howns, (hgoes.tasks task.task).isQuery.trans hquery, ?_⟩
    rw [hgoes.request task.task howns.1]
    exact hsession
  asked n hquery := by
    rw [(hgoes.tasks n).isQuery] at hquery
    have hlt := h.lt_of_task (n := n) (by intro hnone; rw [hnone] at hquery; cases hquery)
    rw [hgoes.request n hlt]
    exact h.asked n hquery
  asks n task' htask' := by
    have hevolves := hgoes.tasks n
    rw [htask'] at hevolves
    obtain ⟨task, htask, hsession, hsubscription, -, -⟩ := hevolves.of_subscription
    have hlt := h.lt_of_task (n := n) (by rw [htask]; intro hnone; cases hnone)
    unfold Asks
    rw [hgoes.request n hlt, hsession, hsubscription]
    exact h.asks n task htask
  entries id entry hentry := by
    obtain ⟨hold, hstage⟩ := hentries id entry hentry
    obtain ⟨task, htask, -, hsession, hsubscription, htoken⟩ := h.entries id entry hold
    have hevolves := hgoes.tasks entry.task
    rw [htask] at hevolves
    generalize htask' : s'.tasks entry.task = after at hevolves
    cases hevolves with
    | same => exact ⟨task, rfl, hstage task htask', hsession, hsubscription, htoken⟩
    | subscription _ stage cancelled _ =>
      exact ⟨_, rfl, hstage _ htask', hsession, hsubscription, htoken⟩
  pending key id hid := by
    obtain ⟨hold, hstage⟩ := hpending key id hid
    obtain ⟨n, task, howns, htask, hearly, hsubscription⟩ := h.pending key id hold
    have hevolves := hgoes.tasks n
    rw [htask] at hevolves
    generalize htask' : s'.tasks n = after at hevolves
    cases hevolves with
    | same =>
      exact ⟨n, task, hgoes.owns howns, htask', hstage n task task howns htask hearly htask',
        hsubscription⟩
    | subscription _ stage cancelled _ =>
      exact ⟨n, _, hgoes.owns howns, htask', hstage n task _ howns htask hearly htask',
        hsubscription⟩
  distinct n m task task' htask htask' hstage hstage' hsame := by
    have hevolves := hgoes.tasks n
    have hevolves' := hgoes.tasks m
    rw [htask] at hevolves
    rw [htask'] at hevolves'
    obtain ⟨t, ht, -, hid, -, hover⟩ := hevolves.of_subscription
    obtain ⟨t', ht', -, hid', -, hover'⟩ := hevolves'.of_subscription
    refine h.distinct n m t t' ht ht' (hover hstage) (hover' hstage') ?_
    rw [← hid, ← hid', hsame]

/-! ### New tasks -/

/-- A request becomes a task of its own, which is not a subscription. -/
lemma Indexed.spawn (h : Indexed P s) (hn : n < s.requests.length) (hnone : s.tasks n = .none)
    {task : Task} (hplain : ∀ t, task ≠ .subscription t)
    (hasked : task.isQuery = true → (s.request n).method ∈ queryMethods)
    (hrequests : s'.requests = s.requests) (htasks : s'.tasks = Function.update s.tasks n task)
    (hentries : s'.entries = s.entries) (hpending : s'.pending = s.pending)
    (hprompts : ∀ key task, s'.prompts.get key = some task →
      s.prompts.get key = some task ∨ s.Owns key task.task)
    (hlists : ∀ key n, s'.lists.get key = some n → s.lists.get key = some n ∨ s.Owns key n)
    (hqueries : ∀ key t, s'.queries.get key = some t → s.queries.get key = some t ∨
      (t.task = n ∧ s.Owns key n ∧ task.isQuery = true ∧
        (s.request n).session P = some t.sessionId)) : Indexed P s' := by
  have howns : ∀ key m, s'.Owns key m ↔ s.Owns key m := by
    intro key m
    unfold Owns
    rw [hrequests, request_of_requests hrequests]
  have hother : ∀ m, m ≠ n → s'.tasks m = s.tasks m := by
    intro m hm
    rw [htasks, Function.update_of_ne hm]
  have hsubscription : ∀ m t, s'.tasks m = .subscription t ↔ s.tasks m = .subscription t := by
    intro m t
    by_cases hm : m = n
    · subst hm
      rw [htasks, Function.update_self]
      refine iff_of_false (hplain t) ?_
      rw [hnone]
      intro heq
      cases heq
    · rw [hother m hm]
  constructor
  case born =>
    intro m hm
    rw [hrequests] at hm
    rw [hother m (Nat.ne_of_gt (Nat.lt_of_lt_of_le hn hm))]
    exact h.born m hm
  case prompts =>
    intro key t ht
    rw [howns]
    exact (hprompts key t ht).elim (h.prompts key t) id
  case lists =>
    intro key m hm
    rw [howns]
    exact (hlists key m hm).elim (h.lists key m) id
  case queries =>
    intro key t ht
    rw [howns, request_of_requests hrequests]
    rcases hqueries key t ht with hold | ⟨rfl, hown, hquery, hsession⟩
    · obtain ⟨hown, hquery, hsession⟩ := h.queries key t hold
      refine ⟨hown, ?_, hsession⟩
      rw [hother]
      · exact hquery
      · rintro heq
        rw [heq, hnone] at hquery
        cases hquery
    · refine ⟨hown, ?_, hsession⟩
      rw [htasks, Function.update_self]
      exact hquery
  case asked =>
    intro m hm
    rw [request_of_requests hrequests]
    by_cases hmn : m = n
    · subst hmn
      rw [htasks, Function.update_self] at hm
      exact hasked hm
    · rw [hother m hmn] at hm
      exact h.asked m hm
  case asks =>
    intro m t ht
    unfold Asks
    rw [request_of_requests hrequests]
    exact h.asks m t ((hsubscription m t).mp ht)
  case entries =>
    intro id entry hentry
    rw [hentries] at hentry
    obtain ⟨t, ht, hrest⟩ := h.entries id entry hentry
    exact ⟨t, (hsubscription _ t).mpr ht, hrest⟩
  case pending =>
    intro key id hid
    rw [hpending] at hid
    obtain ⟨m, t, hown, ht, hrest⟩ := h.pending key id hid
    exact ⟨m, t, (howns key m).mpr hown, (hsubscription m t).mpr ht, hrest⟩
  case distinct =>
    intro m k t t' ht ht'
    exact h.distinct m k t t' ((hsubscription m t).mp ht) ((hsubscription k t').mp ht')

/-- A request becomes a subscription, under an id that no other subscription has. -/
lemma Indexed.subscribe (h : Indexed P s) (hn : s.Owns key n) (hnone : s.tasks n = .none)
    {sessionId subscriptionId : String} (hasks : s.Asks P n sessionId subscriptionId)
    (hfree : ∀ m t, s.tasks m = .subscription t → t.stage.isOver = false →
      t.subscriptionId ≠ subscriptionId) (token nextToken : UInt64) :
    Indexed P ({ s with
      nextToken
      entries := s.entries.put subscriptionId ⟨sessionId, token, n⟩
      pending := s.pending.put key subscriptionId }.setTask n
        (.subscription ⟨sessionId, subscriptionId, token, .starting, false⟩)) := by
  have hself : Function.update s.tasks n (Task.subscription
      ⟨sessionId, subscriptionId, token, .starting, false⟩) n =
        .subscription ⟨sessionId, subscriptionId, token, .starting, false⟩ :=
    Function.update_self ..
  have hother : ∀ m, m ≠ n → Function.update s.tasks n (Task.subscription
      ⟨sessionId, subscriptionId, token, .starting, false⟩) m = s.tasks m :=
    fun m hm => Function.update_of_ne hm ..
  have hne : ∀ m t, s.tasks m = .subscription t → m ≠ n := by
    rintro m t ht rfl
    rw [hnone] at ht
    cases ht
  constructor
  case born =>
    intro m hm
    exact (hother m (Nat.ne_of_gt (Nat.lt_of_lt_of_le hn.1 hm))).trans (h.born m hm)
  case prompts => exact h.prompts
  case lists => exact h.lists
  case queries =>
    intro key' t ht
    obtain ⟨hown, hquery, hsession⟩ := h.queries key' t ht
    refine ⟨hown, ?_, hsession⟩
    refine (congrArg Task.isQuery (hother t.task ?_)).trans hquery
    intro heq
    rw [heq, hnone] at hquery
    cases hquery
  case asked =>
    intro m hm
    by_cases hmn : m = n
    · subst hmn
      cases (congrArg Task.isQuery hself).symm.trans hm
    · exact h.asked m ((congrArg Task.isQuery (hother m hmn)).symm.trans hm)
  case asks =>
    intro m t ht
    by_cases hmn : m = n
    · subst hmn
      obtain rfl := Task.subscription.inj (hself.symm.trans ht)
      exact hasks
    · exact h.asks m t ((hother m hmn).symm.trans ht)
  case entries =>
    intro id entry hentry
    by_cases hid : id = subscriptionId
    · subst hid
      obtain rfl := Option.some.inj ((Table.get_put_self s.entries _ _).symm.trans hentry)
      exact ⟨_, hself, rfl, rfl, rfl, rfl⟩
    · obtain ⟨t, ht, hrest⟩ :=
        h.entries id entry ((Table.get_put_of_ne hid s.entries _).symm.trans hentry)
      exact ⟨t, (hother _ (hne _ t ht)).trans ht, hrest⟩
  case pending =>
    intro key' id hid
    by_cases hkey : key' = key
    · subst hkey
      obtain rfl := Option.some.inj ((Table.get_put_self s.pending _ _).symm.trans hid)
      exact ⟨n, _, hn, hself, rfl, rfl⟩
    · obtain ⟨m, t, hown, ht, hrest⟩ :=
        h.pending key' id ((Table.get_put_of_ne hkey s.pending _).symm.trans hid)
      exact ⟨m, t, hown, (hother m (hne m t ht)).trans ht, hrest⟩
  case distinct =>
    intro m k t t' ht ht' hstage hstage' hsame
    by_cases hm : m = n
    · by_cases hk : k = n
      · rw [hm, hk]
      · subst hm
        obtain rfl := Task.subscription.inj (hself.symm.trans ht)
        exact absurd hsame.symm (hfree k t' ((hother k hk).symm.trans ht') hstage')
    · by_cases hk : k = n
      · subst hk
        obtain rfl := Task.subscription.inj (hself.symm.trans ht')
        exact absurd hsame (hfree m t ((hother m hm).symm.trans ht) hstage)
      · exact h.distinct m k t t' ((hother m hm).symm.trans ht) ((hother k hk).symm.trans ht') hstage
          hstage' hsame

end Connection

end Acp
