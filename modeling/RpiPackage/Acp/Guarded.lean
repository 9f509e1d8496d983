import RpiPackage.Acp.Change

/-!
# The registries are kept

Every change of a connection keeps its tables, and a subscription that goes on stays in the
registry or is waited for.
-/

namespace Acp

open Json

/-! ### Tasks -/

/-- A task that works goes on, and a request that is pending stays so. -/
lemma Works.evolves {closed : Bool} {task task' : Task} (h : Works closed task task') :
    Connection.Evolves task task' := by
  cases h with
  | prompt => exact .prompt ..
  | logout => exact .logout ..
  | list => exact .list ..
  | query => exact .query ..
  | stopped => exact .query ..
  | resolved t result hstage => exact .subscription t _ t.cancelled (by simp [hstage, Stage.isOver])
  | dropped t result hstage => exact .subscription t _ t.cancelled (by simp [hstage, Stage.isOver])
  | decided t result hstage => exact .subscription t _ t.cancelled (by simp [hstage, Stage.isOver])
  | ended t hstage => exact .subscription t _ t.cancelled (by simp [hstage, Stage.isOver])

lemma Works.of_subscription {closed : Bool} {task : Task} {t' : Subscription}
    (h : Works closed task (.subscription t')) :
    ∃ t, task = .subscription t ∧ t'.stage.isOver = false ∧
      (t.stage.early = true → t'.stage.early = true) := by
  cases h with
  | resolved t result hstage => exact ⟨t, rfl, rfl, fun _ => rfl⟩
  | dropped t result hstage => exact ⟨t, rfl, rfl, by simp [hstage, Stage.early]⟩
  | decided t result hstage => exact ⟨t, rfl, rfl, by simp [hstage, Stage.early]⟩
  | ended t hstage => exact ⟨t, rfl, rfl, by simp [hstage, Stage.early]⟩

lemma Writes.evolves {reply : Reply} {task task' : Task} (h : Writes task reply task') :
    Connection.Evolves task task' := by
  cases h with
  | prompt => exact .prompt ..
  | logout => exact .logout ..
  | list => exact .list ..
  | query => exact .query ..
  | subscription t _ streams hstage =>
    exact .subscription t _ t.cancelled (by simp [hstage, Stage.isOver])

lemma Writes.of_subscription {reply : Reply} {task : Task} {t' : Subscription}
    (h : Writes task reply (.subscription t')) :
    ∃ t, task = .subscription t ∧ t'.stage.isOver = false ∧ t.stage.early = false := by
  cases h with
  | subscription t _ streams hstage =>
    refine ⟨t, rfl, ?_, by simp [hstage, Stage.early]⟩
    cases streams <;> rfl

namespace Connection

variable {P : Parsers} {s s' : Connection} {n m : Nat} {key : String}

lemma Marks.early {task : Subscription} {task' : Task} (h : Marks (.subscription task) task') :
    ∃ t', task' = .subscription t' ∧ t'.stage = task.stage := by
  cases h with
  | same => exact ⟨task, rfl, rfl⟩
  | subscription => exact ⟨_, rfl, rfl⟩

lemma goes_of_update {task : Task} (hrequests : s'.requests = s.requests)
    (htasks : s'.tasks = Function.update s.tasks n task) (h : Evolves (s.tasks n) task) : Goes s s' := by
  refine ⟨Nat.le_of_eq (congrArg List.length hrequests).symm,
    fun n _ => request_of_requests hrequests n, fun m => ?_⟩
  rw [htasks]
  by_cases hm : m = n
  · subst hm
    rwa [Function.update_self]
  · rw [Function.update_of_ne hm]
    exact .same _

lemma tasks_setTask_self (s : Connection) (n : Nat) (task : Task) : (s.setTask n task).tasks n = task :=
  Function.update_self ..

lemma tasks_setTask_of_ne (h : m ≠ n) (s : Connection) (task : Task) :
    (s.setTask n task).tasks m = s.tasks m :=
  Function.update_of_ne h ..

lemma goes_of_eq (hrequests : s'.requests = s.requests) (htasks : s'.tasks = s.tasks) : Goes s s' :=
  ⟨Nat.le_of_eq (congrArg List.length hrequests).symm, fun n _ => request_of_requests hrequests n,
    fun n => htasks ▸ .same (s.tasks n)⟩

/-! ### Tables -/

/-- The subscription of an entry has not ended. -/
lemma Indexed.going (h : Indexed P s) {id : String} {entry : Entry}
    (hentry : s.entries.get id = some entry) {task : Subscription}
    (htask : s.tasks entry.task = .subscription task) : task.stage.isOver = false := by
  obtain ⟨task', htask', hover, -⟩ := h.entries id entry hentry
  obtain rfl := Task.subscription.inj (htask'.symm.trans htask)
  exact hover

/-- Tables that lose bindings stay indexed while the tasks stay as they are. -/
lemma Indexed.lose (h : Indexed P s) (hlength : s.requests.length ≤ s'.requests.length)
    (hrequest : ∀ n < s.requests.length, s'.request n = s.request n)
    (htasks : s'.tasks = s.tasks)
    (hprompts : ∀ key task, s'.prompts.get key = some task → s.prompts.get key = some task)
    (hlists : ∀ key n, s'.lists.get key = some n → s.lists.get key = some n)
    (hqueries : ∀ key task, s'.queries.get key = some task → s.queries.get key = some task)
    (hentries : s'.entries = s.entries) (hpending : s'.pending = s.pending) : Indexed P s' := by
  refine h.mono ⟨hlength, hrequest, fun n => htasks ▸ .same (s.tasks n)⟩ (fun _ hn => htasks ▸ hn) hprompts hlists
    hqueries ?_ ?_
  · intro id entry hentry
    rw [hentries] at hentry
    rw [htasks]
    exact ⟨hentry, fun task htask => h.going hentry htask⟩
  · intro key id hid
    rw [hpending] at hid
    rw [htasks]
    refine ⟨hid, fun n task task' _ htask hearly htask' => ?_⟩
    obtain rfl := Task.subscription.inj (htask.symm.trans htask')
    exact hearly

lemma Settles.indexed (h : Settles s s') (hi : Indexed P s) : Indexed P s' :=
  hi.lose (Nat.le_of_eq (congrArg List.length h.requests).symm)
    (fun n _ => request_of_requests h.requests n) h.tasks h.prompts (fun _ _ hn => h.lists ▸ hn)
    (fun _ _ ht => h.queries ▸ ht) h.entries h.pending

/-- A task that goes on by itself leaves the tables as they are. -/
lemma Indexed.setTask (h : Indexed P s) {task : Task} (hevolves : Evolves (s.tasks n) task)
    (hnone : s.tasks n ≠ .none)
    (hstage : ∀ t', task = .subscription t' → ∃ t, s.tasks n = .subscription t ∧
      t'.stage.isOver = false ∧ (t.stage.early = true → t'.stage.early = true)) :
    Indexed P (s.setTask n task) := by
  refine h.mono (goes_of_update rfl rfl hevolves) ?_ (fun _ _ h => h) (fun _ _ h => h) (fun _ _ h => h) ?_ ?_
  · intro m hm
    by_cases hmn : m = n
    · subst hmn
      exact absurd hm hnone
    · rwa [tasks_setTask_of_ne hmn]
  · intro id entry hentry
    refine ⟨hentry, fun t' ht' => ?_⟩
    by_cases hmn : entry.task = n
    · rw [hmn, tasks_setTask_self] at ht'
      obtain ⟨-, -, hover, -⟩ := hstage t' ht'
      exact hover
    · rw [tasks_setTask_of_ne hmn] at ht'
      exact h.going hentry ht'
  · intro key id hid
    refine ⟨hid, fun m t t' _ ht hearly ht' => ?_⟩
    by_cases hmn : m = n
    · subst hmn
      rw [tasks_setTask_self] at ht'
      obtain ⟨t₀, ht₀, -, hkeeps⟩ := hstage t' ht'
      obtain rfl := Task.subscription.inj (ht.symm.trans ht₀)
      exact hkeeps hearly
    · rw [tasks_setTask_of_ne hmn] at ht'
      obtain rfl := Task.subscription.inj (ht.symm.trans ht')
      exact hearly

lemma Flagged.goes {C : Nat → Prop} (h : Flagged C s s') : Goes s s' :=
  ⟨Nat.le_of_eq (congrArg List.length h.requests).symm, fun n _ => request_of_requests h.requests n,
    fun n => (h.tasks n).evolves⟩

lemma Flagged.indexed {C : Nat → Prop} (h : Flagged C s s') (hi : Indexed P s) : Indexed P s' := by
  refine hi.mono h.goes ?_ (fun _ _ ht => h.prompts ▸ ht) (fun _ _ hn => h.lists ▸ hn) h.queries ?_ ?_
  · intro n hn
    have hmarks := h.tasks n
    rw [hn] at hmarks
    generalize s'.tasks n = task at hmarks
    cases hmarks
    rfl
  · intro id entry hentry
    rw [h.entries] at hentry
    refine ⟨hentry, fun t' ht' => ?_⟩
    obtain ⟨t, ht, hover, -⟩ := hi.entries id entry hentry
    have hmarks := h.tasks entry.task
    rw [ht] at hmarks
    obtain ⟨t'', ht'', hstage⟩ := hmarks.early
    obtain rfl := Task.subscription.inj (ht''.symm.trans ht')
    rwa [hstage]
  · intro key id hid
    refine ⟨h.pending key id hid, fun n t t' _ ht hearly ht' => ?_⟩
    have hmarks := h.tasks n
    rw [ht] at hmarks
    obtain ⟨t'', ht'', hstage⟩ := hmarks.early
    obtain rfl := Task.subscription.inj (ht''.symm.trans ht')
    rwa [hstage]

/-! ### Changes -/

/-- A subscription that goes on after a change went on before it. -/
lemma Guarded.held_before (h : Guarded P s) (hgoes : Goes s s') {task : Subscription}
    (htask : s'.tasks n = .subscription task) (hover : task.stage.isOver = false) :
    (∃ entry, s.entries.get task.subscriptionId = some entry ∧ entry.task = n) ∨
      s.dispatcher.wait = some n ∨ (s.writer.closed = true ∧ s.dispatcher.isServing = false) := by
  have hevolves := hgoes.tasks n
  rw [htask] at hevolves
  obtain ⟨t, ht, -, hid, -, hbefore⟩ := hevolves.of_subscription
  rw [hid]
  exact h.held n t ht (hbefore hover)

lemma isServing_of_current {d : Dispatcher} (h : d.current = none) : d.isServing = false := by
  cases d <;> first | rfl | cases h

/-- A change of the tasks alone, that keeps the entries and the dispatcher. -/
lemma Guarded.of_goes (h : Guarded P s) (hindexed : Indexed P s') (hgoes : Goes s s')
    (hrequests : s'.requests = s.requests) (hentries : s'.entries = s.entries)
    (hdispatcher : s'.dispatcher = s.dispatcher)
    (hnone : ∀ n, s.tasks n = .none → s'.tasks n = .none)
    (hclosed : s.writer.closed = true → s'.writer.closed = true) : Guarded P s' where
  indexed := hindexed
  current n hn := by
    rw [hdispatcher] at hn
    obtain ⟨hlength, htask⟩ := h.current n hn
    rw [hrequests]
    exact ⟨hlength, hnone n htask⟩
  held n task htask hover := by
    rw [hentries, hdispatcher]
    rcases h.held_before hgoes htask hover with hheld | hwait | ⟨hc, hserving⟩
    · exact .inl hheld
    · exact .inr (.inl hwait)
    · exact .inr (.inr ⟨hclosed hc, hserving⟩)

lemma Guarded.settled (h : Guarded P s) (hs : Settles s s')
    (hdispatcher : s'.dispatcher = s.dispatcher) : Guarded P s' :=
  h.of_goes (hs.indexed h.indexed) (goes_of_eq hs.requests hs.tasks) hs.requests hs.entries
    hdispatcher (fun _ hn => hs.tasks ▸ hn) hs.closed

/-- The dispatcher stops serving, and waits for nothing. -/
lemma Guarded.leave (h : Guarded P s) (hindexed : Indexed P s') (hgoes : Goes s s')
    (hentries : s'.entries = s.entries) (hcurrent : s'.dispatcher.current = none)
    (hwait : s.dispatcher.wait = none ∨ s'.writer.closed = true)
    (hclosed : s.writer.closed = true → s'.writer.closed = true) : Guarded P s' where
  indexed := hindexed
  current n hn := by
    rw [hcurrent] at hn
    cases hn
  held n task htask hover := by
    rw [hentries]
    rcases h.held_before hgoes htask hover with hheld | hw | ⟨hc, -⟩
    · exact .inl hheld
    · rcases hwait with hwait | hwait
      · rw [hwait] at hw
        cases hw
      · exact .inr (.inr ⟨hwait, isServing_of_current hcurrent⟩)
    · exact .inr (.inr ⟨hclosed hc, isServing_of_current hcurrent⟩)

lemma Guarded.spawned (h : Guarded P s) {task : Task} (hserving : s.dispatcher = .serving n)
    (hspawns : Spawns P n task s s') : Guarded P s' := by
  obtain ⟨hlength, hnone⟩ := h.current n (current_of_serving hserving).1
  have hplain : ∀ t, task ≠ .subscription t := by
    rintro t rfl
    cases hspawns.fresh
  have hindexed : Indexed P s' := h.indexed.spawn (hlength ▸ Nat.lt_succ_self n) hnone hplain
    hspawns.asked hspawns.requests hspawns.tasks hspawns.entries hspawns.pending hspawns.prompts
    hspawns.lists hspawns.queries
  refine ⟨hindexed, fun m hm => ?_, fun m t ht hover => ?_⟩
  · rw [hspawns.idle] at hm
    cases hm
  · rw [hspawns.tasks] at ht
    by_cases hmn : m = n
    · subst hmn
      rw [Function.update_self] at ht
      exact absurd ht (hplain t)
    · rw [Function.update_of_ne hmn] at ht
      rw [hspawns.entries]
      rcases h.held m t ht hover with hheld | hwait | ⟨-, hidle⟩
      · exact .inl hheld
      · rw [hserving] at hwait
        cases hwait
      · rw [hserving] at hidle
        cases hidle

/-! What is written is not looked at by the tables. -/

lemma exists_answer_eq (s : Connection) (n : Nat) (reply : Reply) :
    ∃ out, s.answer n reply = { s with out } := by
  unfold answer write
  split
  · split
    · exact ⟨s.out, rfl⟩
    · exact ⟨_, rfl⟩
  · exact ⟨s.out, rfl⟩

lemma Indexed.written (h : Indexed P s) (out : List Frame) : Indexed P { s with out } :=
  h.lose (Nat.le_refl _) (fun _ _ => rfl) rfl (fun _ _ h => h) (fun _ _ h => h) (fun _ _ h => h) rfl rfl

lemma Guarded.written (h : Guarded P s) (out : List Frame) : Guarded P { s with out } :=
  h.of_goes (h.indexed.written out) (goes_of_eq rfl rfl) rfl rfl rfl (fun _ h => h) id

/-- The request that is served has been answered. -/
lemma Guarded.answered (h : Guarded P s) {before : Connection} (reply : Reply)
    (hcurrent : s.dispatcher.Serves n) (hbefore : Settles s before)
    (hs : Settles (before.answer n reply) s') (hidle : s'.dispatcher = .idle) : Guarded P s' := by
  obtain ⟨out, hanswer⟩ := exists_answer_eq before n reply
  rw [hanswer] at hs
  refine h.leave (hs.indexed ((hbefore.indexed h.indexed).written out))
    (goes_of_eq (hs.requests.trans hbefore.requests) (hs.tasks.trans hbefore.tasks))
    (hs.entries.trans hbefore.entries) (by rw [hidle]; rfl) (.inl hcurrent.2) fun hclosed => ?_
  exact hs.closed (hbefore.closed hclosed)

/-- A new request, after the tasks that are over have left the tables. -/
lemma Guarded.taken (h : Guarded P s) (hidle : s.dispatcher = .idle) (request : Request) :
    Guarded P { s with requests := s.requests ++ [request] }.reap := by
  have hrequest : ∀ n < s.requests.length,
      { s with requests := s.requests ++ [request] }.reap.request n = s.request n :=
    fun n hn => request_append request hn rfl
  have hlength : s.requests.length ≤ { s with requests := s.requests ++ [request] }.reap.requests.length := by
    show s.requests.length ≤ (s.requests ++ [request]).length
    rw [List.length_append]
    exact Nat.le_add_right _ _
  refine ⟨h.indexed.lose hlength hrequest rfl (fun _ _ ht => (Table.get_filter ht).1)
    (fun _ _ ht => (Table.get_filter ht).1) (fun _ _ ht => (Table.get_filter ht).1) rfl rfl, ?_, h.held⟩
  intro n hn
  have hcurrent : s.dispatcher.current = some n := hn
  rw [hidle] at hcurrent
  cases hcurrent

lemma Guarded.accepted (h : Guarded P s) (hidle : s.dispatcher = .idle)
    (hopen : s.writer.closed = false) (request : Request) :
    Guarded P { { s with requests := s.requests ++ [request] }.reap with
      dispatcher := .serving s.requests.length } := by
  have htaken := h.taken hidle request
  refine ⟨htaken.indexed.lose (Nat.le_refl _) (fun _ _ => rfl) rfl (fun _ _ h => h) (fun _ _ h => h)
    (fun _ _ h => h) rfl rfl, fun n hn => ?_, fun n task htask hover => ?_⟩
  · obtain rfl := Option.some.inj hn
    refine ⟨?_, h.indexed.born _ (Nat.le_refl _)⟩
    show s.requests.length + 1 = (s.requests ++ [request]).length
    rw [List.length_append, List.length_singleton]
  · rcases h.held n task htask hover with hheld | hwait | ⟨hclosed, -⟩
    · exact .inl hheld
    · rw [hidle] at hwait
      cases hwait
    · rw [hopen] at hclosed
      cases hclosed

lemma Guarded.subscribed (h : Guarded P s) {sessionId subscriptionId : String} (nextToken : UInt64)
    (hserving : s.dispatcher = .serving n) (howns : s.Owns (s.key n) n)
    (hasks : s.Asks P n sessionId subscriptionId) (hfree : s.entries.get subscriptionId = none) :
    Guarded P ({ s with
      nextToken
      entries := s.entries.put subscriptionId ⟨sessionId, s.nextToken, n⟩
      pending := s.pending.put (s.key n) subscriptionId }.setTask n
        (.subscription ⟨sessionId, subscriptionId, s.nextToken, .starting, false⟩)).idle := by
  obtain ⟨hlength, hnone⟩ := h.current n (current_of_serving hserving).1
  -- while a request is served, every subscription that goes on has its entry
  have hentry : ∀ m t, s.tasks m = .subscription t → t.stage.isOver = false →
      ∃ entry, s.entries.get t.subscriptionId = some entry ∧ entry.task = m := by
    intro m t ht hover
    rcases h.held m t ht hover with hheld | hwait | ⟨-, hidle⟩
    · exact hheld
    · rw [hserving] at hwait
      cases hwait
    · rw [hserving] at hidle
      cases hidle
  have hunused : ∀ m t, s.tasks m = .subscription t → t.stage.isOver = false →
      t.subscriptionId ≠ subscriptionId := by
    rintro m t ht hover rfl
    obtain ⟨entry, hget, -⟩ := hentry m t ht hover
    rw [hfree] at hget
    cases hget
  have hindexed := h.indexed.subscribe howns hnone hasks hunused s.nextToken nextToken
  refine ⟨(settles_dispatcher _ .idle).indexed hindexed, fun _ hm => (nomatch hm), ?_⟩
  intro m t ht hover
  by_cases hmn : m = n
  · subst hmn
    obtain rfl := Task.subscription.inj ((Function.update_self ..).symm.trans ht)
    exact .inl ⟨_, Table.get_put_self .., rfl⟩
  · have hold := (Function.update_of_ne hmn ..).symm.trans ht
    obtain ⟨entry, hget, htask⟩ := hentry m t hold hover
    exact .inl ⟨entry, (Table.get_put_of_ne (hunused m t hold hover) ..).trans hget, htask⟩

lemma Guarded.retired (h : Guarded P s) {C : Nat → Prop} {before : Connection}
    (hserving : s.dispatcher = .serving n) (hflagged : Flagged C s before)
    (subscriptions : List String) (rest : Rest) :
    Guarded P { before with dispatcher := .retiring n subscriptions none rest } := by
  refine ⟨(settles_dispatcher before _).indexed (hflagged.indexed h.indexed), fun m hm => ?_,
    fun m task htask hover => ?_⟩
  · obtain rfl := Option.some.inj hm
    obtain ⟨hlength, hnone⟩ := h.current n (current_of_serving hserving).1
    refine ⟨hlength.trans (congrArg List.length hflagged.requests).symm, ?_⟩
    have hmarks := hflagged.tasks n
    rw [hnone] at hmarks
    show before.tasks n = .none
    generalize before.tasks n = task at hmarks
    cases hmarks
    rfl
  · rcases h.held_before hflagged.goes htask hover with hheld | hwait | ⟨-, hidle⟩
    · obtain ⟨entry, hget, htask⟩ := hheld
      exact .inl ⟨entry, hflagged.entries ▸ hget, htask⟩
    · rw [hserving] at hwait
      cases hwait
    · rw [hserving] at hidle
      cases hidle

/-- The dispatcher goes on with the same request. -/
lemma Guarded.retiring (h : Guarded P s) {subscriptions subscriptions' : List String}
    {wait : Option Nat} {rest rest' : Rest} (hretiring : s.dispatcher = .retiring n subscriptions wait rest)
    (hwait : ∀ m t, wait = some m → s.tasks m = .subscription t → t.stage.isOver = true ∨
      s'.writer.closed = true)
    (hs : Settles s s') (hdispatcher : s'.dispatcher = .retiring n subscriptions' none rest') :
    Guarded P s' := by
  refine ⟨hs.indexed h.indexed, fun m hm => ?_, fun m task htask hover => ?_⟩
  · rw [hdispatcher] at hm
    obtain rfl := Option.some.inj hm
    rw [hs.requests, hs.tasks]
    exact h.current n (by rw [hretiring]; rfl)
  · rw [hs.tasks] at htask
    rw [hs.entries, hdispatcher]
    rcases h.held m task htask hover with hheld | hw | ⟨hclosed, -⟩
    · exact .inl hheld
    · rw [hretiring] at hw
      rcases hwait m task hw htask with hended | hclosed
      · rw [hover] at hended
        cases hended
      · exact .inr (.inr ⟨hclosed, rfl⟩)
    · exact .inr (.inr ⟨hs.closed hclosed, rfl⟩)

/-- The task that is told to stop leaves the registry, and is waited for. -/
lemma Guarded.cancelled (h : Guarded P s) {subscriptionId : String} {subscriptions : List String}
    {rest rest' : Rest} {entry : Entry} {task : Subscription}
    (hretiring : s.dispatcher = .retiring n (subscriptionId :: subscriptions) none rest)
    (hentry : s.entries.get subscriptionId = some entry)
    (htask : s.tasks entry.task = .subscription task) :
    Guarded P { { s with entries := s.entries.erase subscriptionId }.setTask entry.task
        (.subscription { task with cancelled := true }) with
      dispatcher := .retiring n subscriptions (some entry.task) rest' } := by
  have hmarks : Marks (s.tasks entry.task) (.subscription { task with cancelled := true }) := by
    rw [htask]
    exact .subscription task
  have hflagged : Flagged (fun m => m = entry.task) s
      (s.setTask entry.task (.subscription { task with cancelled := true })) :=
    flagged_setTask hmarks rfl
  have hindexed := hflagged.indexed h.indexed
  have herased : Indexed P { { s with entries := s.entries.erase subscriptionId }.setTask entry.task
      (.subscription { task with cancelled := true }) with
        dispatcher := .retiring n subscriptions (some entry.task) rest' } := by
    refine hindexed.mono (goes_of_eq rfl rfl) (fun _ hm => hm) (fun _ _ h => h) (fun _ _ h => h)
      (fun _ _ h => h) ?_ ?_
    · intro id other hother
      have hold := (Table.get_of_get_erase hother).2
      exact ⟨hold, fun t ht => hindexed.going hold ht⟩
    · refine fun key id hid => ⟨hid, fun m t t' _ ht hearly ht' => ?_⟩
      obtain rfl := Task.subscription.inj (ht.symm.trans ht')
      exact hearly
  refine ⟨herased, fun m hm => ?_, fun m t ht hover => ?_⟩
  · obtain rfl := Option.some.inj hm
    obtain ⟨hlength, hnone⟩ := h.current n (by rw [hretiring]; rfl)
    refine ⟨hlength, ?_⟩
    have hne : n ≠ entry.task := by
      rintro rfl
      rw [hnone] at htask
      cases htask
    exact (tasks_setTask_of_ne hne s _).trans hnone
  · by_cases hmn : m = entry.task
    · exact .inr (.inl (congrArg some hmn.symm))
    · have hold := (tasks_setTask_of_ne hmn s _).symm.trans ht
      rcases h.held m t hold hover with ⟨other, hget, hother⟩ | hwait | ⟨hclosed, -⟩
      · refine .inl ⟨other, (Table.get_erase_of_ne ?_ _).trans hget, hother⟩
        rintro rfl
        obtain rfl := Option.some.inj (hentry.symm.trans hget)
        exact hmn hother.symm
      · rw [hretiring] at hwait
        cases hwait
      · exact .inr (.inr ⟨hclosed, rfl⟩)

lemma Guarded.worked (h : Guarded P s) {task : Task} (hevolves : Evolves (s.tasks n) task)
    (hnone : s.tasks n ≠ .none)
    (hstage : ∀ t', task = .subscription t' → ∃ t, s.tasks n = .subscription t ∧
      t'.stage.isOver = false ∧ (t.stage.early = true → t'.stage.early = true)) :
    Guarded P (s.setTask n task) := by
  refine h.of_goes (h.indexed.setTask hevolves hnone hstage) (goes_of_update rfl rfl hevolves) rfl rfl rfl ?_ id
  intro m hm
  have hmn : m ≠ n := by
    rintro rfl
    exact hnone hm
  rwa [tasks_setTask_of_ne hmn]

lemma Guarded.unpended (h : Guarded P s) {task : Subscription} {result : Option Started}
    (htask : s.tasks n = .subscription task) (hstage : task.stage = .resolved result) :
    Guarded P ({ s with pending := s.pending.erase (s.key n) }.setTask n
      (.subscription { task with stage := .unpended result })) := by
  have hevolves : Evolves (s.tasks n) (.subscription { task with stage := .unpended result }) := by
    rw [htask]
    exact .subscription task _ task.cancelled (by simp [hstage, Stage.isOver])
  have hkeeps : ∀ m, s.tasks m = .none →
      ({ s with pending := s.pending.erase (s.key n) }.setTask n
        (.subscription { task with stage := .unpended result })).tasks m = .none := by
    intro m hm
    have hmn : m ≠ n := by
      rintro rfl
      rw [htask] at hm
      cases hm
    exact (tasks_setTask_of_ne hmn s _).trans hm
  have hgoes : Goes s ({ s with pending := s.pending.erase (s.key n) }.setTask n
      (.subscription { task with stage := .unpended result })) := goes_of_update rfl rfl hevolves
  refine h.of_goes (h.indexed.mono hgoes hkeeps (fun _ _ h => h) (fun _ _ h => h) (fun _ _ h => h) ?_ ?_)
    hgoes rfl rfl rfl hkeeps id
  · intro id entry hentry
    refine ⟨hentry, fun t' ht' => ?_⟩
    by_cases hmn : entry.task = n
    · rw [hmn] at ht'
      obtain rfl := Task.subscription.inj ((tasks_setTask_self s n _).symm.trans ht')
      rfl
    · exact h.indexed.going hentry ((tasks_setTask_of_ne hmn s _).symm.trans ht')
  · intro key id hid
    obtain ⟨hne, hold⟩ := Table.get_of_get_erase hid
    refine ⟨hold, fun m t t' howns ht hearly ht' => ?_⟩
    by_cases hmn : m = n
    · -- the key of the request is the one that has been erased
      subst hmn
      obtain ⟨-, id', hid', rfl⟩ := howns
      exact absurd (by rw [Connection.key, hid']) hne
    · obtain rfl := Task.subscription.inj
        (ht.symm.trans ((tasks_setTask_of_ne hmn s _).symm.trans ht'))
      exact hearly

lemma Guarded.finished (h : Guarded P s) {task : Subscription} {entries : Table String Entry}
    (htask : s.tasks n = .subscription task) (hstage : task.stage = .finishing)
    (hentries : ∀ subscriptionId entry, entries.get subscriptionId = some entry ↔
      s.entries.get subscriptionId = some entry ∧ entry.task ≠ n) :
    Guarded P ({ s with entries }.setTask n (.subscription { task with stage := .over })) := by
  have hevolves : Evolves (s.tasks n) (.subscription { task with stage := .over }) := by
    rw [htask]
    exact .subscription task _ task.cancelled (fun _ => rfl)
  have hgoes : Goes s ({ s with entries }.setTask n (.subscription { task with stage := .over })) :=
    goes_of_update rfl rfl hevolves
  have hnone : ∀ m, s.tasks m = .none → m ≠ n := by
    rintro m hm rfl
    rw [htask] at hm
    cases hm
  have hkeeps : ∀ m, s.tasks m = .none →
      ({ s with entries }.setTask n (.subscription { task with stage := .over })).tasks m = .none :=
    fun m hm => (tasks_setTask_of_ne (hnone m hm) s _).trans hm
  refine ⟨h.indexed.mono hgoes hkeeps (fun _ _ h => h) (fun _ _ h => h) (fun _ _ h => h) ?_ ?_, ?_, ?_⟩
  · intro id entry hentry
    obtain ⟨hold, hne⟩ := (hentries id entry).mp hentry
    exact ⟨hold, fun t ht => h.indexed.going hold ((tasks_setTask_of_ne hne s _).symm.trans ht)⟩
  · refine fun key id hid => ⟨hid, fun m t t' _ ht hearly ht' => ?_⟩
    by_cases hmn : m = n
    · subst hmn
      obtain rfl := Task.subscription.inj (htask.symm.trans ht)
      rw [hstage] at hearly
      cases hearly
    · obtain rfl := Task.subscription.inj
        (ht.symm.trans ((tasks_setTask_of_ne hmn s _).symm.trans ht'))
      exact hearly
  · intro m hm
    obtain ⟨hlength, hm⟩ := h.current m hm
    exact ⟨hlength, hkeeps m hm⟩
  · intro m t ht hover
    by_cases hmn : m = n
    · rw [hmn] at ht
      obtain rfl := Task.subscription.inj ((tasks_setTask_self s n _).symm.trans ht)
      cases hover
    · have hold := (tasks_setTask_of_ne hmn s _).symm.trans ht
      rcases h.held m t hold hover with ⟨entry, hget, rfl⟩ | hrest
      · exact .inl ⟨entry, (hentries _ entry).mpr ⟨hget, hmn⟩, rfl⟩
      · exact .inr hrest

/-- Every change keeps the tables and the registry. -/
theorem Change.guarded (h : Guarded P s) (hchange : Change P s s') : Guarded P s' := by
  cases hchange with
  | settled hs hdispatcher => exact h.settled hs hdispatcher
  | ended hs hclosed hcurrent =>
    exact h.leave (hs.indexed h.indexed) (goes_of_eq hs.requests hs.tasks) hs.entries hcurrent
      (.inr hclosed) hs.closed
  | accepted request hidle hopen => exact h.accepted hidle hopen request
  | duplicate request reply hidle hopen =>
    obtain ⟨out, hanswer⟩ := exists_answer_eq { s with requests := s.requests ++ [request] }.reap
      s.requests.length reply
    rw [hanswer]
    exact (h.taken hidle request).written out
  | answered reply hcurrent hbefore hs hidle => exact h.answered reply hcurrent hbefore hs hidle
  | spawned hserving hspawns => exact h.spawned hserving hspawns
  | subscribed nextToken hserving howns hasks hfree =>
    exact h.subscribed nextToken hserving howns hasks hfree
  | retired subscriptions rest hserving hflagged hsubscriptions =>
    exact h.retired hserving hflagged subscriptions rest
  | waited hretiring hover =>
    refine h.retiring hretiring (fun m t hm ht => .inl ?_) (settles_dispatcher s _) rfl
    obtain rfl := Option.some.inj hm
    rw [ht] at hover
    obtain ⟨sessionId, subscriptionId, token, stage, cancelled⟩ := t
    cases stage <;> first | rfl | cases hover
  | gaveUp hretiring =>
    exact h.retiring hretiring (fun _ _ _ _ => .inr rfl) ((settles_close s).trans (settles_dispatcher _ _))
      rfl
  | skipped hretiring =>
    exact h.retiring hretiring (fun _ _ hm => (nomatch hm)) (settles_dispatcher s _) rfl
  | cancelled hretiring hentry htask => exact h.cancelled hretiring hentry htask
  | worked hworks =>
    refine h.worked hworks.evolves ?_ ?_
    · intro hnone
      rw [hnone] at hworks
      cases hworks
    · rintro t' rfl
      exact hworks.of_subscription
  | @written n reply task hwrites =>
    obtain ⟨out, hanswer⟩ := exists_answer_eq s n reply
    rw [hanswer]
    refine (h.written out).worked hwrites.evolves ?_ ?_
    · intro hnone
      rw [show s.tasks n = .none from hnone] at hwrites
      cases hwrites
    · rintro t' rfl
      obtain ⟨t, ht, hover, hearly⟩ := hwrites.of_subscription
      exact ⟨t, ht, hover, fun h => absurd (hearly.symm.trans h) (by decide)⟩
  | unpended htask hstage => exact h.unpended htask hstage
  | finished htask hstage hentries => exact h.finished htask hstage hentries

end Connection

end Acp
