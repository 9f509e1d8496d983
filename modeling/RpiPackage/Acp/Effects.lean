import RpiPackage.Acp.Registry

/-!
# What the operations of a connection leave alone

Some operations touch no task and no registry, and others only tell some tasks to stop.
-/

namespace Acp

open Json

namespace Dispatcher

/-- The request that is being served. -/
def current : Dispatcher → Option Nat
  | .serving n | .retiring n _ _ _ => some n
  | .idle | .ended => none

def wait : Dispatcher → Option Nat
  | .retiring _ _ wait _ => wait
  | _ => none

def isServing : Dispatcher → Bool
  | .serving _ => true
  | _ => false

/-- A request is served, and no task is waited for. -/
def Serves (d : Dispatcher) (n : Nat) : Prop := d.current = some n ∧ d.wait = none

end Dispatcher

/-- The frame is the response of the `n`-th request. -/
def Frame.answers (n : Nat) : Frame → Bool
  | .response m _ _ => m == n
  | _ => false

namespace Connection

variable {P : Parsers} {s s' s'' : Connection} {n m : Nat} {key sessionId : String}

/-- No task and no registry is different, and no response has been written. -/
structure Settles (s s' : Connection) : Prop where
  requests : s'.requests = s.requests
  tasks : s'.tasks = s.tasks
  lists : s'.lists = s.lists
  queries : s'.queries = s.queries
  pending : s'.pending = s.pending
  entries : s'.entries = s.entries
  prompts : ∀ key task, s'.prompts.get key = some task → s.prompts.get key = some task
  out : ∃ frames : List Frame, s'.out = s.out ++ frames ∧
    ∀ frame ∈ frames, ∀ n, frame.answers n = false
  closed : s.writer.closed = true → s'.writer.closed = true

lemma settles_of_out (hrequests : s'.requests = s.requests) (htasks : s'.tasks = s.tasks)
    (hlists : s'.lists = s.lists) (hqueries : s'.queries = s.queries)
    (hpending : s'.pending = s.pending) (hentries : s'.entries = s.entries)
    (hprompts : ∀ key task, s'.prompts.get key = some task → s.prompts.get key = some task)
    (hout : s'.out = s.out) (hclosed : s.writer.closed = true → s'.writer.closed = true) :
    Settles s s' :=
  ⟨hrequests, htasks, hlists, hqueries, hpending, hentries, hprompts,
    ⟨[], by rw [hout, List.append_nil], by simp⟩, hclosed⟩

lemma Settles.refl (s : Connection) : Settles s s :=
  settles_of_out rfl rfl rfl rfl rfl rfl (fun _ _ h => h) rfl id

lemma Settles.trans (h : Settles s s') (h' : Settles s' s'') : Settles s s'' :=
  ⟨h'.requests.trans h.requests, h'.tasks.trans h.tasks, h'.lists.trans h.lists,
    h'.queries.trans h.queries, h'.pending.trans h.pending, h'.entries.trans h.entries,
    fun key task htask => h.prompts key task (h'.prompts key task htask), by
      obtain ⟨frames, hout, hframes⟩ := h.out
      obtain ⟨frames', hout', hframes'⟩ := h'.out
      refine ⟨frames ++ frames', by rw [hout', hout, List.append_assoc], ?_⟩
      intro frame hmem
      exact (List.mem_append.mp hmem).elim (hframes frame) (hframes' frame),
    h'.closed ∘ h.closed⟩

lemma settles_sessions (s : Connection) (sessions : Table String Nat) (nextToken : UInt64) :
    Settles s { s with sessions, nextToken } :=
  settles_of_out rfl rfl rfl rfl rfl rfl (fun _ _ h => h) rfl id

lemma settles_write (s : Connection) {frames : List Frame}
    (hframes : ∀ frame ∈ frames, ∀ n, frame.answers n = false) : Settles s (s.write frames) := by
  unfold write
  split
  · exact .refl s
  · exact ⟨rfl, rfl, rfl, rfl, rfl, rfl, fun _ _ h => h, ⟨frames, rfl, hframes⟩, id⟩

lemma settles_notify (s : Connection) (updates : List (String × Value)) :
    Settles s (s.notify updates) := by
  refine settles_write s ?_
  intro frame hframe n
  obtain ⟨update, -, rfl⟩ := List.mem_map.mp hframe
  rfl

lemma settles_close (s : Connection) : Settles s s.close :=
  settles_of_out rfl rfl rfl rfl rfl rfl (fun _ _ h => h) rfl fun _ => rfl

lemma settles_abort (s : Connection) (session : Nat) : Settles s (s.abort session) :=
  settles_of_out rfl rfl rfl rfl rfl rfl (fun _ _ h => h) rfl id

lemma settles_dispatcher (s : Connection) (dispatcher : Dispatcher) :
    Settles s { s with dispatcher } :=
  settles_of_out rfl rfl rfl rfl rfl rfl (fun _ _ h => h) rfl id

lemma settles_foldl {α : Type*} {f : Connection → α → Connection}
    (hf : ∀ s a, Settles s (f s a)) (s : Connection) (l : List α) : Settles s (l.foldl f s) := by
  induction l generalizing s with
  | nil => exact .refl s
  | cons a l ih => exact (hf s a).trans (ih (f s a))

lemma settles_abortPrompts (s : Connection) (sessionId : String) :
    Settles s (s.abortPrompts sessionId) := by
  unfold abortPrompts
  apply settles_foldl
  exact fun s p => settles_abort s p.2.session

lemma settles_abortSession (s : Connection) (sessionId : String) :
    Settles s (s.abortSession sessionId) := by
  unfold abortSession
  split
  · exact (settles_abort s _).trans (settles_abortPrompts _ _)
  · exact settles_abortPrompts s _

lemma settles_stopLiveSession (s : Connection) (sessionId : String) :
    Settles s (s.stopLiveSession sessionId) := by
  have h := settles_abortPrompts s sessionId
  refine ⟨h.requests, h.tasks, h.lists, h.queries, h.pending, h.entries, ?_, h.out, h.closed⟩
  intro key task htask
  exact h.prompts key task (Table.get_filter htask).1

lemma settles_cancelRequest (s : Connection) (id : UInt64) :
    Settles s { s with writer := s.writer.cancelRequest id } :=
  settles_of_out rfl rfl rfl rfl rfl rfl (fun _ _ h => h) rfl
    (Writer.quiet_cancelRequest s.writer id).closed

/-! ### Tasks that are told to stop -/

/-- A task is told to stop, and goes on as before. -/
inductive Marks : Task → Task → Prop where
  | same (task : Task) : Marks task task
  | list (work : Work) (cancelled : Bool) : Marks (.list work cancelled) (.list work true)
  | query (work : Work) (aborted : Bool) : Marks (.query work aborted) (.query work true)
  | subscription (task : Subscription) :
      Marks (.subscription task) (.subscription { task with cancelled := true })

lemma Marks.evolves {task task' : Task} (h : Marks task task') : Evolves task task' := by
  cases h with
  | same => exact .same task
  | list => exact .list ..
  | query => exact .query ..
  | subscription t => exact .subscription t t.stage true id

lemma Marks.trans {task task' task'' : Task} (h : Marks task task') (h' : Marks task' task'') :
    Marks task task'' := by
  cases h with
  | same => exact h'
  | list => cases h' <;> constructor
  | query => cases h' <;> constructor
  | subscription t => cases h' <;> exact .subscription t

/-- Some tasks are told to stop, those that satisfy `C`. -/
structure Flagged (C : Nat → Prop) (s s' : Connection) : Prop where
  requests : s'.requests = s.requests
  prompts : s'.prompts = s.prompts
  lists : s'.lists = s.lists
  queries : ∀ key task, s'.queries.get key = some task → s.queries.get key = some task
  pending : ∀ key id, s'.pending.get key = some id → s.pending.get key = some id
  entries : s'.entries = s.entries
  tasks : ∀ n, Marks (s.tasks n) (s'.tasks n)
  only : ∀ n, s'.tasks n = s.tasks n ∨ C n
  out : s'.out = s.out
  writer : s'.writer = s.writer

lemma Flagged.refl (C : Nat → Prop) (s : Connection) : Flagged C s s :=
  ⟨rfl, rfl, rfl, fun _ _ h => h, fun _ _ h => h, rfl, fun _ => .same _, fun _ => .inl rfl, rfl, rfl⟩

lemma Flagged.trans {C : Nat → Prop} (h : Flagged C s s') (h' : Flagged C s' s'') :
    Flagged C s s'' where
  requests := h'.requests.trans h.requests
  prompts := h'.prompts.trans h.prompts
  lists := h'.lists.trans h.lists
  queries key task htask := h.queries key task (h'.queries key task htask)
  pending key id hid := h.pending key id (h'.pending key id hid)
  entries := h'.entries.trans h.entries
  tasks n := (h.tasks n).trans (h'.tasks n)
  only n := by
    rcases h'.only n with heq | hc
    · rw [heq]
      exact h.only n
    · exact .inr hc
  out := h'.out.trans h.out
  writer := h'.writer.trans h.writer

lemma flagged_setTask {C : Nat → Prop} {task : Task} (hmarks : Marks (s.tasks n) task) (hc : C n) :
    Flagged C s (s.setTask n task) := by
  refine ⟨rfl, rfl, rfl, fun _ _ h => h, fun _ _ h => h, rfl, ?_, ?_, rfl, rfl⟩
  · intro m
    show Marks (s.tasks m) (Function.update s.tasks n task m)
    by_cases hm : m = n
    · subst hm
      rwa [Function.update_self]
    · rw [Function.update_of_ne hm]
      exact .same _
  · intro m
    by_cases hm : m = n
    · subst hm
      exact .inr hc
    · exact .inl (Function.update_of_ne hm ..)

lemma flagged_cancelQuery {C : Nat → Prop}
    (hc : ∀ task, s.queries.get key = some task → C task.task) :
    Flagged C s (s.cancelQuery key) := by
  unfold cancelQuery
  split
  · rename_i task hget
    have herase : Flagged C s { s with queries := s.queries.erase key } :=
      ⟨rfl, rfl, rfl, fun _ _ h => (Table.get_of_get_erase h).2, fun _ _ h => h, rfl,
        fun _ => .same _, fun _ => .inl rfl, rfl, rfl⟩
    refine herase.trans ?_
    unfold abortQuery
    split
    · rename_i work aborted htask
      refine flagged_setTask ?_ (hc task hget)
      rw [htask]
      exact .query work aborted
    · exact .refl C _
  · exact .refl C s

lemma flagged_cancelList {C : Nat → Prop} (hc : ∀ n, s.lists.get key = some n → C n) :
    Flagged C s (s.cancelList key) := by
  unfold cancelList
  split
  · rename_i n hget
    split
    · rename_i work cancelled htask
      refine flagged_setTask ?_ (hc n hget)
      rw [htask]
      exact .list work cancelled
    · exact .refl C s
  · exact .refl C s

lemma queries_cancelQuery {key' : String} {task : QueryTask}
    (h : (s.cancelQuery key).queries.get key' = some task) : s.queries.get key' = some task :=
  (flagged_cancelQuery (C := fun _ => True) fun _ _ => trivial).queries key' task h

lemma flagged_cancelQueries {C : Nat → Prop}
    (hc : ∀ key task, s.queries.get key = some task → task.sessionId = sessionId → C task.task) :
    Flagged C s (s.cancelQueries sessionId) := by
  unfold cancelQueries
  have hall : ∀ p ∈ s.queries.entries.filter fun p => p.2.sessionId == sessionId,
      s.queries.get p.1 = some p.2 ∧ p.2.sessionId = sessionId := by
    intro p hp
    obtain ⟨hmem, hsession⟩ := List.mem_filter.mp hp
    exact ⟨Table.get_of_mem_entries hmem, by simpa using hsession⟩
  generalize (s.queries.entries.filter fun p => p.2.sessionId == sessionId) = l at hall
  have hkeys : ∀ (t : Connection), (∀ key task, t.queries.get key = some task →
      s.queries.get key = some task) → Flagged C t (l.foldl (fun s p => s.cancelQuery p.1) t) := by
    induction l with
    | nil => exact fun t _ => .refl C t
    | cons p l ih =>
      intro t ht
      have hp := hall p List.mem_cons_self
      have hfirst : Flagged C t (t.cancelQuery p.1) := by
        refine flagged_cancelQuery fun task htask => ?_
        have hsame := ht p.1 task htask
        obtain rfl := Option.some.inj (hp.1.symm.trans hsame)
        exact hc p.1 p.2 hp.1 hp.2
      refine hfirst.trans (ih (fun q hq => hall q (List.mem_cons_of_mem p hq)) _ ?_)
      intro key task htask
      exact ht key task (queries_cancelQuery htask)
  exact hkeys s fun _ _ h => h

end Connection

end Acp
