import RpiPackage.Acp.Guarded
import Mathlib.Data.List.GetD

/-!
# Every request is answered once

A request is answered when it has been served, or when its task is done, and not again. Only a
child query and a subscription that another request has cancelled can end without an answer.
-/

namespace Acp

open Json

namespace Stage

/-- The response has not been written, and no decision against it has been taken. -/
def owes : Stage → Bool
  | .starting | .resolved _ | .unpended _ | .answering _ _ => true
  | .streaming | .finishing | .over => false

/-- The cancellation has come before the snapshot. -/
def isQuiet : Stage → Bool
  | .resolved none | .unpended none => true
  | _ => false

end Stage

namespace Task

/-- The task will write its response, if nothing stops it. -/
def owes : Task → Bool
  | .none => false
  | .prompt work | .logout work | .list work _ | .query work _ =>
    match work with
    | .over => false
    | _ => true
  | .subscription task => task.stage.owes

/-- The task has been told to stop, and may do so without a response. -/
def told : Task → Bool
  | .query _ aborted => aborted
  | .subscription task => task.cancelled
  | _ => false

end Task

/-! ### Steps of a task -/

section

variable {closed : Bool} {task task' : Task} {reply : Reply}

lemma Works.told (h : Works closed task task') : task'.told = task.told := by
  cases h <;> rfl

/-- A task that gives up its response has been told to stop, unless the connection is closed. -/
lemma Works.owes (h : Works closed task task')
    (hquiet : ∀ t, task = .subscription t → t.stage.isQuiet = true → t.cancelled = true) :
    (task'.owes = true → task.owes = true) ∧
      (task.owes = true → task'.owes = true ∨ task'.told = true ∨ closed = true) := by
  cases h with
  | prompt | logout | list | query => exact ⟨id, fun _ => .inl rfl⟩
  | stopped => exact ⟨fun h => (nomatch h), fun _ => .inr (.inl rfl)⟩
  | resolved t result hstage => exact ⟨fun _ => by rw [Task.owes, hstage, Stage.owes], fun _ => .inl rfl⟩
  | dropped t result hstage hwhy =>
    refine ⟨fun h => (nomatch h), fun _ => .inr ?_⟩
    rcases hwhy with rfl | hcancelled | hclosed
    · exact .inl (hquiet t rfl (by rw [hstage, Stage.isQuiet]))
    · exact .inl hcancelled
    · exact .inr hclosed
  | decided t result hstage => exact ⟨fun _ => by rw [Task.owes, hstage, Stage.owes], fun _ => .inl rfl⟩
  | ended t hstage => exact ⟨fun h => (nomatch h), fun h => by rw [Task.owes, hstage] at h; cases h⟩

lemma Works.quiet (h : Works closed task task')
    (hquiet : ∀ t, task = .subscription t → t.stage.isQuiet = true → t.cancelled = true)
    {t' : Subscription} (ht' : task' = .subscription t') (hstage : t'.stage.isQuiet = true) :
    t'.cancelled = true := by
  cases h with
  | prompt | logout | list | query | stopped => cases ht'
  | resolved t result =>
    obtain rfl := Task.subscription.inj ht'
    dsimp only at hstage ⊢
    split at hstage
    · assumption
    · cases hstage
  | dropped | decided | ended =>
    obtain rfl := Task.subscription.inj ht'
    cases hstage

lemma Writes.told (h : Writes task reply task') : task'.told = task.told := by
  cases h <;> rfl

lemma Writes.owes (h : Writes task reply task') : task.owes = true ∧ task'.owes = false := by
  cases h with
  | prompt | logout | list | query => exact ⟨rfl, rfl⟩
  | subscription t _ streams hstage =>
    refine ⟨by rw [Task.owes, hstage, Stage.owes], ?_⟩
    cases streams <;> rfl

lemma Writes.quiet (h : Writes task reply task') {t' : Subscription}
    (ht' : task' = .subscription t') : t'.stage.isQuiet = false := by
  cases h with
  | prompt | logout | list | query => cases ht'
  | subscription t _ streams hstage =>
    obtain rfl := Task.subscription.inj ht'
    cases streams <;> rfl

lemma Fresh.owes (h : Fresh task) : task.owes = true := by
  cases h <;> rfl

lemma Fresh.told (h : Fresh task) : task.told = false := by
  cases h <;> rfl

end

namespace Connection

variable {P : Parsers} {s s' : Connection} {n m : Nat} {key : String}

lemma Marks.owes {task task' : Task} (h : Marks task task') : task'.owes = task.owes := by
  cases h with
  | same => rfl
  | list => rfl
  | query => rfl
  | subscription => rfl

/-! ### Who has told a task to stop -/

structure Blamed (P : Parsers) (s : Connection) : Prop where
  told : ∀ n, (s.tasks n).told = true →
    ∃ m, n < m ∧ m < s.requests.length ∧ (s.request m).Cancels P (s.request n)
  retires : ∀ m subscriptions wait rest, s.dispatcher = .retiring m subscriptions wait rest →
    ∀ id ∈ subscriptions, ∀ entry, s.entries.get id = some entry →
      (s.request m).Cancels P (s.request entry.task)
  quiet : ∀ n t, s.tasks n = .subscription t → t.stage.isQuiet = true → t.cancelled = true

/-- A task is older than the request that is served. -/
lemma Guarded.lt_of_current (h : Guarded P s) (hcurrent : s.dispatcher.current = some m)
    (htask : s.tasks n ≠ .none) : n < m ∧ m < s.requests.length := by
  obtain ⟨hlength, hnone⟩ := h.current m hcurrent
  have hlt := h.indexed.lt_of_task htask
  have hne : n ≠ m := by
    rintro rfl
    exact htask hnone
  omega

/-- No task is told to stop, and the dispatcher has nothing more to retire. -/
lemma Blamed.of_told (h : Blamed P s) (hlength : s.requests.length ≤ s'.requests.length)
    (hrequest : ∀ n < s.requests.length, s'.request n = s.request n)
    (htold : ∀ n, (s'.tasks n).told = true → (s.tasks n).told = true)
    (hretires : ∀ m subscriptions wait rest, s'.dispatcher = .retiring m subscriptions wait rest →
      ∀ id ∈ subscriptions, ∀ entry, s'.entries.get id = some entry →
        (s'.request m).Cancels P (s'.request entry.task))
    (hquiet : ∀ n t, s'.tasks n = .subscription t → t.stage.isQuiet = true → t.cancelled = true) :
    Blamed P s' := by
  refine ⟨fun n hn => ?_, hretires, hquiet⟩
  obtain ⟨m, hnm, hm, hcancels⟩ := h.told n (htold n hn)
  refine ⟨m, hnm, Nat.lt_of_lt_of_le hm hlength, ?_⟩
  rw [hrequest m hm, hrequest n (Nat.lt_trans hnm hm)]
  exact hcancels

/-- The task of one request goes on. -/
lemma Blamed.update (h : Blamed P s) {task : Task} (hrequests : s'.requests = s.requests)
    (htasks : s'.tasks = Function.update s.tasks n task)
    (htold : task.told = true → (s.tasks n).told = true)
    (hquiet : ∀ t, task = .subscription t → t.stage.isQuiet = true → t.cancelled = true)
    (hretires : ∀ m subscriptions wait rest, s'.dispatcher = .retiring m subscriptions wait rest →
      s.dispatcher = .retiring m subscriptions wait rest ∧
        ∀ id entry, s'.entries.get id = some entry → s.entries.get id = some entry) : Blamed P s' := by
  refine h.of_told (Nat.le_of_eq (congrArg List.length hrequests).symm)
    (fun m _ => request_of_requests hrequests m) ?_ ?_ ?_
  · intro m hm
    rw [htasks] at hm
    by_cases hmn : m = n
    · subst hmn
      rw [Function.update_self] at hm
      exact htold hm
    · rwa [Function.update_of_ne hmn] at hm
  · intro m subscriptions wait rest hretiring id hid entry hentry
    obtain ⟨hold, hentries⟩ := hretires m subscriptions wait rest hretiring
    rw [request_of_requests hrequests, request_of_requests hrequests]
    exact h.retires m subscriptions wait rest hold id hid entry (hentries id entry hentry)
  · intro m t ht
    rw [htasks] at ht
    by_cases hmn : m = n
    · subst hmn
      rw [Function.update_self] at ht
      exact hquiet t ht
    · rw [Function.update_of_ne hmn] at ht
      exact h.quiet m t ht

/-- The tasks stay as they are, and the dispatcher has not more to retire than before. -/
lemma Blamed.same (h : Blamed P s) (hrequests : s'.requests = s.requests) (htasks : s'.tasks = s.tasks)
    (hretires : ∀ m subscriptions wait rest, s'.dispatcher = .retiring m subscriptions wait rest →
      s'.entries = s.entries ∧ ∃ subscriptions' wait' rest', subscriptions ⊆ subscriptions' ∧
        s.dispatcher = .retiring m subscriptions' wait' rest') : Blamed P s' := by
  refine h.of_told (Nat.le_of_eq (congrArg List.length hrequests).symm)
    (fun m _ => request_of_requests hrequests m) (fun _ hn => htasks ▸ hn) ?_ (htasks ▸ h.quiet)
  intro m subscriptions wait rest hretiring id hid entry hentry
  obtain ⟨hentries, subscriptions', wait', rest', hsubset, hold⟩ :=
    hretires m subscriptions wait rest hretiring
  rw [request_of_requests hrequests, request_of_requests hrequests]
  exact h.retires m subscriptions' wait' rest' hold id (hsubset hid) entry (hentries ▸ hentry)

lemma not_retiring_of_current {d : Dispatcher} (h : d.current = none) {subscriptions : List String}
    {wait : Option Nat} {rest : Rest} : d ≠ .retiring m subscriptions wait rest := by
  rintro rfl
  cases h

lemma Blamed.retired (h : Blamed P s) (hg : Guarded P s) {before : Connection}
    {subscriptions : List String} {rest : Rest} (hserving : s.dispatcher = .serving n)
    (hflagged : Flagged (fun m => (s.request n).Cancels P (s.request m)) s before)
    (hsubscriptions : ∀ subscriptionId ∈ subscriptions, ∀ entry,
      s.entries.get subscriptionId = some entry → (s.request n).Cancels P (s.request entry.task)) :
    Blamed P { before with dispatcher := .retiring n subscriptions none rest } := by
  have hrequest : ∀ m, before.request m = s.request m := request_of_requests hflagged.requests
  refine ⟨fun m hm => ?_, fun m subs wait rest hretiring id hid entry hentry => ?_, fun m t ht hstage => ?_⟩
  · show ∃ k, m < k ∧ k < before.requests.length ∧ (before.request k).Cancels P (before.request m)
    rw [hflagged.requests]
    simp only [hrequest]
    rcases hflagged.only m with hsame | hcancels
    · exact h.told m (hsame ▸ hm)
    · have htask : s.tasks m ≠ .none := by
        intro hnone
        have hmarks := hflagged.tasks m
        rw [hnone] at hmarks
        have hbefore : (before.tasks m).told = true := hm
        generalize before.tasks m = task at hmarks hbefore
        cases hmarks
        cases hbefore
      obtain ⟨hlt, hlength⟩ := hg.lt_of_current (current_of_serving hserving).1 htask
      exact ⟨n, hlt, hlength, hcancels⟩
  · obtain ⟨rfl, rfl, -, -⟩ := Dispatcher.retiring.inj hretiring
    show (before.request n).Cancels P (before.request entry.task)
    rw [hrequest, hrequest]
    exact hsubscriptions id hid entry (hflagged.entries ▸ hentry)
  · have hmarks := hflagged.tasks m
    have hold : before.tasks m = .subscription t := ht
    rw [hold] at hmarks
    generalize htask : s.tasks m = task at hmarks
    cases hmarks with
    | same => exact h.quiet m t htask hstage
    | subscription => rfl

lemma Blamed.cancelled (h : Blamed P s) (hg : Guarded P s) {subscriptionId : String}
    {subscriptions : List String} {rest rest' : Rest} {entry : Entry} {task : Subscription}
    (hretiring : s.dispatcher = .retiring n (subscriptionId :: subscriptions) none rest)
    (hentry : s.entries.get subscriptionId = some entry)
    (htask : s.tasks entry.task = .subscription task) :
    Blamed P { { s with entries := s.entries.erase subscriptionId }.setTask entry.task
        (.subscription { task with cancelled := true }) with
      dispatcher := .retiring n subscriptions (some entry.task) rest' } := by
  refine ⟨fun m hm => ?_, fun m subs wait rest hretires id hid other hother => ?_, fun m t ht hstage => ?_⟩
  · by_cases hmn : m = entry.task
    · subst hmn
      have hnone : s.tasks entry.task ≠ .none := by
        rw [htask]
        intro hnone
        cases hnone
      obtain ⟨hlt, hlength⟩ := hg.lt_of_current (m := n) (by rw [hretiring]; rfl) hnone
      exact ⟨n, hlt, hlength, h.retires n _ _ _ hretiring _ List.mem_cons_self entry hentry⟩
    · exact h.told m ((congrArg Task.told (tasks_setTask_of_ne hmn s _)).symm.trans hm)
  · obtain ⟨rfl, rfl, -, -⟩ := Dispatcher.retiring.inj hretires
    exact h.retires n _ _ _ hretiring id (List.mem_cons_of_mem _ hid) other
      (Table.get_of_get_erase hother).2
  · by_cases hmn : m = entry.task
    · rw [hmn] at ht
      obtain rfl := Task.subscription.inj ((tasks_setTask_self s entry.task _).symm.trans ht)
      rfl
    · exact h.quiet m t ((tasks_setTask_of_ne hmn s _).symm.trans ht) hstage

/-- Every change keeps who has told what to stop. -/
lemma Change.blamed (hg : Guarded P s) (h : Blamed P s) (hchange : Change P s s') : Blamed P s' := by
  have hnothing : ∀ {d : Dispatcher} (_ : d.current = none) {A : Nat → List String → Option Nat → Rest → Prop},
      ∀ m subscriptions wait rest, d = .retiring m subscriptions wait rest →
        A m subscriptions wait rest :=
    fun hcurrent _ _ _ _ _ hretiring => absurd hretiring (not_retiring_of_current hcurrent)
  cases hchange with
  | settled hs hdispatcher =>
    exact h.same hs.requests hs.tasks fun m subscriptions wait rest hretiring =>
      ⟨hs.entries, subscriptions, wait, rest, List.Subset.refl _, hdispatcher ▸ hretiring⟩
  | ended hs hclosed hcurrent => exact h.same hs.requests hs.tasks (hnothing hcurrent)
  | accepted request hidle hopen =>
    refine h.of_told ?_ (fun n hn => request_append request hn rfl) (fun _ hn => hn) (fun m _ _ _ hm => (nomatch hm))
      h.quiet
    show s.requests.length ≤ (s.requests ++ [request]).length
    rw [List.length_append]
    exact Nat.le_add_right _ _
  | duplicate request reply hidle hopen =>
    obtain ⟨out, hanswer⟩ := exists_answer_eq { s with requests := s.requests ++ [request] }.reap
      s.requests.length reply
    rw [hanswer]
    refine h.of_told ?_ (fun n hn => request_append request hn rfl) (fun _ hn => hn) ?_ h.quiet
    · show s.requests.length ≤ (s.requests ++ [request]).length
      rw [List.length_append]
      exact Nat.le_add_right _ _
    · exact hnothing (show s.dispatcher.current = none by rw [hidle]; rfl)
  | @answered n before _ reply hcurrent hbefore hs hidle =>
    obtain ⟨out, hanswer⟩ := exists_answer_eq before n reply
    rw [hanswer] at hs
    exact h.same (hs.requests.trans hbefore.requests) (hs.tasks.trans hbefore.tasks)
      (hnothing (by rw [hidle]; rfl))
  | spawned hserving hspawns =>
    refine h.update hspawns.requests hspawns.tasks ?_ ?_ (hnothing (by rw [hspawns.idle]; rfl))
    · intro htold
      rw [hspawns.fresh.told] at htold
      cases htold
    · rintro t rfl
      cases hspawns.fresh
  | subscribed nextToken hserving howns hasks hfree =>
    refine h.update rfl rfl (fun htold => (nomatch htold)) ?_ (fun m _ _ _ hm => (nomatch hm))
    rintro t ht hstage
    obtain rfl := Task.subscription.inj ht
    cases hstage
  | retired subscriptions rest hserving hflagged hsubscriptions =>
    exact h.retired hg hserving hflagged hsubscriptions
  | waited hretiring hover =>
    refine h.same rfl rfl fun m subscriptions wait rest hm => ⟨rfl, ?_⟩
    obtain ⟨rfl, rfl, rfl, rfl⟩ := Dispatcher.retiring.inj hm
    exact ⟨_, _, _, List.Subset.refl _, hretiring⟩
  | gaveUp hretiring =>
    refine h.same rfl rfl fun m subscriptions wait rest hm => ⟨rfl, ?_⟩
    obtain ⟨rfl, rfl, rfl, rfl⟩ := Dispatcher.retiring.inj hm
    exact ⟨_, _, _, List.Subset.refl _, hretiring⟩
  | skipped hretiring =>
    refine h.same rfl rfl fun m subscriptions wait rest hm => ⟨rfl, ?_⟩
    obtain ⟨rfl, rfl, rfl, rfl⟩ := Dispatcher.retiring.inj hm
    exact ⟨_, _, _, List.subset_cons_self _ _, hretiring⟩
  | cancelled hretiring hentry htask => exact h.cancelled hg hretiring hentry htask
  | worked hworks =>
    exact h.update rfl rfl (fun htold => hworks.told ▸ htold) (fun t ht => hworks.quiet (h.quiet _) ht)
      fun m _ _ _ hm => ⟨hm, fun _ _ h => h⟩
  | @written n reply task hwrites =>
    obtain ⟨out, hanswer⟩ := exists_answer_eq s n reply
    rw [hanswer]
    refine h.update rfl rfl (fun htold => hwrites.told ▸ htold) ?_ fun m _ _ _ hm => ⟨hm, fun _ _ h => h⟩
    intro t ht hstage
    rw [hwrites.quiet ht] at hstage
    cases hstage
  | @unpended n task result htask hstage =>
    refine h.update rfl rfl (fun htold => ?_) ?_ fun m _ _ _ hm => ⟨hm, fun _ _ h => h⟩
    · rw [htask]
      exact htold
    · rintro t ht hquiet
      obtain rfl := Task.subscription.inj ht
      refine h.quiet n task htask ?_
      rw [hstage]
      cases result with
      | none => rfl
      | some started => cases hquiet
  | @finished n task entries htask hstage hentries =>
    refine h.update rfl rfl (fun htold => ?_) ?_ fun m _ _ _ hm =>
      ⟨hm, fun id entry hentry => ((hentries id entry).mp hentry).1⟩
    · rw [htask]
      exact htold
    · rintro t ht hquiet
      obtain rfl := Task.subscription.inj ht
      cases hquiet

/-! ### Responses -/

/-- The responses of the `n`-th request that have been written. -/
def responses (s : Connection) (n : Nat) : List Frame := s.out.filter (Frame.answers n)

/-- The `n`-th request is being served, or its task goes on towards a response. -/
def Due (s : Connection) (n : Nat) : Prop :=
  s.dispatcher.current = some n ∨ (s.tasks n).owes = true

lemma responses_settles (h : Settles s s') (n : Nat) : s'.responses n = s.responses n := by
  obtain ⟨frames, hout, hframes⟩ := h.out
  have hnone : frames.filter (Frame.answers n) = [] :=
    List.filter_eq_nil_iff.mpr fun frame hmem => by
      rw [hframes frame hmem n]
      exact Bool.false_ne_true
  rw [responses, hout, List.filter_append, hnone, List.append_nil, responses]

lemma responses_answer_of_ne (h : m ≠ n) (s : Connection) (reply : Reply) :
    (s.answer m reply).responses n = s.responses n := by
  unfold answer
  split
  · unfold write
    split
    · rfl
    · rename_i id hid hopen
      show (s.out ++ [Frame.response m id reply]).filter (Frame.answers n) = _
      rw [List.filter_append, List.filter_cons_of_neg, List.filter_nil, List.append_nil]
      · rfl
      · rw [Frame.answers, beq_iff_eq]
        exact h
  · rfl

/-- A request that has an id is answered while the connection is open. -/
lemma responses_answer (s : Connection) (n : Nat) (reply : Reply) :
    (∃ id, (s.request n).id = some id ∧
      (s.answer n reply).responses n = s.responses n ++ [.response n id reply]) ∨
    (((s.request n).id = none ∨ s.writer.closed = true) ∧
      (s.answer n reply).responses n = s.responses n) := by
  unfold answer
  split
  · rename_i id hid
    unfold write
    split
    · rename_i hclosed
      exact .inr ⟨.inr hclosed, rfl⟩
    · refine .inl ⟨id, hid, ?_⟩
      have hown : Frame.answers n (.response n id reply) = true := beq_self_eq_true n
      show (s.out ++ [Frame.response n id reply]).filter (Frame.answers n) = _
      rw [List.filter_append, List.filter_cons_of_pos hown, List.filter_nil]
      rfl
  · rename_i hid
    exact .inr ⟨.inl hid, rfl⟩

/-- Every response has its request, and a request that is not due any more has been answered or told
to stop. -/
structure Counted (s : Connection) : Prop where
  named : ∀ n, ∀ frame ∈ s.responses n, ∃ id reply, frame = .response n id reply ∧
    (s.request n).id = some id
  once : ∀ n, (s.responses n).length ≤ 1
  unborn : ∀ n, s.requests.length ≤ n → s.responses n = []
  due : ∀ n, s.Due n → s.responses n = []
  answered : s.writer.closed = false → ∀ n < s.requests.length, (s.request n).id ≠ none → ¬s.Due n →
    s.responses n ≠ [] ∨ (s.tasks n).told = true

/-- A change that writes no response, and takes away one that is due only from a task that has been
told to stop. -/
lemma Counted.silent (h : Counted s) (hrequests : s'.requests = s.requests)
    (hresponses : ∀ n, s'.responses n = s.responses n) (hdue : ∀ n, s'.Due n → s.Due n)
    (hclosed : s.writer.closed = true → s'.writer.closed = true)
    (htold : s'.writer.closed = false → ∀ n,
      ((s.tasks n).told = true → (s'.tasks n).told = true) ∧
      (s.Due n → s'.Due n ∨ (s'.tasks n).told = true)) : Counted s' where
  named n frame hframe := by
    rw [hresponses] at hframe
    rw [request_of_requests hrequests]
    exact h.named n frame hframe
  once n := by
    rw [hresponses]
    exact h.once n
  unborn n hn := by
    rw [hresponses]
    exact h.unborn n (hrequests ▸ hn)
  due n hn := by
    rw [hresponses]
    exact h.due n (hdue n hn)
  answered hopen n hn hid hnot := by
    rw [hrequests] at hn
    rw [request_of_requests hrequests] at hid
    rw [hresponses]
    obtain ⟨hkeeps, hgone⟩ := htold hopen n
    by_cases hwas : s.Due n
    · exact (hgone hwas).elim (fun hstill => absurd hstill hnot) .inr
    · have hopen' : s.writer.closed = false := by
        cases hc : s.writer.closed with
        | false => rfl
        | true => exact absurd ((hclosed hc).symm.trans hopen) (by decide)
      exact (h.answered hopen' n hn hid hwas).imp_right hkeeps

/-- The task of one request goes on, and nothing is written. -/
lemma Counted.update (h : Counted s) {task : Task} (hrequests : s'.requests = s.requests)
    (hout : s'.out = s.out) (htasks : s'.tasks = Function.update s.tasks n task)
    (hclosed : s'.writer.closed = s.writer.closed)
    (hcurrent : ∀ m, s'.dispatcher.current = some m → s.dispatcher.current = some m)
    (hleaves : ∀ m, s.dispatcher.current = some m → s'.dispatcher.current = some m ∨
      (m = n ∧ task.owes = true))
    (howes : task.owes = true → s.Due n)
    (htold : (s.tasks n).told = true → task.told = true)
    (hgone : s.writer.closed = false → (s.tasks n).owes = true → task.owes = true ∨ task.told = true) :
    Counted s' := by
  have hself : s'.tasks n = task := by rw [htasks, Function.update_self]
  have hother : ∀ m, m ≠ n → s'.tasks m = s.tasks m := fun m hm => by
    rw [htasks, Function.update_of_ne hm]
  refine h.silent hrequests (fun m => by rw [responses, hout, responses]) ?_ (hclosed ▸ id) ?_
  · rintro m (hm | hm)
    · exact .inl (hcurrent m hm)
    · by_cases hmn : m = n
      · subst hmn
        exact howes (hself ▸ hm)
      · exact .inr (hother m hmn ▸ hm)
  · intro hopen m
    rw [hclosed] at hopen
    by_cases hmn : m = n
    · subst hmn
      refine ⟨fun hm => hself ▸ htold hm, ?_⟩
      rintro (hm | hm)
      · exact .inl ((hleaves m hm).imp_right fun howes => hself ▸ howes.2)
      · exact (hgone hopen hm).imp (fun howes => .inr (hself ▸ howes)) fun ht => hself ▸ ht
    · refine ⟨fun hm => hother m hmn ▸ hm, ?_⟩
      rintro (hm | hm)
      · exact .inl (.inl ((hleaves m hm).resolve_right fun howes => hmn howes.1))
      · exact .inl (.inr (hother m hmn ▸ hm))

/-- One request is answered that was due, or is new. -/
lemma Counted.respond (h : Counted s) {before : Connection} (reply : Reply)
    (hbefore : ∀ m, before.responses m = s.responses m) (hnone : s.responses n = [])
    (hrequest : ∀ m, m ≠ n → s'.request m = s.request m) (hself : s'.request n = before.request n)
    (hlength : ∀ m, m ≠ n → (m < s'.requests.length ↔ m < s.requests.length))
    (hn : n < s'.requests.length)
    (hresponses : ∀ m, s'.responses m = (before.answer n reply).responses m)
    (hclosed : before.writer.closed = true → s'.writer.closed = true)
    (hopen : s.writer.closed = true → before.writer.closed = true)
    (hdone : ¬s'.Due n) (hdue : ∀ m, m ≠ n → (s'.Due m ↔ s.Due m))
    (htold : ∀ m, m ≠ n → (s'.tasks m).told = (s.tasks m).told) : Counted s' := by
  have hother : ∀ m, m ≠ n → s'.responses m = s.responses m := by
    intro m hm
    rw [hresponses, responses_answer_of_ne hm.symm, hbefore]
  have hanswer : (∃ id, (before.request n).id = some id ∧ s'.responses n = [.response n id reply]) ∨
      (((before.request n).id = none ∨ before.writer.closed = true) ∧ s'.responses n = []) := by
    have hcases := responses_answer before n reply
    rw [← hresponses, hbefore, hnone] at hcases
    exact hcases
  constructor
  case named =>
    intro m frame hframe
    by_cases hm : m = n
    · subst hm
      rw [hself]
      rcases hanswer with ⟨id, hid, heq⟩ | ⟨-, heq⟩
      · rw [heq] at hframe
        exact ⟨id, reply, List.mem_singleton.mp hframe, hid⟩
      · rw [heq] at hframe
        exact absurd hframe List.not_mem_nil
    · rw [hother m hm] at hframe
      rw [hrequest m hm]
      exact h.named m frame hframe
  case once =>
    intro m
    by_cases hm : m = n
    · subst hm
      rcases hanswer with ⟨id, -, heq⟩ | ⟨-, heq⟩
      · rw [heq]
        exact Nat.le_refl 1
      · rw [heq]
        exact Nat.zero_le 1
    · rw [hother m hm]
      exact h.once m
  case unborn =>
    intro m hle
    have hm : m ≠ n := by
      rintro rfl
      exact Nat.not_lt.mpr hle hn
    rw [hother m hm]
    exact h.unborn m (Nat.not_lt.mp fun hlt => Nat.not_lt.mpr hle ((hlength m hm).mpr hlt))
  case due =>
    intro m hm
    have hmn : m ≠ n := by
      rintro rfl
      exact hdone hm
    rw [hother m hmn]
    exact h.due m ((hdue m hmn).mp hm)
  case answered =>
    intro hopened m hlt hid hnot
    have hbefore_open : before.writer.closed = false := by
      cases hc : before.writer.closed with
      | false => rfl
      | true => exact absurd ((hclosed hc).symm.trans hopened) (by decide)
    by_cases hm : m = n
    · subst hm
      rw [hself] at hid
      rcases hanswer with ⟨id, -, heq⟩ | ⟨hnone | hclosed, -⟩
      · rw [heq]
        exact .inl (List.cons_ne_nil _ _)
      · exact absurd hnone hid
      · exact absurd (hclosed.symm.trans hbefore_open) (by decide)
    · rw [hother m hm, htold m hm]
      have hs_open : s.writer.closed = false := by
        cases hc : s.writer.closed with
        | false => rfl
        | true => exact absurd ((hopen hc).symm.trans hbefore_open) (by decide)
      rw [hrequest m hm] at hid
      exact h.answered hs_open m ((hlength m hm).mp hlt) hid fun hd => hnot ((hdue m hm).mpr hd)

lemma not_due_of_none (hcurrent : s.dispatcher.current = none) (htask : s.tasks n = .none) : ¬s.Due n := by
  rintro (h | h)
  · rw [hcurrent] at h
    cases h
  · rw [htask] at h
    cases h

lemma due_of_tasks (htask : s'.tasks n = s.tasks n)
    (hcurrent : s'.dispatcher.current = some n ↔ s.dispatcher.current = some n) : s'.Due n ↔ s.Due n := by
  rw [Due, Due, htask, hcurrent]

lemma Counted.duplicate (h : Counted s) (hg : Guarded P s) (hidle : s.dispatcher = .idle)
    (request : Request) (reply : Reply) :
    Counted ({ s with requests := s.requests ++ [request] }.reap.answer s.requests.length reply) := by
  have hbefore : ∀ m, { s with requests := s.requests ++ [request] }.reap.responses m = s.responses m :=
    fun _ => rfl
  obtain ⟨out, hanswer⟩ := exists_answer_eq { s with requests := s.requests ++ [request] }.reap
    s.requests.length reply
  have hlength : { s with requests := s.requests ++ [request] }.reap.requests.length =
      s.requests.length + 1 := by
    show (s.requests ++ [request]).length = _
    rw [List.length_append, List.length_singleton]
  have hunborn := h.unborn _ (Nat.le_refl _)
  refine h.respond (n := s.requests.length) reply hbefore hunborn ?_ ?_ ?_ ?_ (fun _ => rfl) ?_ id ?_ ?_ ?_
  · intro m hm
    rw [hanswer]
    by_cases hlt : m < s.requests.length
    · exact request_append request hlt rfl
    · show ((s.requests ++ [request]).getD m _) = s.requests.getD m _
      rw [List.getD_eq_default _ _ (by rw [List.length_append, List.length_singleton]; omega),
        List.getD_eq_default _ _ (Nat.not_lt.mp hlt)]
  · rw [hanswer]
    rfl
  · intro m hm
    rw [hanswer]
    show m < (s.requests ++ [request]).length ↔ _
    rw [List.length_append, List.length_singleton]
    omega
  · rw [hanswer]
    exact hlength ▸ Nat.lt_succ_self _
  · rw [hanswer]
    exact id
  · rw [hanswer]
    exact not_due_of_none (show s.dispatcher.current = none by rw [hidle]; rfl)
      (hg.indexed.born _ (Nat.le_refl _))
  · intro m _
    rw [hanswer]
    exact Iff.rfl
  · intro m _
    rw [hanswer]
    rfl

/-- The request that has been taken is due. -/
lemma Counted.accepted (h : Counted s) (hidle : s.dispatcher = .idle) (request : Request) :
    Counted { { s with requests := s.requests ++ [request] }.reap with
      dispatcher := .serving s.requests.length } := by
  have hlength : (s.requests ++ [request]).length = s.requests.length + 1 := by
    rw [List.length_append, List.length_singleton]
  have hrequest : ∀ m, m < s.requests.length →
      Connection.request { { s with requests := s.requests ++ [request] }.reap with
        dispatcher := .serving s.requests.length } m = s.request m :=
    fun m hm => request_append request hm rfl
  have hborn : ∀ n, s.responses n ≠ [] → n < s.requests.length := fun n hn =>
    Nat.not_le.mp fun hle => hn (h.unborn n hle)
  constructor
  case named =>
    intro n frame hframe
    rw [hrequest n (hborn n (List.ne_nil_of_mem hframe))]
    exact h.named n frame hframe
  case once => exact h.once
  case unborn =>
    intro n hn
    exact h.unborn n (Nat.le_of_succ_le (hlength.ge.trans hn))
  case due =>
    rintro n (hn | hn)
    · obtain rfl := Option.some.inj hn
      exact h.unborn _ (Nat.le_refl _)
    · exact h.due n (.inr hn)
  case answered =>
    intro hopen n hn hid hnot
    have hne : n ≠ s.requests.length := by
      rintro rfl
      exact hnot (.inl rfl)
    have hlt : n < s.requests.length := Nat.lt_of_le_of_ne (Nat.le_of_lt_succ (lt_of_lt_of_eq hn hlength)) hne
    rw [hrequest n hlt] at hid
    refine h.answered hopen n hlt hid fun hd => hnot ?_
    rcases hd with hd | hd
    · rw [hidle] at hd
      cases hd
    · exact .inr hd

/-- The dispatcher goes on with its request, and some tasks may be told to stop. -/
lemma Counted.goes (h : Counted s) (hrequests : s'.requests = s.requests) (hout : s'.out = s.out)
    (hmarks : ∀ n, Marks (s.tasks n) (s'.tasks n))
    (hcurrent : s'.dispatcher.current = s.dispatcher.current)
    (hclosed : s.writer.closed = true → s'.writer.closed = true) : Counted s' := by
  have hdue : ∀ n, s'.Due n ↔ s.Due n := by
    intro n
    rw [Due, Due, hcurrent, (hmarks n).owes]
  refine h.silent hrequests (fun n => by rw [responses, hout, responses]) (fun n => (hdue n).mp) hclosed
    fun _ n => ⟨fun ht => ?_, fun hd => .inl ((hdue n).mpr hd)⟩
  have hmark := hmarks n
  generalize s.tasks n = task at hmark ht
  generalize s'.tasks n = task' at hmark ⊢
  cases hmark with
  | same => exact ht
  | list => exact ht
  | query => rfl
  | subscription => rfl

lemma Counted.served (h : Counted s) (hg : Guarded P s) {before : Connection} (reply : Reply)
    (hcurrent : s.dispatcher.Serves n) (hbefore : Settles s before)
    (hs : Settles (before.answer n reply) s') (hidle : s'.dispatcher = .idle) : Counted s' := by
  obtain ⟨hlength, hnone⟩ := hg.current n hcurrent.1
  have hresponses := responses_settles hs
  obtain ⟨out, hanswer⟩ := exists_answer_eq before n reply
  have hrequests : s'.requests = s.requests := by
    rw [hs.requests, hanswer]
    exact hbefore.requests
  have htasks : s'.tasks = s.tasks := by
    rw [hs.tasks, hanswer]
    exact hbefore.tasks
  have hidle' : s'.dispatcher.current = none := by rw [hidle]; rfl
  refine h.respond reply (responses_settles hbefore) (h.due n (.inl hcurrent.1))
    (fun m _ => request_of_requests hrequests m) ?_ (fun m _ => by rw [hrequests]) ?_ hresponses ?_
    hbefore.closed ?_ ?_ ?_
  · rw [request_of_requests hrequests, request_of_requests hbefore.requests]
  · rw [hrequests, ← hlength]
    exact Nat.lt_succ_self n
  · intro hclosed
    refine hs.closed ?_
    rw [hanswer]
    exact hclosed
  · exact not_due_of_none hidle' (htasks ▸ hnone)
  · intro m hm
    refine due_of_tasks (by rw [htasks]) ?_
    rw [hidle', hcurrent.1]
    exact iff_of_false (fun h => (nomatch h)) fun h => hm (Option.some.inj h).symm
  · intro m _
    rw [htasks]

lemma Counted.written (h : Counted s) (hg : Guarded P s) {reply : Reply} {task : Task}
    (hwrites : Writes (s.tasks n) reply task) : Counted ((s.answer n reply).setTask n task) := by
  have howes := hwrites.owes
  have htask : s.tasks n ≠ .none := by
    intro hnone
    rw [hnone] at howes
    cases howes.1
  have hlt := hg.indexed.lt_of_task htask
  obtain ⟨out, hanswer⟩ := exists_answer_eq s n reply
  have hcurrent : s.dispatcher.current ≠ some n := fun hn => htask (hg.current n hn).2
  refine h.respond reply (fun _ => rfl) (h.due n (.inr howes.1))
    ?_ ?_ ?_ ?_ (fun _ => rfl) ?_ id ?_ ?_ ?_
  · intro m _
    rw [hanswer]
    rfl
  · rw [hanswer]
    rfl
  · intro m _
    rw [hanswer]
    rfl
  · rw [hanswer]
    exact hlt
  · rw [hanswer]
    exact id
  · rw [hanswer]
    rintro (hm | hm)
    · exact hcurrent hm
    · rw [tasks_setTask_self, howes.2] at hm
      cases hm
  · intro m hm
    rw [hanswer]
    exact due_of_tasks (tasks_setTask_of_ne hm _ _) Iff.rfl
  · intro m hm
    rw [hanswer]
    exact congrArg Task.told (tasks_setTask_of_ne hm { s with out } task)

/-- Every change counts its responses. -/
lemma Change.counted (hg : Guarded P s) (hb : Blamed P s) (h : Counted s) (hchange : Change P s s') :
    Counted s' := by
  cases hchange with
  | settled hs hdispatcher =>
    have hdue : ∀ n, s'.Due n ↔ s.Due n := fun n => due_of_tasks (by rw [hs.tasks]) (by rw [hdispatcher])
    exact h.silent hs.requests (responses_settles hs) (fun n => (hdue n).mp) hs.closed fun _ n =>
      ⟨fun ht => hs.tasks ▸ ht, fun hd => .inl ((hdue n).mpr hd)⟩
  | ended hs hclosed hcurrent =>
    refine h.silent hs.requests (responses_settles hs) ?_ hs.closed fun hopen =>
      absurd (hclosed.symm.trans hopen) (by decide)
    rintro n (hn | hn)
    · rw [hcurrent] at hn
      cases hn
    · exact .inr (hs.tasks ▸ hn)
  | accepted request hidle hopen => exact h.accepted hidle request
  | duplicate request reply hidle hopen => exact h.duplicate hg hidle request reply
  | answered reply hcurrent hbefore hs hidle => exact h.served hg reply hcurrent hbefore hs hidle
  | @spawned n task _ hserving hspawns =>
    have hcurrent := current_of_serving hserving
    refine h.update hspawns.requests hspawns.out hspawns.tasks (by rw [hspawns.writer]) ?_ ?_
      (fun _ => .inl hcurrent.1) ?_ fun _ _ => .inl hspawns.fresh.owes
    · intro m hm
      rw [hspawns.idle] at hm
      cases hm
    · intro m hm
      exact .inr ⟨Option.some.inj (hm.symm.trans hcurrent.1), hspawns.fresh.owes⟩
    · rw [(hg.current n hcurrent.1).2]
      exact fun ht => (nomatch ht)
  | @subscribed n _ _ nextToken hserving howns hasks hfree =>
    have hcurrent := current_of_serving hserving
    refine h.update (n := n) rfl rfl rfl rfl (fun m hm => (nomatch hm)) ?_ (fun _ => .inl hcurrent.1) ?_
      fun _ _ => .inl rfl
    · intro m hm
      exact .inr ⟨Option.some.inj (hm.symm.trans hcurrent.1), rfl⟩
    · rw [(hg.current n hcurrent.1).2]
      exact fun ht => (nomatch ht)
  | retired subscriptions rest hserving hflagged hsubscriptions =>
    exact h.goes hflagged.requests hflagged.out hflagged.tasks (by rw [hserving]; rfl)
      fun hclosed => hflagged.writer ▸ hclosed
  | waited hretiring hover =>
    exact h.goes rfl rfl (fun n => .same (s.tasks n)) (by rw [hretiring]; rfl) id
  | gaveUp hretiring =>
    exact h.goes rfl rfl (fun n => .same (s.tasks n)) (by rw [hretiring]; rfl) fun _ => rfl
  | skipped hretiring =>
    exact h.goes rfl rfl (fun n => .same (s.tasks n)) (by rw [hretiring]; rfl) id
  | @cancelled n _ subscriptions rest entry task hretiring hentry htask =>
    have hflagged : Flagged (fun m => m = entry.task) s
        (s.setTask entry.task (.subscription { task with cancelled := true })) :=
      flagged_setTask (htask ▸ .subscription task) rfl
    exact h.goes rfl rfl hflagged.tasks (by rw [hretiring]; rfl) id
  | @worked n task hworks =>
    have howes := hworks.owes (hb.quiet n)
    refine h.update rfl rfl rfl rfl (fun _ hm => hm) (fun _ hm => .inl hm) (fun hd => .inr (howes.1 hd))
      (fun ht => hworks.told ▸ ht) fun hopen hd => ?_
    rcases howes.2 hd with hstill | ht | hclosed
    · exact .inl hstill
    · exact .inr ht
    · exact absurd (hclosed.symm.trans hopen) (by decide)
  | written hwrites => exact h.written hg hwrites
  | @unpended n task result htask hstage =>
    have howes : (s.tasks n).owes = true := by rw [htask, Task.owes, hstage, Stage.owes]
    refine h.update rfl rfl rfl rfl (fun _ hm => hm) (fun _ hm => .inl hm) (fun _ => .inr howes) ?_
      fun _ _ => .inl rfl
    rw [htask]
    exact id
  | @finished n task entries htask hstage hentries =>
    refine h.update rfl rfl rfl rfl (fun _ hm => hm) (fun _ hm => .inl hm) (fun hd => (nomatch hd)) ?_
      fun _ hd => ?_
    · rw [htask]
      exact id
    · rw [htask, Task.owes, hstage] at hd
      cases hd

/-! ### Runs -/

lemma guarded_start (P : Parsers) (catalog : Option CatalogError) : Guarded P (start catalog) where
  indexed := ⟨fun _ _ => rfl, nofun, nofun, nofun, nofun, nofun, nofun, nofun, nofun⟩
  current := nofun
  held := nofun

lemma blamed_start (P : Parsers) (catalog : Option CatalogError) : Blamed P (start catalog) :=
  ⟨nofun, nofun, nofun⟩

lemma counted_start (catalog : Option CatalogError) : Counted (start catalog) :=
  ⟨nofun, fun _ => Nat.zero_le 1, fun _ _ => rfl, fun _ _ => rfl, nofun⟩

/-- What every connection has that has come to be. -/
structure Kept (P : Parsers) (s : Connection) : Prop where
  guarded : Guarded P s
  blamed : Blamed P s
  counted : Counted s

lemma kept_after (P : Parsers) (catalog : Option CatalogError) (events : List Event) :
    Kept P ((start catalog).after P events) := by
  refine Run.invariant (P := Kept P) (fun s event h => ?_)
    ⟨guarded_start P catalog, blamed_start P catalog, counted_start catalog⟩ events
  have hchange := step_change h.guarded event
  exact ⟨hchange.guarded h.guarded, hchange.blamed h.guarded h.blamed,
    hchange.counted h.guarded h.blamed h.counted⟩

end Connection

/-- The request is a child query or a child subscription. -/
def Request.AsksChild (r : Request) : Prop :=
  r.method ∈ Connection.queryMethods ∨ r.method = "session/tool_program_subscribe"

namespace Connection

variable {P : Parsers} {s : Connection} {n : Nat}

lemma Indexed.asksChild (h : Indexed P s) (htold : (s.tasks n).told = true) :
    (s.request n).AsksChild := by
  cases htask : s.tasks n with
  | none | prompt | logout | list =>
    rw [htask] at htold
    cases htold
  | query work aborted => exact .inl (h.asked n (by rw [htask]; rfl))
  | subscription task => exact .inr (h.asks n task htask).1

/-- Parsers that accept everything, for one session. -/
def lenient : Parsers where
  fileIo _ := .ok ()
  servers _ := .ok ()
  prompt _ := .ok ()
  mutation _ := .ok ()
  list _ := .ok ()
  childQuery _ _ := some "s"
  subscribe _ := some ("s", "t")
  unsubscribe _ := some ("s", "t")

/-- A host that does what it is asked to. -/
def obliging : Oracle where
  sessionId := "s"
  savedSession := .ok ()
  opened := .ok ()
  fileIo := .ok ()
  configuration := .ok false
  replayed := .ok ()
  emitted := .ok ()
  drains := true
  result := .object [("sessionId", .string "s")]
  updates := []
  durable := .ok .null
  set := success
  applied := .ok ()
  state := .ok ()
  config := .ok .null
  directory := .ok none

def rpcRequest (id : UInt64) (method : String) (params : Value) : Value :=
  .object [("jsonrpc", .string "2.0"), ("id", .number (.posInt id)), ("method", .string method),
    ("params", params)]

def abortedQuery : List Event :=
  [.receive (rpcRequest 1 "session/new" (.object [("cwd", .string "/")])), .dispatch obliging,
    .receive (rpcRequest 2 "session/tool_program_children" (.object [("sessionId", .string "s")])),
    .dispatch obliging,
    .receive (rpcRequest 3 "$/cancel_request" (.object [("requestId", .number (.posInt 2))])),
    .dispatch obliging, .progress 1 .stop, .dispatch obliging]

instance (s : Connection) (n : Nat) : Decidable (s.Due n) := inferInstanceAs (Decidable (_ ∨ _))

end Connection

end Acp
