import RpiPackage.Http.Protection

/-!
# Logins are paced

The attempts are handed out in the order of the readings of the clock, so the attempts that are
kept are those of the last minute, and a comparison is one of at most ten of its minute.
-/

namespace Http

variable {D : Type} {digest : String → D} {s s' : Server D} {log : List Event} {a now p : Nat}

lemma comparedAt_concat (log : List Event) (now : Nat) :
    comparedAt (log ++ [.compared now]) = comparedAt log ++ [now] := by
  simp [comparedAt]

/-- With `p` the last reading at which the attempts were pruned. -/
structure Pruned (s : Server D) (p : Nat) : Prop where
  attempts : s.attempts = (comparedAt s.log).filter fun t => p - t < 60 * second
  before : ∀ t ∈ comparedAt s.log, t ≤ p
  queued : (p :: s.queue.map Prod.snd).Pairwise (· ≤ ·)
  clock : ∀ t ∈ p :: s.queue.map Prod.snd, t ≤ s.clock
  paced : Paced s.log

namespace Pruned

lemma start (hosts : List String) (password : Option String) :
    Pruned (Server.start digest hosts password) 0 where
  attempts := rfl
  before := by
    intro t ht
    cases ht
  queued := List.pairwise_singleton _ _
  clock := by
    intro t ht
    exact (List.mem_singleton.mp ht).le
  paced := fun a => Nat.zero_le _

/-- A step that compares no password and at most shortens the queue. -/
lemma idle (h : Pruned s p) (hattempts : s'.attempts = s.attempts)
    (hlog : comparedAt s'.log = comparedAt s.log) (hqueue : s'.queue.Sublist s.queue)
    (hclock : s.clock ≤ s'.clock) : Pruned s' p where
  attempts := by rw [hattempts, hlog, h.attempts]
  before := by
    rw [hlog]
    exact h.before
  queued := h.queued.sublist ((hqueue.map Prod.snd).cons_cons p)
  clock := fun t ht => (h.clock t (((hqueue.map Prod.snd).cons_cons p).mem ht)).trans hclock
  paced := by
    intro a
    rw [hlog]
    exact h.paced a

/-- The last minute before a later reading is part of the one before the earlier reading. -/
lemma filter_attempts (h : Pruned s p) (hle : p ≤ now) :
    (s.attempts.filter fun t => now - t < 60 * second) =
      (comparedAt s.log).filter fun t => now - t < 60 * second := by
  rw [h.attempts, List.filter_filter]
  apply List.filter_congr
  intro t ht
  rw [Bool.and_eq_left_iff_imp]
  simp only [decide_eq_true_eq]
  omega

lemma compare (h : Pruned s p) (hle : p ≤ now)
    (hroom : (s.attempts.filter fun t => now - t < 60 * second).length < 10) :
    Paced (s.log ++ [.compared now]) := by
  intro a
  rw [comparedAt_concat, List.countP_append, List.countP_singleton]
  split
  · rename_i hwindow
    rw [decide_eq_true_eq] at hwindow
    rw [h.filter_attempts hle, ← List.countP_eq_length_filter] at hroom
    have hmono := List.countP_mono_left (l := comparedAt s.log)
      (p := fun t => decide (a ≤ t ∧ t < a + 60 * second))
      (q := fun t => decide (now - t < 60 * second)) (by
        intro t ht
        simp only [decide_eq_true_eq]
        omega)
    omega
  · exact h.paced a

lemma attempt [DecidableEq D] (h : Pruned s p) : ∃ p, Pruned (s.attempt digest) p := by
  unfold Server.attempt
  split
  · rename_i password now queue hholding hqueue
    have hqueued := h.queued
    have hclock := h.clock
    rw [hqueue, List.map_cons] at hqueued hclock
    obtain ⟨hfirst, hrest⟩ := List.pairwise_cons.mp hqueued
    have hle : p ≤ now := hfirst now List.mem_cons_self
    have hbefore : ∀ t ∈ comparedAt s.log, t ≤ now := fun t ht => (h.before t ht).trans hle
    have hfilter := h.filter_attempts hle
    have hclock : ∀ t ∈ now :: queue.map Prod.snd, t ≤ s.clock :=
      fun t ht => hclock t (List.mem_cons_of_mem _ ht)
    dsimp only
    split
    · exact ⟨now, hfilter, hbefore, hrest, hclock, h.paced⟩
    · rename_i hroom
      have hpaced := h.compare hle (Nat.lt_of_not_le hroom)
      have hattempts : (s.attempts.filter fun t => now - t < 60 * second) ++ [now] =
          (comparedAt (s.log ++ [.compared now])).filter fun t => now - t < 60 * second := by
        rw [comparedAt_concat, List.filter_append, hfilter]
        simp [second]
      have hbefore : ∀ t ∈ comparedAt (s.log ++ [.compared now]), t ≤ now := by
        intro t ht
        rw [comparedAt_concat] at ht
        rcases List.mem_append.mp ht with ht | ht
        · exact hbefore t ht
        · exact (List.mem_singleton.mp ht).le
      split
      · exact ⟨now, hattempts, hbefore, hrest, hclock, hpaced⟩
      · exact ⟨now, hattempts, hbefore, hrest, hclock, hpaced⟩
  · exact ⟨p, h⟩

lemma login (h : Pruned s p) (password : String) : Pruned (s.login password) p := by
  unfold Server.login
  split
  · refine ⟨h.attempts, h.before, ?_, ?_, h.paced⟩
    · rw [List.map_append, ← List.cons_append, List.pairwise_append]
      refine ⟨h.queued, List.pairwise_singleton _ _, ?_⟩
      intro t ht t' ht'
      rw [List.mem_singleton.mp ht']
      exact h.clock t ht
    · intro t ht
      rw [List.map_append, ← List.cons_append] at ht
      rcases List.mem_append.mp ht with ht | ht
      · exact h.clock t ht
      · exact (List.mem_singleton.mp ht).le
  · exact h

end Pruned

/-! ### The other steps -/

/-- What the pacing of the logins reads. -/
def Server.pace (s : Server D) : List Nat × List (String × Nat) × Nat × List Nat :=
  (s.attempts, s.queue, s.clock, comparedAt s.log)

lemma Pruned.same (h : Pruned s p) (hpace : s'.pace = s.pace) : Pruned s' p := by
  simp only [Server.pace, Prod.mk.injEq] at hpace
  obtain ⟨hattempts, hqueue, hclock, hlog⟩ := hpace
  exact h.idle hattempts hlog (hqueue ▸ List.Sublist.refl _) hclock.ge

lemma pace_enter (s : Server D) (token : String) : (s.enter token).pace = s.pace := by
  unfold Server.enter
  split
  · rfl
  · dsimp only
    split
    · rfl
    · simp [Server.pace, comparedAt]

lemma pace_logout (s : Server D) (headers : HeaderMap) : (s.logout headers).pace = s.pace := by
  unfold Server.logout
  split
  · rfl
  · simp [Server.pace, comparedAt]

lemma pace_request (s : Server D) (r : Request) : (s.request r).pace = s.pace := by
  unfold Server.request
  split
  · split
    · split
      · simp [Server.pace, comparedAt, Server.emit]
      · rfl
    · simp [Server.pace, comparedAt, Server.emit]
  · simp [Server.pace, comparedAt, Server.emit]

lemma pace_check (s : Server D) (i : Nat) : (s.check i).pace = s.pace := by
  unfold Server.check
  split
  · rfl
  · dsimp only
    split
    · simp [Server.pace, comparedAt]
    · simp [Server.pace, comparedAt]

lemma pace_subscribe (s : Server D) (headers : HeaderMap) :
    (s.subscribe headers).pace = s.pace := by
  simp [Server.subscribe, Server.pace, comparedAt]

lemma pace_arrive (s : Server D) (i : Nat) : (s.arrive i).pace = s.pace := by
  unfold Server.arrive
  split
  · rfl
  · simp [Server.pace, comparedAt, Server.emit, Server.setStream]

lemma pace_inspect (s : Server D) (i : Nat) (stream : Stream) (pending : Option Nat) :
    (s.inspect i stream pending).pace = s.pace := by
  unfold Server.inspect
  split
  · split
    · simp [Server.pace, comparedAt, Server.emit, Server.setStream]
    · rfl
  · split
    · rfl
    · simp [Server.pace, comparedAt, Server.emit, Server.setStream]

lemma pace_take (s : Server D) (i : Nat) : (s.take i).pace = s.pace := by
  unfold Server.take
  split
  · split
    · exact pace_inspect s i _ _
    · rfl
  · rfl

lemma pace_expire (s : Server D) (i : Nat) : (s.expire i).pace = s.pace := by
  unfold Server.expire
  split
  · exact pace_inspect s i _ _
  · rfl

lemma pace_settle (s : Server D) (i : Nat) : (s.settle i).pace = s.pace := by
  unfold Server.settle
  split
  · dsimp only
    split
    · split
      · simp [Server.pace, comparedAt, Server.emit, Server.setStream]
      · simp [Server.pace, comparedAt, Server.emit, Server.setStream]
    · simp [Server.pace, comparedAt, Server.emit, Server.setStream]
  · rfl

lemma pace_close (s : Server D) (i : Nat) : (s.close i).pace = s.pace := by
  unfold Server.close
  split
  · rfl
  · rfl

lemma Pruned.step [DecidableEq D] (h : Pruned s p) (action : Action) :
    ∃ p, Pruned (s.step digest action) p := by
  cases action with
  | tick nanoseconds => exact ⟨p, h.idle rfl rfl (.refl _) (Nat.le_add_right _ _)⟩
  | login password => exact ⟨p, h.login password⟩
  | attempt => exact h.attempt
  | enter token => exact ⟨p, h.same (pace_enter s token)⟩
  | leave i => exact ⟨p, h.idle rfl rfl (List.eraseIdx_sublist _ _) le_rfl⟩
  | leaveHolding => exact ⟨p, h.same rfl⟩
  | logout headers => exact ⟨p, h.same (pace_logout s headers)⟩
  | request r => exact ⟨p, h.same (pace_request s r)⟩
  | check i => exact ⟨p, h.same (pace_check s i)⟩
  | abandon i => exact ⟨p, h.same rfl⟩
  | subscribe headers => exact ⟨p, h.same (pace_subscribe s headers)⟩
  | arrive i => exact ⟨p, h.same (pace_arrive s i)⟩
  | take i => exact ⟨p, h.same (pace_take s i)⟩
  | expire i => exact ⟨p, h.same (pace_expire s i)⟩
  | settle i => exact ⟨p, h.same (pace_settle s i)⟩
  | close i => exact ⟨p, h.same (pace_close s i)⟩

/-! ### Runs -/

section

variable [DecidableEq D]

lemma sound_of_meets (hosts : List String) (password : String) {actions : List Action}
    (h : Run.Meets (Server.step digest) Admits (Server.start digest hosts (some password)) actions) :
    Sound digest (digest password)
      (Run.after (Server.step digest) (Server.start digest hosts (some password)) actions) :=
  h.invariant (fun _ _ hs hadmits => hs.step hadmits) (Sound.start hosts password)

lemma paced_after (hosts : List String) (password : Option String) (actions : List Action) :
    Paced (Run.after (Server.step digest) (Server.start digest hosts password) actions).log := by
  obtain ⟨p, hp⟩ := Run.invariant (P := fun s => ∃ p, Pruned s p)
    (fun s action ⟨p, hp⟩ => (hp.step action : ∃ p', Pruned (s.step digest action) p'))
    ⟨0, Pruned.start hosts password⟩ actions
  exact hp.paced

/-- The condition is what the check of a request needs for its handler to start rightly. -/
lemma admits_of_safe {secret : D} (h : Sound digest secret s) {action : Action}
    (hsafe : Safe digest secret (s.step digest action)) : Admits s action := by
  cases action with
  | check i =>
    rintro w hi ⟨expiry, hmem, hlt⟩
    obtain ⟨hneeds, -⟩ := h.waiting w (List.mem_of_getElem? hi)
    have hauth : s.authorized w.token w.now = true := by
      rw [Server.authorized, Option.isSome_iff_ne_none]
      intro hnone
      have hnot := List.lookup_eq_none_iff.mp hnone (w.token, expiry)
        (List.mem_filter.mpr ⟨hmem, by simpa using hlt⟩)
      simp at hnot
    have hlog : ((s.step digest (.check i)).log) =
        (s.log ++ [.passed (.request w.request) w.token w.now]) ++ .started w.request :: [] := by
      show (s.check i).log = _
      simp [Server.check, hi, hauth]
    have hhosts : (s.step digest (.check i)).hosts = s.hosts := by
      show (s.check i).hosts = _
      simp [Server.check, hi]
    obtain ⟨-, horigin, -⟩ := hsafe.each _ _ _ hlog hneeds
    exact horigin.readable
  | _ => trivial

/-- **The server is protected in every state of a run** if and only if every check that lets a
request pass is made for one whose `Origin` can be read. -/
theorem protected_iff_admits (digest : String → D) (hosts : List String) (password : String)
    (actions : List Action) :
    (∀ before after, actions = before ++ after → Safe digest (digest password)
      (Run.after (Server.step digest) (Server.start digest hosts (some password)) before)) ↔
    Run.Meets (Server.step digest) Admits (Server.start digest hosts (some password)) actions := by
  constructor
  · intro h
    induction actions using List.reverseRecOn with
    | nil => trivial
    | append_singleton actions action ih =>
      have hmeets := ih fun before after heq =>
        h before (after ++ [action]) (by rw [heq, List.append_assoc])
      refine Run.meets_append.mpr ⟨hmeets, ?_, trivial⟩
      have hsafe := h (actions ++ [action]) [] (List.append_nil _).symm
      rw [Run.after_append] at hsafe
      exact admits_of_safe (sound_of_meets hosts password hmeets) hsafe
  · rintro h before after rfl
    have hsound := sound_of_meets hosts password (Run.meets_append.mp h).1
    exact ⟨hsound.each, hsound.size, paced_after hosts (some password) before⟩

end

/-- A request with a session and an `Origin` that is no text. -/
def unreadableOrigin : Request :=
  ⟨"GET", "/api/v1/sessions", [("host", asciiBytes "example.test"), ("origin", [255]),
    ("cookie", asciiBytes "rpi_web_session=4f1d")]⟩

theorem exists_unreadable_origin_let_through :
    ¬∀ actions : List Action, Safe id "secret"
      (Run.after (Server.step id) (Server.start id ["example.test"] (some "secret")) actions) := by
  intro h
  have hsafe := h [.login "secret", .attempt, .enter "4f1d", .request unreadableOrigin, .check 0]
  have hlog : (Run.after (Server.step id) (Server.start id ["example.test"] (some "secret"))
      [.login "secret", .attempt, .enter "4f1d", .request unreadableOrigin, .check 0]).log =
      [.compared 0, .issued "4f1d" "secret" 0, .passed (.request unreadableOrigin) "4f1d" 0] ++
        .started unreadableOrigin :: [] := by decide +kernel
  obtain ⟨-, horigin, -⟩ := hsafe.each _ _ _ hlog (by decide +kernel)
  have hreadable := horigin.readable [255] (by decide +kernel)
  exact absurd hreadable (by decide +kernel)

end Http
