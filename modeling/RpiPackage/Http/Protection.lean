import RpiPackage.Http.Security
import RpiPackage.Lib.Run
import RpiPackage.Lib.Trace

/-!
# What the password protects

A handler behind the password starts right after a check that found a session, and a session is
found only while a login with the password stands behind it. The logins themselves are paced.
-/

namespace Http

variable {D : Type}

/-- A login with the password issued the session, it was not revoked since, and it expires then. -/
def IssuedUntil (digest : String → D) (secret : D) (log : List Event) (token : String)
    (expiry : Nat) : Prop :=
  ∃ before password issue after, log = before ++ .issued token password issue :: after ∧
    digest password = secret ∧ expiry = issue + sessionSeconds * second ∧ .revoked token ∉ after

/-- At this reading of the clock less than twelve hours have gone by since a login with the
password issued the session, and it was not revoked since. -/
def Live (digest : String → D) (secret : D) (log : List Event) (token : String) (now : Nat) :
    Prop :=
  ∃ expiry, IssuedUntil digest secret log token expiry ∧ now < expiry

/-- The request has no `Origin`, or one of an allowed host. -/
def OriginFine (hosts : List String) (headers : HeaderMap) : Prop :=
  ∀ value, headers.lookup "origin" = some value → ∃ origin authority,
    toStr value = some origin ∧ authorityOf origin = some authority ∧
      trimEndSlashes authority ∈ hosts

/-- The value of `Origin`, if there is one, is visible ASCII. -/
def OriginReadable (headers : HeaderMap) : Prop :=
  ∀ value, headers.lookup "origin" = some value → (toStr value).isSome = true

/-- What must have gone before a handler starts or a stream yields an event. -/
def Protected (digest : String → D) (secret : D) (hosts : List String) (before : List Event) :
    Event → Prop
  | .started r => r.needsSession = true →
    hostAllowed hosts r.headers = true ∧ OriginFine hosts r.headers ∧
      requestMarkerPresent r.headers r.method = true ∧
      ∃ earlier token now, before = earlier ++ [.passed (.request r) token now] ∧
        cookie r.headers = some token ∧ Live digest secret earlier token now
  | .yielded i n => .refused (.stream i) ∉ before ∧
    ∃ headers left right token now,
      before = left ++ .available i n :: right ++ [.passed (.stream i) token now] ∧
      .opened i headers ∈ before ∧ cookie headers = some token ∧
      Live digest secret (left ++ .available i n :: right) token now
  | .opened i _ => ∀ headers, .opened i headers ∉ before
  | _ => True

/-- The readings of the clock at which passwords were compared. -/
def comparedAt (log : List Event) : List Nat :=
  log.filterMap fun event => match event with
    | .compared now => some now
    | _ => none

/-- No window of a minute holds more than ten comparisons. -/
def Paced (log : List Event) : Prop :=
  ∀ a, (comparedAt log).countP (fun t => a ≤ t ∧ t < a + 60 * second) ≤ 10

structure Safe (digest : String → D) (secret : D) (s : Server D) : Prop where
  each : Trace.Each (Protected digest secret s.hosts) s.log
  sessions : s.sessions.length ≤ 64
  paced : Paced s.log

/-- A check that finds a session is made for a request whose `Origin` can be read. -/
def Admits (s : Server D) : Action → Prop
  | .check i => ∀ w, s.requests[i]? = some w →
    (∃ expiry, (w.token, expiry) ∈ s.sessions ∧ w.now < expiry) → OriginReadable w.request.headers
  | _ => True

/-! ### Origins -/

section

variable {hosts : List String} {headers : HeaderMap}

lemma OriginFine.readable (h : OriginFine hosts headers) : OriginReadable headers := by
  intro value hvalue
  obtain ⟨origin, authority, horigin, -⟩ := h value hvalue
  rw [horigin]
  rfl

lemma originFine_of_allowed (h : originAllowed hosts headers = true)
    (hreadable : OriginReadable headers) : OriginFine hosts headers := by
  intro value hvalue
  obtain ⟨origin, horigin⟩ := Option.isSome_iff_exists.mp (hreadable value hvalue)
  have hlookup : (headers.lookup "origin").bind toStr = some origin := by
    rw [hvalue, Option.bind_some, horigin]
  unfold originAllowed at h
  rw [hlookup] at h
  dsimp only at h
  split at h
  · cases h
  · rename_i authority hauthority
    exact ⟨origin, authority, horigin, hauthority, by simpa using h⟩

end

/-! ### Sessions -/

section

variable {digest : String → D} {secret : D} {log : List Event} {token : String} {expiry now : Nat}

lemma IssuedUntil.concat (h : IssuedUntil digest secret log token expiry) {e : Event}
    (he : e ≠ .revoked token) : IssuedUntil digest secret (log ++ [e]) token expiry := by
  obtain ⟨before, password, issue, after, rfl, hpassword, hexpiry, hrevoked⟩ := h
  refine ⟨before, password, issue, after ++ [e], by simp, hpassword, hexpiry, ?_⟩
  rw [List.mem_append, List.mem_singleton]
  rintro (hmem | rfl)
  · exact hrevoked hmem
  · exact he rfl

lemma issuedUntil_concat {password : String} (h : digest password = secret) :
    IssuedUntil digest secret (log ++ [.issued token password now]) token
      (now + sessionSeconds * second) :=
  ⟨log, password, now, [], rfl, h, rfl, List.not_mem_nil⟩

lemma mem_of_mem_concat {e e' : Event} (h : e ∈ log ++ [e']) (hne : e ≠ e') : e ∈ log := by
  rcases List.mem_append.mp h with hmem | hmem
  · exact hmem
  · exact absurd (List.mem_singleton.mp hmem) hne

/-- A stream and what the log has of it. -/
structure Tracked (log : List Event) (i : Nat) (stream : Stream) : Prop where
  opened : .opened i stream.headers ∈ log
  available : ∀ n < stream.available, .available i n ∈ log
  taken : stream.taken ≤ stream.available
  checking : ∀ pending token now, stream.phase = .checking pending token now →
    cookie stream.headers = some token ∧ ∀ n, pending = some n → n < stream.available
  refused : .refused (.stream i) ∈ log → stream.phase = .ended

lemma Tracked.concat {i : Nat} {stream : Stream} (h : Tracked log i stream) {e : Event}
    (he : e ≠ .refused (.stream i)) : Tracked (log ++ [e]) i stream where
  opened := List.mem_append_left _ h.opened
  available := fun n hn => List.mem_append_left _ (h.available n hn)
  taken := h.taken
  checking := h.checking
  refused := fun hmem => h.refused (mem_of_mem_concat hmem he.symm)

end

/-- The sessions of the server, the tasks that wait in it and its log agree. -/
structure Sound (digest : String → D) (secret : D) (s : Server D) : Prop where
  password : s.password = some secret
  size : s.sessions.length ≤ 64
  live : ∀ p ∈ s.sessions, IssuedUntil digest secret s.log p.1 p.2
  holding : ∀ p, s.holding = some p → digest p.1 = secret
  waiting : ∀ w ∈ s.requests, w.request.needsSession = true ∧
    hostAllowed s.hosts w.request.headers = true ∧
    originAllowed s.hosts w.request.headers = true ∧
    requestMarkerPresent w.request.headers w.request.method = true ∧
    cookie w.request.headers = some w.token
  streams : ∀ i stream, s.streams[i]? = some stream → Tracked s.log i stream
  fresh : ∀ i headers, .opened i headers ∈ s.log → i < s.streams.length
  refused : ∀ i, .refused (.stream i) ∈ s.log → i < s.streams.length
  each : Trace.Each (Protected digest secret s.hosts) s.log

namespace Sound

variable {digest : String → D} {secret : D} {s s' : Server D} {e : Event} {i : Nat}
  {stream : Stream}

lemma start (hosts : List String) (password : String) :
    Sound digest (digest password) (Server.start digest hosts (some password)) where
  password := rfl
  size := Nat.zero_le _
  live := by
    intro p hp
    cases hp
  holding := by
    intro p hp
    cases hp
  waiting := by
    intro w hw
    cases hw
  streams := by
    intro i stream h
    cases h
  fresh := by
    intro i headers h
    cases h
  refused := by
    intro i h
    cases h
  each := Trace.each_nil

/-- A step that logs nothing, adds no session and no request and leaves the streams. -/
lemma quiet (h : Sound digest secret s) (hhosts : s'.hosts = s.hosts)
    (hpassword : s'.password = s.password) (hlog : s'.log = s.log)
    (hsessions : s'.sessions.Sublist s.sessions)
    (hholding : ∀ p, s'.holding = some p → digest p.1 = secret)
    (hrequests : ∀ w ∈ s'.requests, w ∈ s.requests) (hstreams : s'.streams = s.streams) :
    Sound digest secret s' where
  password := hpassword.trans h.password
  size := hsessions.length_le.trans h.size
  live := by
    intro p hp
    rw [hlog]
    exact h.live p (hsessions.mem hp)
  holding := hholding
  waiting := by
    intro w hw
    rw [hhosts]
    exact h.waiting w (hrequests w hw)
  streams := by
    rw [hlog, hstreams]
    exact h.streams
  fresh := by
    rw [hlog, hstreams]
    exact h.fresh
  refused := by
    rw [hlog, hstreams]
    exact h.refused
  each := by
    rw [hlog, hhosts]
    exact h.each

lemma prune (h : Sound digest secret s) (now : Nat) :
    Sound digest secret { s with sessions := s.unexpired now } :=
  h.quiet rfl rfl rfl List.filter_sublist h.holding (fun _ hw => hw) rfl

/-- An event that is neither a revocation nor the opening or the end of a stream. -/
lemma emit (h : Sound digest secret s) (hrevoked : ∀ token, e ≠ .revoked token)
    (hrefused : ∀ i, e ≠ .refused (.stream i)) (hopened : ∀ i headers, e ≠ .opened i headers)
    (he : Protected digest secret s.hosts s.log e) : Sound digest secret (s.emit e) where
  password := h.password
  size := h.size
  live := fun p hp => (h.live p hp).concat (hrevoked p.1)
  holding := h.holding
  waiting := h.waiting
  streams := fun i stream hi => (h.streams i stream hi).concat (hrefused i)
  fresh := fun i headers hmem =>
    h.fresh i headers (mem_of_mem_concat hmem (hopened i headers).symm)
  refused := fun i hmem => h.refused i (mem_of_mem_concat hmem (hrefused i).symm)
  each := Trace.each_concat.mpr ⟨h.each, he⟩

lemma setStream (h : Sound digest secret s) (hstream : Tracked s.log i stream) :
    Sound digest secret (s.setStream i stream) where
  password := h.password
  size := h.size
  live := h.live
  holding := h.holding
  waiting := h.waiting
  streams := by
    intro j stream' hj
    show Tracked s.log j stream'
    rw [Server.setStream, List.getElem?_set] at hj
    split at hj
    · rename_i hij
      subst hij
      split at hj
      · obtain rfl := Option.some.inj hj
        exact hstream
      · cases hj
    · exact h.streams j stream' hj
  fresh := by
    intro j headers hmem
    rw [Server.setStream, List.length_set]
    exact h.fresh j headers hmem
  refused := by
    intro j hmem
    rw [Server.setStream, List.length_set]
    exact h.refused j hmem
  each := h.each

/-- A stream whose check fails ends. -/
lemma refuse (h : Sound digest secret s) (hi : s.streams[i]? = some stream) :
    Sound digest secret
      ((s.setStream i { stream with phase := .ended }).emit (.refused (.stream i))) where
  password := h.password
  size := h.size
  live := fun p hp => (h.live p hp).concat Event.noConfusion
  holding := h.holding
  waiting := h.waiting
  streams := by
    intro j stream' hj
    show Tracked (s.log ++ [.refused (.stream i)]) j stream'
    rw [Server.emit, Server.setStream, List.getElem?_set] at hj
    split at hj
    · rename_i hij
      subst hij
      split at hj
      · obtain rfl := Option.some.inj hj
        have htracked := h.streams i stream hi
        exact ⟨List.mem_append_left _ htracked.opened,
          fun n hn => List.mem_append_left _ (htracked.available n hn), htracked.taken,
          fun _ _ _ hphase => Phase.noConfusion hphase, fun _ => rfl⟩
      · cases hj
    · rename_i hij
      apply (h.streams j stream' hj).concat
      intro heq
      cases heq
      exact hij rfl
  fresh := by
    intro j headers hmem
    show j < (s.streams.set i _).length
    rw [List.length_set]
    exact h.fresh j headers (mem_of_mem_concat hmem Event.noConfusion)
  refused := by
    intro j hmem
    show j < (s.streams.set i _).length
    rw [List.length_set]
    rcases List.mem_append.mp hmem with hmem | hmem
    · exact h.refused j hmem
    · cases List.mem_singleton.mp hmem
      exact (List.getElem?_eq_some_iff.mp hi).1
  each := Trace.each_concat.mpr ⟨h.each, trivial⟩

/-! #### The steps -/

lemma login (h : Sound digest secret s) (password : String) :
    Sound digest secret (s.login password) := by
  unfold Server.login
  split
  · exact h.quiet rfl rfl rfl (.refl _) h.holding (fun _ hw => hw) rfl
  · exact h

lemma attempt [DecidableEq D] (h : Sound digest secret s) :
    Sound digest secret (s.attempt digest) := by
  unfold Server.attempt
  split
  · rename_i password now queue hholding hqueue
    dsimp only
    split
    · exact h.quiet rfl rfl rfl (.refl _) h.holding (fun _ hw => hw) rfl
    · have hemit := h.emit (e := .compared now) (fun _ => Event.noConfusion)
        (fun _ => Event.noConfusion) (fun _ _ => Event.noConfusion) trivial
      split
      · rename_i hpassword
        refine hemit.quiet rfl rfl rfl (.refl _) ?_ (fun _ hw => hw) rfl
        intro p hp
        obtain rfl := Option.some.inj hp
        exact Option.some.inj (hpassword.symm.trans h.password)
      · exact hemit.quiet rfl rfl rfl (.refl _) h.holding (fun _ hw => hw) rfl
  · exact h

lemma enter (h : Sound digest secret s) (token : String) :
    Sound digest secret (s.enter token) := by
  unfold Server.enter
  split
  · exact h
  · rename_i password now hholding
    have hnone : ∀ p, (none : Option (String × Nat)) = some p → digest p.1 = secret :=
      fun p hp => nomatch hp
    have hprune := h.prune now
    dsimp only
    split
    · exact h.quiet rfl rfl rfl List.filter_sublist hnone (fun _ hw => hw) rfl
    · rename_i hsize
      have hemit := hprune.emit (e := .issued token password now) (fun _ => Event.noConfusion)
        (fun _ => Event.noConfusion) (fun _ _ => Event.noConfusion) trivial
      refine ⟨h.password, ?_, ?_, hnone, hemit.waiting, hemit.streams, hemit.fresh, hemit.refused,
        hemit.each⟩
      · have hle := (List.filter_sublist (p := fun p => p.1 != token)
          (l := s.unexpired now)).length_le
        show (Assoc.erase (s.unexpired now) token).length + 1 ≤ 64
        unfold Assoc.erase
        omega
      · intro p hp
        rcases List.mem_cons.mp hp with rfl | hp
        · exact issuedUntil_concat (h.holding _ hholding)
        · exact hemit.live p (List.mem_filter.mp hp).1

lemma logout (h : Sound digest secret s) (headers : HeaderMap) :
    Sound digest secret (s.logout headers) := by
  unfold Server.logout
  split
  · exact h
  · rename_i token htoken
    have herase : Sound digest secret { s with sessions := Assoc.erase s.sessions token } :=
      h.quiet rfl rfl rfl List.filter_sublist h.holding (fun _ hw => hw) rfl
    refine ⟨h.password, herase.size, ?_, h.holding, h.waiting, ?_, ?_, ?_,
      Trace.each_concat.mpr ⟨h.each, trivial⟩⟩
    · intro p hp
      apply (herase.live p hp).concat
      intro heq
      have hne := (List.mem_filter.mp hp).2
      cases heq
      simp at hne
    · exact fun i stream hi => (h.streams i stream hi).concat Event.noConfusion
    · exact fun i headers hmem => h.fresh i headers (mem_of_mem_concat hmem Event.noConfusion)
    · exact fun i hmem => h.refused i (mem_of_mem_concat hmem Event.noConfusion)

lemma subscribe (h : Sound digest secret s) (headers : HeaderMap) :
    Sound digest secret (s.subscribe headers) := by
  have hnew : .refused (.stream s.streams.length) ∉ s.log :=
    fun hmem => absurd (h.refused _ hmem) (Nat.lt_irrefl _)
  refine ⟨h.password, h.size, fun p hp => (h.live p hp).concat Event.noConfusion, h.holding,
    h.waiting, ?_, ?_, ?_, Trace.each_concat.mpr ⟨h.each, ?_⟩⟩
  · intro i stream hi
    rw [Server.subscribe, List.getElem?_append] at hi
    split at hi
    · exact (h.streams i stream hi).concat Event.noConfusion
    · rename_i hlen
      obtain ⟨hlt, rfl⟩ := List.getElem?_eq_some_iff.mp hi
      have hi : i = s.streams.length := by
        rw [List.length_singleton] at hlt
        omega
      subst hi
      exact ⟨by simp [Server.subscribe], by simp, by simp, by simp,
        fun hmem => absurd (mem_of_mem_concat hmem Event.noConfusion) hnew⟩
  · intro i headers' hmem
    show i < (s.streams ++ [_]).length
    rw [List.length_append, List.length_singleton]
    rcases List.mem_append.mp hmem with hmem | hmem
    · exact (h.fresh i headers' hmem).trans (Nat.lt_succ_self _)
    · cases List.mem_singleton.mp hmem
      exact Nat.lt_succ_self _
  · intro i hmem
    show i < (s.streams ++ [_]).length
    rw [List.length_append, List.length_singleton]
    exact (h.refused i (mem_of_mem_concat hmem Event.noConfusion)).trans (Nat.lt_succ_self _)
  · intro headers' hmem
    exact absurd (h.fresh _ headers' hmem) (Nat.lt_irrefl _)

lemma arrive (h : Sound digest secret s) (i : Nat) : Sound digest secret (s.arrive i) := by
  unfold Server.arrive
  split
  · exact h
  · rename_i stream hi
    have hemit := h.emit (e := .available i stream.available) (fun _ => Event.noConfusion)
      (fun _ => Event.noConfusion) (fun _ _ => Event.noConfusion) trivial
    have htracked := hemit.streams i stream hi
    refine hemit.setStream ⟨htracked.opened, ?_, ?_, ?_, htracked.refused⟩
    · intro n hn
      rcases Nat.lt_succ_iff_lt_or_eq.mp hn with hlt | rfl
      · exact htracked.available n hlt
      · exact List.mem_append_right _ List.mem_cons_self
    · exact htracked.taken.trans (Nat.le_succ _)
    · intro pending token now hphase
      obtain ⟨hcookie, hpending⟩ := htracked.checking pending token now hphase
      exact ⟨hcookie, fun n hn => (hpending n hn).trans (Nat.lt_succ_self _)⟩

lemma close (h : Sound digest secret s) (i : Nat) : Sound digest secret (s.close i) := by
  unfold Server.close
  split
  · exact h
  · rename_i stream hi
    have htracked := h.streams i stream hi
    exact h.setStream ⟨htracked.opened, htracked.available, htracked.taken,
      fun _ _ _ hphase => Phase.noConfusion hphase, fun _ => rfl⟩

/-- A stream that is still open reads the clock and waits for the sessions, or is refused. -/
lemma inspect (h : Sound digest secret s) {old : Stream} (hi : s.streams[i]? = some old)
    (hstream : Tracked s.log i stream) {pending : Option Nat} (hidle : stream.phase = .idle)
    (hpending : ∀ n, pending = some n → n < stream.available) :
    Sound digest secret (s.inspect i stream pending) := by
  have henabled : s.enabled = true := by rw [Server.enabled, h.password, Option.isSome_some]
  unfold Server.inspect
  rw [if_pos henabled]
  split
  · have hset := h.setStream hstream
    have hget : (s.setStream i stream).streams[i]? = some stream :=
      List.getElem?_set_self (List.getElem?_eq_some_iff.mp hi).1
    have hrefuse := hset.refuse hget
    rwa [Server.setStream, Server.setStream, List.set_set] at hrefuse
  · rename_i token hcookie
    refine h.setStream ⟨hstream.opened, hstream.available, hstream.taken, ?_, ?_⟩
    · intro pending' token' now hphase
      cases hphase
      exact ⟨hcookie, hpending⟩
    · intro hmem
      have := hstream.refused hmem
      rw [hidle] at this
      cases this

lemma take (h : Sound digest secret s) (i : Nat) : Sound digest secret (s.take i) := by
  unfold Server.take
  split
  · rename_i headers available taken hi
    have htracked := h.streams i _ hi
    split
    · rename_i hlt
      have hnext : Tracked s.log i ⟨headers, available, taken + 1, .idle⟩ :=
        ⟨htracked.opened, htracked.available, hlt, fun _ _ _ hphase => Phase.noConfusion hphase,
          htracked.refused⟩
      exact h.inspect hi hnext rfl fun n hn => Option.some.inj hn ▸ hlt
    · exact h
  · exact h

lemma expire (h : Sound digest secret s) (i : Nat) : Sound digest secret (s.expire i) := by
  unfold Server.expire
  split
  · rename_i headers available taken hi
    exact h.inspect hi (h.streams i _ hi) rfl (fun n hn => nomatch hn)
  · exact h

/-- A session that a check finds is live. -/
lemma live_of_authorized (h : Sound digest secret s) {token : String} {now : Nat}
    (hauth : s.authorized token now = true) :
    Live digest secret s.log token now ∧
      ∃ expiry, (token, expiry) ∈ s.sessions ∧ now < expiry := by
  obtain ⟨expiry, hexpiry⟩ := Option.isSome_iff_exists.mp hauth
  obtain ⟨hmem, hlt⟩ := List.mem_filter.mp (Assoc.mem_of_lookup hexpiry)
  have hlt : now < expiry := by simpa using hlt
  exact ⟨⟨expiry, h.live _ hmem, hlt⟩, expiry, hmem, hlt⟩

lemma settle (h : Sound digest secret s) (i : Nat) : Sound digest secret (s.settle i) := by
  unfold Server.settle
  split
  · rename_i headers available taken pending token now hi
    have hprune := h.prune now
    have htracked := h.streams i _ hi
    obtain ⟨hcookie, hpending⟩ := htracked.checking pending token now rfl
    have hopen : .refused (.stream i) ∉ s.log := fun hmem => nomatch htracked.refused hmem
    dsimp only
    split
    · rename_i hauth
      have hidle : Tracked s.log i ⟨headers, available, taken, .idle⟩ :=
        ⟨htracked.opened, htracked.available, htracked.taken,
          fun _ _ _ hphase => Phase.noConfusion hphase, fun hmem => absurd hmem hopen⟩
      have hset := hprune.setStream hidle
      have hpassed := hset.emit (e := .passed (.stream i) token now) (fun _ => Event.noConfusion)
        (fun _ => Event.noConfusion) (fun _ _ => Event.noConfusion) trivial
      split
      · exact hpassed
      · rename_i n
        apply hpassed.emit (fun _ => Event.noConfusion) (fun _ => Event.noConfusion)
          (fun _ _ => Event.noConfusion)
        obtain ⟨left, right, hlog⟩ := List.append_of_mem (htracked.available n (hpending n rfl))
        refine ⟨fun hmem => hopen (mem_of_mem_concat hmem Event.noConfusion), headers, left, right,
          token, now, ?_, List.mem_append_left _ htracked.opened, hcookie, ?_⟩
        · show s.log ++ _ = _
          rw [hlog]
        · rw [← hlog]
          exact (h.live_of_authorized hauth).1
    · exact hprune.refuse hi
  · exact h

lemma request (h : Sound digest secret s) (r : Request) : Sound digest secret (s.request r) := by
  unfold Server.request
  split
  · rename_i hallowed
    simp only [Bool.and_eq_true] at hallowed
    obtain ⟨⟨hhost, horigin⟩, hmarker⟩ := hallowed
    split
    · rename_i hneeds
      have hneeds := (Bool.and_eq_true_iff.mp hneeds).1
      split
      · exact h.emit (fun _ => Event.noConfusion) (fun i heq => by cases heq)
          (fun _ _ => Event.noConfusion) trivial
      · rename_i token hcookie
        refine ⟨h.password, h.size, h.live, h.holding, ?_, h.streams, h.fresh, h.refused, h.each⟩
        intro w hw
        rcases List.mem_append.mp hw with hw | hw
        · exact h.waiting w hw
        · obtain rfl := List.mem_singleton.mp hw
          exact ⟨hneeds, hhost, horigin, hmarker, hcookie⟩
    · rename_i hneeds
      apply h.emit (fun _ => Event.noConfusion) (fun _ => Event.noConfusion)
        (fun _ _ => Event.noConfusion)
      intro hsession
      rw [hsession, Server.enabled, h.password] at hneeds
      exact absurd rfl hneeds
  · exact h.emit (fun _ => Event.noConfusion) (fun i heq => by cases heq)
      (fun _ _ => Event.noConfusion) trivial

lemma check (h : Sound digest secret s) (hadmits : Admits s (.check i)) :
    Sound digest secret (s.check i) := by
  unfold Server.check
  split
  · exact h
  · rename_i w hi
    obtain ⟨hneeds, hhost, horigin, hmarker, hcookie⟩ := h.waiting w (List.mem_of_getElem? hi)
    have hquiet : Sound digest secret
        { s with sessions := s.unexpired w.now, requests := s.requests.eraseIdx i } :=
      h.quiet rfl rfl rfl List.filter_sublist h.holding
        (fun _ hw => List.mem_of_mem_eraseIdx hw) rfl
    dsimp only
    split
    · rename_i hauth
      obtain ⟨hlive, hsession⟩ := h.live_of_authorized hauth
      have hpassed := hquiet.emit (e := .passed (.request w.request) w.token w.now)
        (fun _ => Event.noConfusion) (fun _ => Event.noConfusion) (fun _ _ => Event.noConfusion)
        trivial
      have hstarted := hpassed.emit (e := .started w.request) (fun _ => Event.noConfusion)
        (fun _ => Event.noConfusion) (fun _ _ => Event.noConfusion)
        (fun _ => ⟨hhost, originFine_of_allowed horigin (hadmits w hi hsession), hmarker, s.log,
          w.token, w.now, rfl, hcookie, hlive⟩)
      unfold Server.emit at hstarted
      simp only [List.append_assoc] at hstarted
      exact hstarted
    · exact hquiet.emit (fun _ => Event.noConfusion) (fun i heq => by cases heq)
        (fun _ _ => Event.noConfusion) trivial

/-- A step that the condition admits keeps the server sound. -/
lemma step [DecidableEq D] (h : Sound digest secret s) {action : Action}
    (hadmits : Admits s action) : Sound digest secret (s.step digest action) := by
  cases action with
  | tick nanoseconds => exact h.quiet rfl rfl rfl (.refl _) h.holding (fun _ hw => hw) rfl
  | login password => exact h.login password
  | attempt => exact h.attempt
  | enter token => exact h.enter token
  | leave i => exact h.quiet rfl rfl rfl (.refl _) h.holding (fun _ hw => hw) rfl
  | leaveHolding =>
    exact h.quiet rfl rfl rfl (.refl _) (fun p hp => nomatch hp) (fun _ hw => hw) rfl
  | logout headers => exact h.logout headers
  | request r => exact h.request r
  | check i => exact h.check hadmits
  | abandon i =>
    exact h.quiet rfl rfl rfl (.refl _) h.holding (fun _ hw => List.mem_of_mem_eraseIdx hw) rfl
  | subscribe headers => exact h.subscribe headers
  | arrive i => exact h.arrive i
  | take i => exact h.take i
  | expire i => exact h.expire i
  | settle i => exact h.settle i
  | close i => exact h.close i

end Sound

end Http
