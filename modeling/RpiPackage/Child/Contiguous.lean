import RpiPackage.Child.Live
import RpiPackage.Host.Publish
import RpiPackage.Lib.Run

/-!
# The live stream of a child

A subscription receives the buffered events of the host and is asked for its next item. A call
waits several times and can be dropped while it waits; what it has received stays pending. The
events above the last number of the snapshot are examined one by one without a gap, and whatever is
uncertain ends the stream with one request for a new snapshot.
-/

namespace Child

open Json Host Numbered Service

inductive Received where
  | event (event : BufferedEvent)
  | lagged
  | closed

inductive LiveItem where
  | update (seq : Nat) (event : ChildEvent) (observation : Option ChildObservation)
      (disposition : ReplayDisposition)
  | resyncRequired (seq : Nat) (reason : ChildResyncReason)

/-- What a call of `next` waits for. -/
inductive Waiting where
  | idle
  /-- The check of the binding before an event is received, and the one after it. -/
  | binding
  | rebinding
  | receiving
  | proving (event : ChildEvent)

inductive StreamInput where
  | call
  | bound (held : Bool)
  | received (received : Received)
  /-- The branch proof; a timeout is the reason `branchUnavailable`. -/
  | proved (proof : Except ChildResyncReason Unit)
  /-- The caller drops the call. -/
  | cancel

def StreamInput.isCall : StreamInput → Bool
  | .call => true
  | _ => false

structure LiveSubscription where
  /-- The last number of the snapshot. -/
  lastSeq : Nat
  subscription : ChildSubscription
  receiver : Bool
  pending : Option BufferedEvent
  initialResync : Option ChildResyncReason
  cursor : Nat
  waiting : Waiting
  -- What the calls have returned, and the events that have been received and examined.
  results : List (Option LiveItem)
  received : List BufferedEvent
  examined : List BufferedEvent

def checkedSucc (n : Nat) : Option Nat := if n < 2 ^ 64 - 1 then some (n + 1) else none

namespace LiveSubscription

def start (lastSeq : Nat) (subscription : ChildSubscription)
    (initialResync : Option ChildResyncReason) : LiveSubscription where
  lastSeq
  subscription
  receiver := true
  pending := none
  initialResync
  cursor := lastSeq
  waiting := .idle
  results := []
  received := []
  examined := []

/-- The call returns. -/
def give (s : LiveSubscription) (item : Option LiveItem) : LiveSubscription :=
  { s with waiting := .idle, results := s.results ++ [item] }

def stop (s : LiveSubscription) (reason : ChildResyncReason) : LiveSubscription :=
  { s with receiver := false, pending := none }.give (some (.resyncRequired s.cursor reason))

/-- The cursor moves on to the pending event. -/
def take (s : LiveSubscription) (e : BufferedEvent) : LiveSubscription :=
  { s with cursor := e.seq, pending := none, examined := s.examined ++ [e] }

def call (s : LiveSubscription) : LiveSubscription :=
  if s.receiver then
    match s.initialResync with
    | some reason => { s with initialResync := none }.stop reason
    | none => { s with waiting := .binding }
  else s.give none

def receive (s : LiveSubscription) : Received → LiveSubscription
  | .event e =>
    { s with pending := some e, waiting := .rebinding, received := s.received ++ [e] }
  | .lagged => s.stop .lagged
  | .closed => s.stop .receiverClosed

/-- The pending event is proved to be on the branch. -/
def prove (s : LiveSubscription) (event : ChildEvent) (e : BufferedEvent) : LiveSubscription :=
  let s := s.take e
  match s.subscription.apply event with
  | .ok ((disposition, observation), subscription) =>
    { s with subscription }.give (some (.update s.cursor event observation disposition))
  | .error reason => s.stop reason

-- The decoder of the events of the session, `events::parse`.
variable (parse : Value → Except ServiceError (Option ChildEvent))

/-- What becomes of the pending event. -/
def inspect (s : LiveSubscription) (e : BufferedEvent) : LiveSubscription :=
  if e.seq ≤ s.lastSeq then { s with pending := none, waiting := .binding }
  else if checkedSucc s.cursor ≠ some e.seq then s.stop .coreSequenceGap
  else
    match (e.value.index "type").asStr with
    | some "host_closed" => s.stop .hostClosed
    | some "host_error" => s.stop .hostError
    | type =>
      match parse e.value with
      | .ok (some event) =>
        match s.subscription.preflight event with
        | .error reason => s.stop reason
        | .ok () => { s with waiting := .proving event }
      | .ok none =>
        if type.any (Rust.startsWith · "tool_program_child_") then s.stop .invalidChildEvent
        else { s.take e with waiting := .binding }
      | .error _ => s.stop .invalidChildEvent

def step (s : LiveSubscription) (input : StreamInput) : LiveSubscription :=
  match input, s.waiting with
  | .call, .idle => s.call
  | .bound held, .binding =>
    if held then { s with waiting := if s.pending.isSome then .rebinding else .receiving }
    else s.stop .hostReplaced
  | .bound held, .rebinding =>
    match s.pending with
    | some e => if held then s.inspect parse e else s.stop .hostReplaced
    | none => s
  | .received r, .receiving => s.receive r
  | .proved proof, .proving event =>
    match proof, s.pending with
    | .error reason, _ => s.stop reason
    | .ok (), some e => s.prove event e
    | .ok (), none => s
  | .cancel, _ => { s with waiting := .idle }
  | _, _ => s

/-! ### What a stream keeps -/

def IsUpdate (item : Option LiveItem) : Prop :=
  ∃ seq event observation disposition, item = some (.update seq event observation disposition)

/-- The number of an update. -/
def updateSeq : Option LiveItem → Option Nat
  | some (.update seq _ _ _) => some seq
  | _ => none

def updates (s : LiveSubscription) : List Nat := s.results.filterMap updateSeq

/-- The received events with a number above the snapshot. -/
def above (s : LiveSubscription) : List BufferedEvent :=
  s.received.filter fun e => decide (s.lastSeq < e.seq)

/-- The results of a stream that goes on, and those of one that has ended. -/
def Given (results : List (Option LiveItem)) : Bool → Prop
  | true => ∀ item ∈ results, IsUpdate item
  | false => ∃ before seq reason n, (∀ item ∈ before, IsUpdate item) ∧
      results = before ++ some (.resyncRequired seq reason) :: List.replicate n none

/-- What is pending while a call waits. -/
def Waits (s : LiveSubscription) : Prop :=
  match s.waiting with
  | .idle | .binding => True
  | .rebinding => s.pending ≠ none
  | .receiving => s.pending = none
  | .proving _ => ∃ e, s.pending = some e ∧ e.seq = s.cursor + 1

structure Contiguous (lastSeq : Nat) (s : LiveSubscription) : Prop where
  snapshot : s.lastSeq = lastSeq
  numbered : Consecutive BufferedEvent.seq (s.lastSeq + 1) s.examined
  cursor : s.cursor = s.lastSeq + s.examined.length
  updates : s.updates.Sublist (s.examined.map BufferedEvent.seq)
  kept : ∃ rest, s.above = s.examined ++ rest ∧ rest.length ≤ 1 ∧
    (s.receiver = true →
      rest = (s.pending.filter fun e => decide (s.lastSeq < e.seq)).toList)
  given : Given s.results s.receiver
  waits : s.Waits
  rests : s.receiver = false → s.waiting = .idle

section

variable {lastSeq : Nat} {s : LiveSubscription} {e : BufferedEvent}
  {parse : Value → Except ServiceError (Option ChildEvent)}

@[simp] lemma updates_stop (s : LiveSubscription) (reason : ChildResyncReason) :
    (s.stop reason).updates = s.updates := by
  show List.filterMap updateSeq (s.results ++ [_]) = _
  rw [List.filterMap_append]
  exact List.append_nil _

@[simp] lemma updates_give_none (s : LiveSubscription) : (s.give none).updates = s.updates := by
  show List.filterMap updateSeq (s.results ++ [none]) = _
  rw [List.filterMap_append]
  exact List.append_nil _

lemma above_receive (s : LiveSubscription) (e : BufferedEvent) :
    (s.receive (.event e)).above =
      s.above ++ (Option.filter (fun e => decide (s.lastSeq < e.seq)) (some e)).toList := by
  show (s.received ++ [e]).filter _ = _
  rw [List.filter_append]
  congr 1
  by_cases hlt : s.lastSeq < e.seq <;> simp [receive, Option.filter, hlt]

lemma given_stop {results : List (Option LiveItem)} (h : Given results true) (seq : Nat)
    (reason : ChildResyncReason) :
    Given (results ++ [some (.resyncRequired seq reason)]) false :=
  ⟨results, seq, reason, 0, h, rfl⟩

lemma Given.none {results : List (Option LiveItem)} (h : Given results false) :
    Given (results ++ [none]) false := by
  obtain ⟨before, seq, reason, n, hbefore, rfl⟩ := h
  refine ⟨before, seq, reason, n + 1, hbefore, ?_⟩
  rw [List.replicate_succ', List.append_assoc, List.cons_append]

lemma contiguous_start (lastSeq : Nat) (subscription : ChildSubscription)
    (initialResync : Option ChildResyncReason) :
    Contiguous lastSeq (start lastSeq subscription initialResync) where
  snapshot := rfl
  numbered := consecutive_nil _ _
  cursor := rfl
  updates := List.Sublist.slnil
  kept := ⟨[], rfl, Nat.zero_le _, fun _ => rfl⟩
  given := by
    intro item hitem
    cases hitem
  waits := trivial
  rests := fun h => by cases h

lemma Contiguous.stop (h : Contiguous lastSeq s) (hopen : s.receiver = true)
    (reason : ChildResyncReason) : Contiguous lastSeq (s.stop reason) where
  snapshot := h.snapshot
  numbered := h.numbered
  cursor := h.cursor
  updates := by
    rw [updates_stop]
    exact h.updates
  kept := by
    obtain ⟨rest, habove, hlen, -⟩ := h.kept
    exact ⟨rest, habove, hlen, fun hreceiver => by cases hreceiver⟩
  given := by
    have hgiven := h.given
    rw [hopen] at hgiven
    exact given_stop hgiven _ _
  waits := trivial
  rests := fun _ => rfl

/-- The call that has nothing to return any more. -/
lemma Contiguous.give_none (h : Contiguous lastSeq s) (hclosed : s.receiver = false) :
    Contiguous lastSeq (s.give none) where
  snapshot := h.snapshot
  numbered := h.numbered
  cursor := h.cursor
  updates := by
    rw [updates_give_none]
    exact h.updates
  kept := h.kept
  given := by
    have hgiven := h.given
    show Given (s.results ++ [none]) s.receiver
    rw [hclosed] at hgiven ⊢
    exact hgiven.none
  waits := trivial
  rests := fun _ => rfl

/-- A call waits for something else. -/
lemma Contiguous.wait (h : Contiguous lastSeq s) (hopen : s.receiver = true) {w : Waiting}
    (hw : ({ s with waiting := w } : LiveSubscription).Waits) :
    Contiguous lastSeq { s with waiting := w } where
  snapshot := h.snapshot
  numbered := h.numbered
  cursor := h.cursor
  updates := h.updates
  kept := h.kept
  given := h.given
  waits := hw
  rests := fun hclosed => by
    rw [show s.receiver = false from hclosed] at hopen
    cases hopen

lemma waits_bound (s : LiveSubscription) :
    ({ s with waiting := if s.pending.isSome then .rebinding else .receiving } :
      LiveSubscription).Waits := by
  cases hpending : s.pending with
  | none => exact rfl
  | some e => exact Option.some_ne_none e

lemma Contiguous.cancel (h : Contiguous lastSeq s) :
    Contiguous lastSeq { s with waiting := .idle } where
  snapshot := h.snapshot
  numbered := h.numbered
  cursor := h.cursor
  updates := h.updates
  kept := h.kept
  given := h.given
  waits := trivial
  rests := fun _ => rfl

lemma Contiguous.receive (h : Contiguous lastSeq s) (hopen : s.receiver = true)
    (hpending : s.pending = none) (r : Received) : Contiguous lastSeq (s.receive r) := by
  cases r with
  | event e =>
    refine ⟨h.snapshot, h.numbered, h.cursor, h.updates, ?_, h.given, Option.some_ne_none _, ?_⟩
    · obtain ⟨rest, habove, -, hrest⟩ := h.kept
      rw [hrest hopen, hpending, Option.filter_none, Option.toList_none, List.append_nil] at habove
      refine ⟨(Option.filter (fun e => decide (s.lastSeq < e.seq)) (some e)).toList, ?_,
        Option.length_toList_le, fun _ => rfl⟩
      rw [above_receive, habove]
      rfl
    · intro hclosed
      rw [show s.receiver = false from hclosed] at hopen
      cases hopen
  | lagged => exact h.stop hopen _
  | closed => exact h.stop hopen _

/-- An event that the snapshot already covers is left out. -/
lemma Contiguous.skip (h : Contiguous lastSeq s) (hopen : s.receiver = true)
    (hpending : s.pending = some e) (hle : e.seq ≤ s.lastSeq) :
    Contiguous lastSeq { s with pending := none, waiting := .binding } where
  snapshot := h.snapshot
  numbered := h.numbered
  cursor := h.cursor
  updates := h.updates
  kept := by
    obtain ⟨rest, habove, hlen, hrest⟩ := h.kept
    refine ⟨rest, habove, hlen, fun _ => ?_⟩
    rw [hrest hopen, hpending]
    simp [hle]
  given := h.given
  waits := trivial
  rests := fun hclosed => by
    rw [show s.receiver = false from hclosed] at hopen
    cases hopen

/-- The cursor moves on by one. -/
lemma Contiguous.take (h : Contiguous lastSeq s) (hopen : s.receiver = true)
    (hpending : s.pending = some e) (hnext : e.seq = s.cursor + 1) :
    Contiguous lastSeq { s.take e with waiting := .binding } where
  snapshot := h.snapshot
  numbered := h.numbered.append_singleton (by rw [hnext, h.cursor]; omega)
  cursor := by
    show e.seq = s.lastSeq + (s.examined ++ [e]).length
    rw [hnext, h.cursor, List.length_append, List.length_singleton]
    omega
  updates := by
    show s.updates.Sublist ((s.examined ++ [e]).map BufferedEvent.seq)
    rw [List.map_append]
    exact h.updates.trans (List.sublist_append_left _ _)
  kept := by
    obtain ⟨rest, habove, -, hrest⟩ := h.kept
    have hlt : s.lastSeq < e.seq := by
      rw [hnext, h.cursor]
      omega
    rw [hrest hopen, hpending] at habove
    refine ⟨[], ?_, Nat.zero_le _, fun _ => rfl⟩
    show s.above = s.examined ++ [e] ++ []
    rw [habove]
    simp [hlt]
  given := h.given
  waits := trivial
  rests := fun hclosed => by
    rw [show s.receiver = false from hclosed] at hopen
    cases hopen

/-- The update of a proved event is the next one. -/
lemma Contiguous.update (h : Contiguous lastSeq s) (hopen : s.receiver = true)
    (hpending : s.pending = some e) (hnext : e.seq = s.cursor + 1)
    (subscription : ChildSubscription) (event : ChildEvent)
    (observation : Option ChildObservation) (disposition : ReplayDisposition) :
    Contiguous lastSeq ({ s.take e with subscription }.give
      (some (.update e.seq event observation disposition))) where
  snapshot := h.snapshot
  numbered := (h.take hopen hpending hnext).numbered
  cursor := (h.take hopen hpending hnext).cursor
  updates := by
    show (List.filterMap updateSeq (s.results ++ [_])).Sublist
      ((s.examined ++ [e]).map BufferedEvent.seq)
    rw [List.filterMap_append, List.map_append]
    exact h.updates.append (List.Sublist.refl _)
  kept := (h.take hopen hpending hnext).kept
  given := by
    have hgiven := h.given
    show Given (s.results ++ [_]) s.receiver
    rw [hopen] at hgiven ⊢
    intro item hitem
    rcases List.mem_append.mp hitem with hold | hnew
    · exact hgiven item hold
    · rw [List.mem_singleton.mp hnew]
      exact ⟨_, _, _, _, rfl⟩
  waits := trivial
  rests := fun _ => rfl

lemma Contiguous.prove (h : Contiguous lastSeq s) (hopen : s.receiver = true)
    (hpending : s.pending = some e) (hnext : e.seq = s.cursor + 1) (event : ChildEvent) :
    Contiguous lastSeq (s.prove event e) := by
  show Contiguous lastSeq (match s.subscription.apply event with
    | .ok ((disposition, observation), subscription) =>
      { s.take e with subscription }.give (some (.update e.seq event observation disposition))
    | .error reason => (s.take e).stop reason)
  cases s.subscription.apply event with
  | ok applied => exact h.update hopen hpending hnext _ _ _ _
  | error reason =>
    have htaken := h.take hopen hpending hnext
    exact htaken.stop hopen reason

lemma eq_succ_of_checkedSucc {n m : Nat} (h : checkedSucc n = some m) : m = n + 1 := by
  unfold checkedSucc at h
  split at h
  · exact (Option.some.inj h).symm
  · cases h

lemma Contiguous.inspect (h : Contiguous lastSeq s) (hopen : s.receiver = true)
    (hpending : s.pending = some e) : Contiguous lastSeq (s.inspect parse e) := by
  unfold LiveSubscription.inspect
  split
  next hle => exact h.skip hopen hpending hle
  next =>
    split
    next => exact h.stop hopen _
    next hgap =>
      have hnext : e.seq = s.cursor + 1 := eq_succ_of_checkedSucc (not_not.mp hgap)
      split
      · exact h.stop hopen _
      · exact h.stop hopen _
      · split
        · split
          · exact h.stop hopen _
          · exact h.wait hopen ⟨e, hpending, hnext⟩
        · split
          · exact h.stop hopen _
          · exact h.take hopen hpending hnext
        · exact h.stop hopen _

/-- A waiting call has not ended the stream. -/
lemma Contiguous.receiver (h : Contiguous lastSeq s) (hw : s.waiting ≠ .idle) :
    s.receiver = true := by
  cases hreceiver : s.receiver with
  | true => rfl
  | false => exact absurd (h.rests hreceiver) hw

lemma Contiguous.call (h : Contiguous lastSeq s) : Contiguous lastSeq s.call := by
  unfold LiveSubscription.call
  split
  next hopen =>
    split
    next => exact Contiguous.stop (s := { s with initialResync := none }) ⟨h.snapshot, h.numbered,
        h.cursor, h.updates, h.kept, h.given, h.waits, h.rests⟩ hopen _
    next => exact h.wait hopen trivial
  next hclosed => exact h.give_none (by simpa using hclosed)

/-- Every input keeps the stream contiguous. -/
lemma Contiguous.step (h : Contiguous lastSeq s) (input : StreamInput) :
    Contiguous lastSeq (s.step parse input) := by
  have hwaits := h.waits
  unfold Waits at hwaits
  unfold LiveSubscription.step
  split
  next => exact h.call
  next held hw =>
    have hopen := h.receiver (by rw [hw]; simp)
    split
    · exact h.wait hopen (waits_bound s)
    · exact h.stop hopen _
  next held hw =>
    have hopen := h.receiver (by rw [hw]; simp)
    split
    next e hpending =>
      split
      · exact h.inspect hopen hpending
      · exact h.stop hopen _
    next => exact h
  next r hw =>
    rw [hw] at hwaits
    exact h.receive (h.receiver (by rw [hw]; simp)) hwaits r
  next proof event hw =>
    have hopen := h.receiver (by rw [hw]; simp)
    rw [hw] at hwaits
    obtain ⟨e, hpending, hnext⟩ := hwaits
    split
    next => exact h.stop hopen _
    next e' hpending' =>
      obtain rfl := Option.some.inj (hpending.symm.trans hpending')
      exact h.prove hopen hpending hnext event
    next => exact h
  next => exact h.cancel
  next => exact h

end

/-! ### What ends a stream -/

section

variable (parse : Value → Except ServiceError (Option ChildEvent)) (s : LiveSubscription)

/-- The events above the snapshot that are not followed by another one. -/
inductive Refused (e : BufferedEvent) : Prop where
  /-- A number is missing or repeated. -/
  | gap : e.seq ≠ s.cursor + 1 → Refused e
  | ended : (e.value.index "type").asStr = some "host_closed" ∨
      (e.value.index "type").asStr = some "host_error" → Refused e
  | invalid (error : ServiceError) : parse e.value = .error error → Refused e
  | undecoded (type : String) : parse e.value = .ok none →
      (e.value.index "type").asStr = some type →
      Rust.startsWith type "tool_program_child_" = true → Refused e
  | preflight (event : ChildEvent) (reason : ChildResyncReason) :
      parse e.value = .ok (some event) → s.subscription.preflight event = .error reason →
      Refused e

/-- The inputs after which the branch is not certain any more. -/
inductive Breaks : StreamInput → Prop where
  | unbound : s.waiting = .binding ∨ s.waiting = .rebinding → Breaks (.bound false)
  | lagged : s.waiting = .receiving → Breaks (.received .lagged)
  | closed : s.waiting = .receiving → Breaks (.received .closed)
  | refused (e : BufferedEvent) : s.waiting = .rebinding → s.pending = some e →
      s.lastSeq < e.seq → Refused parse s e → Breaks (.bound true)
  | unproved (event : ChildEvent) (reason : ChildResyncReason) : s.waiting = .proving event →
      Breaks (.proved (.error reason))
  | unapplied (event : ChildEvent) (reason : ChildResyncReason) : s.waiting = .proving event →
      s.subscription.apply event = .error reason → Breaks (.proved (.ok ()))

end

/-- The stream ends with a request for a new snapshot. -/
def Ends (s s' : LiveSubscription) : Prop :=
  s'.receiver = false ∧
    ∃ seq reason, s'.results = s.results ++ [some (.resyncRequired seq reason)]

section

variable {lastSeq : Nat} {s : LiveSubscription} {e : BufferedEvent} {input : StreamInput}
  {parse : Value → Except ServiceError (Option ChildEvent)}

lemma ends_stop (s : LiveSubscription) (reason : ChildResyncReason) : Ends s (s.stop reason) :=
  ⟨rfl, _, _, rfl⟩

lemma Refused.ends (h : Refused parse s e) (hlt : s.lastSeq < e.seq) :
    Ends s (s.inspect parse e) := by
  unfold LiveSubscription.inspect
  rw [if_neg (by omega)]
  split
  next => exact ends_stop s _
  next hgap =>
    have hnext := eq_succ_of_checkedSucc (not_not.mp hgap)
    split
    · exact ends_stop s _
    · exact ends_stop s _
    · cases h with
      | gap hne => exact absurd hnext hne
      | ended htype => simp_all
      | invalid error hparse =>
        rw [hparse]
        exact ends_stop s _
      | undecoded type hparse htype hchild =>
        rw [hparse, htype]
        simp only [Option.any_some, hchild, ite_true]
        exact ends_stop s _
      | preflight event reason hparse hpreflight =>
        simp only [hparse, hpreflight]
        exact ends_stop s _

lemma Breaks.ends (h : Breaks parse s input) (hs : Contiguous lastSeq s) :
    Ends s (s.step parse input) := by
  have hwaits := hs.waits
  unfold Waits at hwaits
  cases h with
  | unbound hw =>
    rcases hw with hw | hw
    · simp only [LiveSubscription.step, hw]
      exact ends_stop s _
    · rw [hw] at hwaits
      obtain ⟨e, hpending⟩ := Option.ne_none_iff_exists'.mp hwaits
      simp only [LiveSubscription.step, hw, hpending]
      exact ends_stop s _
  | lagged hw =>
    simp only [LiveSubscription.step, hw]
    exact ends_stop s _
  | closed hw =>
    simp only [LiveSubscription.step, hw]
    exact ends_stop s _
  | refused e hw hpending hlt hrefused =>
    simp only [LiveSubscription.step, hw, hpending]
    exact hrefused.ends hlt
  | unproved event reason hw =>
    simp only [LiveSubscription.step, hw]
    exact ends_stop s _
  | unapplied event reason hw happly =>
    rw [hw] at hwaits
    obtain ⟨e, hpending, -⟩ := hwaits
    simp only [LiveSubscription.step, hw, hpending, LiveSubscription.prove]
    rw [show (s.take e).subscription.apply event = .error reason from happly]
    exact ⟨rfl, _, _, rfl⟩

end

/-! ### After the end -/

section

variable {lastSeq : Nat} {s : LiveSubscription}
  {parse : Value → Except ServiceError (Option ChildEvent)}

/-- Only a call does something to a stream that has ended. -/
lemma step_of_ended (parse : Value → Except ServiceError (Option ChildEvent))
    (hclosed : s.receiver = false) (hidle : s.waiting = .idle) (input : StreamInput) :
    (s.step parse input).receiver = false ∧ (s.step parse input).waiting = .idle ∧
      (s.step parse input).results =
        s.results ++ List.replicate ([input].countP (·.isCall)) none := by
  cases input with
  | call =>
    simp only [LiveSubscription.step, hidle, LiveSubscription.call, hclosed]
    exact ⟨hclosed, rfl, rfl⟩
  | bound held =>
    simp only [LiveSubscription.step, hidle]
    exact ⟨hclosed, trivial, (List.append_nil _).symm⟩
  | received r =>
    simp only [LiveSubscription.step, hidle]
    exact ⟨hclosed, trivial, (List.append_nil _).symm⟩
  | proved proof =>
    simp only [LiveSubscription.step, hidle]
    exact ⟨hclosed, trivial, (List.append_nil _).symm⟩
  | cancel => exact ⟨hclosed, rfl, (List.append_nil _).symm⟩

/-- Every call after the end returns nothing. -/
lemma after_of_ended (hclosed : s.receiver = false) (hidle : s.waiting = .idle)
    (inputs : List StreamInput) :
    (Run.after (step parse) s inputs).results =
      s.results ++ List.replicate (inputs.countP (·.isCall)) none := by
  induction inputs generalizing s with
  | nil => exact (List.append_nil _).symm
  | cons input inputs ih =>
    obtain ⟨hclosed', hidle', hresults⟩ := step_of_ended parse hclosed hidle input
    rw [Run.after_cons, ih hclosed' hidle', hresults, List.append_assoc,
      List.replicate_append_replicate, ← List.countP_append]
    rfl

lemma Contiguous.increasing (h : Contiguous lastSeq s) : s.updates.Pairwise (· < ·) := by
  have hexamined : (s.examined.map BufferedEvent.seq).Pairwise (· < ·) := by
    rw [h.numbered]
    exact List.pairwise_lt_range'
  exact hexamined.sublist h.updates

end

/-- A live stream is contiguous and ends once: the updates have increasing numbers, what has been
received above the snapshot has been examined number by number up to the cursor (but for the event
that is pending or ended the stream), whatever makes the branch uncertain ends the stream with one
request for a new snapshot, and every later call returns nothing. -/
theorem stream_contiguous_until_resync
    (parse : Value → Except ServiceError (Option ChildEvent)) (lastSeq : Nat)
    (subscription : ChildSubscription) (initialResync : Option ChildResyncReason)
    (inputs : List StreamInput) :
    let s := Run.after (step parse) (start lastSeq subscription initialResync) inputs
    s.updates.Pairwise (· < ·) ∧
      (lastSeq ≤ s.cursor ∧
        s.examined.map BufferedEvent.seq = List.range' (lastSeq + 1) (s.cursor - lastSeq)) ∧
      (∃ rest, s.received.filter (fun e => decide (lastSeq < e.seq)) = s.examined ++ rest ∧
        rest.length ≤ 1) ∧
      Given s.results s.receiver ∧
      (∀ input, Breaks parse s input → Ends s (s.step parse input)) ∧
      (s.receiver = false → ∀ later, (Run.after (step parse) s later).results =
        s.results ++ List.replicate (later.countP (·.isCall)) none) := by
  intro s
  have hs : Contiguous lastSeq s :=
    Run.invariant (P := Contiguous lastSeq) (fun _ input h => h.step input)
      (contiguous_start _ _ _) inputs
  have hlast := hs.snapshot
  have hcursor := hs.cursor
  have hnumbered : s.examined.map BufferedEvent.seq = _ := hs.numbered
  obtain ⟨rest, habove, hrest, -⟩ := hs.kept
  rw [above, hlast] at habove
  rw [hlast] at hcursor hnumbered
  refine ⟨hs.increasing, ⟨by omega, ?_⟩, ⟨rest, habove, hrest⟩, hs.given, ?_, ?_⟩
  · rw [hnumbered, hcursor, Nat.add_sub_cancel_left]
  · intro input hbreaks
    exact hbreaks.ends hs
  · intro hclosed later
    exact after_of_ended hclosed (hs.rests hclosed) later

/-- A number that the snapshot covers can be repeated without ending the stream. -/
theorem exists_repeated_without_resync :
    ∃ inputs,
      let s := Run.after (step fun _ => .ok none)
        (start 5 ⟨⟨[], [], [], []⟩, 0, [], .default, []⟩ none) inputs
      s.received.map BufferedEvent.seq = [5, 5] ∧ s.results = [] ∧ s.receiver = true :=
  ⟨[.call, .bound true, .received (.event ⟨5, .null⟩), .bound true, .bound true,
    .received (.event ⟨5, .null⟩), .bound true], rfl, rfl, rfl⟩

end LiveSubscription

end Child
