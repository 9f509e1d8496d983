import RpiPackage.Acp.Options
import RpiPackage.Lib.Run
import RpiPackage.Lib.Rust
import Mathlib.Data.List.Nodup

/-!
# Configuration updates

A forwarder and the setters share a gate, and deliver snapshots of the configuration of one session
to its client. Polls and setters publish the snapshots on a channel that keeps the latest one.
-/

namespace Acp

/-- What has been delivered last, as the forwarder and the setters know. -/
structure Projection where
  revision : UInt64
  options : ConfigOptions
  deriving Repr

/-- The forwarder waits for a change, waits for the gate after one, or writes a notification, on a
connection that was open when it began to or not. -/
inductive Forwarder where
  | waiting
  | woken
  | writing (snapshot : ConfigurationSnapshot) (begun : Bool)
  | ended
  deriving DecidableEq, Repr

/-- A request to set an option: it waits for the gate, for the native host, for its answer to be
written, or for its error to be. -/
inductive Setter where
  | absent
  | queued (configId : String) (value : Option String)
  | performing
  | writing (snapshot : ConfigurationSnapshot) (begun : Bool)
  | failing (error : String)
  | done
  deriving DecidableEq, Repr

inductive Holder where
  | forwarder
  | setter (id : Nat)
  deriving DecidableEq, Repr

inductive Source where
  | initial
  | setter
  | notification
  deriving DecidableEq, Repr

/-- An option set that the client has received. -/
structure Received where
  source : Source
  revision : UInt64
  options : ConfigOptions

structure Configuring where
  toUppercase : Char → String
  latest : ConfigurationSnapshot
  -- every snapshot of the channel so far
  published : List ConfigurationSnapshot
  -- the number of values that have been sent, and the last one that the forwarder has seen
  version : Nat
  seen : Nat
  gate : Option Holder
  delivered : Projection
  forwarder : Forwarder
  stopped : Bool
  setters : Nat → Setter
  closed : Bool
  received : List Received

namespace Configuring

/-- How a write ends. One that fails closes the connection; whether the client still received the
frame is not known. -/
inductive Write where
  | ok
  | failed (arrives : Bool)
  deriving DecidableEq, Repr

/-- The initial response has been written, from the snapshot that the subscription found; more may
have been published by then. -/
def start (toUppercase : Char → String) (snapshot : ConfigurationSnapshot) (missed : Nat) :
    Configuring where
  toUppercase
  latest := snapshot
  published := [snapshot]
  version := missed
  seen := 0
  gate := none
  delivered := ⟨snapshot.revision, present toUppercase snapshot.configuration⟩
  forwarder := .waiting
  stopped := false
  setters _ := .absent
  closed := false
  received := [⟨.initial, snapshot.revision, present toUppercase snapshot.configuration⟩]

def optionsOf (w : Configuring) (snapshot : ConfigurationSnapshot) : ConfigOptions :=
  present w.toUppercase snapshot.configuration

def record (w : Configuring) (snapshot : ConfigurationSnapshot) : Configuring :=
  { w with delivered := ⟨snapshot.revision, w.optionsOf snapshot⟩ }

def receive (w : Configuring) (source : Source) (snapshot : ConfigurationSnapshot) : Configuring :=
  { w with received := w.received ++ [⟨source, snapshot.revision, w.optionsOf snapshot⟩] }

def setSetter (w : Configuring) (id : Nat) (setter : Setter) : Configuring :=
  { w with setters := Function.update w.setters id setter }

/-- The end of a refresh: an unchanged configuration is not published again. -/
def perform (w : Configuring) (outcome : Except String RuntimeConfiguration) :
    Except String ConfigurationSnapshot × Configuring :=
  match outcome with
  | .error error => (.error error, w)
  | .ok configuration =>
    if w.latest.configuration = configuration then (.ok w.latest, w)
    else
      match Rust.checkedSucc w.latest.revision with
      | none => (.error "configuration revision exhausted", w)
      | some revision =>
        let snapshot : ConfigurationSnapshot := ⟨revision, configuration⟩
        (.ok snapshot, { w with
          latest := snapshot
          published := w.published ++ [snapshot]
          version := w.version + 1 })

/-- What is asked of the native host. -/
def mutationOf (w : Configuring) (configId : String) (value : Option String) : Except String Unit :=
  match value with
  | some value =>
    if configId = "model" then
      let matching := w.latest.configuration.models.filter fun model =>
        modelValue model.identity = value
      match matching with
      | [_] => .ok ()
      | [] => .error "unknown model selector"
      | _ => .error "ambiguous model selector"
    else if configId = "thinking" then .ok ()
    else .error ("unknown config option: " ++ configId)
  | none =>
    if configId = "model" ∨ configId = "thinking" then
      .error "configuration value must be a string"
    else .error ("unknown config option: " ++ configId)

inductive Op where
  -- a poll of the native host ends
  | poll (outcome : Except String RuntimeConfiguration)
  -- the forwarder runs to its next wait; it may have looked at the connection before it was closed
  | forward (stale : Bool)
  | forwarderWrites (write : Write)
  | request (id : Nat) (configId : String) (value : Option String)
  | lock (id : Nat)
  -- the native command of a setter, and the refresh after it, end
  | performed (id : Nat) (outcome : Except String RuntimeConfiguration)
  | setterWrites (id : Nat) (write : Write)
  | setterFails (id : Nat) (write : Write)
  | stop
  | close

/-- The forwarder has the gate: it reads the latest snapshot again, whatever woke it. -/
def project (w : Configuring) : Configuring :=
  let w := { w with seen := w.version }
  if w.latest.revision ≤ w.delivered.revision then { w with forwarder := .waiting }
  else if w.optionsOf w.latest ≠ w.delivered.options then
    { w with forwarder := .writing w.latest !w.closed, gate := some .forwarder }
  else { w.record w.latest with forwarder := .waiting }

def forward (w : Configuring) (stale : Bool) : Configuring :=
  match w.forwarder with
  | .waiting =>
    if w.closed || w.stopped then { w with forwarder := .ended }
    else if w.seen < w.version then { w with forwarder := .woken, seen := w.version }
    else w
  | .woken =>
    if w.stopped || (w.closed && !stale) then { w with forwarder := .ended }
    else if w.gate.isNone then w.project
    else w
  | .writing _ _ | .ended => w

/-- Nothing is written on a connection that is closed. -/
def outcomeOf (begun : Bool) (write : Write) : Write :=
  if begun then write else .failed false

def forwarderWrites (w : Configuring) (write : Write) : Configuring :=
  match w.forwarder with
  | .writing snapshot begun =>
    match outcomeOf begun write with
    | .ok =>
      { (w.receive .notification snapshot).record snapshot with forwarder := .waiting, gate := none }
    | .failed true =>
      { w.receive .notification snapshot with forwarder := .ended, gate := none, closed := true }
    | .failed false => { w with forwarder := .ended, gate := none, closed := true }
  | _ => w

def lock (w : Configuring) (id : Nat) : Configuring :=
  match w.setters id, w.gate with
  | .queued configId value, none =>
    let w := { w with gate := some (.setter id) }
    match w.mutationOf configId value with
    | .ok _ => w.setSetter id .performing
    | .error error => w.setSetter id (.failing error)
  | _, _ => w

def performed (w : Configuring) (id : Nat) (outcome : Except String RuntimeConfiguration) :
    Configuring :=
  match w.setters id with
  | .performing =>
    match w.perform outcome with
    | (.ok snapshot, w) => w.setSetter id (.writing snapshot !w.closed)
    | (.error error, w) => w.setSetter id (.failing error)
  | _ => w

def setterWrites (w : Configuring) (id : Nat) (write : Write) : Configuring :=
  match w.setters id with
  | .writing snapshot begun =>
    match outcomeOf begun write with
    | .ok => { ((w.receive .setter snapshot).record snapshot).setSetter id .done with gate := none }
    | .failed true =>
      { (w.receive .setter snapshot).setSetter id .done with gate := none, closed := true }
    | .failed false => { w.setSetter id .done with gate := none, closed := true }
  | _ => w

def setterFails (w : Configuring) (id : Nat) (write : Write) : Configuring :=
  match w.setters id with
  | .failing _ =>
    match write with
    | .ok => { w.setSetter id .done with gate := none }
    | .failed _ => { w.setSetter id .done with gate := none, closed := true }
  | _ => w

def step (w : Configuring) : Op → Configuring
  | .poll outcome => (w.perform outcome).2
  | .forward stale => w.forward stale
  | .forwarderWrites write => w.forwarderWrites write
  | .request id configId value =>
    match w.setters id with
    | .absent => w.setSetter id (.queued configId value)
    | _ => w
  | .lock id => w.lock id
  | .performed id outcome => w.performed id outcome
  | .setterWrites id write => w.setterWrites id write
  | .setterFails id write => w.setterFails id write
  | .stop => { w with stopped := true }
  | .close => { w with closed := true }

abbrev after (w : Configuring) (ops : List Op) : Configuring := Run.after step w ops

/-! ### What every run keeps -/

/-- A setter has the gate. -/
def holds : Setter → Bool
  | .performing | .writing _ _ | .failing _ => true
  | _ => false

variable {w : Configuring} {snapshot : ConfigurationSnapshot} {id : Nat} {setter : Setter}

/-- The forwarder is up to date while it waits with nothing unseen, and what it writes is news. -/
def Forwarding (w : Configuring) : Forwarder → Prop
  | .waiting => w.seen = w.version → w.delivered.revision = w.latest.revision
  | .writing snapshot begun => w.gate = some .forwarder ∧ snapshot ∈ w.published ∧
      (∀ r ∈ w.received, r.revision ≤ snapshot.revision) ∧
      (begun = true → ∀ r ∈ w.received, r.source = .setter → r.revision < snapshot.revision) ∧
      w.delivered.revision < snapshot.revision ∧
      (w.seen = w.version → snapshot.revision = w.latest.revision)
  | .woken | .ended => True

/-- What a setter writes is not older than what has been delivered. -/
def Setting (w : Configuring) (id : Nat) : Setter → Prop
  | .writing snapshot _ => w.gate = some (.setter id) ∧ snapshot ∈ w.published ∧
      (∀ r ∈ w.received, r.revision ≤ snapshot.revision) ∧
      w.delivered.revision ≤ snapshot.revision
  | .performing | .failing _ => w.gate = some (.setter id)
  | .absent | .queued _ _ | .done => True

structure Sound (w : Configuring) : Prop where
  latest : w.latest ∈ w.published
  newest : ∀ s ∈ w.published, s.revision ≤ w.latest.revision
  distinct : w.published.Pairwise fun s t => s.revision < t.revision
  seen : w.seen ≤ w.version
  delivered : ∃ s ∈ w.published, w.delivered = ⟨s.revision, w.optionsOf s⟩
  received : ∀ r ∈ w.received, ∃ s ∈ w.published, r.revision = s.revision ∧ r.options = w.optionsOf s
  rising : w.received.Pairwise fun a b => a.revision ≤ b.revision
  notified : w.received.Pairwise fun a b =>
    a.source = .setter → b.source = .notification → a.revision < b.revision
  last : w.closed = false → (∃ r, w.received.getLast? = some r ∧ r.options = w.delivered.options) ∧
    ∀ r ∈ w.received, r.revision ≤ w.delivered.revision
  forwarding : Forwarding w w.forwarder
  setting : ∀ id, Setting w id (w.setters id)

lemma sound_start (toUppercase : Char → String) (snapshot : ConfigurationSnapshot) (missed : Nat) :
    Sound (start toUppercase snapshot missed) := by
  constructor
  case forwarding => exact fun _ => rfl
  case setting => exact fun _ => trivial
  case delivered => exact ⟨snapshot, List.mem_singleton_self _, rfl⟩
  case last =>
    refine fun _ => ⟨⟨_, rfl, rfl⟩, ?_⟩
    intro r hr
    obtain rfl := List.mem_singleton.mp hr
    exact UInt64.le_refl _
  all_goals simp [start, optionsOf]

lemma setting_of_not_holds (h : holds setter = false) : Setting w id setter := by
  cases setter with
  | performing | writing | failing => cases h
  | absent | queued | done => trivial

lemma Setting.gate (h : Setting w id setter) (hholds : holds setter = true) :
    w.gate = some (.setter id) := by
  cases setter with
  | performing | failing => exact h
  | writing => exact h.1
  | absent | queued | done => cases hholds

/-- A setter without the gate is not in the way. -/
lemma Sound.not_holds (h : Sound w) (hgate : w.gate ≠ some (.setter id)) :
    holds (w.setters id) = false := by
  cases hholds : holds (w.setters id) with
  | false => rfl
  | true => exact absurd ((h.setting id).gate hholds) hgate

lemma Sound.not_writing (h : Sound w) (hgate : w.gate ≠ some .forwarder) {begun : Bool} :
    w.forwarder ≠ .writing snapshot begun := by
  intro heq
  have hforwarding := h.forwarding
  rw [heq] at hforwarding
  exact hgate hforwarding.1

/-- A snapshot is known by its revision. -/
lemma Sound.eq_latest (h : Sound w) (hmem : snapshot ∈ w.published)
    (hrevision : snapshot.revision = w.latest.revision) : snapshot = w.latest := by
  have hnodup : (w.published.map ConfigurationSnapshot.revision).Nodup :=
    List.pairwise_map.mpr (h.distinct.imp fun hlt => UInt64.ne_of_lt hlt)
  exact List.inj_on_of_nodup_map hnodup hmem h.latest hrevision

/-- A snapshot of a new revision is sent. -/
def publish (w : Configuring) (snapshot : ConfigurationSnapshot) : Configuring :=
  { w with
    latest := snapshot
    published := w.published ++ [snapshot]
    version := w.version + 1 }

lemma Sound.publish (h : Sound w) (hrevision : w.latest.revision < snapshot.revision) :
    Sound (w.publish snapshot) := by
  have hmono : ∀ s ∈ w.published, s ∈ (w.publish snapshot).published := fun s hs =>
    List.mem_append_left _ hs
  constructor
  case latest => exact List.mem_append_right _ (List.mem_singleton_self _)
  case newest =>
    intro s hs
    rcases List.mem_append.mp hs with hs | hs
    · exact UInt64.le_of_lt (UInt64.lt_of_le_of_lt (h.newest s hs) hrevision)
    · obtain rfl := List.mem_singleton.mp hs
      exact UInt64.le_refl _
  case distinct =>
    refine List.pairwise_append.mpr ⟨h.distinct, List.pairwise_singleton _ _, ?_⟩
    intro s hs t ht
    obtain rfl := List.mem_singleton.mp ht
    exact UInt64.lt_of_le_of_lt (h.newest s hs) hrevision
  case seen => exact Nat.le_succ_of_le h.seen
  case delivered =>
    obtain ⟨s, hs, hdelivered⟩ := h.delivered
    exact ⟨s, hmono s hs, hdelivered⟩
  case received =>
    intro r hr
    obtain ⟨s, hs, hsame⟩ := h.received r hr
    exact ⟨s, hmono s hs, hsame⟩
  case rising => exact h.rising
  case notified => exact h.notified
  case last => exact h.last
  case forwarding =>
    have hforwarding := h.forwarding
    show Forwarding (w.publish snapshot) w.forwarder
    cases hforwarder : w.forwarder with
    | waiting =>
      intro hseen
      have hle := h.seen
      change w.seen = w.version + 1 at hseen
      omega
    | writing s begun =>
      rw [hforwarder] at hforwarding
      obtain ⟨hgate, hs, hle, hnews, hdelivered, -⟩ := hforwarding
      refine ⟨hgate, hmono s hs, hle, hnews, hdelivered, ?_⟩
      intro hseen
      have hle := h.seen
      change w.seen = w.version + 1 at hseen
      omega
    | woken | ended => trivial
  case setting =>
    intro id
    have hsetting := h.setting id
    show Setting (w.publish snapshot) id (w.setters id)
    cases hsetter : w.setters id with
    | writing s begun =>
      rw [hsetter] at hsetting
      obtain ⟨hgate, hs, hrest⟩ := hsetting
      exact ⟨hgate, hmono s hs, hrest⟩
    | performing | failing =>
      rw [hsetter] at hsetting
      exact hsetting
    | absent | queued | done => trivial

/-- A refresh fails, finds the latest snapshot, or publishes one. -/
lemma perform_cases (w : Configuring) (outcome : Except String RuntimeConfiguration) :
    (∃ error, w.perform outcome = (.error error, w)) ∨ w.perform outcome = (.ok w.latest, w) ∨
      ∃ snapshot, w.latest.revision < snapshot.revision ∧
        w.perform outcome = (.ok snapshot, w.publish snapshot) := by
  unfold perform
  split
  · exact .inl ⟨_, rfl⟩
  · split
    · exact .inr (.inl rfl)
    · split
      · exact .inl ⟨_, rfl⟩
      · rename_i revision hrevision
        refine .inr (.inr ⟨⟨revision, _⟩, ?_, rfl⟩)
        rw [Rust.checkedSucc_eq_some] at hrevision
        exact UInt64.lt_iff_toNat_lt.mpr (by dsimp only; omega)

lemma Sound.perform (h : Sound w) (outcome : Except String RuntimeConfiguration) :
    Sound (w.perform outcome).2 := by
  rcases perform_cases w outcome with ⟨error, heq⟩ | heq | ⟨snapshot, hrevision, heq⟩
  · rw [heq]
    exact h
  · rw [heq]
    exact h
  · rw [heq]
    exact h.publish hrevision

/-- Others than one setter are not in the way. -/
def Free (w : Configuring) (id : Nat) : Prop :=
  w.gate ≠ some .forwarder ∧ ∀ id', id' ≠ id → w.gate ≠ some (.setter id')

/-- The phase of one setter changes, and perhaps the gate with it. -/
lemma Sound.setSetter (h : Sound w) (setter : Setter) (gate : Option Holder)
    (hset : Setting { w with gate } id setter) (hgate : gate = w.gate ∨ w.Free id) :
    Sound { w.setSetter id setter with gate } := by
  constructor
  case latest => exact h.latest
  case newest => exact h.newest
  case distinct => exact h.distinct
  case seen => exact h.seen
  case delivered => exact h.delivered
  case received => exact h.received
  case rising => exact h.rising
  case notified => exact h.notified
  case last => exact h.last
  case forwarding =>
    have hforwarding := h.forwarding
    show Forwarding { w.setSetter id setter with gate } w.forwarder
    cases hforwarder : w.forwarder with
    | waiting =>
      rw [hforwarder] at hforwarding
      exact hforwarding
    | writing s begun =>
      rcases hgate with rfl | hfree
      · rw [hforwarder] at hforwarding
        exact hforwarding
      · exact absurd hforwarder (h.not_writing hfree.1)
    | woken | ended => trivial
  case setting =>
    intro id'
    show Setting { w.setSetter id setter with gate } id' (Function.update w.setters id setter id')
    by_cases hid : id' = id
    · subst hid
      rw [Function.update_self]
      cases setter <;> exact hset
    · rw [Function.update_of_ne hid]
      rcases hgate with rfl | hfree
      · have hsetting := h.setting id'
        cases hsetter : w.setters id' <;> rw [hsetter] at hsetting <;> exact hsetting
      · exact setting_of_not_holds (h.not_holds (hfree.2 id' hid))

lemma Setting.free (h : Setting w id setter) (hholds : holds setter = true) : w.Free id := by
  rw [Free, h.gate hholds]
  refine ⟨by simp, ?_⟩
  intro id' hid heq
  exact hid (Holder.setter.inj (Option.some.inj heq)).symm

lemma free_of_none (h : w.gate = none) : w.Free id := by
  rw [Free, h]
  exact ⟨by simp, by simp⟩

lemma Sound.request (h : Sound w) (configId : String) (value : Option String) :
    Sound (w.setSetter id (.queued configId value)) :=
  h.setSetter (.queued configId value) _ trivial (.inl rfl)

lemma Sound.lock (h : Sound w) (id : Nat) : Sound (Configuring.lock w id) := by
  unfold Configuring.lock
  split
  · rename_i configId value _ hgate
    dsimp only
    split
    · exact h.setSetter .performing (some (.setter id)) rfl
        (.inr (free_of_none hgate))
    · exact h.setSetter (.failing _) (some (.setter id)) rfl
        (.inr (free_of_none hgate))
  · exact h

lemma Sound.delivered_le (h : Sound w) : w.delivered.revision ≤ w.latest.revision := by
  obtain ⟨s, hs, hdelivered⟩ := h.delivered
  rw [hdelivered]
  exact h.newest s hs

lemma Sound.received_le (h : Sound w) : ∀ r ∈ w.received, r.revision ≤ w.latest.revision := by
  intro r hr
  obtain ⟨s, hs, hrevision, -⟩ := h.received r hr
  rw [hrevision]
  exact h.newest s hs

/-- A setter answers with the latest snapshot of its time. -/
lemma Sound.answer (h : Sound w) (hgate : w.gate = some (.setter id)) (begun : Bool) :
    Sound (w.setSetter id (.writing w.latest begun)) :=
  h.setSetter (.writing w.latest begun) _ ⟨hgate, h.latest, h.received_le, h.delivered_le⟩
    (.inl rfl)

lemma Sound.performed (h : Sound w) (id : Nat) (outcome : Except String RuntimeConfiguration) :
    Sound (Configuring.performed w id outcome) := by
  unfold Configuring.performed
  split
  · rename_i hsetter
    have hgate : w.gate = some (.setter id) := by
      have hsetting := h.setting id
      rw [hsetter] at hsetting
      exact hsetting
    rcases perform_cases w outcome with ⟨error, heq⟩ | heq | ⟨snapshot, hrevision, heq⟩
    · rw [heq]
      exact h.setSetter _ _ hgate (.inl rfl)
    · rw [heq]
      exact h.answer hgate _
    · rw [heq]
      exact (h.publish hrevision).answer hgate _
  · exact h

/-- The connection is closed, by whatever. -/
lemma Sound.closed (h : Sound w) : Sound { w with closed := true } where
  latest := h.latest
  newest := h.newest
  distinct := h.distinct
  seen := h.seen
  delivered := h.delivered
  received := h.received
  rising := h.rising
  notified := h.notified
  last hopen := by cases hopen
  forwarding := by
    have hforwarding := h.forwarding
    show Forwarding { w with closed := true } w.forwarder
    cases hforwarder : w.forwarder <;> rw [hforwarder] at hforwarding <;> exact hforwarding
  setting id := by
    have hsetting := h.setting id
    show Setting { w with closed := true } id (w.setters id)
    cases hsetter : w.setters id <;> rw [hsetter] at hsetting <;> exact hsetting

/-- The forwarder gives the gate back. -/
lemma Sound.release (h : Sound w) {begun : Bool} (hwriting : w.forwarder = .writing snapshot begun)
    {forwarder : Forwarder} (hforwarder : forwarder = .woken ∨ forwarder = .ended) :
    Sound { w with forwarder, gate := none } where
  latest := h.latest
  newest := h.newest
  distinct := h.distinct
  seen := h.seen
  delivered := h.delivered
  received := h.received
  rising := h.rising
  notified := h.notified
  last := h.last
  forwarding := by
    rcases hforwarder with rfl | rfl <;> trivial
  setting id := by
    have hgate : w.gate = some .forwarder := by
      have hforwarding := h.forwarding
      rw [hwriting] at hforwarding
      exact hforwarding.1
    exact setting_of_not_holds (h.not_holds (by rw [hgate]; simp))

/-- A snapshot that is not older than what has been received is received, while nobody has the
gate. It is recorded, unless the connection is closed. -/
lemma Sound.receive (h : Sound w) (hgate : w.gate = none) (source : Source) (recorded : Bool)
    (hrecorded : recorded = true ∨ w.closed = true) (hmem : snapshot ∈ w.published)
    (hle : ∀ r ∈ w.received, r.revision ≤ snapshot.revision)
    (hdelivered : w.delivered.revision ≤ snapshot.revision)
    (hnews : source = .notification →
      ∀ r ∈ w.received, r.source = .setter → r.revision < snapshot.revision) :
    Sound (if recorded then (w.receive source snapshot).record snapshot
      else w.receive source snapshot) := by
  have hrising : (w.receive source snapshot).received.Pairwise
      fun a b => a.revision ≤ b.revision := by
    refine List.pairwise_append.mpr ⟨h.rising, List.pairwise_singleton _ _, ?_⟩
    intro r hr t ht
    obtain rfl := List.mem_singleton.mp ht
    exact hle r hr
  have hreceived : ∀ r ∈ (w.receive source snapshot).received, ∃ s ∈ w.published,
      r.revision = s.revision ∧ r.options = w.optionsOf s := by
    intro r hr
    rcases List.mem_append.mp hr with hr | hr
    · exact h.received r hr
    · obtain rfl := List.mem_singleton.mp hr
      exact ⟨snapshot, hmem, rfl, rfl⟩
  have hnotified : (w.receive source snapshot).received.Pairwise fun a b =>
      a.source = .setter → b.source = .notification → a.revision < b.revision := by
    refine List.pairwise_append.mpr ⟨h.notified, List.pairwise_singleton _ _, ?_⟩
    intro r hr t ht hsetter hnotification
    obtain rfl := List.mem_singleton.mp ht
    exact hnews hnotification r hr hsetter
  have hsetting : ∀ (w' : Configuring) id, w'.setters = w.setters → Setting w' id (w'.setters id) := by
    intro w' id hsetters
    rw [hsetters]
    exact setting_of_not_holds (h.not_holds (by rw [hgate]; simp))
  have hwriting : ∀ s begun, w.forwarder ≠ .writing s begun := fun s begun =>
    h.not_writing (by rw [hgate]; simp)
  cases recorded with
  | true =>
    refine ⟨h.latest, h.newest, h.distinct, h.seen, ⟨snapshot, hmem, rfl⟩, hreceived, hrising,
      hnotified, ?_, ?_, fun id => hsetting _ id rfl⟩
    · intro _
      refine ⟨⟨_, List.getLast?_concat, rfl⟩, ?_⟩
      intro r hr
      rcases List.mem_append.mp hr with hr | hr
      · exact hle r hr
      · obtain rfl := List.mem_singleton.mp hr
        exact UInt64.le_refl _
    · have hforwarding := h.forwarding
      show Forwarding ((w.receive source snapshot).record snapshot) w.forwarder
      cases hforwarder : w.forwarder with
      | waiting =>
        rw [hforwarder] at hforwarding
        intro hseen
        have hsame : w.delivered.revision = w.latest.revision := hforwarding hseen
        exact UInt64.le_antisymm (h.newest snapshot hmem) (hsame ▸ hdelivered)
      | writing s begun => exact absurd hforwarder (hwriting s begun)
      | woken | ended => trivial
  | false =>
    have hclosed : w.closed = true := hrecorded.resolve_left Bool.false_ne_true
    refine ⟨h.latest, h.newest, h.distinct, h.seen, h.delivered, hreceived, hrising,
      hnotified, ?_, ?_, fun id => hsetting _ id rfl⟩
    · intro hopen
      rw [show w.closed = false from hopen] at hclosed
      cases hclosed
    · have hforwarding := h.forwarding
      show Forwarding (w.receive source snapshot) w.forwarder
      cases hforwarder : w.forwarder with
      | waiting =>
        rw [hforwarder] at hforwarding
        exact hforwarding
      | writing s begun => exact absurd hforwarder (hwriting s begun)
      | woken | ended => trivial

/-- The forwarder goes on. -/
lemma Sound.move (h : Sound w) {forwarder : Forwarder} {seen : Nat} (hseen : seen ≤ w.version)
    (hforwarding : Forwarding { w with seen } forwarder) :
    Sound { w with forwarder, seen } where
  latest := h.latest
  newest := h.newest
  distinct := h.distinct
  seen := hseen
  delivered := h.delivered
  received := h.received
  rising := h.rising
  notified := h.notified
  last := h.last
  forwarding := by cases forwarder <;> exact hforwarding
  setting id := by
    have hsetting := h.setting id
    show Setting { w with forwarder, seen } id (w.setters id)
    cases hsetter : w.setters id <;> rw [hsetter] at hsetting <;> exact hsetting

lemma Sound.forwarderWrites (h : Sound w) (write : Write) :
    Sound (Configuring.forwarderWrites w write) := by
  unfold Configuring.forwarderWrites
  split
  · rename_i snapshot begun hwriting
    have hforwarding := h.forwarding
    rw [hwriting] at hforwarding
    obtain ⟨-, hmem, hle, hnews, hdelivered, hseen⟩ := hforwarding
    have hclosed := h.closed.release (w := { w with closed := true }) hwriting (.inr rfl)
    unfold outcomeOf
    cases begun with
    | false => exact hclosed
    | true =>
      rw [if_pos rfl]
      cases write with
      | ok =>
        have hreceive := (h.release hwriting (.inl rfl)).receive rfl .notification true
          (.inl rfl) hmem hle (UInt64.le_of_lt hdelivered) (fun _ => hnews rfl)
        exact hreceive.move hreceive.seen hseen
      | failed arrives =>
        cases arrives with
        | true =>
          exact hclosed.receive rfl .notification false (.inr rfl) hmem hle
            (UInt64.le_of_lt hdelivered) (fun _ => hnews rfl)
        | false => exact hclosed
  · exact h

lemma Sound.setterWrites (h : Sound w) (id : Nat) (write : Write) :
    Sound (Configuring.setterWrites w id write) := by
  unfold Configuring.setterWrites
  split
  · rename_i snapshot begun hwriting
    have hsetting := h.setting id
    rw [hwriting] at hsetting
    have hfree : w.Free id := Setting.free hsetting rfl
    obtain ⟨-, hmem, hle, hdelivered⟩ := hsetting
    have hreleased := h.setSetter .done none trivial (.inr hfree)
    have hclosed := h.closed.setSetter .done none trivial (.inr hfree)
    unfold outcomeOf
    cases begun with
    | false => exact hclosed
    | true =>
      rw [if_pos rfl]
      cases write with
      | ok =>
        exact hreleased.receive rfl .setter true (.inl rfl) hmem hle hdelivered
          (by intro hsource; cases hsource)
      | failed arrives =>
        cases arrives with
        | true =>
          exact hclosed.receive rfl .setter false (.inr rfl) hmem hle hdelivered
            (by intro hsource; cases hsource)
        | false => exact hclosed
  · exact h

lemma Sound.setterFails (h : Sound w) (id : Nat) (write : Write) :
    Sound (Configuring.setterFails w id write) := by
  unfold Configuring.setterFails
  split
  · rename_i error hfailing
    have hsetting := h.setting id
    rw [hfailing] at hsetting
    have hfree : w.Free id := Setting.free hsetting rfl
    split
    · exact h.setSetter .done none trivial (.inr hfree)
    · exact h.closed.setSetter .done none trivial (.inr hfree)
  · exact h

/-- The forwarder takes the gate to read the latest snapshot. -/
lemma Sound.project (h : Sound w) (hgate : w.gate = none) : Sound (Configuring.project w) := by
  have hsetting : ∀ (w' : Configuring) id, w'.setters = w.setters → Setting w' id (w'.setters id) := by
    intro w' id hsetters
    rw [hsetters]
    exact setting_of_not_holds (h.not_holds (by rw [hgate]; simp))
  unfold Configuring.project
  dsimp only
  split
  · rename_i hle
    exact h.move (Nat.le_refl _) fun _ => UInt64.le_antisymm h.delivered_le hle
  · rename_i hlt
    have hlt : w.delivered.revision < w.latest.revision := UInt64.not_le.mp hlt
    split
    · refine ⟨h.latest, h.newest, h.distinct, Nat.le_refl _, h.delivered, h.received, h.rising,
        h.notified, h.last, ⟨rfl, h.latest, h.received_le, ?_, hlt, fun _ => rfl⟩,
        fun id => hsetting _ id rfl⟩
      intro hbegun r hr _
      have hopen : w.closed = false := by simpa using hbegun
      exact UInt64.lt_of_le_of_lt ((h.last hopen).2 r hr) hlt
    · rename_i hsame
      have hsame : w.optionsOf w.latest = w.delivered.options := not_not.mp hsame
      refine ⟨h.latest, h.newest, h.distinct, Nat.le_refl _, ⟨w.latest, h.latest, rfl⟩, h.received,
        h.rising, h.notified, ?_, fun _ => rfl, fun id => hsetting _ id rfl⟩
      intro hopen
      obtain ⟨⟨r, hr, hoptions⟩, hle⟩ := h.last hopen
      refine ⟨⟨r, hr, hoptions.trans hsame.symm⟩, ?_⟩
      intro r hr
      exact UInt64.le_of_lt (UInt64.lt_of_le_of_lt (hle r hr) hlt)

lemma Sound.forward (h : Sound w) (stale : Bool) : Sound (Configuring.forward w stale) := by
  have hended : Sound { w with forwarder := .ended } := h.move h.seen trivial
  unfold Configuring.forward
  split
  · split
    · exact hended
    · split
      · exact h.move (Nat.le_refl _) trivial
      · exact h
  · split
    · exact hended
    · split
      · rename_i hgate
        exact h.project (Option.isNone_iff_eq_none.mp hgate)
      · exact h
  · exact h
  · exact h

lemma Sound.step (h : Sound w) (op : Op) : Sound (Configuring.step w op) := by
  cases op with
  | poll outcome => exact h.perform outcome
  | forward stale => exact h.forward stale
  | forwarderWrites write => exact h.forwarderWrites write
  | request id configId value =>
    unfold Configuring.step
    dsimp only
    split
    · exact h.request configId value
    · exact h
  | lock id => exact h.lock id
  | performed id outcome => exact h.performed id outcome
  | setterWrites id write => exact h.setterWrites id write
  | setterFails id write => exact h.setterFails id write
  | stop =>
    exact ⟨h.latest, h.newest, h.distinct, h.seen, h.delivered, h.received, h.rising, h.notified,
      h.last, by
        have hforwarding := h.forwarding
        show Forwarding { w with stopped := true } w.forwarder
        cases hforwarder : w.forwarder <;> rw [hforwarder] at hforwarding <;> exact hforwarding, by
        intro id
        have hsetting := h.setting id
        show Setting { w with stopped := true } id (w.setters id)
        cases hsetter : w.setters id <;> rw [hsetter] at hsetting <;> exact hsetting⟩
  | close => exact h.closed

/-- What is to be expected of the option sets that the client receives. -/
structure Onward (w : Configuring) : Prop where
  -- they are those of snapshots, none older than the one before
  snapshots : ∀ r ∈ w.received, ∃ s ∈ w.published, r.revision = s.revision ∧
    r.options = present w.toUppercase s.configuration
  rising : w.received.Pairwise fun a b => a.revision ≤ b.revision
  -- none that a setter has overtaken is notified
  notified : w.received.Pairwise fun a b =>
    a.source = .setter → b.source = .notification → a.revision < b.revision
  -- the last one is up to date when the forwarder has nothing to do
  current : w.forwarder = .waiting → w.seen = w.version → w.stopped = false → w.closed = false →
    (w.received.getLast?).map Received.options =
      some (present w.toUppercase w.latest.configuration)

/-- The option sets of a session never go back, and the last change is not missed. -/
theorem onward_after (toUppercase : Char → String) (snapshot : ConfigurationSnapshot)
    (missed : Nat) (ops : List Op) : Onward ((start toUppercase snapshot missed).after ops) := by
  have h : Sound ((start toUppercase snapshot missed).after ops) :=
    Run.invariant (fun _ op hsound => hsound.step op) (sound_start toUppercase snapshot missed) ops
  refine ⟨h.received, h.rising, h.notified, ?_⟩
  intro hwaiting hseen _ hopen
  obtain ⟨⟨r, hr, hoptions⟩, -⟩ := h.last hopen
  obtain ⟨s, hs, hdelivered⟩ := h.delivered
  have hforwarding := h.forwarding
  rw [hwaiting] at hforwarding
  have hrevision := hforwarding hseen
  rw [hdelivered] at hrevision hoptions
  obtain rfl := h.eq_latest hs hrevision
  rw [hr, Option.map_some, hoptions]
  rfl

end Configuring

end Acp
