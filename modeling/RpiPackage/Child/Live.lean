import Mathlib.Data.List.Sort
import RpiPackage.Child.Query
import RpiPackage.Lib.Assoc

/-!
# Live child metadata

A subscription starts from a snapshot of a bounded window of children and follows the events of the
host. It keeps the recent identities, the recent events and the newest phases of each child, each
bounded, and the highest native number it has seen. What is compared in serialized form is compared
here as the value that is serialized.
-/

namespace Child

open Result Service

def maxPhases : Nat := 8
def recentIdentities : Nat := 128

/-! ### Events -/

structure ChildCommit (α : Type) where
  schemaVersion : UInt8
  sourceSessionId : String
  lane : String
  entryId : String
  parentEntryId : Option String
  seq : UInt64
  customType : String
  data : α
  deriving DecidableEq, Repr

structure ChildBegin where
  version : UInt8
  childId : String
  origin : ChildOrigin
  rootCallId : String
  rootToolName : String
  toolName : String
  ordinal : UInt32
  parentChildId : Option String
  deriving DecidableEq, Repr

structure ChildPhaseData where
  version : UInt8
  childId : String
  index : UInt64
  phase : ChildPhaseKind
  descriptor : Option BodyDescriptor
  isError : Option Bool
  cancelled : Option Bool
  failed : Option Bool
  interrupted : Option Bool
  deriving DecidableEq, Repr

structure ChildResync where
  reason : String
  skipped : UInt64
  deriving DecidableEq, Repr

inductive ChildEvent where
  | begin (commit : ChildCommit ChildBegin)
  | phase (commit : ChildCommit ChildPhaseData)
  | resyncRequired (resync : ChildResync)
  deriving DecidableEq, Repr

def summaryOf (c : ChildCommit ChildBegin) : ChildSummary where
  version := c.data.version
  childId := c.data.childId
  seq := c.seq
  origin := c.data.origin
  originVerification := .nativeCheckpoint
  rootCallId := c.data.rootCallId
  rootToolName := c.data.rootToolName
  toolName := c.data.toolName
  ordinal := c.data.ordinal
  parentChildId := c.data.parentChildId

def phaseOf (c : ChildCommit ChildPhaseData) : ChildPhase where
  entryId := c.entryId
  seq := c.seq
  version := c.data.version
  childId := c.data.childId
  index := c.data.index
  phase := c.data.phase
  descriptor := c.data.descriptor
  isError := c.data.isError
  cancelled := c.data.cancelled
  failed := c.data.failed
  interrupted := c.data.interrupted

structure ChildEventContext where
  sessionId : String
  lane : String

def invalidEvent : ServiceError :=
  failure .hostUnavailable "native host returned an invalid child event"

def checkCommit {α : Type} (c : ChildCommit α) (context : ChildEventContext) :
    Except ServiceError Unit :=
  failIf (¬(c.schemaVersion = 1 ∧ c.sourceSessionId = context.sessionId ∧ c.lane = context.lane ∧
    validId c.entryId = true ∧
    c.parentEntryId.any (fun parent => validId parent && parent != c.entryId) = true ∧ 0 < c.seq))
    invalidEvent

/-- The checks of `parse` on a decoded event. -/
def checkEvent (uuid4 : String → Bool) (context : ChildEventContext) :
    ChildEvent → Except ServiceError Unit
  | .begin c => do
    checkCommit c context
    failIf (¬(c.customType = "rpi.tool_program.child_begin.v1" ∧ c.entryId = c.data.childId))
      invalidEvent
    (summary uuid4 (summaryOf c)).mapError fun _ => invalidEvent
  | .phase c => do
    checkCommit c context
    failIf (¬(c.customType = "rpi.tool_program.child_phase.v1" ∧
      nativeId uuid4 c.data.childId "tpchild-" = true)) invalidEvent
    (phase uuid4 (phaseOf c) c.data.childId).mapError fun _ => invalidEvent
  | .resyncRequired resync =>
    failIf (¬(0 < resync.skipped ∧ resync.reason ∈ ["commit_stream_lagged",
      "unknown_native_journal_custom_type", "native_journal_event_too_large"])) invalidEvent

/-! ### Identities -/

def inconsistent : ServiceError :=
  failure .hostUnavailable "native child metadata is inconsistent"

/-- What an identity is recorded with. -/
inductive Recorded where
  | begin (summary : ChildSummary)
  | phase (phase : ChildPhase)
  deriving DecidableEq

namespace Recorded

def id : Recorded → String
  | .begin s => s.childId
  | .phase p => p.entryId

def seq : Recorded → UInt64
  | .begin s => s.seq
  | .phase p => p.seq

end Recorded

/-- Provenance is not part of the begin payload that queries and events share. -/
def canonical (child : ChildSummary) : Recorded :=
  .begin { child with originVerification := .nativeCheckpoint }

structure Identities where
  entries : List (String × UInt64 × Recorded)
  sequences : List (UInt64 × String)

namespace Identities

def default : Identities := ⟨[], []⟩

def record (i : Identities) (value : Recorded) : Except ServiceError Identities :=
  if (i.sequences.lookup value.seq).any (· != value.id) ||
      (i.entries.lookup value.id).any (· != (value.seq, value)) then .error inconsistent
  else .ok
    ⟨Assoc.insert i.entries value.id (value.seq, value),
      Assoc.insert i.sequences value.seq value.id⟩

def contains (i : Identities) (id : String) : Bool := (i.entries.lookup id).isSome

/-- Forgets the identity with the smallest number. -/
def forget (i : Identities) : Identities :=
  match (i.sequences.map Prod.fst).min? with
  | none => i
  | some seq =>
    let id := (i.sequences.lookup seq).getD ""
    ⟨Assoc.erase i.entries id, Assoc.erase i.sequences seq⟩

/-- Each turn of the loop forgets one identity, so there are as many turns as entries. -/
def retain (max : Nat) : Nat → Identities → Identities
  | 0, i => i
  | fuel + 1, i => if max < i.entries.length then retain max fuel i.forget else i

def retainRecent (i : Identities) (max : Nat) : Identities := retain max i.entries.length i

end Identities

/-! ### Phases of a child -/

inductive ReplayDisposition where
  | applied
  | duplicate
  | outsideWindow
  | resyncRequired
  deriving DecidableEq, Repr

inductive ChildOutcome where
  | unknown
  | finalObserved
  | succeeded
  | failed
  | cancelled
  | interrupted
  deriving DecidableEq, Repr

structure ChildObservation where
  childId : String
  latestPhase : Option ChildPhaseKind
  finalPhase : Option ChildPhase
  closedPhase : Option ChildPhase
  outcome : ChildOutcome
  deriving DecidableEq, Repr

/-- The phase with the largest number, the last of them. -/
def newest (phases : List ChildPhase) : Option ChildPhase :=
  phases.foldl (fun best p => if best.all (fun b => decide (b.seq ≤ p.seq)) then some p else best)
    none

def outcomeOf (finalPhase closedPhase : Option ChildPhase) : ChildOutcome :=
  match finalPhase, closedPhase with
  | some final, some closed =>
    if closed.index = Rust.saturatingSucc final.index ∧ final.seq < closed.seq then
      if closed.interrupted = some true then .interrupted
      else if closed.failed = some true then .failed
      else if final.cancelled = some true then .cancelled
      else if final.isError = some true then .failed
      else .succeeded
    else .finalObserved
  | some _, none => .finalObserved
  | none, _ => .unknown

def observe (childId : String) (phases : List ChildPhase) : ChildObservation :=
  let finalPhase := phases.find? fun p => p.phase == .final
  let closedPhase := phases.find? fun p => p.phase == .closed
  { childId
    latestPhase := (newest phases).map ChildPhase.phase
    finalPhase
    closedPhase
    outcome := outcomeOf finalPhase closedPhase }

/-- The phases of a child cannot follow one another like this. -/
def outOfOrder (p next : ChildPhase) : Bool :=
  decide (next.seq ≤ p.seq) || decide (next.index ≤ p.index) || p.phase == .closed ||
    (p.phase == .final && next.phase != .closed)

def anyOutOfOrder : List ChildPhase → Bool
  | p :: next :: phases => outOfOrder p next || anyOutOfOrder (next :: phases)
  | _ => false

def occursTwice (phases : List ChildPhase) (kind : ChildPhaseKind) : Bool :=
  decide (1 < phases.countP fun p => p.phase == kind)

def merge (phases : List ChildPhase) (incoming : ChildPhase) :
    Except ServiceError (ReplayDisposition × List ChildPhase) :=
  match phases.find? fun p => p.entryId == incoming.entryId with
  | some old => if old = incoming then .ok (.duplicate, phases) else .error inconsistent
  | none =>
    let disposition : ReplayDisposition :=
      if (newest phases).any (fun p => decide (incoming.seq < p.seq)) then .outsideWindow
      else if (newest phases).any (fun p => incoming.index != Rust.saturatingSucc p.index) then
        .resyncRequired
      else .applied
    let phases := (phases ++ [incoming]).insertionSort fun p q => p.seq ≤ q.seq
    if anyOutOfOrder phases || [.requested, .prepared, .final, .closed].any (occursTwice phases) then
      .error inconsistent
    else .ok (disposition, if maxPhases < phases.length then phases.drop 1 else phases)

/-! ### The subscription -/

structure ChildSnapshot where
  children : List ChildSummary
  phases : List ChildPhasePage
  observations : List ChildObservation
  events : List ChildEvent

inductive ChildResyncReason where
  | snapshotUncertain
  | hostReplaced
  | hostClosed
  | hostError
  | receiverClosed
  | lagged
  | coreSequenceGap
  | invalidChildEvent
  | nativeResync
  | outsideWindow
  | identityConflict
  | unknownOldIdentity
  | phaseDiscontinuity
  | branchChanged
  | branchUnavailable
  deriving DecidableEq, Repr

structure ChildSubscription where
  snapshot : ChildSnapshot
  nativeHigh : UInt64
  working : List (String × List ChildPhase)
  identities : Identities
  envelopes : List (String × ChildEvent)

/-- The entry of an event, its number and its child. -/
def ChildEvent.entry? : ChildEvent → Option (String × UInt64 × String)
  | .begin c => some (c.entryId, c.seq, c.data.childId)
  | .phase c => some (c.entryId, c.seq, c.data.childId)
  | .resyncRequired _ => none

namespace ChildSubscription

/-- The newest envelopes, as many as are kept. -/
def keepEnvelopes (envelopes : List (String × ChildEvent)) : List (String × ChildEvent) :=
  if recentIdentities < envelopes.length then envelopes.drop 1 else envelopes

/-- A child that has to be selected; there is no other way on. -/
def selected (s : ChildSubscription) (childId : String) : Except ServiceError (List ChildPhase) :=
  okOr (s.working.lookup childId) inconsistent

def mergePhase (s : ChildSubscription) (childId : String) (phase : ChildPhase) :
    Except ServiceError ChildSubscription := do
  let phases ← s.selected childId
  let identities ← s.identities.record (.phase phase)
  let (_, phases) ← merge phases phase
  return { s with identities, working := Assoc.insert s.working childId phases }

def seedChild (s : ChildSubscription) (child : ChildSummary) :
    Except ServiceError ChildSubscription := do
  let identities ← s.identities.record (canonical child)
  return { s with
    identities
    nativeHigh := max s.nativeHigh child.seq
    working := Assoc.insert s.working child.childId [] }

def seedPhase (childId : String) (s : ChildSubscription) (phase : ChildPhase) :
    Except ServiceError ChildSubscription := do
  let s ← s.mergePhase childId phase
  return { s with nativeHigh := max s.nativeHigh phase.seq }

def seedPage (s : ChildSubscription) (page : ChildPhasePage) :
    Except ServiceError ChildSubscription := do
  let _ ← s.selected page.childId
  page.phases.reverse.foldlM (seedPhase page.childId) s

/-- An event of the snapshot, under its entry. -/
def keep (s : ChildSubscription) (id : String) (seq : UInt64) (event : ChildEvent) :
    ChildSubscription :=
  { s with
    nativeHigh := max s.nativeHigh seq
    envelopes := keepEnvelopes (s.envelopes ++ [(id, event)]) }

def seedEvent (s : ChildSubscription) (event : ChildEvent) :
    Except ServiceError ChildSubscription :=
  match event with
  | .begin c => do
    let identities ← s.identities.record (canonical (summaryOf c))
    return { s with identities }.keep c.entryId c.seq event
  | .phase c => do
    let s ← s.mergePhase c.data.childId (phaseOf c)
    return s.keep c.entryId c.seq event
  | .resyncRequired _ => .ok s

def seedObservation (s : ChildSubscription) (observation : ChildObservation) :
    Except ServiceError ChildSubscription := do
  let _ ← s.selected observation.childId
  (observation.finalPhase.toList ++ observation.closedPhase.toList).foldlM
    (fun s phase => s.mergePhase observation.childId phase) s

/-- The subscription of an accepted snapshot. -/
def seed (snapshot : ChildSnapshot) : Except ServiceError ChildSubscription := do
  let s ← snapshot.children.foldlM seedChild ⟨snapshot, 0, [], .default, []⟩
  let s ← snapshot.phases.foldlM seedPage s
  let s ← snapshot.events.foldlM seedEvent s
  let s ← snapshot.observations.foldlM seedObservation s
  return { s with identities := s.identities.retainRecent recentIdentities }

def preflight (s : ChildSubscription) (event : ChildEvent) : Except ChildResyncReason Unit := do
  let (id, seq, childId) ← okOr event.entry? .nativeResync
  failIf (s.working.lookup childId = none) .outsideWindow
  failIf (s.envelopes.any (fun (key, old) => key == id && old != event) = true) .identityConflict
  failIf (s.identities.contains id = false ∧ seq ≤ s.nativeHigh) .unknownOldIdentity
  match event with
  | .phase c =>
    let incoming := phaseOf c
    failIf (s.working.any (fun (_, phases) => phases.any fun old =>
      (old.entryId == incoming.entryId || old.seq == incoming.seq) && old != incoming) = true)
      .identityConflict
  | _ => .ok ()

/-- What an event adds once its identity is settled: its phase, or nothing for a known one. -/
def dispose (s : ChildSubscription) (event : ChildEvent) (known : Bool) :
    Except ChildResyncReason (ReplayDisposition × ChildSubscription) :=
  match event with
  | .begin c => do
    let original ← okOr (s.snapshot.children.find? fun child => child.childId == c.data.childId)
      .outsideWindow
    -- the begins of the snapshot are kept even when their identities are not
    let incoming := { summaryOf c with originVerification := original.originVerification }
    failIf (incoming ≠ original) .identityConflict
    let identities ← (s.identities.record (canonical incoming)).mapError fun _ => .identityConflict
    return (.duplicate, { s with identities })
  | .phase c => do
    let begun ← okOr (s.snapshot.children.find? fun child => child.childId == c.data.childId)
      .outsideWindow
    failIf (c.seq ≤ begun.seq) .identityConflict
    let phase := phaseOf c
    let identities ← (s.identities.record (.phase phase)).mapError fun _ => .identityConflict
    let s := { s with identities }
    if known then return (.duplicate, s)
    else
      let phases ← okOr (s.working.lookup c.data.childId) .outsideWindow
      let (disposition, phases) ← (merge phases phase).mapError fun _ => .identityConflict
      return (disposition, { s with working := Assoc.insert s.working c.data.childId phases })
  | .resyncRequired _ => .error .nativeResync

/-- The event is applied; an error ends the stream, so what it leaves behind is not kept. -/
def apply (s : ChildSubscription) (event : ChildEvent) :
    Except ChildResyncReason
      ((ReplayDisposition × Option ChildObservation) × ChildSubscription) := do
  let (id, seq, childId) ← okOr event.entry? .nativeResync
  failIf (s.working.lookup childId = none) .outsideWindow
  match s.envelopes.lookup id with
  | some old =>
    if old = event then return ((.duplicate, none), s) else .error .identityConflict
  | none =>
    let known := s.identities.contains id
    failIf (known = false ∧ seq ≤ s.nativeHigh) .unknownOldIdentity
    let (disposition, s) ← s.dispose event known
    failIf (disposition = .resyncRequired ∨ disposition = .outsideWindow) .phaseDiscontinuity
    let s := { s with
      nativeHigh := max s.nativeHigh seq
      identities := s.identities.retainRecent recentIdentities
      envelopes := keepEnvelopes (s.envelopes ++ [(id, event)]) }
    let observation := if disposition = .applied then
        some (observe childId ((s.working.lookup childId).getD []))
      else none
    return ((disposition, observation), s)

end ChildSubscription

/-! ### The stream -/

inductive ChildStreamItem where
  | update (event : ChildEvent) (observation : Option ChildObservation)
      (disposition : ReplayDisposition)
  | resyncRequired (reason : ChildResyncReason)

/-- A stream is over once it has asked for another snapshot. -/
structure ChildStream where
  subscription : ChildSubscription
  stopped : Bool
  items : List ChildStreamItem

namespace ChildStream

def start (s : ChildSubscription) : ChildStream := ⟨s, false, []⟩

def stop (t : ChildStream) (reason : ChildResyncReason) : ChildStream :=
  { t with stopped := true, items := t.items ++ [.resyncRequired reason] }

/-- A parsed event, and what the reads between its two checks make of the branch. -/
def next (t : ChildStream) (op : ChildEvent × Except ChildResyncReason Unit) : ChildStream :=
  if t.stopped then t
  else
    match t.subscription.preflight op.1, op.2 with
    | .error reason, _ => t.stop reason
    | .ok (), .error reason => t.stop reason
    | .ok (), .ok () =>
      match t.subscription.apply op.1 with
      | .error reason => t.stop reason
      | .ok ((disposition, observation), subscription) =>
        { t with subscription, items := t.items ++ [.update op.1 observation disposition] }

end ChildStream

end Child
