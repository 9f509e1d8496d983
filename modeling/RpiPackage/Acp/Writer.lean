import RpiPackage.Lib.JsonLine
import RpiPackage.Lib.Run
import RpiPackage.Lib.Table
import RpiPackage.Lib.Turns

/-!
# The writer of a connection

Calls of the writer run side by side and share the output of a connection, the flag that it is
closed and the map of the requests that wait for the client. A critical section of the map is one
step; between any two pieces of a frame every other call can run, and a call that waits can be
dropped.
-/

namespace Acp

open Json

inductive ClientRequestError where
  | rpc (code : Int) (message : String)
  | invalidResponse
  | tooLarge
  | capacity
  | cancelled
  | disconnected
  deriving DecidableEq, Repr

abbrev Response := Except ClientRequestError Value

inductive IoError where
  | brokenPipe
  | timedOut
  | writeZero
  | other (kind : String)
  deriving DecidableEq, Repr

/-- What is called: one of the writes, or a request to the client. -/
inductive Kind where
  | write (frame : Document)
  | configuration (frame : Document)
  | contextUsage (frame : Document)
  | request (method : String) (params : Document) (maxResponseBytes : Option Nat)

namespace Kind

def isRequest : Kind → Bool
  | .request _ _ _ => true
  | _ => false

def maxResponseBytes : Kind → Option Nat
  | .request _ _ limit => limit
  | _ => none

end Kind

def requestFrame (id : UInt64) (method : String) (params : Document) : Document where
  value := .object [("jsonrpc", .string "2.0"), ("id", .number (.posInt id)),
    ("method", .string method), ("params", params.value)]
  plain := ⟨trivial, trivial, trivial, params.plain, trivial⟩

/-- The end of a write; nothing is returned when its future is dropped. The caller of the write may
close the connection afterwards. -/
structure Exit where
  closes : Bool
  result : Option (Except IoError Unit)

inductive Outcome where
  | dropped
  | wrote (result : Except IoError Unit)
  | answered (result : Response)

/-- A call holds the output from `locked` to `unlocking`: it looks whether the connection is closed,
writes its frame, flushes it, and closes the connection when the frame is not complete. -/
inductive Phase where
  | absent
  | called
  | numbered
  | waiting
  | locked
  | framing (sent : Nat)
  | flushing
  | closing (exit : Exit)
  | unlocking (exit : Exit)
  | leaving (exit : Exit)
  | awaiting
  | removing (outcome : Outcome)
  | finished (outcome : Outcome)

/-- The channel of a request: its sender is in the map, has sent, or has been dropped. -/
inductive Channel where
  | empty
  | sent (result : Response)
  | dropped

structure Call where
  kind : Kind
  id : UInt64
  channel : Channel
  -- what the client has answered to the id since it was asked
  answers : List Response
  phase : Phase

namespace Call

def frame (call : Call) : Document :=
  match call.kind with
  | .write frame | .configuration frame | .contextUsage frame => frame
  | .request method params _ => requestFrame call.id method params

/-- The client can have been asked, and the request has not ended. -/
def asked (call : Call) : Bool :=
  call.kind.isRequest &&
    match call.phase with
    | .absent | .called | .numbered | .finished _ => false
    | _ => true

/-- The sender of a request is dropped. -/
def hangUp (call : Call) : Call :=
  match call.channel with
  | .empty => { call with channel := .dropped }
  | _ => call

/-- A response arrives. -/
def hear (call : Call) (id : UInt64) (result : Response) : Call :=
  if call.asked && call.id == id then { call with answers := call.answers ++ [result] } else call

end Call

structure ClientPending where
  -- the call that receives what is sent
  tx : Nat
  maxResponseBytes : Option Nat
  deriving DecidableEq, Repr

structure Writer where
  out : List UInt8
  holder : Option Nat
  closed : Bool
  pending : Table UInt64 ClientPending
  nextId : UInt64
  calls : Nat → Call

def withinJsonBudget (value : Value) (limit : Nat) : Bool := value.compactSize ≤ limit

/-- A result that is larger than the request allows is replaced. -/
def clip (maxResponseBytes : Option Nat) (result : Response) : Response :=
  match maxResponseBytes, result with
  | some limit, .ok value =>
    if withinJsonBudget value limit then .ok value else .error .tooLarge
  | _, result => result

namespace Writer

def new : Writer where
  out := []
  holder := none
  closed := false
  pending := .empty
  nextId := 1
  calls _ := ⟨.write ⟨.null, trivial⟩, 0, .empty, [], .absent⟩

def setCall (w : Writer) (c : Nat) (call : Call) : Writer :=
  { w with calls := Function.update w.calls c call }

def goto (w : Writer) (c : Nat) (phase : Phase) : Writer :=
  w.setCall c { w.calls c with phase }

/-- An entry of the map is dropped, with its sender. -/
def forget (w : Writer) (id : UInt64) : Writer :=
  match w.pending.get id with
  | some p => { w with pending := w.pending.erase id }.setCall p.tx (w.calls p.tx).hangUp
  | none => w

def close (w : Writer) : Writer :=
  { w with
    closed := true
    pending := .empty
    calls := fun c =>
      if w.pending.entries.any fun p => p.2.tx == c then (w.calls c).hangUp else w.calls c }

def send (w : Writer) (id : UInt64) (p : ClientPending) (result : Response) : Writer :=
  { w with pending := w.pending.erase id }.setCall p.tx
    { w.calls p.tx with channel := .sent result }

def resolveChecked (w : Writer) (id : UInt64) (result : Response) : Writer :=
  let w := { w with calls := fun c => (w.calls c).hear id result }
  match w.pending.get id with
  | some p => w.send id p (clip p.maxResponseBytes result)
  | none => w

def cancelRequest (w : Writer) (id : UInt64) : Writer :=
  match w.pending.get id with
  | some p => w.send id p (.error .cancelled)
  | none => w

/-- The admission of a request. -/
def admitCall (w : Writer) (c : Nat) : Writer :=
  if w.closed then w.goto c (.finished (.answered (.error .disconnected)))
  else if 64 ≤ w.pending.size then w.goto c (.finished (.answered (.error .capacity)))
  else
    let call := w.calls c
    -- the numbers wrap around, so there may be an older entry
    let w := w.forget call.id
    { w with pending := w.pending.put call.id ⟨c, call.kind.maxResponseBytes⟩ }.setCall c
      { call with channel := .empty, answers := [], phase := .waiting }

/-- A write is over, and the call that made it goes on. -/
def leave (w : Writer) (c : Nat) (exit : Exit) : Writer :=
  let w := if exit.closes then w.close else w
  if (w.calls c).kind.isRequest then
    match exit.result with
    | some (.ok _) => w.goto c .awaiting
    | some (.error _) => w.close.goto c (.removing (.answered (.error .disconnected)))
    | none => w.goto c (.removing .dropped)
  else
    match exit.result with
    | some result => w.goto c (.finished (.wrote result))
    | none => w.goto c (.finished .dropped)

/-- A call goes on by itself. -/
def advance (w : Writer) (c : Nat) : Writer :=
  match (w.calls c).phase with
  | .called =>
    if (w.calls c).kind.isRequest then
      { w with nextId := w.nextId + 1 }.setCall c
        { w.calls c with id := w.nextId, phase := .numbered }
    else w.goto c .waiting
  | .numbered => w.admitCall c
  | .waiting => if w.holder.isNone then { w.goto c .locked with holder := some c } else w
  | .locked =>
    if w.closed then w.goto c (.closing ⟨true, some (.error .brokenPipe)⟩)
    else w.goto c (.framing 0)
  | .closing exit => w.close.goto c (.unlocking exit)
  | .unlocking exit => { w.goto c (.leaving exit) with holder := none }
  | .leaving exit => w.leave c exit
  | .awaiting =>
    match (w.calls c).channel with
    | .empty => w
    | .sent result => w.goto c (.removing (.answered result))
    | .dropped => w.goto c (.removing (.answered (.error .disconnected)))
  | .removing outcome => (w.forget (w.calls c).id).goto c (.finished outcome)
  | .absent | .framing _ | .flushing | .finished _ => w

/-- The output takes at most `n` more bytes of a frame; to take none is an error. -/
def put (w : Writer) (c n : Nat) : Writer :=
  match (w.calls c).phase with
  | .framing sent =>
    let rest := (w.calls c).frame.line.drop sent
    if n = 0 then w.goto c (.closing ⟨true, some (.error .writeZero)⟩)
    else if n < rest.length then
      { w.goto c (.framing (sent + n)) with out := w.out ++ rest.take n }
    else { w.goto c .flushing with out := w.out ++ rest }
  | _ => w

/-- The future of a write is left, before or after it got the output. -/
def abandon (w : Writer) (c : Nat) (exit : Exit) : Writer :=
  match (w.calls c).phase with
  | .waiting => w.goto c (.leaving exit)
  | .framing _ | .flushing => w.goto c (.closing exit)
  | _ => w

def timeout (w : Writer) (c : Nat) : Writer :=
  match (w.calls c).kind, (w.calls c).phase with
  | .configuration _, .waiting | .configuration _, .framing _ | .configuration _, .flushing =>
    w.abandon c ⟨true, some (.error .timedOut)⟩
  | .contextUsage _, .waiting | .contextUsage _, .framing _ | .contextUsage _, .flushing =>
    -- closed before the write is dropped
    w.close.abandon c ⟨false, some (.error .timedOut)⟩
  | _, _ => w

/-- The caller of a call drops it while it waits. -/
def drop (w : Writer) (c : Nat) : Writer :=
  match (w.calls c).phase with
  | .called => w.goto c (.finished .dropped)
  | .awaiting => w.goto c (.removing .dropped)
  | _ => w.abandon c ⟨false, none⟩

inductive Input where
  | go
  | put (n : Nat)
  | flushed
  | fail (error : IoError)
  -- a write that waits is polled, and finds the connection closed
  | notice
  | timeout
  | drop
  deriving DecidableEq, Repr

def run (w : Writer) (c : Nat) : Input → Writer
  | .go => w.advance c
  | .put n => w.put c n
  | .flushed =>
    match (w.calls c).phase with
    | .flushing => w.goto c (.unlocking ⟨false, some (.ok ())⟩)
    | _ => w
  | .fail error =>
    match (w.calls c).phase with
    | .framing _ | .flushing => w.goto c (.closing ⟨true, some (.error error)⟩)
    | _ => w
  | .notice => if w.closed then w.abandon c ⟨false, some (.error .brokenPipe)⟩ else w
  | .timeout => w.timeout c
  | .drop => w.drop c

inductive Event where
  | call (c : Nat) (kind : Kind)
  | run (c : Nat) (input : Input)
  | respond (id : UInt64) (result : Response)
  | cancel (id : UInt64)
  | close

def step (w : Writer) : Event → Writer
  | .call c kind =>
    match (w.calls c).phase with
    | .absent => w.setCall c ⟨kind, 0, .empty, [], .called⟩
    | _ => w
  | .run c input => w.run c input
  | .respond id result => w.resolveChecked id result
  | .cancel id => w.cancelRequest id
  | .close => w.close

abbrev after (w : Writer) (events : List Event) : Writer := Run.after step w events

end Writer

/-! ### What a change of the map keeps -/

namespace Call

/-- Only what the call has heard is different. -/
structure Same (call call' : Call) : Prop where
  kind : call'.kind = call.kind
  id : call'.id = call.id
  phase : call'.phase = call.phase

variable {call call' : Call}

lemma Same.refl (call : Call) : Same call call := ⟨rfl, rfl, rfl⟩

lemma Same.trans {call'' : Call} (h : Same call call') (h' : Same call' call'') :
    Same call call'' :=
  ⟨h'.kind.trans h.kind, h'.id.trans h.id, h'.phase.trans h.phase⟩

lemma Same.frame (h : Same call call') : call'.frame = call.frame := by
  unfold Call.frame
  rw [h.kind, h.id]

lemma Same.asked (h : Same call call') : call'.asked = call.asked := by
  unfold Call.asked
  rw [h.kind, h.phase]

lemma same_hangUp (call : Call) : Same call call.hangUp := by
  unfold hangUp
  split
  · exact ⟨rfl, rfl, rfl⟩
  · exact .refl call

lemma same_hear (call : Call) (id : UInt64) (result : Response) :
    Same call (call.hear id result) := by
  unfold hear
  split
  · exact ⟨rfl, rfl, rfl⟩
  · exact .refl call

end Call

namespace Writer

variable {w w' : Writer} {c c' : Nat}

@[simp] lemma calls_setCall_self (w : Writer) (c : Nat) (call : Call) :
    (w.setCall c call).calls c = call := by
  simp [setCall]

lemma calls_setCall_of_ne (h : c' ≠ c) (w : Writer) (call : Call) :
    (w.setCall c call).calls c' = w.calls c' := by
  simp [setCall, h]

@[simp] lemma calls_goto_self (w : Writer) (c : Nat) (phase : Phase) :
    (w.goto c phase).calls c = { w.calls c with phase } := by
  simp [goto]

lemma calls_goto_of_ne (h : c' ≠ c) (w : Writer) (phase : Phase) :
    (w.goto c phase).calls c' = w.calls c' :=
  calls_setCall_of_ne h w _

/-- The output and the phases are left alone. -/
structure Quiet (w w' : Writer) : Prop where
  out : w'.out = w.out
  holder : w'.holder = w.holder
  closed : w.closed = true → w'.closed = true
  calls : ∀ c, (w.calls c).Same (w'.calls c)

lemma Quiet.refl (w : Writer) : Quiet w w := ⟨rfl, rfl, id, fun c => .refl (w.calls c)⟩

lemma Quiet.trans {w'' : Writer} (h : Quiet w w') (h' : Quiet w' w'') : Quiet w w'' :=
  ⟨h'.out.trans h.out, h'.holder.trans h.holder, h'.closed ∘ h.closed,
    fun c => (h.calls c).trans (h'.calls c)⟩

lemma quiet_setCall {call : Call} (h : (w.calls c).Same call) (pending : Table UInt64 ClientPending) :
    Quiet w ({ w with pending }.setCall c call) := by
  refine ⟨rfl, rfl, id, fun c' => ?_⟩
  by_cases hc : c' = c
  · subst hc
    rwa [calls_setCall_self]
  · rw [calls_setCall_of_ne hc]
    exact .refl _

lemma quiet_forget (w : Writer) (id : UInt64) : Quiet w (w.forget id) := by
  unfold forget
  split
  · exact quiet_setCall (Call.same_hangUp _) _
  · exact .refl w

lemma quiet_close (w : Writer) : Quiet w w.close := by
  refine ⟨rfl, rfl, fun _ => rfl, fun c => ?_⟩
  unfold close
  dsimp only
  split
  · exact Call.same_hangUp _
  · exact .refl _

lemma quiet_send (w : Writer) (id : UInt64) (p : ClientPending) (result : Response) :
    Quiet w (w.send id p result) := by
  have hsame : (w.calls p.tx).Same { w.calls p.tx with channel := .sent result } := ⟨rfl, rfl, rfl⟩
  exact quiet_setCall hsame _

lemma quiet_resolveChecked (w : Writer) (id : UInt64) (result : Response) :
    Quiet w (w.resolveChecked id result) := by
  have hheard : Quiet w { w with calls := fun c => (w.calls c).hear id result } :=
    ⟨rfl, rfl, fun h => h, fun c => Call.same_hear _ id result⟩
  unfold resolveChecked
  dsimp only
  split
  · exact hheard.trans (quiet_send _ _ _ _)
  · exact hheard

lemma quiet_cancelRequest (w : Writer) (id : UInt64) : Quiet w (w.cancelRequest id) := by
  unfold cancelRequest
  split
  · exact quiet_send _ _ _ _
  · exact .refl w

end Writer

end Acp
