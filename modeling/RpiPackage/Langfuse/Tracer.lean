import RpiPackage.Lib.Assoc

/-!
# The span store of the trace exporter

The handlers of the host's events, the two locks they share and the exports. A handler computes on
the turn while it holds the lock of the prompt state, and each use it makes of the span store is a
section of the store's own lock; an export holds no lock while its request is under way. What the
observations say is left out. The ids are numbered in the order in which they are drawn.
-/

namespace Langfuse

structure SpanRecord where
  id : Nat
  hasParent : Bool
  ended : Bool
  deriving DecidableEq, Repr

structure OpenGeneration where
  obsId : Nat
  finished : Bool
  deriving DecidableEq, Repr

/-- The turns are numbered in the order in which they begin. -/
structure PromptState where
  turn : Nat
  rootObsId : Nat
  openGeneration : Option OpenGeneration
  openTools : List (String × Nat)
  deriving Repr

/-- A use of the span store by a handler that holds the prompt state. -/
inductive Op where
  | start (id turn : Nat)
  | stop (id : Nat)
  -- the end of the root, the last thing `finalize_root` does with the store
  | finalize (turn root : Nat)
  deriving DecidableEq, Repr

/-- What a handler does once it has let go of the prompt state. -/
inductive Tail where
  | begin (subagent : Bool)
  | install (root : Nat)
  | close
  | flush (includeOpen : Bool)
  deriving DecidableEq, Repr

/-- An export with its request under way, or answered with success. -/
structure Flush where
  includeOpen : Bool
  batch : List SpanRecord
  sent : Bool
  deriving Repr

inductive Event where
  -- a child of a turn, or an observation of its own
  | started (id : Nat) (turn : Option Nat)
  | ended (id : Nat)
  | finalized (turn : Nat)
  -- a request was answered with success
  | exported (includeOpen : Bool) (batch : List SpanRecord)
  -- an attempt to export is over, with so many observations in the store
  | flushed (held : Nat)
  deriving DecidableEq, Repr

structure Tracer where
  prompt : Option PromptState
  -- the handler that has the prompt state: its uses of the store that are left, and the rest
  holder : Option (List Op × Option Tail)
  tails : List Tail
  -- compactions between the start and the end of their observation
  compactions : List Nat
  flushes : List Flush
  store : List SpanRecord
  nextId : Nat
  nextTurn : Nat
  log : List Event
  deriving Repr

/-! ### Handlers -/

def stopGeneration : Option OpenGeneration → List Op
  | some gen => if gen.finished then [] else [.stop gen.obsId]
  | none => []

def finalizeRoot (p : PromptState) : List Op :=
  stopGeneration p.openGeneration ++ p.openTools.map (fun tool => .stop tool.2) ++
    [.finalize p.turn p.rootObsId]

def onBeforeProviderRequest (obsId : Nat) (p : PromptState) : PromptState × List Op :=
  ({ p with openGeneration := some ⟨obsId, false⟩ },
    stopGeneration p.openGeneration ++ [.start obsId p.turn])

/-- The end of an assistant message; `toolCalls` tells whether it holds any. -/
def onMessageEnd (toolCalls : Bool) (p : PromptState) : PromptState × List Op × Option Tail :=
  match p.openGeneration with
  | none => (p, [], none)
  | some gen =>
    let p := { p with openGeneration := none }
    if gen.finished then (p, [], none)
    else
      (p, [.stop gen.obsId],
        some (if !toolCalls && p.openTools.isEmpty then .close else .flush false))

def onToolExecutionStart (obsId : Nat) (toolCallId : String) (p : PromptState) :
    PromptState × List Op :=
  ({ p with openTools := Assoc.insert p.openTools toolCallId obsId }, [.start obsId p.turn])

/-- The end of a tool; `usage` tells whether its result reports one. -/
def onToolExecutionEnd (usageObsId : Nat) (toolCallId : String) (usage : Bool) (p : PromptState) :
    PromptState × List Op :=
  match p.openTools.lookup toolCallId with
  | none => (p, [])
  | some tool =>
    ({ p with openTools := Assoc.erase p.openTools toolCallId },
      (if usage then [.start usageObsId p.turn, .stop usageObsId] else []) ++ [.stop tool])

namespace Tracer

def start : Tracer where
  prompt := none
  holder := none
  tails := []
  compactions := []
  flushes := []
  store := []
  nextId := 0
  nextTurn := 0
  log := []

variable (s : Tracer)

/-! ### The store -/

def startObservation (id : Nat) (hasParent : Bool) (turn : Option Nat) : Tracer :=
  { s with store := s.store ++ [⟨id, hasParent, false⟩], log := s.log ++ [.started id turn] }

def endRecord (id : Nat) : List SpanRecord → List SpanRecord
  | [] => []
  | rec :: store => if rec.id = id then { rec with ended := true } :: store
    else rec :: endRecord id store

def endObservation (id : Nat) : Tracer :=
  { s with store := endRecord id s.store, log := s.log ++ [.ended id] }

def exec : Op → Tracer
  | .start id turn => s.startObservation id true (some turn)
  | .stop id => s.endObservation id
  | .finalize turn root =>
    let s := s.endObservation root
    { s with log := s.log ++ [.finalized turn] }

/-! ### Exports -/

/-- The observations that are sent, the roots last. -/
def snapshot (includeOpen : Bool) : List SpanRecord :=
  let ended := s.store.filter fun rec => rec.ended || includeOpen
  ended.filter (fun rec => rec.hasParent) ++ ended.filter fun rec => !rec.hasParent

/-- The first part of `flush_ended_spans`. -/
def beginFlush (includeOpen : Bool) : Tracer :=
  let batch := s.snapshot includeOpen
  if batch.isEmpty then { s with log := s.log ++ [.flushed s.store.length] }
  else { s with flushes := s.flushes ++ [⟨includeOpen, batch, false⟩] }

/-- The request of an export is answered. -/
def respond (i : Nat) (success : Bool) : Tracer :=
  match s.flushes[i]? with
  | some ⟨includeOpen, batch, false⟩ =>
    if success then
      { s with
        flushes := s.flushes.set i ⟨includeOpen, batch, true⟩
        log := s.log ++ [.exported includeOpen batch] }
    else
      { s with flushes := s.flushes.eraseIdx i, log := s.log ++ [.flushed s.store.length] }
  | _ => s

/-- The observations that an export leaves in the store. -/
def retained (includeOpen : Bool) : List SpanRecord :=
  s.store.filter fun rec => !rec.ended && !includeOpen

def bounded (store : List SpanRecord) : List SpanRecord :=
  if 2000 < store.length then store.drop (store.length - 1000) else store

/-- The last part of `flush_ended_spans`, after a success. -/
def prune (i : Nat) : Tracer :=
  match s.flushes[i]? with
  | some ⟨includeOpen, _, true⟩ =>
    let store := bounded (s.retained includeOpen)
    { s with store, flushes := s.flushes.eraseIdx i, log := s.log ++ [.flushed store.length] }
  | _ => s

/-! ### Turns -/

/-- A handler that takes the turn and finalizes it, if there is one. -/
def takeTurn (tail : Tail) : Tracer :=
  match s.prompt with
  | none => { s with tails := s.tails ++ [tail] }
  | some p => { s with prompt := none, holder := some (finalizeRoot p, some tail) }

/-- A handler that works on the turn, if there is one; it can draw one id. -/
def onTurn (handler : Nat → PromptState → PromptState × List Op × Option Tail) : Tracer :=
  match s.prompt with
  | none => s
  | some p =>
    let (p, ops, tail) := handler s.nextId p
    { s with prompt := some p, holder := some (ops, tail), nextId := s.nextId + 1 }

/-- The handler that has the prompt state goes on. -/
def run : Tracer :=
  match s.holder with
  | none => s
  | some (op :: ops, tail) => { s.exec op with holder := some (ops, tail) }
  | some ([], tail) => { s with holder := none, tails := s.tails ++ tail.toList }

/-- A handler that has let go of the prompt state goes on. -/
def proceed (i : Nat) : Tracer :=
  match s.tails[i]? with
  | none => s
  | some (.begin subagent) =>
    { s.startObservation s.nextId subagent none with
      tails := s.tails.set i (.install s.nextId)
      nextId := s.nextId + 1 }
  | some (.install root) =>
    if s.holder.isSome then s
    else
      { s with
        prompt := some ⟨s.nextTurn, root, none, []⟩
        nextTurn := s.nextTurn + 1
        tails := s.tails.eraseIdx i }
  | some .close =>
    if s.holder.isSome then s
    else { s with tails := s.tails.eraseIdx i }.takeTurn (.flush true)
  | some (.flush includeOpen) => { s with tails := s.tails.eraseIdx i }.beginFlush includeOpen

def compact : Tracer :=
  { s.startObservation s.nextId false none with
    compactions := s.compactions ++ [s.nextId]
    nextId := s.nextId + 1 }

def endCompaction (i : Nat) : Tracer :=
  match s.compactions[i]? with
  | none => s
  | some id => { s.endObservation id with compactions := s.compactions.eraseIdx i }

end Tracer

/-! ### Runs -/

inductive Action where
  | sessionStart
  | turnStart (subagent : Bool)
  | providerRequest
  | messageEnd (toolCalls : Bool)
  | toolStart (toolCallId : String)
  | toolEnd (toolCallId : String) (usage : Bool)
  | settle
  | shutdown
  | compact
  | endCompaction (i : Nat)
  | run
  | proceed (i : Nat)
  | respond (i : Nat) (success : Bool)
  | prune (i : Nat)
  deriving DecidableEq, Repr

/-- A handler that needs the prompt state waits while another one has it. -/
def Tracer.step (s : Tracer) : Action → Tracer
  | .sessionStart => if s.holder.isSome then s else { s with prompt := none }
  | .turnStart subagent => if s.holder.isSome then s else s.takeTurn (.begin subagent)
  | .providerRequest =>
    if s.holder.isSome then s
    else s.onTurn fun obsId p =>
      let (p, ops) := onBeforeProviderRequest obsId p
      (p, ops, none)
  | .messageEnd toolCalls =>
    if s.holder.isSome then s else s.onTurn fun _ p => onMessageEnd toolCalls p
  | .toolStart toolCallId =>
    if s.holder.isSome then s
    else s.onTurn fun obsId p =>
      let (p, ops) := onToolExecutionStart obsId toolCallId p
      (p, ops, none)
  | .toolEnd toolCallId usage =>
    if s.holder.isSome then s
    else s.onTurn fun obsId p =>
      let (p, ops) := onToolExecutionEnd obsId toolCallId usage p
      (p, ops, none)
  | .settle => if s.holder.isSome then s else s.takeTurn (.flush true)
  | .shutdown => if s.holder.isSome then s else s.takeTurn (.flush true)
  | .compact => s.compact
  | .endCompaction i => s.endCompaction i
  | .run => s.run
  | .proceed i => s.proceed i
  | .respond i success => s.respond i success
  | .prune i => s.prune i

end Langfuse
