import RpiPackage.Antigravity.Rebuild

/-!
# One request

The driver starts the message, opens the response, reads its chunks and ends the message. Its
events are converted to those of the host, and an event that cannot be converted ends the stream as
one that the consumer has closed.
-/

namespace Antigravity

open Json

/-- The messages and tool calls of the host, and what decodes them. -/
structure Host (M C : Type) where
  message : Output → Except String M
  toolCall : ToolCall → Except String C

def ToolCall.typed (call : ToolCall) : Bool :=
  isString call.id && isString call.name && call.thoughtSignature.all isString

def Block.typed : Block → Bool
  | .text _ signature => signature.all isString
  | .thinking _ signature => signature.all isString
  | .toolCall call => call.typed

/-- Each field of the message has its declared type. -/
def Output.typed (output : Output) : Bool :=
  isString output.api && isString output.provider && isString output.model &&
    output.content.all Block.typed && output.usage.typed

/-- What is decoded is what has the declared types. -/
structure Host.Decodes {M C : Type} (host : Host M C) : Prop where
  message : ∀ output, (host.message output).isOk = output.typed
  toolCall : ∀ call, (host.toolCall call).isOk = call.typed

/-- The events of the host. The reason of a message is set after it has been decoded. -/
inductive AssistantMessageEvent (M C : Type) where
  | start (partialMessage : M × StopReason)
  | textStart (contentIndex : Nat) (partialMessage : M × StopReason)
  | textDelta (contentIndex : Nat) (delta : String) (partialMessage : M × StopReason)
  | textEnd (contentIndex : Nat) (content : String) (partialMessage : M × StopReason)
  | thinkingStart (contentIndex : Nat) (partialMessage : M × StopReason)
  | thinkingDelta (contentIndex : Nat) (delta : String) (partialMessage : M × StopReason)
  | thinkingEnd (contentIndex : Nat) (content : String) (partialMessage : M × StopReason)
  | toolCallStart (contentIndex : Nat) (partialMessage : M × StopReason)
  | toolCallEnd (contentIndex : Nat) (toolCall : C) (partialMessage : M × StopReason)
  | done (reason : StopReason) (message : M × StopReason)
  | error (reason : StopReason) (error : M × StopReason)

def AssistantMessageEvent.isTerminal {M C : Type} : AssistantMessageEvent M C → Bool
  | .done _ _ | .error _ _ => true
  | _ => false

section

variable {M C : Type} (host : Host M C)

/-- The reason is replaced by another one while the message is decoded. -/
def messageOf (output : Output) : Except String (M × StopReason) :=
  match host.message { output with stopReason := .stop } with
  | .ok message => .ok (message, output.stopReason)
  | .error error => .error ("invalid Antigravity message: " ++ error)

def debug : StopReason → String
  | .stop => "Stop"
  | .length => "Length"
  | .toolUse => "ToolUse"
  | .error => "Error"
  | .aborted => "Aborted"

def toEvent : Event → Except String (AssistantMessageEvent M C)
  | .start o => (messageOf host o).map .start
  | .textStart index o => (messageOf host o).map (.textStart index)
  | .textDelta index delta o => (messageOf host o).map (.textDelta index delta)
  | .textEnd index content o => (messageOf host o).map (.textEnd index content)
  | .thinkingStart index o => (messageOf host o).map (.thinkingStart index)
  | .thinkingDelta index delta o => (messageOf host o).map (.thinkingDelta index delta)
  | .thinkingEnd index content o => (messageOf host o).map (.thinkingEnd index content)
  | .toolcallStart index o => (messageOf host o).map (.toolCallStart index)
  | .toolcallEnd index call o =>
    match host.toolCall call with
    | .error error => .error ("invalid Antigravity tool call: " ++ error)
    | .ok call => (messageOf host o).map (.toolCallEnd index call)
  | .done _ o =>
    match messageOf host o with
    | .error error => .error error
    | .ok message =>
      if message.2 = .error ∨ message.2 = .aborted then
        .error ("unexpected Antigravity done reason " ++ debug message.2)
      else .ok (.done message.2 message)
  | .error _ o =>
    (messageOf host o).map fun error =>
      .error (if error.2 = .aborted then .aborted else .error) error

/-- What has been pushed, and how many events the consumer takes before it closes the stream. -/
structure Emitter (M C : Type) where
  pushed : List (AssistantMessageEvent M C)
  closesAfter : Option Nat

def Emitter.push (emitter : Emitter M C) (event : AssistantMessageEvent M C) :
    Bool × Emitter M C :=
  if emitter.closesAfter.any fun most => most ≤ emitter.pushed.length then (false, emitter)
  else (true, { emitter with pushed := emitter.pushed ++ [event] })

def Emitter.emit (emitter : Emitter M C) (event : Event) : Except String Unit × Emitter M C :=
  match toEvent host event with
  | .error error => (.error error, emitter)
  | .ok mapped =>
    match emitter.push mapped with
    | (true, emitter) => (.ok (), emitter)
    | (false, emitter) => (.error "assistant message stream was closed", emitter)

/-- What is told is emitted up to the first event that is refused, with the state of that moment. -/
def Emitter.send (emitter : Emitter M C) : List Told → Option (String × State) × Emitter M C
  | [] => (none, emitter)
  | t :: told =>
    match emitter.emit host t.event with
    | (.error error, emitter) => (some (error, t.state), emitter)
    | (.ok _, emitter) => emitter.send told

/-- How a computation ends with a sink, in which state, and what has been pushed by then. -/
abbrev Outcome (M C α : Type) := (Except Stop α × State) × Emitter M C

/-- A computation of the state machine, with its sink. -/
def Emitter.follow {α : Type} (emitter : Emitter M C) (telling : Telling α) : Outcome M C α :=
  match emitter.send host telling.told with
  | (some refused, emitter) => ((.error (.failed refused.1), refused.2), emitter)
  | (none, emitter) => ((telling.result, telling.state), emitter)

end

/-! ### The request -/

/-- What the reader of the response comes upon. -/
inductive Read where
  | chunk (value : Value)
  -- more than the time for trailing usage goes by
  | late
  | failed (error : String)

/-- One request, with what becomes of each of its waits. Every wait ends with an error when the
caller cancels it. -/
structure Request where
  model : Value
  timestamp : Int
  nextId : Nat → String
  redact : String → String
  -- the status of the response
  opened : Except String Nat
  acceptHeaders : Except String Unit
  -- the whole body of a response that tells of a failure
  failure : Except String String
  -- the stream ends after these
  reads : List Read
  -- the caller has cancelled at the end, and at the report of an error
  cancelledAtFinish : Bool
  cancelledAtFail : Bool

namespace Request

variable {M C : Type} (F : Type) [Doubles F] (host : Host M C)

/-- The chunk loop. Only after a chunk that waits for trailing usage does a late chunk end it. -/
def readChunks (req : Request) (flow : Flow) (s : State) (emitter : Emitter M C) :
    List Read → Outcome M C Unit
  | [] => ((.ok (), s), emitter)
  | .failed error :: _ => ((.error (.failed error), s), emitter)
  | .late :: reads =>
    if flow = .trailingUsage then ((.ok (), s), emitter)
    else readChunks req flow s emitter reads
  | .chunk value :: reads =>
    match emitter.follow host (s.chunk F req.nextId value) with
    | ((.error stop, s), emitter) => ((.error stop, s), emitter)
    | ((.ok flow, s), emitter) =>
      if flow = .complete then ((.ok (), s), emitter)
      else readChunks req flow s emitter reads

/-- The response, up to its end. -/
def readResponse (req : Request) (s : State) (emitter : Emitter M C) : Outcome M C Unit :=
  match req.opened with
  | .error error => ((.error (.failed error), s), emitter)
  | .ok status =>
    if 200 ≤ status ∧ status < 300 then
      match req.acceptHeaders with
      | .error error => ((.error (.failed error), s), emitter)
      | .ok _ => readChunks F host req .continue s emitter req.reads
    else
      match req.failure with
      | .error error => ((.error (.failed error), s), emitter)
      | .ok text =>
        ((.error (.failed ("Antigravity request failed: HTTP " ++ toString status ++ " " ++ text)),
          s), emitter)

/-- What has been read is finished. -/
def finishMessage (req : Request) : Outcome M C Unit → Outcome M C Unit
  | ((.error stop, s), emitter) => ((.error stop, s), emitter)
  | ((.ok _, s), emitter) => emitter.follow host (s.finish req.cancelledAtFinish)

/-- The message is started, read and finished. -/
def attempt (req : Request) (emitter : Emitter M C) : Outcome M C Unit :=
  let s := State.new req.model req.timestamp
  match emitter.follow host ⟨[⟨.start s.output, s⟩], s, .ok ()⟩ with
  | ((.error stop, s), emitter) => ((.error stop, s), emitter)
  | ((.ok _, s), emitter) => finishMessage host req (readResponse F host req s emitter)

/-- A failure is reported with the message as it is; whether the report is taken is not asked. A
panic ends the task. -/
def report (req : Request) : Outcome M C Unit → Emitter M C
  | ((.ok _, _), emitter) => emitter
  | ((.error .panicked, _), emitter) => emitter
  | ((.error (.failed error), s), emitter) =>
    (emitter.emit host (s.fail req.redact error req.cancelledAtFail).event).2

def run (req : Request) (emitter : Emitter M C) : Emitter M C :=
  report host req (attempt F host req emitter)

end Request

end Antigravity
