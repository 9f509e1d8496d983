import RpiPackage.Codemode.Bridge

/-!
# Polling

How the calls of a program come to an end: a poll takes what the host says of a pending call, keeps
the result that it retains, disposes of the call, and hands a small result over at once. A program
is a sequence of operations of the bridge with polls between them.
-/

namespace Codemode

open Json Result

namespace Bridge

variable (fromStr : String → Option Value) (host : Host)

/-- What a poll of a call has come to. -/
inductive Polled where
  | running
  | terminal
  | ready (token : Nat) (ok : Bool) (payload : String) (large : Bool)
  deriving DecidableEq, Repr

def finished (name : String) (isError : Bool) (millis : Nat) : Value :=
  .object [("name", .string name), ("status", .string (if isError then "error" else "done")),
    ("isError", .bool isError), ("durationMs", natValue millis)]

/-- Whether a reply says that the call has ended. -/
def ended (call : Call) (reply : Value) : Except String Bool := do
  failIf (maxJson < reply.compactSize) "host result exceeds 1 MiB"
  failIf ((reply.get "requestId").bind Value.asStr ≠ some call.id) "host poll identity mismatch"
  match (reply.get "status").bind Value.asStr with
  | some "running" =>
    if (reply.get "result").isNone ∧ (reply.get "resultReference").isNone then .ok false
    else .error "invalid host poll status"
  | some "done" | some "failed" => .ok true
  | _ => .error "invalid host poll status"

/-- The first text of a result that is an error. -/
def errorText (result : Value) : String :=
  match (result.index "content").asArray with
  | some blocks =>
    (blocks.findSome? fun b =>
      if (b.index "type").asStr = some "text" then (b.index "text").asStr else none).getD
        "finalized tool error; inspect error.result"
  | none => "finalized tool error; inspect error.result"

/-- What the program is given of a result. -/
def payloadOf (isError : Bool) (text : String) : Except String String :=
  if isError = false then .ok text
  else do
    let result ← okOr (fromStr text) "invalid native JSON"
    return (Value.object [("message", .string (bounded (errorText result) 4096)),
      ("result", result)]).compact

/-- A call that has ended without a failure of the host. -/
def settleCall (s : Bridge) (call : Call) (isError : Bool) : Except String Polled × Bridge :=
  match s.references.get call.token with
  | none => (.error noReceipt, s)
  | some reference =>
    if reference.terminate = true then
      (.ok .terminal, { s with
        terminalError := isError
        terminalReference := some call.token
        terminate := some .null })
    else if maxJson < reference.bytes then (.ok (.ready call.token (!isError) "" true), s)
    else
      andThen (s.readReference fromStr host call.token true) fun text s =>
        andThen (s.releaseReference host call.token) fun _ s =>
          match payloadOf fromStr isError text with
          | .error e => (.error e, s)
          | .ok payload => (.ok (.ready call.token (!isError) payload false), s)

/-- The host forgets a call that has ended, before anything is made of its result. -/
def disposeCall (s : Bridge) (index : Nat) (call : Call) (reply : Value) (failed : Bool) :
    Except String Polled × Bridge :=
  let s := { s with pending := s.pending.eraseIdx index }
  let (disposal, s) := s.action host (callRequest "dispose" call.id)
  let isError := isTrue (reply.index "isError")
  let s := { s with
    calls := s.calls ++ [finished call.name (failed || isError) (host.millis s.steps)] }
  match disposal with
  | .error e => (.error ("host dispose failed: " ++ bounded e 4096), s)
  | .ok _ =>
    if failed then
      (.error ("host lifecycle failed: " ++
        bounded (((reply.get "error").bind Value.asStr).getD "host tool failed") 4096), s)
    else s.settleCall fromStr host call isError

/-- One pending call. -/
def pollCall (s : Bridge) (index : Nat) (call : Call) : Except String Polled × Bridge :=
  match s.action host (callRequest "poll" call.id) with
  | (.error e, s) => (.error (bounded e 4096), s)
  | (.ok reply, s) =>
    match ended call reply with
    | .error e => (.error e, s)
    | .ok false => (.ok .running, s)
    | .ok true =>
      let failed := (reply.index "status").asStr == some "failed"
      andThen (if failed then (.ok (), s) else s.retain call.token call.id reply) fun _ s =>
        s.disposeCall fromStr host index call reply failed

/-- The pending calls below an index, from the last one down. -/
def pollBelow (s : Bridge) : Nat → Except String (Option (List Polled)) × Bridge
  | 0 => (.ok (some []), s)
  | index + 1 =>
    match s.pending[index]? with
    | none => pollBelow s index
    | some call =>
      match s.pollCall fromStr host index call with
      | (.error e, s) => (.error e, s)
      | (.ok .terminal, s) => (.ok none, s)
      | (.ok .running, s) => pollBelow s index
      | (.ok (.ready token ok payload large), s) =>
        match pollBelow s index with
        | (.ok (some ready), s) => (.ok (some (.ready token ok payload large :: ready)), s)
        | r => r

/-- A round of polls; there is no list of results once a terminal one has been seen. -/
def poll (s : Bridge) : Except String (Option (List Polled)) × Bridge :=
  andThen (s.check host) fun _ s => s.pollBelow fromStr host s.pending.length

/-! ### Programs -/

/-- What a program does with the bridge, and the polls between its jobs. -/
inductive Op where
  | start (name args : String)
  | log (level text : String)
  | emit (encoded : String)
  | selectResult (encoded : String) (isError : Bool)
  | readReference (token : Nat) (materialize : Bool)
  | releaseReference (token : Nat)
  | selectReference (token : Nat)
  | emitReference (token : Nat) (encoded : String)
  | poll
  deriving DecidableEq, Repr

/-- An operation; the program may catch its error. -/
def step (s : Bridge) : Op → Bridge
  | .start name args => (s.start fromStr host name args).2
  | .log level text => (s.log host level text).2
  | .emit encoded => (s.emit fromStr host encoded).2
  | .selectResult encoded isError => (s.selectResult fromStr host encoded isError).2
  | .readReference token materialize => (s.readReference fromStr host token materialize).2
  | .releaseReference token => (s.releaseReference host token).2
  | .selectReference token => (s.selectReference host token).2
  | .emitReference token encoded => (s.emitReference fromStr host token encoded).2
  | .poll => (s.poll fromStr host).2

end Bridge

end Codemode
