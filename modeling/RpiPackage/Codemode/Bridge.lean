import Mathlib.Algebra.GroupWithZero.Nat
import RpiPackage.Codemode.Content
import RpiPackage.Lib.Rust
import RpiPackage.Lib.Table

/-!
# The bridge of a program

What a program can ask of its host, and what is kept of it: the calls that are pending, the results
that the host retains, the blocks that were selected, and the first error that cannot be taken back.
The host answers each action as it likes, and the cancellation, the deadline and the memory limit
may be reached between any two steps.
-/

namespace Codemode

open Json Result

def maxLog : Nat := 64 * 1024
def maxLogEntries : Nat := 256
def maxCalls : Nat := 128
def maxActive : Nat := 8
def maxReferences : Nat := 16
def memory : Nat := 32 * 1024 * 1024
def outputDiagnosticReserve : Nat := 4096

def natValue (n : Nat) : Value := .number (.posInt n.toUInt64)

def asNat (v : Value) : Option Nat := v.asU64.map UInt64.toNat

def isTrue : Value → Bool
  | .bool true => true
  | _ => false

def bounded (s : String) (max : Nat) : String := String.ofList (Rust.takeBytes max s.toList)

/-- Why a program has to stop. -/
structure Flags where
  cancelled : Bool
  late : Bool
  memoryFailed : Bool
  deriving DecidableEq, Repr

/-- The host and the clock, as they are found at each step; no flag is ever taken back. -/
structure Host where
  reply : Nat → Value → Except String Value
  flags : Nat → Flags
  millis : Nat → Nat
  cancelled_sticky : ∀ m n, m ≤ n → (flags m).cancelled = true → (flags n).cancelled = true
  late_sticky : ∀ m n, m ≤ n → (flags m).late = true → (flags n).late = true
  memory_sticky : ∀ m n, m ≤ n → (flags m).memoryFailed = true → (flags n).memoryFailed = true

structure Call where
  id : String
  token : Nat
  name : String
  deriving DecidableEq, Repr

/-- A result that the host retains. -/
structure Reference where
  id : String
  bytes : Nat
  blocks : Nat
  isError : Bool
  terminate : Bool
  deriving DecidableEq, Repr

inductive OutputPart where
  | inline (blocks : List Value)
  | reference (token : Nat) (indices : Value)
  deriving Repr

structure Exchange where
  request : Value
  reply : Except String Value

/-- `steps` and `exchanges` are what has happened so far; the engine does not read them. -/
structure Bridge where
  steps : Nat
  exchanges : List Exchange
  hostLive : Bool
  referenceCleanupFailed : Bool
  names : List String
  pending : List Call
  calls : List Value
  logs : List Value
  logBytes : Nat
  started : Nat
  fatal : Option String
  terminate : Option Value
  terminalError : Bool
  emitted : List Value
  outputParts : List OutputPart
  outputBlocks : Nat
  outputBytes : Nat
  emittedBytes : Nat
  hasEmission : Bool
  selectedResult : Option Value
  references : Table Nat Reference
  selectedReference : Option Nat
  terminalReference : Option Nat
  seenIds : List String

namespace Bridge

def new : Bridge :=
  { steps := 0, exchanges := [], hostLive := true, referenceCleanupFailed := false, names := [],
    pending := [], calls := [], logs := [], logBytes := 0, started := 0, fatal := none,
    terminate := none, terminalError := false, emitted := [], outputParts := [],
    outputBlocks := 0, outputBytes := 0, emittedBytes := 0, hasEmission := false,
    selectedResult := none, references := .empty, selectedReference := none,
    terminalReference := none, seenIds := [] }

variable (host : Host) (s : Bridge)

/-- The flags are looked at one after the other. -/
def stopped : Option String :=
  if (host.flags s.steps).cancelled then some "codemode cancelled"
  else if (host.flags (s.steps + 1)).late then some "codemode deadline exceeded"
  else if (host.flags (s.steps + 2)).memoryFailed then some "codemode memory budget exceeded"
  else s.fatal

def check : Except String Unit × Bridge :=
  (failWith (s.stopped host), { s with steps := s.steps + 3 })

/-- An answer that does not make the host's binding doubtful. -/
def sound (reply : Except String Value) : Bool :=
  match reply with
  | .ok reply => (reply.index "status").asStr != some "failed"
  | .error _ => false

/-- A release may be refused, as its result may never have come about. -/
def action (request : Value) : Except String Value × Bridge :=
  let reply := host.reply s.steps request
  (reply,
    { s with
      steps := s.steps + 1
      exchanges := s.exchanges ++ [⟨request, reply⟩]
      hostLive := s.hostLive && ((request.index "op").asStr == some "release_result" || sound reply) })

def fail {α : Type} (error : String) : Except String α × Bridge :=
  (.error error, { s with fatal := some error })

/-- An error is kept, so that the program cannot go on by catching it. -/
def latch {α : Type} : Except String α × Bridge → Except String α × Bridge
  | (.ok a, s) => (.ok a, s)
  | (.error e, s) => s.fail e

/-- A step, and another one if it succeeds. -/
def andThen {α β : Type} (r : Except String α × Bridge) (f : α → Bridge → Except String β × Bridge) :
    Except String β × Bridge :=
  match r with
  | (.ok a, s) => f a s
  | (.error e, s) => (.error e, s)

end Bridge

/-! ### Requests -/

def startRequest (name : String) (args : Value) (millis : Nat) : Value :=
  .object [("op", .string "start"), ("name", .string name), ("arguments", args),
    ("resultMode", .string "reference"), ("timeoutMs", natValue (max 1 (min millis 120000)))]

def callRequest (op id : String) : Value :=
  .object [("op", .string op), ("requestId", .string id)]

def releaseRequest (id : String) : Value :=
  .object [("op", .string "release_result"), ("resultId", .string id)]

def readRequest (id : String) (offset : Nat) : Value :=
  .object [("op", .string "read_result"), ("resultId", .string id), ("offset", natValue offset),
    ("limit", natValue 65536)]

def measureRequest (id : String) (indices : Value) : Value :=
  .object [("op", .string "measure_result_content"), ("resultId", .string id),
    ("indices", indices)]

namespace Bridge

variable (fromStr : String → Option Value) (host : Host)

/-! ### Calls -/

def startFailed (name error : String) : Value :=
  .object [("name", .string name), ("status", .string "start_failed"),
    ("error", .string (bounded error 4096))]

/-- The call is pending as soon as its id is known, so that it is cleaned up in any case. -/
def accept (s : Bridge) (name : String) (reply : Value) : Except String Nat × Bridge :=
  match ((reply.get "requestId").bind Value.asStr).filter (· ≠ "") with
  | none =>
    s.fail "host start returned no valid requestId; uncertain start not retried"
  | some id =>
    if id ∈ s.seenIds then s.fail "host reused request identity"
    else
      let s := { s with
        seenIds := s.seenIds ++ [id]
        pending := s.pending ++ [⟨id, s.started, name⟩] }
      if maxJson < reply.compactSize ∨ (reply.get "result").isSome ∨
          (reply.get "resultReference").isSome ∨
          (reply.get "status").bind Value.asStr ≠ some "running" then
        s.fail "invalid host start status"
      else (.ok s.started, s)

def start (s : Bridge) (name args : String) : Except String Nat × Bridge :=
  andThen (s.check host) fun _ s =>
    if name ∉ s.names then (.error "tool is not in this invocation's effective catalog", s)
    else if maxJson < args.utf8ByteSize then s.fail "tool arguments exceed 1 MiB"
    else match fromStr args with
      | none => (.error "invalid tool argument JSON", s)
      | some args =>
        if args.isObject = false then (.error "tool arguments must be an object", s)
        else if maxCalls ≤ s.started ∨ maxActive ≤ s.pending.length then
          s.fail "tool call budget exceeded (128 total / 8 active)"
        else
          let s := { s with started := s.started + 1 }
          match s.action host (startRequest name args (host.millis s.steps)) with
          | (.error e, s) =>
            { s with calls := s.calls ++ [startFailed name e] }.fail
              ("host start failed (not retried): " ++ bounded e 4096)
          | (.ok reply, s) => s.accept name reply

def log (s : Bridge) (level text : String) : Except String Unit × Bridge :=
  andThen (s.check host) fun _ s =>
    if maxLogEntries ≤ s.logs.length ∨ maxLog < s.logBytes + text.utf8ByteSize then
      s.fail "log budget exceeded (256 entries / 64 KiB)"
    else
      (.ok (), { s with
        logBytes := s.logBytes + text.utf8ByteSize
        logs := s.logs ++ [.object [("level", .string level), ("text", .string text)]] })

/-! ### References -/

/-- The manifest that a finished call comes with. -/
def manifest (id : String) (reply : Value) : Except String Reference := do
  failIf (reply.get "result").isSome "inline result after reference start"
  let r := reply.index "resultReference"
  let bytes ← okOr ((asNat (r.index "byteLength")).filter fun n => 0 < n && n ≤ memory)
    "invalid reference byteLength (maximum 32 MiB)"
  let blocks ← okOr ((asNat (r.index "contentBlocks")).filter (· ≤ bytes))
    "invalid reference contentBlocks"
  let isError ← okOr (reply.index "isError").asBool "invalid reference isError"
  failIf (asNat (r.index "version") ≠ some 1 ∨ (r.index "id").asStr ≠ some id ∨
      (r.index "isError").asBool ≠ some isError)
    "invalid result reference identity/version/isError"
  let terminate ← okOr (r.index "terminate").asBool "invalid reference terminate"
  return ⟨id, bytes, blocks, isError, terminate⟩

def retain (s : Bridge) (token : Nat) (id : String) (reply : Value) :
    Except String Unit × Bridge :=
  match manifest id reply with
  | .ok reference =>
    if s.references.size < maxReferences then
      (.ok (), { s with references := s.references.put token reference })
    else s.fail "retained reference limit exceeded"
  | .error e => s.fail e

def noReceipt : String := "released or invalid native receipt"

/-- The data of a chunk that is the one asked for. -/
def chunk (reference : Reference) (offset : Nat) (reply : Value) : Except String String := do
  failIf (maxJson < reply.compactSize) "host result frame exceeds 1 MiB"
  let data ← okOr (reply.index "data").asStr "invalid result chunk data"
  let last := offset + data.utf8ByteSize
  failIf ((reply.index "resultId").asStr ≠ some reference.id ∨
      asNat (reply.index "offset") ≠ some offset ∨
      asNat (reply.index "byteLength") ≠ some reference.bytes ∨ data = "" ∨
      65536 < data.utf8ByteSize ∨ reference.bytes < last ∨ (reply.get "result").isSome ∨
      (reply.get "resultReference").isSome ∨
      (if last = reference.bytes then (reply.get "nextOffset").any Value.isNull = false
        else asNat (reply.index "nextOffset") ≠ some last))
    "invalid result chunk identity/length/cursor/EOF"
  return data

lemma size_pos_of_chunk {reference : Reference} {offset : Nat} {reply : Value} {data : String}
    (h : chunk reference offset reply = .ok data) : 0 < data.utf8ByteSize := by
  unfold chunk at h
  rw [check_bind_eq_ok, bind_eq_ok] at h
  obtain ⟨-, data', -, h⟩ := h
  rw [check_bind_eq_ok, failIf_eq_ok, pure_eq_ok, Except.ok.injEq] at h
  obtain ⟨hchecks, rfl⟩ := h
  simp only [not_or] at hchecks
  have hne := hchecks.2.2.2.1
  rw [Nat.pos_iff_ne_zero, ne_eq, String.utf8ByteSize_eq_zero_iff]
  exact hne

/-- The chunks of a result from an offset on, behind those that were read before. -/
def readFrom (s : Bridge) (reference : Reference) (offset : Nat) (text : String) :
    Except String String × Bridge :=
  if offset < reference.bytes then
    match s.check host with
    | (.error e, s) => (.error e, s)
    | (.ok (), s) =>
      match s.action host (readRequest reference.id offset) with
      | (.error e, s) => (.error e, s)
      | (.ok reply, s) =>
        match s.check host with
        | (.error e, s) => (.error e, s)
        | (.ok (), s) =>
          match h : chunk reference offset reply with
          | .error e => (.error e, s)
          | .ok data =>
            have := size_pos_of_chunk h
            readFrom s reference (offset + data.utf8ByteSize) (text ++ data)
  else (.ok text, s)
termination_by reference.bytes - offset

/-- What the text of a result has to agree with. -/
def agrees (reference : Reference) (value : Value) : Bool :=
  value.isObject && (value.index "content").asArray.map List.length == some reference.blocks &&
    (value.get "terminate").all (fun v => v.asBool == some reference.terminate) &&
    (!reference.terminate || isTrue (value.index "terminate")) &&
    (value.get "isError").all fun v => v.asBool == some reference.isError

def readReference (s : Bridge) (token : Nat) (materialize : Bool) :
    Except String String × Bridge :=
  latch <| andThen (s.check host) fun _ s =>
    match s.references.get token with
    | none => (.error noReceipt, s)
    | some reference =>
      if materialize = false then (.ok "", s)
      else
        andThen (s.readFrom host reference 0 "") fun text s =>
          andThen (s.check host) fun _ s =>
            match fromStr text with
            | none => (.error "invalid native result JSON", s)
            | some value =>
              if agrees reference value = false then
                (.error "native result does not match reference manifest", s)
              else (.ok text, s)

def isEmitted (token : Nat) : OutputPart → Bool
  | .reference emitted _ => emitted == token
  | .inline _ => false

def released (id : String) (reply : Value) : Bool :=
  reply.compactSize ≤ maxJson && (reply.index "resultId").asStr == some id &&
    (reply.index "status").asStr == some "released"

def releaseReference (s : Bridge) (token : Nat) : Except String Unit × Bridge :=
  andThen (s.check host) fun _ s =>
    if token = 0 then (.ok (), s)
    else if s.selectedReference = some token ∨ s.outputParts.any (isEmitted token) = true then
      s.fail "selected native receipt cannot be released"
    else match s.references.get token with
      | none => s.fail noReceipt
      | some reference =>
        let s := { s with references := s.references.erase token }
        let (reply, s) := s.action host (releaseRequest reference.id)
        if reply.toOption.any (released reference.id) = true then (.ok (), s)
        else
          { s with hostLive := false, referenceCleanupFailed := true }.fail
            "host release_result failed (not retried)"

/-! ### Selections -/

/-- Accounts for the blocks, and for the framing of the array that they end up in. -/
def outputBudget (s : Bridge) (blocks bytes : Nat) : Except String Unit × Bridge :=
  if 128 ≤ s.outputParts.length ∨ maxBlocks < s.outputBlocks + blocks ∨
      memory - outputDiagnosticReserve <
        s.outputBytes + bytes + (s.outputBlocks + blocks - 1) + 2 then
    s.fail ("native output budget exceeded (128 parts / 128 blocks / " ++
      "32 MiB content array including diagnostic reserve)")
  else
    (.ok (), { s with
      outputBlocks := s.outputBlocks + blocks
      outputBytes := s.outputBytes + bytes })

def blockBytes (blocks : List Value) : Nat := (blocks.map Value.compactSize).sum

/-- What is emitted as one piece of text. -/
def parseBlocks (encoded : String) : Except String (List Value) :=
  okOr (fromStr encoded) "invalid emitted JSON" >>= blocks

def emit (s : Bridge) (encoded : String) : Except String Unit × Bridge :=
  andThen (s.check host) fun _ s =>
    if s.selectedResult.isSome ∨ s.selectedReference.isSome then
      s.fail "tools.emit cannot be combined with tools.result"
    else if maxJson < encoded.utf8ByteSize then s.fail "native emitted content exceeds 1 MiB"
    else match parseBlocks fromStr encoded with
      | .error e => s.fail e
      | .ok selected =>
        if maxBlocks < s.emitted.length + selected.length ∨
            maxJson < s.emittedBytes + blockBytes selected +
              (s.emitted.length + selected.length - 1) + 2 then
          s.fail "native emitted content budget exceeded (128 blocks / 1 MiB)"
        else
          andThen (s.outputBudget selected.length (blockBytes selected)) fun _ s =>
            (.ok (), { s with
              outputParts := s.outputParts ++ [.inline selected]
              emittedBytes := s.emittedBytes + blockBytes selected
              hasEmission := true
              emitted := s.emitted ++ selected })

/-- The indices that are emitted, and how many blocks they are. -/
def parseIndices (reference : Reference) (encoded : String) : Except String (Value × Nat) := do
  failIf (maxJson < encoded.utf8ByteSize) "emitted indices exceed 1 MiB"
  let indices ← okOr (fromStr encoded) "invalid emitted indices"
  let count ← match indices with
    | .null => .ok reference.blocks
    | .array values =>
      if values.length ≤ 128 then
        if values.all fun index => (asNat index).any (· < reference.blocks) then
          .ok values.length
        else .error "indices must contain in-range nonnegative integers"
      else .error "indices must be null or an array of at most 128 integers"
    | _ => .error "indices must be null or an array of at most 128 integers"
  failIf (128 < count) "native content exceeds 128 blocks"
  return (indices, count)

/-- How many bytes the host says the blocks take. -/
def measured (reference : Reference) (count : Nat) (reply : Value) : Except String Nat := do
  failIf (maxJson < reply.compactSize ∨ (reply.index "resultId").asStr ≠ some reference.id ∨
      asNat (reply.index "contentBlocks") ≠ some count ∨
      (match reply with
        | .object fields => fields.length
        | _ => 0) ≠ 3)
    "invalid content measurement identity/count/frame"
  let bytes ← okOr ((asNat (reply.index "encodedBytes")).filter (· ≤ memory))
    "invalid content measurement encodedBytes"
  failIf ((count = 0 ∧ bytes ≠ 0) ∨ (0 < count ∧ bytes < count * 2))
    "invalid content measurement encodedBytes/count"
  return bytes

/-- The measurement of a selection that is still to be accounted for. -/
def measure (s : Bridge) (token : Nat) (encoded : String) :
    Except String (Value × Nat × Nat) × Bridge :=
  andThen (s.check host) fun _ s =>
    if s.selectedResult.isSome ∨ s.selectedReference.isSome then
      (.error "tools.emit cannot be combined with tools.result", s)
    else match s.references.get token with
      | none => (.error noReceipt, s)
      | some reference =>
        match parseIndices fromStr reference encoded with
        | .error e => (.error e, s)
        | .ok (indices, count) =>
          andThen (s.action host (measureRequest reference.id indices)) fun reply s =>
            andThen (s.check host) fun _ s =>
              match measured reference count reply with
              | .error e => (.error e, s)
              | .ok bytes => (.ok (indices, count, bytes), s)

def emitReference (s : Bridge) (token : Nat) (encoded : String) : Except String Unit × Bridge :=
  andThen (latch (s.measure fromStr host token encoded)) fun (indices, count, bytes) s =>
    andThen (s.outputBudget count bytes) fun _ s =>
      (.ok (), { s with
        outputParts := s.outputParts ++ [.reference token indices]
        hasEmission := true })

def oneSelection : String :=
  "tools.result requires exactly one selection and cannot combine with tools.emit"

def parseResult (encoded : String) (isError : Bool) : Except String Value := do
  let value ← okOr (fromStr encoded) "tools.result requires a finalized native result"
  let selected ← blocks ((value.get "content").getD .null)
  return .object [("content", .array selected), ("details", value.index "details"),
    ("isError", .bool isError)]

def selectResult (s : Bridge) (encoded : String) (isError : Bool) : Except String Unit × Bridge :=
  andThen (s.check host) fun _ s =>
    if s.selectedResult.isSome ∨ s.selectedReference.isSome ∨ s.hasEmission = true then
      s.fail oneSelection
    else if maxJson < encoded.utf8ByteSize then s.fail "native result selection exceeds 1 MiB"
    else match parseResult fromStr encoded isError with
      | .error e => s.fail e
      | .ok value => (.ok (), { s with selectedResult := some value })

def selectReference (s : Bridge) (token : Nat) : Except String Unit × Bridge :=
  andThen (s.check host) fun _ s =>
    if s.references.contains token = false then s.fail noReceipt
    else if s.selectedReference.isSome ∨ s.selectedResult.isSome ∨ s.hasEmission = true then
      s.fail oneSelection
    else (.ok (), { s with selectedReference := some token })

end Bridge

end Codemode
