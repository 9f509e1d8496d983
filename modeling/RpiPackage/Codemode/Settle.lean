import RpiPackage.Codemode.Poll

/-!
# Settlement

How an invocation ends: the calls that are still pending are cancelled, the status is decided, the
selected content is put together, and each retained result is either handed over or released. The
summary says what has come of it.
-/

namespace Codemode

open Json Result

inductive Status where
  | terminated
  | cancelled
  | timedOut
  | error
  | completed
  deriving DecidableEq, Repr

def Status.text : Status → String
  | .terminated => "terminated"
  | .cancelled => "cancelled"
  | .timedOut => "timed_out"
  | .error => "error"
  | .completed => "completed"

namespace Bridge

variable (host : Host)

/-! ### Cleaning up -/

def cancelled (name : String) (millis : Nat) : Value :=
  .object [("name", .string name), ("status", .string "cancelled"), ("durationMs", natValue millis)]

/-- The host is told three times that a call is over, whatever it answers. -/
def cleanupCall (s : Bridge) (call : Call) : Bridge :=
  let s := (s.action host (callRequest "cancel" call.id)).2
  let s := (s.action host (callRequest "dispose" call.id)).2
  let s := (s.action host (releaseRequest call.id)).2
  { s with calls := s.calls ++ [cancelled call.name (host.millis s.steps)] }

def cleanup (s : Bridge) : Bridge :=
  s.pending.foldl (cleanupCall host) { s with pending := [] }

/-- The cancellation as it is found now. -/
def isCancelled (s : Bridge) : Bool := (host.flags s.steps).cancelled

/-! ### Content -/

/-- The status of an invocation, with its result or its error. -/
structure Outcome where
  status : Status
  result : Value
  error : Option String
  deriving Repr

def outcome (s : Bridge) (run : Except String Value) : Outcome × Bridge :=
  let next := { s with steps := s.steps + 3 }
  match s.terminate with
  | some result => (⟨.terminated, result, none⟩, { next with terminate := none })
  | none =>
    if (host.flags s.steps).cancelled then
      (⟨.cancelled, .null, some "codemode cancelled"⟩, next)
    else if (host.flags (s.steps + 1)).late then
      (⟨.timedOut, .null, some "codemode deadline exceeded"⟩, next)
    else if (host.flags (s.steps + 2)).memoryFailed then
      (⟨.error, .null, some "codemode memory budget exceeded"⟩, next)
    else match s.fatal with
      | some e => (⟨.error, .null, some e⟩, { next with fatal := none })
      | none =>
        match run with
        | .ok v => (⟨.completed, v, none⟩, next)
        | .error e => (⟨.error, .null, some e⟩, next)

/-- The content of a result, which keeps only how many blocks it had. -/
def promote (result : Value) : Except String (Option (List Value) × Value) :=
  match result with
  | .object fields =>
    match fields.lookup "content" with
    | none => .ok (none, result)
    | some content => do
      let selected ← blocks content
      let rest := fields.filter fun field => field.1 != "content"
      return (some selected, .object (rest ++ [("content",
        .object [("promoted", .bool true), ("count", natValue selected.length)])]))
  | result => .ok (none, result)

/-- What was selected, with the status that the selection leaves. -/
structure Selection where
  outcome : Outcome
  selected : List Value
  hasSelection : Bool
  deriving Repr

def selectedBudget : String := "native selected content budget exceeded (128 blocks / 1 MiB)"

/-- The content of a program's own result goes behind what it has emitted. -/
def promoteResult (s : Bridge) (o : Outcome) (selected : List Value) (hasSelection : Bool) :
    Selection × Bridge :=
  match promote o.result with
  | .error e => (⟨⟨.error, .null, some e⟩, selected, hasSelection⟩, s)
  | .ok (none, result) => (⟨{ o with result }, selected, hasSelection⟩, s)
  | .ok (some blocks, result) =>
    let inlineBytes := s.emittedBytes + blockBytes blocks + (selected.length + blocks.length - 1) + 2
    let budget := if maxJson < inlineBytes then (.error selectedBudget, s)
      else s.outputBudget blocks.length (blockBytes blocks)
    match budget with
    | (.error e, s) => (⟨⟨.error, .null, some e⟩, selected, true⟩, s)
    | (.ok (), s) =>
      (⟨{ o with result }, selected ++ blocks, true⟩,
        { s with outputParts := s.outputParts ++ [.inline blocks] })

/-- The last guard of the selection. -/
def overBudget (selected : List Value) : Bool :=
  maxBlocks < selected.length || maxJson < (Value.array selected).compactSize

def guarded (selection : Selection) : Selection :=
  if overBudget selection.selected then
    ⟨{ selection.outcome with status := .error, error := some selectedBudget }, [], false⟩
  else selection

def conflict (s : Bridge) (o : Outcome) : Outcome :=
  if (s.selectedResult.isSome || s.selectedReference.isSome) && o.status == .completed &&
      (o.result.get "content").isSome then
    ⟨.error, .null, some "returned native content conflicts with tools.result"⟩
  else o

/-- The selection before its last guard. -/
def selection (s : Bridge) (o : Outcome) : Selection × Bridge :=
  let s := if o.status = .completed then s else { s with selectedResult := none }
  let selected := s.emitted
  let s := { s with emitted := [] }
  let o := s.conflict o
  if s.selectedResult.isNone && s.selectedReference.isNone && s.terminalReference.isNone &&
      (o.status == .completed || o.status == .terminated) then
    s.promoteResult o selected s.hasEmission
  else (⟨o, selected, s.hasEmission⟩, s)

end Bridge

end Codemode
