import RpiPackage.Lib.First
import RpiPackage.Lib.Js
import RpiPackage.Lib.Run

/-!
# The execution trace of the web client

The trace projects native events and loaded pages of messages onto groups of nodes. The masking of
texts is a parameter: nothing here depends on what it leaves of a text. An id is held as the
number after its letter, and an object that the source changes in place is named by its id.
-/

namespace ExecutionTrace

open Js (Value Numeric)

/-- What the projection makes of the texts and values that it shows. -/
structure Redaction (ν : Type*) where
  /-- `text` of a string -/
  text : String → String
  summary : Value ν → Option String
  /-- What `Array.prototype.join` prints of a value. -/
  display : Value ν → String

inductive TraceStatus where
  | running | completed | failed | stopped | declined | unknown
  deriving DecidableEq, Repr

inductive Kind where
  | input | llm | tool | retry | settlement | notice
  deriving DecidableEq, Repr

inductive Source where
  | live | history
  deriving DecidableEq, Repr

structure TraceUsage (ν : Type*) where
  input : Option ν
  output : Option ν
  cached : Option ν
  cacheWrite : Option ν
  total : Option ν
  cost : Option ν

structure Node (ν : Type*) where
  id : Nat
  kind : Kind
  status : TraceStatus
  entryId : Option String := none
  runId : Option String := none
  name : Option String := none
  model : Option String := none
  provider : Option String := none
  input : Option String := none
  output : Option String := none
  error : Option String := none
  elapsedMs : Option ν := none
  parentId : Option Nat := none
  usage : Option (TraceUsage ν) := none
  attempt : Option ν := none
  maxRetries : Option ν := none
  delayMs : Option ν := none
  role : Option String := none
  stamp : Option ν := none
  call : Option String := none
  calls : Option (List String) := none
  slot : Option String := none
  ended : Bool := false

structure Group (ν : Type*) where
  id : Nat
  source : Source
  isPartial : Bool
  runId : Option String := none
  status : TraceStatus
  nodes : List (Node ν)

structure ExecutionTraceState (ν : Type*) where
  groups : List (Group ν)
  clipped : Bool
  nextId : Nat
  olderPage : Nat
  lastSeq : Int
  active : Option Nat
  user : Option Nat
  assistant : Option Nat

structure Frame (ν : Type*) where
  messages : Value ν
  latestSettlement : Value ν

inductive Mode where
  | initial | refresh | older
  deriving DecidableEq, Repr

structure SeqEvent (ν : Type*) where
  type : String
  fields : List (String × Value ν)

def MAX_NODES : Nat := 300
def MAX_GROUPS : Nat := 50
def MAX_TEXT : Nat := 2000

def createExecutionTrace {ν : Type*} : ExecutionTraceState ν :=
  { groups := [], clipped := false, nextId := 0, olderPage := 0, lastSeq := -1, active := none,
    user := none, assistant := none }

section

variable {ν : Type*}

def SeqEvent.get (event : SeqEvent ν) (key : String) : Value ν := (Value.object event.fields).get key

/-- `t === v` for a text that may be missing. -/
def isSame : Option String → Value ν → Bool
  | some t, .string s => t == s
  | none, .undefined => true
  | _, _ => false

/-- `!!t` -/
def isPresent : Option String → Bool
  | some t => t != ""
  | none => false

/-- `preserve ? (old ?? new) : (new ?? old)` -/
def pick {α : Type*} (preserve : Bool) (old new : Option α) : Option α :=
  if preserve then old <|> new else new <|> old

def status (value aborted : Value ν) : TraceStatus :=
  if value.isText "failed" || value.isText "error" then .failed
  else if value.isText "declined" then .declined
  else if aborted.isTrue ||
      ["aborted", "stopped", "cancelled", "interrupted"].any value.isText then .stopped
  else if ["completed", "success", "stop", "toolUse"].any value.isText then .completed
  else if value.isText "running" then .running
  else .unknown

def callsOf (r : Value ν) : List (Value ν) :=
  match r.get "content" with
  | .array items => ((items.take 64).filter fun b => (b.get "type").isText "toolCall").take 32
  | _ => []

variable [Numeric ν]

def number : Value ν → Option ν
  | .number n => if Numeric.isNonneg n then some n else none
  | _ => none

def usage (value : Value ν) : Option (TraceUsage ν) :=
  let cost := value.get "cost"
  let u : TraceUsage ν := {
    input := number (value.get "input")
    output := number (value.get "output")
    cached := number (value.get "cacheRead")
    cacheWrite := number (value.get "cacheWrite")
    total := number (value.get "totalTokens")
    cost := number (cost.get "total") <|> number cost }
  if [u.input, u.output, u.cached, u.cacheWrite, u.total, u.cost].any Option.isSome then some u
  else none

/-- What is left running when its run is over. -/
def Node.stop (status : TraceStatus) (n : Node ν) : Node ν :=
  if n.status = .running then
    { n with status := if status = .completed then .unknown else status }
  else n

/-- A late note that a call is running does not revive what has ended. -/
def toolTiming (n : Node ν) (value : Value ν) : Node ν :=
  match number (value.get "elapsedMs"), (value.get "running").asBool with
  | some elapsed, some running =>
    if n.ended && running then n
    else { n with
      elapsedMs := some elapsed
      status := if !n.ended && running then .running else n.status }
  | _, _ => n

end

/-! ### The texts of a message -/

namespace Redaction

variable {ν : Type*} (R : Redaction ν)

def textOf (value : Value ν) : Option String := value.asString.map R.text

def identity : Value ν → Option String
  | .string s => if s != "" && Js.length s ≤ 256 && R.text s == s then some s else none
  | _ => none

/-- `t || undefined` for the masked text. -/
def nonempty (t : String) : Option String := if R.text t = "" then none else some (R.text t)

def messageText : Value ν → Option String
  | .string s => some (R.text s)
  | .array items =>
    let result := (items.take 64).foldl (fun result block =>
      if Js.length result < MAX_TEXT && (block.get "type").isText "text" then
        match block.get "text" with
        | .string t => result ++ (if result = "" then "" else "\n") ++ R.text t
        | _ => result
      else result) ""
    R.nonempty result
  | _ => none

def callIds (r : Value ν) : List String := (callsOf r).filterMap fun c => R.identity (c.get "id")

end Redaction

namespace ExecutionTraceState

variable {ν : Type*}

/-! ### Reading and changing groups and nodes -/

def nodes (s : ExecutionTraceState ν) : List (Node ν) := s.groups.flatMap Group.nodes

def find (s : ExecutionTraceState ν) (id : Option Nat) : Option (Node ν) :=
  id.bind fun id => s.nodes.find? fun n => n.id == id

/-- `active` -/
def activeGroup (s : ExecutionTraceState ν) : Option (Group ν) :=
  s.groups.find? fun g => some g.id == s.active && g.status == .running

/-- The group that holds a node. -/
def ownerOf (s : ExecutionTraceState ν) (id : Nat) : Option Nat :=
  (s.groups.find? fun g => g.nodes.any fun n => n.id == id).map Group.id

def updateGroup (s : ExecutionTraceState ν) (id : Nat) (f : Group ν → Group ν) :
    ExecutionTraceState ν :=
  { s with groups := First.update (fun g => g.id == id) f s.groups }

def markPartial (s : ExecutionTraceState ν) (id : Nat) : ExecutionTraceState ν :=
  s.updateGroup id fun g => { g with isPartial := true }

def edit (s : ExecutionTraceState ν) (id : Nat) (f : Node ν → Node ν) : ExecutionTraceState ν :=
  { s with groups := s.groups.map fun g =>
      { g with nodes := g.nodes.map fun n => if n.id = id then f n else n } }

def group (s : ExecutionTraceState ν) (source : Source) (prepend : Bool) :
    ExecutionTraceState ν × Nat :=
  let g : Group ν := {
    id := s.nextId + 1
    source
    isPartial := source == .history
    status := if source = .live then .running else .unknown
    nodes := [] }
  ({ s with nextId := g.id, groups := if prepend then g :: s.groups else s.groups ++ [g] }, g.id)

def liveGroup (s : ExecutionTraceState ν) : ExecutionTraceState ν × Nat :=
  -- a completed group may be the context of a replay
  match s.groups.find? fun g => some g.id == s.active with
  | some existing => (s, existing.id)
  | none =>
    let (s, g) := s.group .live false
    ({ s.markPartial g with active := some g }, g)

/-- `add`, with the call that `tool` gives its new node. -/
def add (s : ExecutionTraceState ν) (g : Nat) (kind : Kind) (initial : TraceStatus)
    (call : Option String) : ExecutionTraceState ν × Nat :=
  let n : Node ν := { id := s.nextId + 1, kind, status := initial, call }
  ({ s with nextId := n.id }.updateGroup g fun g => { g with nodes := g.nodes ++ [n] }, n.id)

/-! ### The limits -/

/-- Drops the oldest nodes, so many that no excess is left. -/
def trim (excess : Nat) : List (Group ν) → List (Group ν)
  | [] => []
  | g :: groups =>
    if excess = 0 then g :: groups
    else
      let count := min excess g.nodes.length
      { g with nodes := g.nodes.drop count, isPartial := true } :: trim (excess - count) groups

def nodeCount (groups : List (Group ν)) : Nat := (groups.map fun g => g.nodes.length).sum

/-- `g.nodes.length || g.id === s.active` -/
def isRetained (s : ExecutionTraceState ν) (g : Group ν) : Bool :=
  !g.nodes.isEmpty || some g.id == s.active

def bound (s : ExecutionTraceState ν) : ExecutionTraceState ν :=
  let groups := s.groups.filter s.isRetained
  let kept := groups.drop (groups.length - MAX_GROUPS)
  let excess := nodeCount kept - MAX_NODES
  let s := { s with
    groups := (trim excess kept).filter s.isRetained
    clipped := s.clipped || MAX_GROUPS < groups.length || 0 < excess }
  { s with
    active := s.active.filter fun id => s.groups.any fun g => g.id == id
    user := s.user.filter fun _ => (s.find s.user).isSome
    assistant := s.assistant.filter fun _ => (s.find s.assistant).isSome }

end ExecutionTraceState

namespace Redaction

variable {ν : Type*} [Numeric ν] (R : Redaction ν)

/-! ### The nodes of tools and messages -/

def tool (s : ExecutionTraceState ν) (g : Nat) (call : Option String) (initial : TraceStatus) :
    ExecutionTraceState ν × Nat :=
  match call.bind fun call => s.nodes.find? fun n => n.kind == .tool && n.call == some call with
  | some existing => (s, existing.id)
  | none => s.add g .tool initial call

/-- A node that may be the same message, as far as both say what they are. -/
def isCandidate (r : Value ν) (n : Node ν) : Bool :=
  let entry := R.identity (r.get "entryId")
  let calls := R.callIds r
  let shares := calls.any fun id => (n.calls.getD []).contains id
  if entry.isSome && isPresent n.entryId && n.entryId != entry then false
  else if isPresent n.model && (R.identity (r.get "model")).isSome &&
      !isSame n.model (r.get "model") then false
  else if isPresent n.provider && (R.identity (r.get "provider")).isSome &&
      !isSame n.provider (r.get "provider") then false
  else
    match number (r.get "timestamp"), n.stamp with
    | some stamp, some t => t == stamp && (calls.isEmpty || (n.calls.getD []).isEmpty || shares)
    | _, _ => shares

/-- `match` -/
def matchNode (s : ExecutionTraceState ν) (r : Value ν) (slot : Option String) :
    Option (Node ν) :=
  let entry := R.identity (r.get "entryId")
  let result :=
    if (r.get "role").isText "toolResult" && (R.identity (r.get "toolCallId")).isSome then
      s.nodes.find? fun n => n.kind == .tool && isSame n.call (r.get "toolCallId")
    else none
  let nodes := s.nodes.filter fun n => isSame n.role (r.get "role")
  let exact := entry.bind fun entry => nodes.find? fun n => n.entryId == some entry
  let loose :=
    match nodes.filter (R.isCandidate r) with
    | [n] => some n
    | _ =>
      -- slots are for history without metadata only
      if entry.isNone && (number (r.get "timestamp")).isNone then
        slot.bind fun slot =>
          nodes.find? fun n => !isPresent n.entryId && n.stamp.isNone && n.slot == some slot
      else none
  result <|> exact <|> loose

/-- What a tool result leaves on its node. -/
def withResult (r : Value ν) (slot : Option String) (n : Node ν) : Node ν :=
  let failed := (r.get "isError").isTrue
  let output := R.summary (r.get "content") <|> n.output
  toolTiming { n with
    role := some "toolResult"
    slot := n.slot <|> slot
    entryId := R.identity (r.get "entryId") <|> n.entryId
    name := R.textOf (r.get "toolName") <|> n.name
    output
    status := if failed then .failed else .completed
    error := if failed then R.textOf (r.get "errorMessage") <|> output else n.error
    ended := true } (r.get "webTiming")

/-- What a message of the user leaves on its node. -/
def withUser (r : Value ν) (slot : Option String) (n : Node ν) : Node ν :=
  { n with
    role := some "user"
    slot := n.slot <|> slot
    stamp := number (r.get "timestamp") <|> n.stamp
    entryId := R.identity (r.get "entryId") <|> n.entryId
    input := R.messageText (r.get "content") <|> n.input
    status := .completed }

/-- What a message of the assistant leaves on its node: a snapshot or a replayed part does not
overwrite a response that is complete. -/
def withAssistant (r : Value ν) (isEnd : Bool) (slot : Option String) (n : Node ν) : Node ν :=
  let preserve := n.ended && (slot.isSome || !isEnd)
  let error := pick preserve n.error (R.textOf (r.get "errorMessage"))
  let finalStatus := status (r.get "stopReason") .undefined
  { n with
    role := some "assistant"
    slot := n.slot <|> slot
    stamp := number (r.get "timestamp") <|> n.stamp
    entryId := R.identity (r.get "entryId") <|> n.entryId
    model := R.textOf (r.get "model") <|> n.model
    provider := R.textOf (r.get "provider") <|> n.provider
    output := pick preserve n.output (R.messageText (r.get "content"))
    usage := pick preserve n.usage (usage (r.get "usage"))
    error
    ended := n.ended || (isEnd && !preserve)
    status :=
      if isEnd && !preserve then
        if finalStatus = .unknown then
          if isPresent error then .failed else if slot.isNone then .completed else .unknown
        else finalStatus
      else if !n.ended then .running
      else n.status
    calls := if (R.callIds r).isEmpty then n.calls else some (R.callIds r) }

/-- The tool node of a call in an assistant message. -/
def messageCall (owner parentId : Nat) (s : ExecutionTraceState ν) (c : Value ν) :
    ExecutionTraceState ν :=
  match R.identity (c.get "id") with
  | none => s
  | some id =>
    let (s, t) := tool s owner (some id) .unknown
    s.edit t fun t => toolTiming { t with
      parentId := some parentId
      name := R.textOf (c.get "name") <|> t.name
      input := R.summary (c.get "arguments") <|> t.input } (c.get "webTiming")

/-- The calls of an assistant message beyond the limits are left out. -/
def isClipped (r : Value ν) : Bool :=
  (match r.get "content" with
    | .array items => 64 < items.length
    | _ => false) || (callsOf r).length == 32

/-- The node that a tool result is about. -/
def resultNode (s : ExecutionTraceState ν) (r : Value ν) (g : Nat) (slot : Option String) :
    ExecutionTraceState ν × Nat :=
  match R.identity (r.get "toolCallId") with
  | some call => tool s g (some call) .unknown
  | none =>
    match R.matchNode s r slot with
    | some n => (s, n.id)
    | none => s.add g .tool .unknown none

/-- The node of a message of the user or the assistant. -/
def messageNode (s : ExecutionTraceState ν) (r : Value ν) (g : Nat) (isEnd : Bool)
    (slot : Option String) (current : Option Nat) : ExecutionTraceState ν × Nat :=
  match s.find current <|> R.matchNode s r slot with
  | some n => (s, n.id)
  | none =>
    s.add g (if (r.get "role").isText "user" then .input else .llm)
      (if isEnd then .unknown else .running) none

/-- A message that goes on in another group leaves both groups partial. -/
def markMoved (s : ExecutionTraceState ν) (owner g : Nat) (slot : Option String) :
    ExecutionTraceState ν :=
  if slot.isNone && owner != g then (s.markPartial owner).markPartial g else s

def message (s : ExecutionTraceState ν) (r : Value ν) (g : Nat) (isEnd : Bool)
    (slot : Option String) (current : Option Nat) : ExecutionTraceState ν × Option Nat :=
  if (r.get "role").isText "toolResult" then
    let (s, id) := R.resultNode s r g slot
    (s.edit id (R.withResult r slot), some id)
  else if (r.get "role").isText "assistant" || (r.get "role").isText "user" then
    let (s, id) := R.messageNode s r g isEnd slot current
    let owner := (s.ownerOf id).getD g
    let s := markMoved s owner g slot
    if (r.get "role").isText "user" then (s.edit id (R.withUser r slot), some id)
    else
      let s := s.edit id (R.withAssistant r isEnd slot)
      let s := { s with clipped := s.clipped || isClipped r }
      ((callsOf r).foldl (R.messageCall owner id) s, some id)
  else (s, none)

/-! ### Settlement -/

/-- The settlement node of a group. -/
def settlementNode (s : ExecutionTraceState ν) (g : Nat) (status : TraceStatus) :
    ExecutionTraceState ν × Nat :=
  let nodes := ((s.groups.find? fun item => item.id == g).map Group.nodes).getD []
  match nodes.find? fun n => n.kind == .settlement with
  | some n => (s, n.id)
  | none => s.add g .settlement status none

def settle (s : ExecutionTraceState ν) (g : Nat) (event : Value ν) : ExecutionTraceState ν :=
  let status := status (event.get "outcome") (event.get "aborted")
  let s := s.updateGroup g fun g => { g with status }
  let (s, id) := settlementNode s g status
  let runId := (s.groups.find? fun item => item.id == g).bind Group.runId
  let s := s.edit id fun n => { n with
    status
    runId
    output := R.textOf (event.get "summary") <|> R.textOf (event.get "finalText") <|> n.output
    error := R.summary (event.get "error") <|> n.error }
  let s := s.updateGroup g fun g => { g with nodes := g.nodes.map (Node.stop status) }
  if s.active = some g then { s with active := none, user := none, assistant := none } else s

/-! ### Snapshots -/

/-- The last digits of a number in base 36, without leading zeros. -/
def base36 : Nat → Nat → List Char
  | 0, _ => []
  | count + 1, n =>
    let digit := Char.ofNat (if n % 36 < 10 then '0'.toNat + n % 36 else 'a'.toNat + (n % 36 - 10))
    if n / 36 = 0 then [digit] else base36 count (n / 36) ++ [digit]

/-- The UTF-16 code units of a text. -/
def codeUnits (s : String) : List UInt32 :=
  s.toList.flatMap fun c =>
    if c.toNat < 0x10000 then [c.val]
    else [0xd800 + (c.val - 0x10000) / 0x400, 0xdc00 + (c.val - 0x10000) % 0x400]

def signature (r : Value ν) : String :=
  let texts : List (Option String) :=
    [some (R.display (r.get "role")), R.identity (r.get "entryId"),
      (number (r.get "timestamp")).map fun n => R.display (.number n), R.textOf (r.get "model"),
      R.textOf (r.get "provider"), R.identity (r.get "toolCallId"), R.messageText (r.get "content")]
    ++ (callsOf r).map fun c => R.identity (c.get "id")
  "\n".intercalate (texts.map fun t => t.getD "")

def pageScope (messages : List (Value ν)) : String :=
  let hash := messages.foldl (fun hash r =>
    (codeUnits (R.signature r)).foldl (fun hash c => (hash ^^^ c) * 16777619) hash)
    (2166136261 : UInt32)
  String.ofList (base36 7 hash.toNat)

/-- Unassociated durable history precedes observed live activity. -/
def insertBeforeLive (history : Group ν) : List (Group ν) → List (Group ν)
  | [] => [history]
  | g :: groups =>
    if g.source = .live then history :: g :: groups else g :: insertBeforeLive history groups

def historyGroup (s : ExecutionTraceState ν) (mode : Mode) : ExecutionTraceState ν × Nat :=
  let (s, history) := s.group .history (mode == .older)
  let s :=
    match s.activeGroup with
    | some g => s.markPartial g.id
    | none => s
  if mode = .older then (s, history)
  else
    match s.groups.getLast? with
    | some last => ({ s with groups := insertBeforeLive last s.groups.dropLast }, history)
    | none => (s, history)

/-- One message of a page, with the group that holds the page's unassociated history. -/
def pageMessage (mode : Mode) (scope : String) (acc : ExecutionTraceState ν × Option Nat)
    (item : Value ν × Nat) : ExecutionTraceState ν × Option Nat :=
  let (s, history) := acc
  let r := item.1
  if ["assistant", "user", "toolResult"].any (r.get "role").isText then
    let slot := some s!"{scope}:{item.2}"
    match (R.matchNode s r slot).bind fun known => s.ownerOf known.id with
    | some owner => ((R.message s r owner true slot none).1.bound, history)
    | none =>
      let (s, h) :=
        match history.filter fun h => s.groups.any fun g => g.id == h with
        | some h => (s, h)
        | none => historyGroup s mode
      ((R.message s r h true slot none).1.bound, some h)
  else acc

/-- The group of the run that a snapshot says is settled. -/
def latestGroup (s : ExecutionTraceState ν) (runId : Option String) : ExecutionTraceState ν × Nat :=
  let found := s.groups.find? fun item =>
    if runId.isSome then item.runId == runId
    else item.nodes.any fun n => n.slot == some "latest-settlement"
  match found with
  | some g => (s, g.id)
  | none =>
    let (s, g) := s.group .history false
    (s.updateGroup g fun g => { g with runId }, g)

/-- The settlement of a snapshot, which is authoritative for its own run only. -/
def latestSettlement (s : ExecutionTraceState ν) (latest : Value ν) : ExecutionTraceState ν :=
  let runId := R.identity (latest.get "runId")
  let (s, g) := latestGroup s runId
  let s := R.settle s g latest
  if runId.isNone then
    s.updateGroup g fun g => { g with
      nodes := First.update (fun n => n.kind == .settlement)
        (fun n => { n with slot := some "latest-settlement" }) g.nodes }
  else s

/-- A page of older messages settles nothing. -/
def frameSettlement (s : ExecutionTraceState ν) (frame : Frame ν) (mode : Mode) :
    ExecutionTraceState ν :=
  match mode, frame.latestSettlement with
  | .older, _ => s
  | _, .object (field :: fields) => R.latestSettlement s (.object (field :: fields))
  | _, _ => s

def applyTraceSnapshot (state : ExecutionTraceState ν) (frame : Frame ν) (mode : Mode) :
    ExecutionTraceState ν :=
  let messages := frame.messages.asArray.getD []
  let start := messages.length - MAX_NODES
  let s := { state with
    olderPage := if mode = .older then state.olderPage + 1 else state.olderPage
    clipped := state.clipped || 0 < start }
  let scope :=
    if mode = .older then s!"older{s.olderPage}" else s!"page:{R.pageScope (messages.drop start)}"
  let s := ((messages.zipIdx.drop start).foldl (R.pageMessage mode scope) (s, none)).1
  (R.frameSettlement s frame mode).bound

/-! ### Events -/

/-- The group that runs; one that runs under another id is given up. -/
def resumable (s : ExecutionTraceState ν) (runId : Option String) :
    ExecutionTraceState ν × Option (Group ν) :=
  match s.activeGroup with
  | none => (s, none)
  | some g =>
    if runId.isSome && isPresent g.runId && runId != g.runId then
      (s.updateGroup g.id fun g => { g with isPartial := true, status := .unknown }, none)
    else (s, some g)

/-- The anonymous context of a replay joins the group that its run is known by. -/
def joinGroup (s : ExecutionTraceState ν) (g : Group ν) (known : Nat) : ExecutionTraceState ν :=
  let s := s.updateGroup known fun known => { known with
    nodes := g.nodes ++ known.nodes, isPartial := known.isPartial || g.isPartial }
  { s with groups := s.groups.filter fun item => item.id != g.id }

def resume (s : ExecutionTraceState ν) (runId : Option String) (g : Nat) : ExecutionTraceState ν :=
  { s.updateGroup g fun g => { g with runId := runId <|> g.runId } with active := some g }

def agentStart (s : ExecutionTraceState ν) (runId : Option String) : ExecutionTraceState ν :=
  let (s, g) := resumable s runId
  let known := runId.bind fun _ => s.groups.find? fun item => item.runId == runId
  match g, known with
  | some g, some known =>
    if known.id != g.id && !isPresent g.runId then resume (joinGroup s g known.id) runId known.id
    else resume s runId g.id
  | some g, none => resume s runId g.id
  | none, some known => resume s runId known.id
  | none, none =>
    let (s, g) := s.group .live false
    resume { s with user := none, assistant := none } runId g

/-- The group of the run that an event says is settled. -/
def settledGroup (s : ExecutionTraceState ν) (runId : Option String) : ExecutionTraceState ν × Nat :=
  let named :=
    if runId.isSome then s.groups.find? fun item => item.runId == runId
    else s.groups.find? fun item => some item.id == s.active
  let current := s.activeGroup.filter fun g => runId.isNone || !isPresent g.runId
  match named <|> current with
  | some g => (s, g.id)
  | none =>
    let (s, g) := s.group .live false
    (s.markPartial g, g)

def agentSettled (s : ExecutionTraceState ν) (runId : Option String) (event : Value ν) :
    ExecutionTraceState ν :=
  let (s, g) := settledGroup s runId
  R.settle (s.updateGroup g fun g => { g with runId := runId <|> g.runId }) g event

def retryScheduled (s : ExecutionTraceState ν) (event : SeqEvent ν) : ExecutionTraceState ν :=
  let (s, g) := s.liveGroup
  let (s, n) := s.add g .retry .completed none
  s.edit n fun n => { n with
    error := R.summary (event.get "error")
    attempt := number (event.get "attempt")
    maxRetries := number (event.get "maxRetries")
    delayMs := number (event.get "delayMs") }

/-- `active(s) ?? owner ?? liveGroup(s)` -/
def contextGroup (s : ExecutionTraceState ν) (owner : Option Nat) : ExecutionTraceState ν × Nat :=
  match (s.activeGroup.map Group.id) <|> owner with
  | some g => (s, g)
  | none => s.liveGroup

def messageEvent (s : ExecutionTraceState ν) (event : SeqEvent ν) : ExecutionTraceState ν :=
  let r := event.get "message"
  let isEnd := event.type == "message_end"
  if ["assistant", "user", "toolResult"].any (r.get "role").isText then
    let current :=
      if event.type = "message_start" then none
      else if (r.get "role").isText "assistant" then s.assistant
      else if (r.get "role").isText "user" then s.user
      else none
    let known := s.find current <|> R.matchNode s r none
    let (s, g) := contextGroup s (known.bind fun known => s.ownerOf known.id)
    let (s, n) := R.message s r g isEnd none current
    let s := if (r.get "role").isText "assistant" then
      { s with assistant := if isEnd then none else n } else s
    if (r.get "role").isText "user" then { s with user := if isEnd then none else n } else s
  else s

/-- What a tool event leaves on its node: a late start or update does not overwrite a result. -/
def withExecution (event : SeqEvent ν) (n : Node ν) : Node ν :=
  let isEnd := event.type == "tool_execution_end"
  let failed := (event.get "isError").isTrue
  let n := { n with
    name := R.textOf (event.get "toolName") <|> n.name
    input := R.summary (event.get "args") <|> n.input }
  if !n.ended || isEnd then
    let output := R.summary (event.get (if isEnd then "result" else "partialResult")) <|> n.output
    toolTiming { n with
      output
      status := if isEnd then if failed then .failed else .completed else .running
      ended := n.ended || isEnd
      error := if isEnd then if failed then output else none else n.error } (event.get "webTiming")
  else n

def toolExecution (s : ExecutionTraceState ν) (event : SeqEvent ν) : ExecutionTraceState ν :=
  let call := R.identity (event.get "toolCallId")
  let owner := call.bind fun call =>
    s.groups.find? fun g => g.nodes.any fun n => n.kind == .tool && n.call == some call
  let (s, g) := contextGroup s (owner.map Group.id)
  let (s, n) := tool s g call .unknown
  s.edit n (R.withExecution event)

/-- A closed host keeps nothing running, and settles nothing. -/
def hostClosed (s : ExecutionTraceState ν) : ExecutionTraceState ν :=
  { s with
    groups := s.groups.map fun g => { g with
      status := if g.status = .running then .unknown else g.status
      isPartial := g.isPartial || g.status == .running
      nodes := g.nodes.map (Node.stop .unknown) }
    active := none
    user := none
    assistant := none }

def applyTraceEvent (state : ExecutionTraceState ν) (event : SeqEvent ν) (seq : ν) :
    ExecutionTraceState ν :=
  match Numeric.toSafeInteger seq with
  | none => state
  | some seq =>
    if seq < 0 ∨ seq ≤ state.lastSeq then state
    else
      let s := { state with lastSeq := seq }
      let runId := R.identity (event.get "runId")
      let s :=
        if event.type = "agent_start" ∨ event.type = "operation_accepted" then agentStart s runId
        else if event.type = "agent_settled" then R.agentSettled s runId (.object event.fields)
        else if event.type = "retry_scheduled" then R.retryScheduled s event
        else if event.type ∈ ["message_start", "message_update", "message_end"] then
          R.messageEvent s event
        else if "tool_execution_".toList.isPrefixOf event.type.toList then R.toolExecution s event
        else s
      let s := if event.type = "host_closed" then hostClosed s else s
      s.bound

end Redaction

/-! ### Runs of the client -/

inductive Call (ν : Type*) where
  | event (event : SeqEvent ν) (seq : ν)
  | snapshot (frame : Frame ν) (mode : Mode)

def step {ν : Type*} [Numeric ν] (R : Redaction ν) (s : ExecutionTraceState ν) :
    Call ν → ExecutionTraceState ν
  | .event event seq => R.applyTraceEvent s event seq
  | .snapshot frame mode => R.applyTraceSnapshot s frame mode

end ExecutionTrace
