import RpiPackage.Acp.Message

/-!
# The dispatcher of a connection

One request is served at a time. Prompts, lists, child queries, subscriptions and logouts go on as
tasks, which answer by themselves while the dispatcher serves other requests, among them those that
cancel them.
-/

namespace Acp

open Json

inductive CatalogError where
  | invalidInput
  | invalidCursor
  | cancelled
  | deadlineExceeded
  | limitExceeded
  | accessDenied
  | conflict
  | unavailable
  deriving DecidableEq, Repr

def wireError : CatalogError → Int × String
  | .invalidInput => (-32602, "invalid session/list parameters")
  | .invalidCursor => (-32602, "invalid session/list cursor")
  | .cancelled => (-32800, "session/list cancelled")
  | .deadlineExceeded => (-32800, "session/list deadline exceeded")
  | .limitExceeded => (-32001, "session/list limit exceeded")
  | .accessDenied => (-32001, "session/list access denied")
  | .conflict => (-32001, "session/list busy")
  | .unavailable => (-32001, "session/list unavailable")

inductive Reply where
  | result (value : Value)
  | error (code : Int) (message : String)
  -- the error of a child query, with its own code and data
  | typed (error : Value)

def catalogReply (error : CatalogError) : Reply := .error (wireError error).1 (wireError error).2

structure Request where
  id : Option RpcId
  method : String
  params : Value

/-- A frame that has been written; a response is the one of the `n`-th request. -/
inductive Frame where
  | response (n : Nat) (id : RpcId) (reply : Reply)
  | notification (method : String) (params : Value)
  | refusal (error : Value)

/-- A task runs, writes its response, and is over. -/
inductive Work where
  | running
  | answering (reply : Reply)
  | over

/-- What the core has answered to a subscription. -/
inductive Started where
  | snapshot (value : Value)
  | unserializable
  | failed (error : Value)

/-- A subscription waits for its snapshot or its cancellation, takes its request out of the pending
ones, answers, streams updates, and takes its entry out of the registry. -/
inductive Stage where
  | starting
  | resolved (result : Option Started)
  | unpended (result : Option Started)
  | answering (reply : Reply) (streams : Bool)
  | streaming
  | finishing
  | over

structure Subscription where
  sessionId : String
  subscriptionId : String
  token : UInt64
  stage : Stage
  cancelled : Bool

inductive Task where
  | none
  | prompt (work : Work)
  | logout (work : Work)
  | list (work : Work) (cancelled : Bool)
  | query (work : Work) (aborted : Bool)
  | subscription (subscription : Subscription)

def Task.isOver : Task → Bool
  | .none | .prompt .over | .logout .over | .list .over _ | .query .over _ => true
  | .subscription { stage := .over, .. } => true
  | _ => false

structure PromptTask where
  sessionId : String
  session : Nat
  task : Nat

structure QueryTask where
  sessionId : String
  task : Nat

structure Entry where
  sessionId : String
  token : UInt64
  task : Nat

/-- What is left of a request once the subscriptions that it retires are over. -/
inductive Rest where
  | unsubscribed
  | cancelled (found : Bool) (requestId : RpcId)
  | sessionCancelled (sessionId : String)
  | stopped (sessionId : String) (method : String)

/-- The subscription of a cancelled request has been found. -/
def Rest.find : Rest → Rest
  | .cancelled _ id => .cancelled true id
  | rest => rest

inductive Dispatcher where
  | idle
  | serving (n : Nat)
  -- it cancels one subscription after another, and waits for the task of the last one
  | retiring (n : Nat) (subscriptions : List String) (wait : Option Nat) (rest : Rest)
  | ended

structure Connection where
  requests : List Request
  dispatcher : Dispatcher
  catalog : Option CatalogError
  sessions : Table String Nat
  -- how often the run of a session has been aborted
  aborts : Nat → Nat
  prompts : Table String PromptTask
  lists : Table String Nat
  queries : Table String QueryTask
  pending : Table String String
  entries : Table String Entry
  nextToken : UInt64
  tasks : Nat → Task
  out : List Frame
  writer : Writer

/-- The parsers of the parameters of the methods. -/
structure Parsers where
  fileIo : Value → Except String Unit
  servers : Value → Except String Unit
  prompt : Value → Except String Unit
  mutation : Value → Except String Unit
  list : Value → Except CatalogError Unit
  -- the session of a child query
  childQuery : String → Value → Option String
  -- the session and the id of a subscription
  subscribe : Value → Option (String × String)
  unsubscribe : Value → Option (String × String)

/-- What the hosts and the disk say while a request is served. -/
structure Oracle where
  sessionId : String
  savedSession : Except String Unit
  opened : Except String Unit
  fileIo : Except String Unit
  -- whether the session has a live configuration
  configuration : Except String Bool
  replayed : Except String Unit
  emitted : Except String Unit
  -- whether the last configuration update can be written
  drains : Bool
  result : Value
  updates : List (String × Value)
  durable : Except String Value
  set : Reply
  applied : Except String Unit
  state : Except String Unit
  config : Except String Value
  -- the directory of a session, and why it cannot be removed
  directory : Except String (Option String)

namespace Connection

def start (catalog : Option CatalogError) : Connection where
  requests := []
  dispatcher := .idle
  catalog
  sessions := .empty
  aborts _ := 0
  prompts := .empty
  lists := .empty
  queries := .empty
  pending := .empty
  entries := .empty
  nextToken := 0
  tasks _ := .none
  out := []
  writer := .new

def request (s : Connection) (n : Nat) : Request := s.requests.getD n ⟨none, "", .null⟩

/-- Nothing is written once the connection is closed. -/
def write (s : Connection) (frames : List Frame) : Connection :=
  if s.writer.closed then s else { s with out := s.out ++ frames }

/-- A request without an id is not answered. -/
def answer (s : Connection) (n : Nat) (reply : Reply) : Connection :=
  match (s.request n).id with
  | some id => s.write [.response n id reply]
  | none => s

def notify (s : Connection) (updates : List (String × Value)) : Connection :=
  s.write (updates.map fun update => .notification update.1 update.2)

def setTask (s : Connection) (n : Nat) (task : Task) : Connection :=
  { s with tasks := Function.update s.tasks n task }

def abort (s : Connection) (session : Nat) : Connection :=
  { s with aborts := Function.update s.aborts session (s.aborts session + 1) }

def idle (s : Connection) : Connection := { s with dispatcher := .idle }

def close (s : Connection) : Connection := { s with writer := s.writer.close }

def unknownSession : Reply := .error (-32602) "unknown sessionId"

def invalid (error : String) : Reply := .error (-32602) error

def failed (error : String) : Reply := .error (-32603) error

def success : Reply := .result (.object [])

/-! ### Requests that are served at once -/

def initializeConnection (s : Connection) (P : Parsers) (o : Oracle) (n : Nat) (params : Value) :
    Connection :=
  match requestParams params "initialize" with
  | .error error => s.answer n (invalid error)
  | .ok _ =>
    if (params.get "protocolVersion").bind Value.asU64 ≠ some 1 then
      s.answer n (invalid "unsupported protocol version; this agent speaks ACP v1")
    else if (params.get "clientCapabilities").any fun capabilities => !capabilities.isObject then
      s.answer n (invalid "clientCapabilities must be an object")
    else
      match P.fileIo params with
      | .error error => s.answer n (invalid error)
      | .ok _ => s.answer n (.result o.result)

def authenticate (s : Connection) (n : Nat) (params : Value) : Connection :=
  if params.isNull || params.isObject then s.answer n success
  else s.answer n (invalid "params must be an object")

def newSession (s : Connection) (P : Parsers) (o : Oracle) (n : Nat) (params : Value) :
    Connection :=
  match requestParams params "session/new" with
  | .error error => s.answer n (invalid error)
  | .ok _ =>
    match requiredString params "cwd" with
    | .error error => s.answer n (invalid error)
    | .ok _ =>
      match P.servers params with
      | .error error => s.answer n (invalid error)
      | .ok _ =>
        match o.opened, o.fileIo, o.configuration with
        | .error error, _, _ | .ok _, .error error, _ | .ok _, .ok _, .error error =>
          s.answer n (failed error)
        | .ok _, .ok _, .ok _ =>
          ({ s with sessions := s.sessions.put o.sessionId n }.answer n (.result o.result)).notify
            o.updates

/-- Before the transcript of a session is replayed. -/
def reopen (s : Connection) (o : Oracle) (sessionId : String) (method : String) :
    Except String Unit := do
  if (s.sessions.get sessionId).isNone then o.savedSession
  o.opened
  o.fileIo
  let _ ← o.configuration
  if method = "session/load" then
    o.replayed
    o.emitted

def loadSession (s : Connection) (P : Parsers) (o : Oracle) (n : Nat) (method : String)
    (params : Value) : Connection :=
  match requestParams params method with
  | .error error => s.answer n (invalid error)
  | .ok _ =>
    match requiredString params "sessionId" with
    | .error error => s.answer n (invalid error)
    | .ok sessionId =>
      match requiredString params "cwd" with
      | .error error => s.answer n (invalid error)
      | .ok _ =>
        match P.servers params with
        | .error error => s.answer n (invalid error)
        | .ok _ =>
          match s.reopen o sessionId method with
          | .error error => s.answer n (failed error)
          | .ok _ =>
            -- an update that cannot be written ends the connection
            if o.drains then
              ({ s with
                  sessions := s.sessions.put sessionId ((s.sessions.get sessionId).getD n) }.answer n
                (.result o.result)).notify o.updates
            else s.close

def durable (s : Connection) (P : Parsers) (o : Oracle) (n : Nat) (params : Value) : Connection :=
  match requestParams params "session/durable" with
  | .error error => s.answer n (invalid error)
  | .ok _ =>
    match s.sessions.get (((params.get "sessionId").bind Value.asStr).getD "") with
    | none => s.answer n unknownSession
    | some _ =>
      if (params.get "operation").bind Value.asStr = some "status" then
        match o.durable with
        | .ok value => s.answer n (.result value)
        | .error error => s.answer n (.error (-32001) error)
      else
        match P.mutation params with
        | .error error => s.answer n (invalid error)
        | .ok _ =>
          match o.durable with
          | .ok value => (s.answer n (.result value)).notify o.updates
          | .error error =>
            if Rust.startsWith error "durable_unavailable:" then s.answer n (.error (-32001) error)
            else s.answer n (failed error)

/-- The mutation of a session without a live configuration. -/
def applyOption (o : Oracle) (configId : String) (value : Value) : Except String Unit :=
  if configId = "model" then
    match value.asStr with
    | some _ => o.applied
    | none => .error "model value must be a string"
  else if configId = "thinking" then
    match value.asStr with
    | some _ => o.applied
    | none => .error "thinking value must be a string"
  else .error ("unknown config option: " ++ configId)

def setConfigOption (s : Connection) (o : Oracle) (n : Nat) (params : Value) : Connection :=
  match requestParams params "session/set_config_option" with
  | .error error => s.answer n (invalid error)
  | .ok _ =>
    match requiredString params "sessionId" with
    | .error error => s.answer n (invalid error)
    | .ok sessionId =>
      match requiredString params "configId" with
      | .error error => s.answer n (invalid error)
      | .ok configId =>
        match s.sessions.get sessionId with
        | none => s.answer n unknownSession
        | some _ =>
          match o.configuration with
          | .error error => s.answer n (failed error)
          | .ok true => s.answer n o.set
          | .ok false =>
            match applyOption o configId (params.index "value") with
            | .error error => s.answer n (invalid error)
            | .ok _ =>
              match o.state, o.config with
              | .ok _, .ok config => s.answer n (.result config)
              | .error error, _ | .ok _, .error error => s.answer n (failed error)

/-! ### Requests that become tasks -/

def key (s : Connection) (n : Nat) : String :=
  match (s.request n).id with
  | some id => id.requestKey
  | none => ""

def logout (s : Connection) (n : Nat) (params : Value) : Connection :=
  if params.isNull || params.isObject then s.setTask n (.logout .running)
  else s.answer n (invalid "params must be an object")

def startList (s : Connection) (P : Parsers) (n : Nat) (params : Value) : Connection :=
  match P.list params with
  | .error error => s.answer n (catalogReply error)
  | .ok _ =>
    if 2 ≤ s.lists.size then s.answer n (catalogReply .conflict)
    else
      match s.catalog with
      | some error => s.answer n (catalogReply error)
      | none => { s with lists := s.lists.put (s.key n) n }.setTask n (.list .running false)

def startQuery (s : Connection) (P : Parsers) (n : Nat) (method : String) (params : Value) :
    Connection :=
  match P.childQuery method params with
  | none => s.answer n (invalid "invalid child query params")
  | some sessionId =>
    match s.sessions.get sessionId with
    | none => s.answer n unknownSession
    | some _ =>
      if 64 ≤ s.queries.size then s.answer n (.error (-32001) "child query task limit exceeded")
      else
        { s with queries := s.queries.put (s.key n) ⟨sessionId, n⟩ }.setTask n
          (.query .running false)

def startPrompt (s : Connection) (P : Parsers) (n : Nat) (params : Value) : Connection :=
  match P.prompt params with
  | .error error => s.answer n (invalid error)
  | .ok _ =>
    match requiredString params "sessionId" with
    | .error error => s.answer n (invalid error)
    | .ok sessionId =>
      if s.prompts.contains (s.key n) then s.answer n (.error (-32600) "duplicate request id")
      else
        match s.sessions.get sessionId with
        | none => s.answer n unknownSession
        | some session =>
          { s with prompts := s.prompts.put (s.key n) ⟨sessionId, session, n⟩ }.setTask n
            (.prompt .running)

def maxSubscriptions : Nat := 16

def subscribe (s : Connection) (P : Parsers) (n : Nat) (params : Value) : Connection :=
  match P.subscribe params with
  | none => s.answer n (invalid "invalid child subscription params")
  | some (sessionId, subscriptionId) =>
    if s.pending.contains (s.key n) then s.answer n (.error (-32600) "duplicate request id")
    else
      match s.sessions.get sessionId with
      | none => s.answer n unknownSession
      | some _ =>
        let token := s.nextToken
        let s := { s with nextToken := token + 1 }
        if maxSubscriptions ≤ s.entries.size then
          s.answer n (.error (-32001) "child subscription limit exceeded")
        else if s.entries.contains subscriptionId then
          s.answer n (invalid "duplicate subscriptionId")
        else
          { s with
            entries := s.entries.put subscriptionId ⟨sessionId, token, n⟩
            pending := s.pending.put (s.key n) subscriptionId }.setTask n
              (.subscription ⟨sessionId, subscriptionId, token, .starting, false⟩)

/-! ### Requests that end tasks -/

/-- A query is aborted; it stops where it waits next, or has already ended. -/
def abortQuery (s : Connection) (n : Nat) : Connection :=
  match s.tasks n with
  | .query work _ => s.setTask n (.query work true)
  | _ => s

def cancelQuery (s : Connection) (key : String) : Connection :=
  match s.queries.get key with
  | some task => { s with queries := s.queries.erase key }.abortQuery task.task
  | none => s

/-- The queries of a session are aborted, all of them. -/
def cancelQueries (s : Connection) (sessionId : String) : Connection :=
  (s.queries.entries.filter fun p => p.2.sessionId == sessionId).foldl
    (fun s p => s.cancelQuery p.1) s

def cancelList (s : Connection) (key : String) : Connection :=
  match s.lists.get key with
  | some n =>
    match s.tasks n with
    | .list work _ => s.setTask n (.list work true)
    | _ => s
  | none => s

/-- The subscriptions of a session, by their ids. -/
def subscriptionsOf (s : Connection) (sessionId : String) : List String :=
  (s.entries.entries.filter fun p => p.2.sessionId == sessionId).map Prod.fst

/-- The prompts of a session are aborted. -/
def abortPrompts (s : Connection) (sessionId : String) : Connection :=
  (s.prompts.entries.filter fun p => p.2.sessionId == sessionId).foldl
    (fun s p => s.abort p.2.session) s

def unsubscribe (s : Connection) (P : Parsers) (n : Nat) (params : Value) : Connection :=
  match P.unsubscribe params with
  | none => (s.answer n (invalid "invalid child unsubscription params")).idle
  | some (sessionId, subscriptionId) =>
    match s.entries.get subscriptionId with
    | none => (s.answer n success).idle
    | some entry =>
      if entry.sessionId ≠ sessionId then
        (s.answer n (invalid "subscriptionId belongs to another session")).idle
      else { s with dispatcher := .retiring n [subscriptionId] none .unsubscribed }

/-- The id that a cancellation names. -/
def requestId (params : Value) : Option RpcId := (params.get "requestId").bind RpcId.ofValue

def cancelRequest (s : Connection) (n : Nat) (params : Value) : Connection :=
  match requestId params with
  | none => (s.answer n (invalid "requestId must be a string or number")).idle
  | some id =>
    let key := id.requestKey
    let found := s.prompts.contains key || s.lists.contains key || s.queries.contains key
    let s := match s.prompts.get key with
      | some task => s.abort task.session
      | none => s
    let s := (s.cancelList key).cancelQuery key
    { s with
      pending := s.pending.erase key
      dispatcher := .retiring n (s.pending.get key).toList none (.cancelled found id) }

def sessionCancel (s : Connection) (n : Nat) (params : Value) : Connection :=
  match requiredString params "sessionId" with
  | .error error => (s.answer n (invalid error)).idle
  | .ok sessionId =>
    let s := s.cancelQueries sessionId
    { s with
      dispatcher := .retiring n (s.subscriptionsOf sessionId) none (.sessionCancelled sessionId) }

def closeSession (s : Connection) (n : Nat) (method : String) (params : Value) : Connection :=
  match requestParams params method with
  | .error error => (s.answer n (invalid error)).idle
  | .ok _ =>
    match requiredString params "sessionId" with
    | .error error => (s.answer n (invalid error)).idle
    | .ok sessionId =>
      let s := s.cancelQueries sessionId
      { s with
        dispatcher := .retiring n (s.subscriptionsOf sessionId) none (.stopped sessionId method) }

/-- The runs of a session that is cancelled are aborted. -/
def abortSession (s : Connection) (sessionId : String) : Connection :=
  match s.sessions.get sessionId with
  | some session => (s.abort session).abortPrompts sessionId
  | none => s.abortPrompts sessionId

/-- The prompts of a session that is closed are aborted, and the session is dropped. -/
def stopLiveSession (s : Connection) (sessionId : String) : Connection :=
  let s := s.abortPrompts sessionId
  { s with
    prompts := s.prompts.filter fun p => p.2.sessionId != sessionId
    sessions := s.sessions.erase sessionId }

/-- The answer of a request that has closed or deleted a session. -/
def stoppedReply (o : Oracle) (live : Bool) (method : String) : Reply :=
  if method = "session/close" then
    if live || o.savedSession.isOk then success else unknownSession
  else
    match o.directory with
    | .error error => invalid error
    | .ok none => success
    | .ok (some error) => failed ("delete session: " ++ error)

def finish (s : Connection) (o : Oracle) (n : Nat) : Rest → Connection
  | .unsubscribed => (s.answer n success).idle
  | .cancelled found id =>
    let s := match found, id.asU64 with
      | false, some numericId => { s with writer := s.writer.cancelRequest numericId }
      | _, _ => s
    (s.answer n success).idle
  | .sessionCancelled sessionId => ((s.abortSession sessionId).answer n success).idle
  | .stopped sessionId method =>
    let live := s.sessions.contains sessionId
    let s := s.stopLiveSession sessionId
    if o.drains then (s.answer n (stoppedReply o live method)).idle
    else { s.close with dispatcher := .ended }

/-- A subscription is taken out of the registry and told to stop. -/
def cancelSubscription (s : Connection) (entry : Entry) (subscriptionId : String) : Connection :=
  let s := { s with entries := s.entries.erase subscriptionId }
  match s.tasks entry.task with
  | .subscription task => s.setTask entry.task (.subscription { task with cancelled := true })
  | _ => s

/-! ### The dispatcher -/

def queryMethods : List String :=
  ["session/tool_program_children", "session/tool_program_phases", "session/tool_program_body",
    "session/tool_program_snapshot"]

def serve (s : Connection) (P : Parsers) (o : Oracle) (n : Nat) : Connection :=
  let params := (s.request n).params
  let method := (s.request n).method
  if method = "$/cancel_request" then s.cancelRequest n params
  else if method = "session/cancel" then s.sessionCancel n params
  else if (s.request n).id.isNone then s.idle
  else if method = "session/close" ∨ method = "session/delete" then s.closeSession n method params
  else if method = "session/tool_program_unsubscribe" then s.unsubscribe P n params
  else
    idle <|
      if method = "session/list" then s.startList P n params
      else if method = "initialize" then s.initializeConnection P o n params
      else if method = "authenticate" then s.authenticate n params
      else if method = "logout" then s.logout n params
      else if method = "session/new" then s.newSession P o n params
      else if method ∈ queryMethods then s.startQuery P n method params
      else if method = "session/tool_program_subscribe" then s.subscribe P n params
      else if method = "session/durable" then s.durable P o n params
      else if method = "session/prompt" then s.startPrompt P n params
      else if method = "session/load" ∨ method = "session/resume" then
        s.loadSession P o n method params
      else if method = "session/set_config_option" then s.setConfigOption o n params
      else s.answer n (.error (-32601) ("method not found: " ++ method))

/-- The dispatcher goes on with what it does. -/
def dispatch (s : Connection) (P : Parsers) (o : Oracle) : Connection :=
  match s.dispatcher with
  | .serving n => s.serve P o n
  | .retiring n subscriptions (some task) rest =>
    if (s.tasks task).isOver then { s with dispatcher := .retiring n subscriptions none rest } else s
  | .retiring n (subscriptionId :: subscriptions) none rest =>
    match s.entries.get subscriptionId with
    | some entry =>
      { s.cancelSubscription entry subscriptionId with
        dispatcher := .retiring n subscriptions (some entry.task) rest.find }
    | none => { s with dispatcher := .retiring n subscriptions none rest }
  | .retiring n [] none rest => s.finish o n rest
  | .idle | .ended => s

/-- A task that does not end in time closes the connection, and is not waited for any longer. -/
def giveUp (s : Connection) : Connection :=
  match s.dispatcher with
  | .retiring n subscriptions (some _) rest =>
    { s.close with dispatcher := .retiring n subscriptions none rest }
  | _ => s

/-- Tasks that are over leave the tables. -/
def reap (s : Connection) : Connection :=
  { s with
    prompts := s.prompts.filter fun p => !(s.tasks p.2.task).isOver
    lists := s.lists.filter fun p => !(s.tasks p.2).isOver
    queries := s.queries.filter fun p => !(s.tasks p.2.task).isOver }

def isTaken (s : Connection) (key : String) : Bool :=
  s.prompts.contains key || s.lists.contains key || s.queries.contains key || s.pending.contains key

/-- A request is taken out of the queue. -/
def accept (s : Connection) (request : Request) : Connection :=
  let n := s.requests.length
  let s := { s with requests := s.requests ++ [request] }.reap
  match request.id with
  | some id =>
    if s.isTaken id.requestKey then s.answer n (.error (-32600) "duplicate request id")
    else { s with dispatcher := .serving n }
  | none => { s with dispatcher := .serving n }

def receive (s : Connection) (message : Value) : Connection :=
  match parseRpcMessage message with
  | .ok (.response id result) =>
    match id.asU64 with
    | some numericId => { s with writer := s.writer.resolveChecked numericId result }
    | none => s
  | .ok (.request id method params) =>
    match s.dispatcher with
    | .idle => if s.writer.closed then s else s.accept ⟨id, method, params⟩
    | _ => s
  | .error .null => s
  | .error error =>
    match s.dispatcher with
    | .idle => s.write [.refusal error]
    | _ => s

/-! ### Tasks -/

inductive Progress where
  -- the work of a task is done
  | settle (reply : Reply)
  | write
  -- a query stops where it has been aborted
  | stop
  | resolve (result : Started)
  | unpend
  | decide
  | update (item : Value)
  | finish

def work (s : Connection) (n : Nat) (wrap : Work → Task) (work : Work) : Progress → Connection
  | .settle reply =>
    match work with
    | .running => s.setTask n (wrap (.answering reply))
    | _ => s
  | .write =>
    match work with
    | .answering reply => (s.answer n reply).setTask n (wrap .over)
    | _ => s
  | _ => s

def startedReply (task : Subscription) : Started → Reply × Bool
  | .snapshot value =>
    (.result (.object [("sessionId", .string task.sessionId),
      ("subscriptionId", .string task.subscriptionId), ("snapshot", value)]), true)
  | .unserializable => (.error (-32603) "child subscription serialization failed", false)
  | .failed error => (.typed error, false)

def subscription (s : Connection) (n : Nat) (task : Subscription) (progress : Progress) :
    Connection :=
  let goto (s : Connection) (stage : Stage) := s.setTask n (.subscription { task with stage })
  match task.stage, progress with
  | .starting, .resolve result => goto s (.resolved (if task.cancelled then none else some result))
  | .resolved result, .unpend =>
    goto { s with pending := s.pending.erase (s.key n) } (.unpended result)
  | .unpended none, .decide => goto s .finishing
  | .unpended (some result), .decide =>
    if task.cancelled || s.writer.closed then goto s .finishing
    else goto s (.answering (startedReply task result).1 (startedReply task result).2)
  | .answering reply streams, .write =>
    goto (s.answer n reply) (if streams then .streaming else .finishing)
  | .streaming, .update item =>
    if task.cancelled || s.writer.closed then goto s .finishing
    else
      s.notify [("session/tool_program_update", .object [("sessionId", .string task.sessionId),
        ("subscriptionId", .string task.subscriptionId), ("update", item)])]
  | .streaming, .finish => goto s .finishing
  | .finishing, .finish =>
    let entries := match s.entries.get task.subscriptionId with
      | some entry =>
        if entry.token = task.token then s.entries.erase task.subscriptionId else s.entries
      | none => s.entries
    goto { s with entries } .over
  | _, _ => s

def progress (s : Connection) (n : Nat) (progress : Progress) : Connection :=
  match s.tasks n with
  | .none => s
  | .prompt work => s.work n .prompt work progress
  | .logout work => s.work n .logout work progress
  | .list work cancelled => s.work n (.list · cancelled) work progress
  | .query work aborted =>
    match progress with
    | .stop => if aborted then s.setTask n (.query .over aborted) else s
    | progress => s.work n (.query · aborted) work progress
  | .subscription task => s.subscription n task progress

inductive Event where
  | receive (message : Value)
  | dispatch (o : Oracle)
  | giveUp
  | progress (n : Nat) (progress : Progress)
  -- the sessions ask the client, and their requests are answered or dropped
  | writer (event : Writer.Event)
  -- the input ends, or the host stops the connection
  | stop

def step (P : Parsers) (s : Connection) : Event → Connection
  | .receive message => s.receive message
  | .dispatch o => s.dispatch P o
  | .giveUp => s.giveUp
  | .progress n progress => s.progress n progress
  | .writer event => { s with writer := s.writer.step event }
  | .stop =>
    match s.dispatcher with
    | .idle => { s.close with dispatcher := .ended }
    | _ => s

abbrev after (P : Parsers) (s : Connection) (events : List Event) : Connection :=
  Run.after (step P) s events

end Connection

end Acp
