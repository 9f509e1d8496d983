import RpiPackage.Lib.Run
import RpiPackage.Lib.Table
import RpiPackage.Mcp.Configured

/-!
# The connections of a runtime

Operations of any number of callers interleave at the locks of the registry, of each connection, of
the subscriptions and of the admission of each target. One step is one lock section of one operation,
with what the operation does by itself before it.
-/

namespace Mcp

open Json Json.Value

structure Session where
  failed : Bool
  generation : Nat
  -- the lifetimes that its server has acknowledged, which no operation looks at
  acknowledged : List Nat
  deriving DecidableEq, Repr

structure ConnectionState where
  config : Option McpServerConfig
  session : Option Session

structure Entry where
  key : Key
  connection : ConnectionState
  stop : Bool
  -- its dispatcher is at a notification
  dispatching : Bool
  joined : Bool
  -- the operation that holds the lock of the connection
  owner : Option Nat
  -- its session has been taken for good, which no operation looks at
  released : Bool

def Entry.fresh (key : Key) : Entry := ⟨key, ⟨none, none⟩, false, false, false, none, false⟩

/-- What an operation wants of a connection. -/
inductive Access where
  | legacy (config : McpServerConfig)
  | subscribe (config : McpServerConfig) (uri : String)
  | unsubscribe (config : McpServerConfig) (uri : String) (previous : Option Nat)
  | discover (target : Nat) (catalog : Catalog)
  | existing (target : Nat) (expected : Nat) (tool : String) (arguments : Value)
  -- the read of a dispatched notification, which `read_resource_by_key` makes
  | pushed (dispatcher : Nat) (uri : String) (token : Nat)

namespace Access

/-- Existing-only access fails before creating any entry. -/
def opens : Access → Bool
  | .existing .. | .pushed .. => false
  | _ => true

/-- The subscription that a restoration leaves to the operation. -/
def skipRestoreUri : Access → Option String
  | .subscribe _ uri | .unsubscribe _ uri _ => some uri
  | _ => none

end Access

structure Op where
  key : Key
  access : Access

/-- What a discovery has admitted. -/
structure Discovery where
  generation : Nat
  answers : List Answer
  catalog : Catalog

/-- Where an operation that holds the lock of a connection stands. -/
inductive Stage where
  | preparing
  | connecting
  | initializing (generation : Nat)
  | restoring (generation : Nat) (tokens : List Nat)
  | running (fresh : Bool)
  | marking (uri : String) (subscribed : Bool)
  | subscribing (uri : String) (token : Nat)
  | unsubscribing

/-- Where an operation stands. -/
inductive Phase where
  | idle
  | discovering (target : Nat) (limits : DiscoveryLimits)
  | calling (target : Nat) (tool : String) (arguments : Value)
  | entering (op : Op)
  | waiting (op : Op) (id : Nat)
  | checked (op : Op) (id : Nat)
  | held (op : Op) (id : Nat) (stage : Stage)
  | dropping (key : Key) (uri : String) (previous : Nat)
  | settling (target : Nat) (outcome : Option Discovery)
  | returning (target : Nat)
  | enqueueing (dispatcher : Nat) (key : Key) (uri : String) (token : Nat) (text : String)
  | dispatched (dispatcher : Nat)
  | releasing (entries : List (Key × Nat))
  | retiring (key : Key) (id : Nat) (entries : List (Key × Nat))
  | removing (key : Key) (id : Nat) (entries : List (Key × Nat))
  | holding (updates : List QueuedResourceUpdate)
  | finished

/-- What an operation does after an error of its connection, or once it has left it. -/
def Op.next (op : Op) : Phase :=
  match op.access with
  | .unsubscribe _ uri (some previous) => .dropping op.key uri previous
  | .discover target _ => .settling target none
  | .existing target .. => .returning target
  | .pushed dispatcher .. => .dispatched dispatcher
  | _ => .finished

inductive Input where
  | legacy (key : Key) (config : McpServerConfig)
  | subscribe (key : Key) (config : McpServerConfig) (uri : String)
  | unsubscribe (key : Key) (config : McpServerConfig) (uri : String)
  | discover (target : Nat) (limits : DiscoveryLimits)
  | call (target : Nat) (tool : String) (arguments : Value)
  | close (key : Key)
  | shutdown
  | notify (id : Nat) (value : Value)
  | take (scope : Option String)
  | go
  -- the control of the operation is cancelled, or a deadline has passed
  | refuse
  | answer (answer : Answer)
  | answers (answers : List Answer) (cancelled : Bool)
  | text (text : String)

inductive Event where
  | discovered (target : Nat) (outcome : Option Discovery)
  | called (operation : Nat) (target : Nat) (config : Option McpServerConfig) (session : Session)

/-- The admission of a target, and the operation that holds its lock. -/
structure Admission where
  generation : Option Nat
  owner : Option Nat

structure Runtime where
  sessions : Table Key Nat
  entries : Nat → Entry
  nextEntry : Nat
  nextGeneration : Nat
  store : Store
  -- each of them is shared by its clones
  targets : Nat → TypedTarget
  admissions : Nat → Admission
  operations : Nat → Phase
  -- what has been returned by discoveries and sent by calls, which no operation looks at
  log : List Event

namespace Runtime

def new (targets : Nat → TypedTarget) : Runtime where
  sessions := .empty
  entries := fun _ => .fresh ⟨"", .configuredStdio, ""⟩
  nextEntry := 0
  nextGeneration := 0
  store := .default
  targets
  admissions := fun _ => ⟨none, none⟩
  operations := fun _ => .idle
  log := []

def setStore (s : Runtime) (store : Store) : Runtime := { s with store }

def record (s : Runtime) (event : Event) : Runtime := { s with log := s.log ++ [event] }

def goto (s : Runtime) (t : Nat) (phase : Phase) : Runtime :=
  { s with operations := fun i => if i = t then phase else s.operations i }

def setEntry (s : Runtime) (id : Nat) (entry : Entry) : Runtime :=
  { s with entries := fun i => if i = id then entry else s.entries i }

def setAdmission (s : Runtime) (target : Nat) (admission : Admission) : Runtime :=
  { s with admissions := fun i => if i = target then admission else s.admissions i }

/-- The lock of a connection is left, with the session that it keeps. -/
def leave (s : Runtime) (t id : Nat) (session : Option Session) (next : Phase) : Runtime :=
  let entry := s.entries id
  (s.setEntry id { entry with
    connection := { entry.connection with session }
    owner := none }).goto t next

/-! ### Sessions -/

def configOf (s : Runtime) : Access → Option McpServerConfig
  | .legacy config | .subscribe config _ | .unsubscribe config .. => some config
  | .discover target _ | .existing target .. => some (s.targets target).config
  | .pushed .. => none

/-- A new entry of the registry, with its dispatcher. -/
def register (s : Runtime) (key : Key) : Runtime :=
  { s with
    sessions := s.sessions.put key s.nextEntry
    entries := fun i => if i = s.nextEntry then .fresh key else s.entries i
    nextEntry := s.nextEntry + 1 }

/-- The first section of `with_session_access`, and of `read_resource_by_key`. -/
def enter (s : Runtime) (t : Nat) (op : Op) : Runtime :=
  match s.sessions.get op.key with
  | some id => s.goto t (.waiting op id)
  | none =>
    if op.access.opens = false then s.goto t op.next
    else if 64 ≤ s.sessions.size then s.goto t op.next
    else (s.register op.key).goto t (.waiting op s.nextEntry)

/-- A stale target cannot mutate the config, restart, or reach the session. -/
def isStale (connection : ConnectionState) (config : McpServerConfig) : Access → Bool
  | .existing _ expected .. =>
    connection.config != some config ||
      !connection.session.any fun session => !session.failed && session.generation == expected
  | _ => false

/-- Another config than the last one of the connection: nothing of the old server is replayed. -/
def replacesConfig (s : Runtime) (op : Op) (id : Nat) : Bool :=
  match s.configOf op.access with
  | none => false
  | some config =>
    !isStale (s.entries id).connection config op.access &&
      (s.entries id).connection.config != some config

def prepare (s : Runtime) (t : Nat) (op : Op) (id : Nat) : Runtime :=
  let entry := s.entries id
  match s.configOf op.access with
  | none =>
    match entry.connection.session with
    | none => s.leave t id none op.next
    | some _ => s.goto t (.held op id (.running false))
  | some config =>
    if isStale entry.connection config op.access then
      s.leave t id entry.connection.session op.next
    else if entry.connection.config != some config then
      ((s.setStore (s.store.clearSubscriptions op.key)).setEntry id
        { entry with connection := ⟨some config, none⟩ }).goto t (.held op id .connecting)
    else
      match entry.connection.session with
      | none => s.goto t (.held op id .connecting)
      | some session =>
        if session.failed then
          (s.setEntry id { entry with connection := ⟨some config, none⟩ }).goto t
            (.held op id .connecting)
        else s.goto t (.held op id (.running false))

/-- The renewed subscriptions are requested again, one after the other; an error says whether the
connection has failed. -/
def restore : List Nat → List Answer → Except Bool Unit
  | [], _ => .ok ()
  | _ :: tokens, .ok _ :: answers => restore tokens answers
  | _, .broken :: _ => .error true
  | _, _ => .error false

/-- Typed HTTP also retires on decoded errors of the request. -/
def retiresOnError (s : Runtime) : Access → Bool
  | .discover target _ | .existing target .. => (s.targets target).config.isHttp
  | _ => false

/-- The session that is kept after a request. -/
def kept (s : Runtime) (op : Op) (session : Session) (isErr : Bool) : Option Session :=
  if session.failed || isErr && s.retiresOnError op.access then none else some session

/-- What a discovery does with its session, and what it admits. -/
def discover (session : Session) (catalog : Catalog) (answers : List Answer) (cancelled : Bool) :
    Session × Option Discovery :=
  match catalog.discover answers with
  | .error failed => ({ session with failed }, none)
  | .ok catalog =>
    if cancelled then (session, none) else (session, some ⟨session.generation, answers, catalog⟩)

/-- What an operation does with its session. -/
def run (s : Runtime) (t : Nat) (op : Op) (id : Nat) (fresh : Bool) (session : Session)
    (input : Input) : Runtime :=
  match op.access, input with
  | .legacy _, .answers answers _ =>
    s.leave t id (s.kept op { session with failed := answers.any Answer.isBroken } false) op.next
  | .subscribe _ uri, .go =>
    s.goto t (.held op id (.marking uri (!fresh && (s.store.subscription op.key uri).isSome)))
  | .unsubscribe _ uri _, .go =>
    (s.setStore (s.store.removeSubscription op.key uri none)).goto t
      (.held op id .unsubscribing)
  | .discover target catalog, .answers answers cancelled =>
    match discover session catalog answers cancelled with
    | (session, none) => s.leave t id (s.kept op session true) op.next
    | (session, some discovery) =>
      (s.setAdmission target
        { s.admissions target with generation := some discovery.generation }).leave t id
          (s.kept op session false) (.settling target (some discovery))
  | .existing _ _ _ _, .answer .unsent => s.leave t id (s.kept op session true) op.next
  | .existing target _ _ _, .answer answer =>
    (s.record (.called t target (s.entries id).connection.config session)).leave t id
      (s.kept op { session with failed := answer.isBroken } (!answer.isOk)) op.next
  | .pushed dispatcher uri token, .text text =>
    s.leave t id (some session) (.enqueueing dispatcher op.key uri token text)
  | .pushed _ _ _, .answer answer =>
    if answer.isOk then s
    else s.leave t id (s.kept op { session with failed := answer.isBroken } true) op.next
  | _, _ => s

/-- One step under the lock of a connection. -/
def work (s : Runtime) (t : Nat) (op : Op) (id : Nat) (stage : Stage) (input : Input) : Runtime :=
  match stage, input with
  | .preparing, .go => s.prepare t op id
  | .connecting, .refuse => s.leave t id none op.next
  | .connecting, .go =>
    if (s.entries id).stop then s.leave t id none op.next
    else
      ({ s with nextGeneration := s.nextGeneration + 1 }).goto t
        (.held op id (.initializing s.nextGeneration))
  | .initializing generation, .answer answer =>
    if answer.isOk then
      let renewed := s.store.renewSubscriptions op.key op.access.skipRestoreUri
      (s.setStore renewed.2).goto t (.held op id (.restoring generation renewed.1))
    else s.leave t id none op.next
  | .restoring generation tokens, .answers answers cancelled =>
    let entry := s.entries id
    match restore tokens answers with
    | .ok _ =>
      (s.setEntry id { entry with
        connection := { entry.connection with session := some ⟨false, generation, tokens⟩ } }).goto t
          (.held op id (.running true))
    | .error failed =>
      if failed || cancelled || entry.stop then s.leave t id none op.next
      else (s.setStore (s.store.clearSubscriptions op.key)).leave t id none op.next
  | .running fresh, input =>
    match (s.entries id).connection.session with
    | none => s.leave t id none op.next
    | some session => s.run t op id fresh session input
  | .marking uri subscribed, .go =>
    let added := s.store.addSubscription op.key uri
    if subscribed then
      -- the mark says that the server is subscribed already
      (s.setStore added.2).leave t id
        ((s.entries id).connection.session.map fun session =>
          { session with acknowledged := added.1 :: session.acknowledged }) op.next
    else (s.setStore added.2).goto t (.held op id (.subscribing uri added.1))
  | .subscribing uri token, .answer answer =>
    let session := (s.entries id).connection.session
    if answer.isOk then
      s.leave t id (session.map fun session =>
        { session with acknowledged := token :: session.acknowledged }) op.next
    else
      (s.setStore (s.store.removeSubscription op.key uri (some token))).leave t id
        (session.bind fun session =>
          s.kept op { session with failed := answer.isBroken } true) op.next
  | .unsubscribing, .answer answer =>
    -- a rejected unsubscribe can leave the remote registration alive
    s.leave t id (if answer.isOk then (s.entries id).connection.session else none) .finished
  | _, _ => s

/-! ### Closing -/

def closeKey (s : Runtime) (t : Nat) (key : Key) : Runtime :=
  match s.sessions.get key with
  | some id =>
    (s.setEntry id { s.entries id with stop := true }).goto t (.releasing [(key, id)])
  | none => (s.setStore (s.store.clearSubscriptions key)).goto t .finished

def shutdownConnections (s : Runtime) (t : Nat) : Runtime :=
  ({ s with
    entries := fun id =>
      if id ∈ s.sessions.entries.map Prod.snd then { s.entries id with stop := true }
      else s.entries id }).goto t (.releasing s.sessions.entries)

/-- The first section of `release_entry` takes the session. -/
def releaseEntry (s : Runtime) (t : Nat) (key : Key) (id : Nat) (rest : List (Key × Nat)) :
    Runtime :=
  let entry := s.entries id
  if entry.owner.isSome then s
  else
    (s.setEntry id { entry with
      connection := { entry.connection with session := none }
      released := true }).goto t (.retiring key id rest)

/-- Its dispatcher is joined. -/
def retireEntry (s : Runtime) (t : Nat) (key : Key) (id : Nat) (rest : List (Key × Nat)) :
    Runtime :=
  let entry := s.entries id
  if entry.dispatching then s.setEntry id { entry with stop := true }
  else (s.setEntry id { entry with stop := true, joined := true }).goto t (.removing key id rest)

/-- The last section removes the entry, unless it is no longer the one of the key. -/
def removeEntry (s : Runtime) (t : Nat) (key : Key) (id : Nat) (rest : List (Key × Nat)) :
    Runtime :=
  if s.sessions.get key = some id then
    ({ s with
      store := s.store.clearSubscriptions key
      sessions := s.sessions.erase key }).goto t (.releasing rest)
  else s.goto t (.releasing rest)

/-! ### Notifications -/

def updatedUri (value : Value) : Option String :=
  if (value.get "method").bind asStr = some "notifications/resources/updated" then
    ((value.get "params").bind fun params => params.get "uri").bind asStr
  else none

/-- The dispatcher of an entry takes a notification, and looks up the subscription. -/
def dispatchNotification (s : Runtime) (t id : Nat) (value : Value) : Runtime :=
  let entry := s.entries id
  if s.nextEntry ≤ id || entry.dispatching || entry.joined then s
  else
    match updatedUri value with
    | none => s.goto t .finished
    | some uri =>
      match s.store.subscription entry.key uri with
      | none => s.goto t .finished
      | some token =>
        (s.setEntry id { entry with dispatching := true }).goto t
          (.entering ⟨entry.key, .pushed id uri token⟩)

/-! ### Steps -/

def start (s : Runtime) (t : Nat) : Input → Runtime
  | .legacy key config => s.goto t (.entering ⟨key, .legacy config⟩)
  | .subscribe key config uri =>
    if config.isHttp then s.goto t .finished
    else s.goto t (.entering ⟨key, .subscribe config uri⟩)
  | .unsubscribe key config uri =>
    s.goto t (.entering ⟨key, .unsubscribe config uri (s.store.subscription key uri)⟩)
  | .discover target limits => s.goto t (.discovering target limits)
  | .call target tool arguments =>
    match arguments with
    | .object _ =>
      if Catalog.isValidToolName tool then s.goto t (.calling target tool arguments)
      else s.goto t .finished
    | _ => s.goto t .finished
  | .close key => s.closeKey t key
  | .shutdown => s.shutdownConnections t
  | .notify id value => s.dispatchNotification t id value
  | .take scope =>
    let taken := s.store.takePendingBatch scope
    (s.setStore taken.2).goto t (.holding taken.1)
  | _ => s

/-- The lock of an admission is taken by a discovery, which withdraws the admission. -/
def discoverConfigured (s : Runtime) (t target : Nat) (limits : DiscoveryLimits) : Runtime :=
  if (s.admissions target).owner.isSome then s
  else
    let s := s.setAdmission target ⟨none, some t⟩
    match Catalog.new limits with
    | .error _ => s.goto t (.settling target none)
    | .ok catalog => s.goto t (.entering ⟨(s.targets target).key, .discover target catalog⟩)

/-- The lock of an admission is taken by a call, which keeps it to its end. -/
def callConfigured (s : Runtime) (t target : Nat) (tool : String) (arguments : Value) : Runtime :=
  let admission := s.admissions target
  if admission.owner.isSome then s
  else
    let s := s.setAdmission target { admission with owner := some t }
    match admission.generation with
    | none => s.goto t (.returning target)
    | some generation =>
      s.goto t (.entering ⟨(s.targets target).key, .existing target generation tool arguments⟩)

def step (s : Runtime) (move : Nat × Input) : Runtime :=
  let t := move.1
  match s.operations t, move.2 with
  | .idle, input => s.start t input
  | .discovering target _, .refuse =>
    (s.record (.discovered target none)).goto t .finished
  | .discovering target limits, .go => s.discoverConfigured t target limits
  | .calling _ _ _, .refuse => s.goto t .finished
  | .calling target tool arguments, .go => s.callConfigured t target tool arguments
  | .entering op, .refuse => s.goto t op.next
  | .entering op, .go => s.enter t op
  | .waiting op _, .refuse => s.goto t op.next
  | .waiting op id, .go =>
    if (s.entries id).stop then s.goto t op.next else s.goto t (.checked op id)
  | .checked op id, .go =>
    -- the lock is only tried: what was checked may have changed since
    if (s.entries id).owner.isSome then s.goto t (.waiting op id)
    else (s.setEntry id { s.entries id with owner := some t }).goto t (.held op id .preparing)
  | .held op id stage, input => s.work t op id stage input
  | .dropping key uri previous, .go =>
    (s.setStore (s.store.removeSubscription key uri (some previous))).goto t .finished
  | .settling target outcome, .go =>
    ((s.record (.discovered target outcome)).setAdmission target
      { s.admissions target with owner := none }).goto t .finished
  | .returning target, .go =>
    (s.setAdmission target { s.admissions target with owner := none }).goto t .finished
  | .enqueueing dispatcher key uri token text, .go =>
    (s.setStore (s.store.enqueue key uri token text)).goto t (.dispatched dispatcher)
  | .dispatched dispatcher, .go =>
    (s.setEntry dispatcher { s.entries dispatcher with dispatching := false }).goto t .finished
  | .releasing [], .go => s.goto t .finished
  | .releasing ((key, id) :: rest), .go => s.releaseEntry t key id rest
  | .retiring key id rest, .go => s.retireEntry t key id rest
  | .removing key id rest, .go => s.removeEntry t key id rest
  | .holding updates, .go =>
    (s.setStore (s.store.restorePendingBatch updates)).goto t .finished
  | _, _ => s

/-- The state after some steps. -/
abbrev after (s : Runtime) (moves : List (Nat × Input)) : Runtime := Run.after step s moves

lemma after_append (s : Runtime) (before later : List (Nat × Input)) :
    s.after (before ++ later) = (s.after before).after later :=
  Run.after_append s before later

lemma after_concat (s : Runtime) (before : List (Nat × Input)) (move : Nat × Input) :
    s.after (before ++ [move]) = step (s.after before) move :=
  after_append s before [move]

variable {session session' : Session} {catalog : Catalog} {answers : List Answer} {cancelled : Bool}

/-- A discovery that admits nothing may have failed its session. -/
lemma discover_eq_none (h : discover session catalog answers cancelled = (session', none)) :
    ∃ failed, session' = { session with failed } := by
  unfold discover at h
  split at h
  · exact ⟨_, (Prod.mk.inj h).1.symm⟩
  · split at h
    · exact ⟨session.failed, (Prod.mk.inj h).1.symm⟩
    · exact absurd (Prod.mk.inj h).2 (by simp)

/-- A discovery that admits its session has read the last page. -/
lemma discover_eq_some {discovery : Discovery}
    (h : discover session catalog answers cancelled = (session', some discovery)) :
    session' = session ∧ discovery.generation = session.generation ∧
      catalog.discover discovery.answers = .ok discovery.catalog := by
  unfold discover at h
  split at h
  · exact absurd (Prod.mk.inj h).2 (by simp)
  · rename_i catalog' hcatalog
    split at h
    · exact absurd (Prod.mk.inj h).2 (by simp)
    · obtain ⟨rfl, hdiscovery⟩ := Prod.mk.inj h
      obtain rfl := Option.some.inj hdiscovery
      exact ⟨rfl, rfl, hcatalog⟩

/-- The key and the config of one server. -/
def serverKey : Key := ⟨"session", .legacy "config", "server"⟩

def serverConfig : McpServerConfig := .stdio ⟨"server", [], [], none, true, 60, .direct⟩

def serverTargets : Nat → TypedTarget := fun _ => ⟨serverKey, "server", serverConfig⟩

end Runtime

end Mcp
