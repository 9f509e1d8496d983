import RpiPackage.Lib.Assoc
import RpiPackage.Lib.Rust

/-!
# Password protection of the web server

The checks of the middleware, the login and the streams. A task runs between two of its await
points without another one, so the reading of the clock and the request for the lock that follows
it are one step. The lock of the attempts is handed out in the order in which it was asked for.
-/

namespace Http

/-- Names in lower case; a name that occurs more than once is read at its first value. -/
abbrev HeaderMap := List (String × List UInt8)

def isVisibleAscii (b : UInt8) : Bool := b == 9 || (32 ≤ b && b < 127)

/-- `HeaderValue::to_str`. -/
def toStr (value : List UInt8) : Option String :=
  if value.all isVisibleAscii then some (String.ofList (value.map fun b => Char.ofNat b.toNat))
  else none

/-- The bytes of an ASCII text. -/
def asciiBytes (text : String) : List UInt8 := text.toList.map fun c => UInt8.ofNat c.toNat

/-- Nanoseconds. -/
def second : Nat := 1000000000

def sessionSeconds : Nat := 12 * 60 * 60

def hostAllowed (hosts : List String) (headers : HeaderMap) : Bool :=
  match (headers.lookup "host").bind toStr with
  | some host => hosts.contains host
  | none => false

def authorityOf (origin : String) : Option String :=
  (Rust.stripPrefix origin "https://").or (Rust.stripPrefix origin "http://")

def trimEndSlashes (s : String) : String := String.ofList (s.toList.rdropWhile (· == '/'))

def originAllowed (hosts : List String) (headers : HeaderMap) : Bool :=
  match (headers.lookup "origin").bind toStr with
  | none => true
  | some origin =>
    match authorityOf origin with
    | none => false
    | some authority => hosts.contains (trimEndSlashes authority)

def cookie (headers : HeaderMap) : Option String :=
  match (headers.lookup "cookie").bind toStr with
  | none => none
  | some text => ((text.toList.splitOn ';').map String.ofList).findSome? fun value =>
      Rust.stripPrefix (Rust.trim value) "rpi_web_session="

def requestMarkerPresent (headers : HeaderMap) (method : String) : Bool :=
  method == "GET" || method == "HEAD" || method == "OPTIONS" ||
    (headers.lookup "x-rpi-web").bind toStr == some "1"

structure Request where
  method : String
  path : String
  headers : HeaderMap
  deriving DecidableEq, Repr

/-- The path is one that asks for a session. -/
def Request.needsSession (r : Request) : Bool :=
  !(r.path == "/api/v1/auth" || r.path == "/api/v1/health" || !Rust.startsWith r.path "/api/")

/-! ### What is observed -/

/-- A check of the cookie is made for a request or for a stream. -/
inductive Checker where
  | request (r : Request)
  | stream (i : Nat)
  deriving DecidableEq, Repr

inductive Event where
  -- a login compared its password, at its reading of the clock
  | compared (now : Nat)
  -- a login returned a session
  | issued (token password : String) (now : Nat)
  | revoked (token : String)
  -- the cookie was a stored session at this reading of the clock
  | passed (who : Checker) (token : String) (now : Nat)
  | refused (who : Checker)
  -- the handler of a request starts
  | started (r : Request)
  | opened (i : Nat) (headers : HeaderMap)
  | available (i n : Nat)
  | yielded (i n : Nat)
  deriving DecidableEq, Repr

/-! ### The server -/

/-- A check whose clock was read and which waits for the sessions. -/
structure Waiting where
  request : Request
  token : String
  now : Nat

inductive Phase where
  | idle
  -- an event that is held back, or a tick of the interval
  | checking (pending : Option Nat) (token : String) (now : Nat)
  | ended

/-- A stream numbers the events that become available on it. -/
structure Stream where
  headers : HeaderMap
  available : Nat
  taken : Nat
  phase : Phase

structure Server (D : Type) where
  hosts : List String
  password : Option D
  -- the sessions with the instants at which they expire
  sessions : List (String × Nat)
  attempts : List Nat
  -- the logins that wait for the attempts, and the one that has them and waits for the sessions
  queue : List (String × Nat)
  holding : Option (String × Nat)
  requests : List Waiting
  streams : List Stream
  clock : Nat
  log : List Event

namespace Server

variable {D : Type} (digest : String → D)

def start (hosts : List String) (password : Option String) : Server D where
  hosts := hosts
  password := password.map digest
  sessions := []
  attempts := []
  queue := []
  holding := none
  requests := []
  streams := []
  clock := 0
  log := []

variable (s : Server D)

def enabled : Bool := s.password.isSome

def emit (event : Event) : Server D := { s with log := s.log ++ [event] }

/-- The sessions that have not expired at a reading of the clock. -/
def unexpired (now : Nat) : List (String × Nat) := s.sessions.filter fun p => now < p.2

/-- `authorized` once it has the sessions. -/
def authorized (token : String) (now : Nat) : Bool := ((s.unexpired now).lookup token).isSome

def setStream (i : Nat) (stream : Stream) : Server D :=
  { s with streams := s.streams.set i stream }

/-! #### Logins -/

/-- The first part of `login`: it reads the clock and asks for the attempts. -/
def login (password : String) : Server D :=
  if s.enabled then { s with queue := s.queue ++ [(password, s.clock)] } else s

/-- The login that is first in the queue gets the attempts. -/
def attempt [DecidableEq D] : Server D :=
  match s.holding, s.queue with
  | none, (password, now) :: queue =>
    let attempts := s.attempts.filter fun time => now - time < 60 * second
    if 10 ≤ attempts.length then { s with queue, attempts }
    else
      let s : Server D :=
        { s with queue, attempts := attempts ++ [now], log := s.log ++ [.compared now] }
      if s.password = some (digest password) then { s with holding := some (password, now) } else s
  | _, _ => s

/-- The login that has the attempts gets the sessions as well; `token` is made of two new UUIDs. -/
def enter (token : String) : Server D :=
  match s.holding with
  | none => s
  | some (password, now) =>
    let sessions := s.unexpired now
    if 64 ≤ sessions.length then { s with sessions, holding := none }
    else
      { s with
        sessions := Assoc.insert sessions token (now + sessionSeconds * second)
        holding := none
        log := s.log ++ [.issued token password now] }

def logout (headers : HeaderMap) : Server D :=
  match cookie headers with
  | none => s
  | some token =>
    { s with sessions := Assoc.erase s.sessions token, log := s.log ++ [.revoked token] }

/-! #### Requests -/

/-- The first part of the middleware, up to the lock of the sessions. -/
def request (r : Request) : Server D :=
  if hostAllowed s.hosts r.headers && originAllowed s.hosts r.headers &&
      requestMarkerPresent r.headers r.method then
    if r.needsSession && s.enabled then
      match cookie r.headers with
      | none => s.emit (.refused (.request r))
      | some token => { s with requests := s.requests ++ [⟨r, token, s.clock⟩] }
    else s.emit (.started r)
  else s.emit (.refused (.request r))

/-- A waiting check gets the sessions; the handler starts right after it. -/
def check (i : Nat) : Server D :=
  match s.requests[i]? with
  | none => s
  | some w =>
    let log :=
      if s.authorized w.token w.now then [.passed (.request w.request) w.token w.now,
        .started w.request]
      else [.refused (.request w.request)]
    { s with
      sessions := s.unexpired w.now
      requests := s.requests.eraseIdx i
      log := s.log ++ log }

/-! #### Streams -/

def subscribe (headers : HeaderMap) : Server D :=
  { s with
    streams := s.streams ++ [⟨headers, 0, 0, .idle⟩]
    log := s.log ++ [.opened s.streams.length headers] }

/-- An event becomes available on the stream behind an authorized one. -/
def arrive (i : Nat) : Server D :=
  match s.streams[i]? with
  | none => s
  | some stream =>
    (s.setStream i { stream with available := stream.available + 1 }).emit
      (.available i stream.available)

/-- The first part of a check that a stream makes, up to the lock of the sessions. -/
def inspect (i : Nat) (stream : Stream) (pending : Option Nat) : Server D :=
  if s.enabled then
    match cookie stream.headers with
    | none => (s.setStream i { stream with phase := .ended }).emit (.refused (.stream i))
    | some token => s.setStream i { stream with phase := .checking pending token s.clock }
  else
    match pending with
    | none => s.setStream i { stream with phase := .idle }
    | some n => (s.setStream i { stream with phase := .idle }).emit (.yielded i n)

/-- The stream gets its next event. -/
def take (i : Nat) : Server D :=
  match s.streams[i]? with
  | some ⟨headers, available, taken, .idle⟩ =>
    if taken < available then s.inspect i ⟨headers, available, taken + 1, .idle⟩ (some taken) else s
  | _ => s

/-- The interval of a stream ticks. -/
def expire (i : Nat) : Server D :=
  match s.streams[i]? with
  | some ⟨headers, available, taken, .idle⟩ => s.inspect i ⟨headers, available, taken, .idle⟩ none
  | _ => s

/-- The check of a stream gets the sessions. -/
def settle (i : Nat) : Server D :=
  match s.streams[i]? with
  | some ⟨headers, available, taken, .checking pending token now⟩ =>
    let passed := s.authorized token now
    let s : Server D := { s with sessions := s.unexpired now }
    if passed then
      let s := (s.setStream i ⟨headers, available, taken, .idle⟩).emit
        (.passed (.stream i) token now)
      match pending with
      | none => s
      | some n => s.emit (.yielded i n)
    else (s.setStream i ⟨headers, available, taken, .ended⟩).emit (.refused (.stream i))
  | _ => s

/-- The events behind a stream end, or its client goes away. -/
def close (i : Nat) : Server D :=
  match s.streams[i]? with
  | none => s
  | some stream => s.setStream i { stream with phase := .ended }

end Server

/-! ### Runs -/

inductive Action where
  | tick (nanoseconds : Nat)
  | login (password : String)
  | attempt
  | enter (token : String)
  -- a client that waits in a login goes away
  | leave (i : Nat)
  | leaveHolding
  | logout (headers : HeaderMap)
  | request (r : Request)
  | check (i : Nat)
  | abandon (i : Nat)
  | subscribe (headers : HeaderMap)
  | arrive (i : Nat)
  | take (i : Nat)
  | expire (i : Nat)
  | settle (i : Nat)
  | close (i : Nat)

def Server.step {D : Type} [DecidableEq D] (digest : String → D) (s : Server D) :
    Action → Server D
  | .tick nanoseconds => { s with clock := s.clock + nanoseconds }
  | .login password => s.login password
  | .attempt => s.attempt digest
  | .enter token => s.enter token
  | .leave i => { s with queue := s.queue.eraseIdx i }
  | .leaveHolding => { s with holding := none }
  | .logout headers => s.logout headers
  | .request r => s.request r
  | .check i => s.check i
  | .abandon i => { s with requests := s.requests.eraseIdx i }
  | .subscribe headers => s.subscribe headers
  | .arrive i => s.arrive i
  | .take i => s.take i
  | .expire i => s.expire i
  | .settle i => s.settle i
  | .close i => s.close i

end Http
