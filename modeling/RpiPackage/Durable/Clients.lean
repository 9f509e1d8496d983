import RpiPackage.Durable.Store
import RpiPackage.Durable.Transition
import RpiPackage.Lib.Run

/-!
# Clients of the store

Any number of tool calls and event handlers share the store. Each takes the steps of `durable` or
of `mutate_state`: enter once the store is initialized, read the state, apply the request to that
copy, and commit. The steps of the clients, the restores of the branch and the answers of the host
come in any order.
-/

namespace Durable

open Json

/-! ### Requests -/

/-- A call of the tool or an event that a handler turns into a mutation. -/
inductive Request where
  | durable (params : Value)
  | agentStart
  | toolExecutionStart (callId name params : String)
  | toolExecutionEnd (callId name result : String) (isError : Bool)
  | agentSettled
  | sessionShutdown

/-- The run a tool event is recorded in, started if there is none. -/
def ensureRun (current : DurableState) : DurableState :=
  if current.run.isNone then startRun current else current

def isRunning (state : DurableState) : Bool :=
  state.run.any fun run => run.status == .running

def Request.apply (sha256 : List UInt8 → Vector UInt8 32) (current : DurableState) :
    Request → Except String DurableState
  | .durable params => applyAction current params
  | .agentStart => .ok (startRun current)
  | .toolExecutionStart callId name params =>
    .ok (if isRunning (ensureRun current) then
      recordToolStart sha256 (ensureRun current) callId name params
    else ensureRun current)
  | .toolExecutionEnd callId name result isError =>
    .ok (recordToolEnd sha256 (ensureRun current) callId name result isError)
  | .agentSettled => .ok (settleRun current)
  | .sessionShutdown => .ok (markInterrupted current)

/-! ### Steps -/

inductive Client where
  | idle
  | entered (request : Request)
  | holds (request : Request) (current : DurableState)
  | computed (request : Request) (current next : DurableState)

def Client.isIdle : Client → Bool
  | .idle => true
  | _ => false

structure System where
  store : Store
  clients : Nat → Client

def System.start : System := ⟨Store.default, fun _ => .idle⟩

inductive Op where
  | enter (client : Nat) (request : Request) (reply : RestoreReply)
  | read (client : Nat)
  | apply (client : Nat)
  | commit (client : Nat) (reply : Except String Value)
  | restore (reply : RestoreReply)

/-- `snapshot_state` refuses a store that failed to restore; `mutate_state` only copies the state. -/
def Store.read (store : Store) : Request → Client
  | .durable params =>
    if store.restoreError.isSome then .idle else .holds (.durable params) store.state
  | request => .holds request store.state

def System.setClient (s : System) (client : Nat) (phase : Client) : System :=
  { s with clients := Function.update s.clients client phase }

section Digest

variable (sha256 : List UInt8 → Vector UInt8 32)

/-- A client that is not ready for a step does not take it. -/
def System.step (s : System) : Op → StateM (List Value) System
  | .enter client request reply =>
    match s.clients client with
    | .idle => do
      match ← s.store.ensureInitialized reply with
      | (.ok _, store) => return { s with store }.setClient client (.entered request)
      | (.error _, store) => return { s with store }
    | _ => return s
  | .read client =>
    match s.clients client with
    | .entered request => return s.setClient client (s.store.read request)
    | _ => return s
  | .apply client =>
    match s.clients client with
    | .holds request current =>
      match request.apply sha256 current with
      | .ok next => return s.setClient client (.computed request current next)
      | .error _ => return s.setClient client .idle
    | _ => return s
  | .commit client reply =>
    match s.clients client with
    | .computed _ current next => do
      let (_, store) ← s.store.commitState current next reply
      return { s with store }.setClient client .idle
    | _ => return s
  | .restore reply => do
    let (_, store) ← restoreState reply
    return { s with store }

def System.next (s : System) (op : Op) : System := (s.step sha256 op []).1

/-- The payloads a step issues to the host. -/
def System.issued (s : System) (op : Op) : List Value := (s.step sha256 op []).2

def System.run (ops : List Op) : System := Run.after (System.next sha256) System.start ops

/-- The answers a step consumes if it restores the branch. -/
def Op.restores (s : System) : Op → Option RestoreReply
  | .restore reply => some reply
  | .enter client _ reply =>
    if (s.clients client).isIdle && s.store.restoreError.isNone && !s.store.initialized then
      some reply
    else none
  | _ => none

/-- Everything a step can do to the store. -/
inductive System.StepOutcome (s : System) : Op → System → List Value → Prop where
  | quiet (op : Op) (clients : Nat → Client) (quiet : op.restores s = none) :
      StepOutcome s op { s with clients } []
  | commit (client : Nat) (reply : Except String Value) (request : Request)
      (current next : DurableState) (result : Except String DurableState) (store : Store)
      (issued : List Value) (ready : s.clients client = .computed request current next)
      (outcome : s.store.CommitOutcome current next reply result store issued) :
      StepOutcome s (.commit client reply) ({ s with store }.setClient client .idle) issued
  | restored (op : Op) (reply : RestoreReply) (store : Store) (clients : Nat → Client)
      (issued : List Value) (restores : op.restores s = some reply)
      (result : restoreStateInner reply [] = (.ok store, issued)) :
      StepOutcome s op ⟨store, clients⟩ issued
  | notRestored (op : Op) (reply : RestoreReply) (error : String) (clients : Nat → Client)
      (issued : List Value) (restores : op.restores s = some reply)
      (result : restoreStateInner reply [] = (.error error, issued)) :
      StepOutcome s op ⟨failRestore error, clients⟩ issued

lemma System.step_outcome (s : System) (op : Op) :
    s.StepOutcome op (s.next sha256 op) (s.issued sha256 op) := by
  unfold System.next System.issued
  cases op with
  | enter client request reply =>
    rcases hclient : s.clients client with _ | _ | _ | _
    · rcases hfree : s.store.restoreError with _ | error
      · rcases hinit : s.store.initialized with _ | _
        · have hrestores : (Op.enter client request reply).restores s = some reply := by
            simp [Op.restores, hclient, hfree, hinit, Client.isIdle]
          simp only [System.step, hclient, Store.ensureInitialized, hfree, hinit,
            Bool.false_eq_true, ite_false, bind, StateT.bind, restoreState]
          rcases hresult : restoreStateInner reply [] with ⟨error | store, issued⟩
          · exact .notRestored _ reply error _ issued hrestores hresult
          · exact .restored _ reply store _ issued hrestores hresult
        · simp only [System.step, hclient, Store.ensureInitialized, hfree, hinit, ite_true]
          exact .quiet _ _ (by simp [Op.restores, hinit])
      · simp only [System.step, hclient, Store.ensureInitialized, hfree]
        exact .quiet _ _ (by simp [Op.restores, hfree])
    all_goals
      simp only [System.step, hclient]
      exact .quiet _ _ (by simp [Op.restores, hclient, Client.isIdle])
  | read client =>
    rcases hclient : s.clients client with _ | request | _ | _
    all_goals simp only [System.step, hclient]
    all_goals exact .quiet _ _ rfl
  | apply client =>
    rcases hclient : s.clients client with _ | _ | ⟨request, current⟩ | _
    · simp only [System.step, hclient]
      exact .quiet _ _ rfl
    · simp only [System.step, hclient]
      exact .quiet _ _ rfl
    · simp only [System.step, hclient]
      rcases request.apply sha256 current with error | next
      · exact .quiet _ _ rfl
      · exact .quiet _ _ rfl
    · simp only [System.step, hclient]
      exact .quiet _ _ rfl
  | commit client reply =>
    rcases hclient : s.clients client with _ | _ | _ | ⟨request, current, next⟩
    · simp only [System.step, hclient]
      exact .quiet _ _ rfl
    · simp only [System.step, hclient]
      exact .quiet _ _ rfl
    · simp only [System.step, hclient]
      exact .quiet _ _ rfl
    · simp only [System.step, hclient]
      exact .commit client reply request current next _ _ _ hclient
        (s.store.commitState_outcome current next reply)
  | restore reply =>
    simp only [System.step, bind, StateT.bind, restoreState]
    rcases hresult : restoreStateInner reply [] with ⟨error | store, issued⟩
    · exact .notRestored _ reply error _ issued rfl hresult
    · exact .restored _ reply store _ issued rfl hresult

end Digest

end Durable
