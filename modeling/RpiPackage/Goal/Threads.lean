import Mathlib.Logic.Function.Basic
import RpiPackage.Goal.State

/-!
# Threads and their lock sections

The pending state, the pending notice and the branch, as the threads of a process see them. A thread
does one thing at a time, under one lock or in one call of the host, and any other thread may come
in between. The states of the goals are custom entries of the branch, and the notices are messages.
-/

namespace GoalState

open Result

structure PendingInjection where
  revision : UInt64
  goal : Goal
  budgetReason : Option String
  deriving DecidableEq, Repr

inductive Entry where
  | state (goals : Goals)
  | message (goal : Goal) (text : String)
  deriving DecidableEq, Repr

/-- What a flush of the pending state is followed by: nothing, the notice, or the notice and the
rest of the end of a turn. -/
inductive Next where
  | nothing
  | notice (turn : Bool)
  deriving DecidableEq, Repr

/-- Where a thread is in what it does. -/
inductive Phase where
  | idle
  | opRead (op : Operation)
  | opBranch (op : Operation)
  | opQueue (op : Operation) (goals : Goals)
  | opNotice (goal : Goal)
  | stateTake (next : Next)
  | stateAppend (goals : Goals) (next : Next)
  | statePut (goals : Goals) (next : Next)
  | noticeTake (turn : Bool)
  | noticeInject (pending : PendingInjection) (turn : Bool)
  | noticeSettle (pending : PendingInjection) (delivered turn : Bool)
  | turnRead
  | turnBranch
  | turnCount (goals : Goals)
  | turnNotice (goal : Goal) (reason : String)
  | turnCheck (goal : Goal)
  | turnInject (goal : Goal)
  deriving DecidableEq, Repr

structure State where
  pending : Option Goals
  notice : Option PendingInjection
  revision : UInt64
  lastInjected : Option String
  branch : List Entry
  threads : Nat → Phase

/-- What a thread is called for. -/
inductive Call where
  | operation (op : Operation)
  | flushState
  | flush
  | turnEnd
  deriving DecidableEq, Repr

/-- A thread is called, or it goes on: at a time, and with an answer of the host if it asks for
one. -/
inductive Event where
  | call (c : Call)
  | resume (now : Int64) (ok : Bool)
  deriving DecidableEq, Repr

structure Move where
  thread : Nat
  event : Event
  deriving DecidableEq, Repr

/-- The states of the goals on a branch. -/
def states (branch : List Entry) : List Goals :=
  branch.filterMap fun
    | .state goals => some goals
    | .message _ _ => none

/-- The newest state on a branch. -/
def stored (branch : List Entry) : Goals := (states branch).getLastD .default

def PendingInjection.text (p : PendingInjection) : String :=
  match p.budgetReason with
  | some reason => p.goal.budgetMessage reason
  | none => p.goal.customMessage

namespace State

def start (branch : List Entry) : State := ⟨none, none, 0, none, branch, fun _ => .idle⟩

variable (s : State)

def setPhase (thread : Nat) (phase : Phase) : State :=
  { s with threads := Function.update s.threads thread phase }

def append (entry : Entry) : State := { s with branch := s.branch ++ [entry] }

def queueNotice (goal : Goal) (reason : Option String) : State :=
  { s with revision := s.revision + 1, notice := some ⟨s.revision + 1, goal, reason⟩ }

/-- What `read_goals` returns. -/
def readGoals : Goals := s.pending.getD (stored s.branch)

def begin (thread : Nat) : Call → State
  | .operation op =>
    match op.admitted with
    | .ok op => s.setPhase thread (.opRead op)
    | .error _ => s
  | .flushState => s.setPhase thread (.stateTake .nothing)
  | .flush => s.setPhase thread (.stateTake (.notice false))
  | .turnEnd => s.setPhase thread (.stateTake (.notice true))

def afterNotice (turn : Bool) : Phase := if turn then .turnRead else .idle

/-- The state is flushed, or it stays pending and no notice is sent. -/
def afterFlush (flushed : Bool) : Next → Phase
  | .nothing => .idle
  | .notice turn => if flushed then .noticeTake turn else afterNotice turn

/-- The next section of a thread. -/
def resume (thread : Nat) (now : Int64) (ok : Bool) : State :=
  match s.threads thread with
  | .idle => s
  | .opRead op =>
    match s.pending with
    | some goals => s.setPhase thread (.opQueue op goals)
    | none => s.setPhase thread (.opBranch op)
  | .opBranch op => s.setPhase thread (if ok then .opQueue op (stored s.branch) else .idle)
  | .opQueue op goals =>
    match op.perform now goals with
    | .error _ => s.setPhase thread .idle
    | .ok (goals, goal) => { s with pending := some goals }.setPhase thread (.opNotice goal)
  | .opNotice goal => (s.queueNotice goal none).setPhase thread .idle
  | .stateTake next =>
    match s.pending with
    | none => s.setPhase thread (afterFlush true next)
    | some goals => { s with pending := none }.setPhase thread (.stateAppend goals next)
  | .stateAppend goals next =>
    if ok then (s.append (.state goals)).setPhase thread (afterFlush true next)
    else s.setPhase thread (.statePut goals next)
  | .statePut goals next =>
    { s with pending := some goals }.setPhase thread (afterFlush false next)
  | .noticeTake turn =>
    match s.notice with
    | none => s.setPhase thread (afterNotice turn)
    | some pending => { s with notice := none }.setPhase thread (.noticeInject pending turn)
  | .noticeInject pending turn =>
    (if ok then s.append (.message pending.goal pending.text) else s).setPhase thread
      (.noticeSettle pending ok turn)
  | .noticeSettle pending delivered turn =>
    -- a newer notice may have been queued and delivered while this one was under way
    if s.revision ≠ pending.revision then s.setPhase thread (afterNotice turn)
    else if delivered then
      { s with lastInjected := some (fingerprint pending.goal) }.setPhase thread (afterNotice turn)
    else { s with notice := s.notice.or (some pending) }.setPhase thread (afterNotice turn)
  | .turnRead =>
    match s.pending with
    | some goals => s.setPhase thread (.turnCount goals)
    | none => s.setPhase thread .turnBranch
  | .turnBranch => s.setPhase thread (if ok then .turnCount (stored s.branch) else .idle)
  | .turnCount goals =>
    match countTurn now goals with
    | .noGoal => { s with lastInjected := none }.setPhase thread .idle
    | .inactive => s.setPhase thread .idle
    | .counted goals goal exhausted =>
      (if ok then s.append (.state goals) else s).setPhase thread
        (match exhausted with
          | some reason => .turnNotice goal reason
          | none => .turnCheck goal)
  | .turnNotice goal reason =>
    (s.queueNotice goal (some reason)).setPhase thread (.stateTake (.notice false))
  | .turnCheck goal =>
    if s.notice.isSome ∨ s.lastInjected = some (fingerprint goal) then s.setPhase thread .idle
    else s.setPhase thread (.turnInject goal)
  | .turnInject goal =>
    if ok then
      { s.append (.message goal goal.customMessage) with
        lastInjected := some (fingerprint goal) }.setPhase thread .idle
    else s.setPhase thread .idle

def step (s : State) (move : Move) : State :=
  match move.event with
  | .call c => if s.threads move.thread = .idle then s.begin move.thread c else s
  | .resume now ok => s.resume move.thread now ok

end State

end GoalState
