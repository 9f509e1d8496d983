import RpiPackage.AskUser.Plan
import RpiPackage.Lib.Run

/-!
# The drive of a tool call

A call of `ask_user` is polled, cancelled and destroyed through its handle. A poll opens the next
question with the host, or asks the host for the answer to the one that is open; what the host
replies and what the clock shows are inputs of the poll. The log holds the requests, with the replies
that were read, and what the polls returned.
-/

namespace AskUser

open Json Json.Value

/-- A reply of the host, or the error in its place. -/
abbrev Reply := Except String Value

/-! ### Requests -/

/-- The process and the time are parts of the name, and no two requests of a process share `seq`. -/
def requestId (pid seq nanos : Nat) : String :=
  "ask-" ++ pid.repr ++ "-" ++ seq.repr ++ "-" ++ nanos.repr

def openRequest (requestId toolCallId : String) (question : AskQuestion) : Value :=
  .object
    [("op", .string "open"),
      ("requestId", .string requestId),
      ("toolCallId", .string toolCallId),
      ("ui", question.toUi none)]

def status (response : Value) : String := ((response.get "status").bind asStr).getD "pending"

/-! ### Answers -/

structure AskAnswer where
  id : String
  question : String
  values : List String
  text : Option String
  confirmed : Option Bool

def answerValues (answer : Value) : List String :=
  match (answer.get "values").bind asArray with
  | some values => values.filterMap asStr
  | none => ((answer.get "value").bind asStr).toList

/-- What the host answered to a question. -/
def answerOf (question : AskQuestion) (response : Value) : AskAnswer :=
  let answer := (response.get "answer").getD .null
  let values := answerValues answer
  { id := question.id
    question := question.question
    values
    text := (answer.get "text").bind asStr
    confirmed :=
      if question.uiKind = "input" then none
      else some (values.head?.any fun value => Rust.eqIgnoreAsciiCase value "yes") }

def answerLine (answer : AskAnswer) : String :=
  let joined := if answer.values = [] then none else some (", ".intercalate answer.values)
  answer.question ++ ": " ++ ((answer.text.filter (· ≠ "") <|> joined).getD "(no answer)")

def answerSummary (plan : AskPlan) (answers : List AskAnswer) : String :=
  match plan with
  | .confirm summary =>
    let confirmed := (answers.head?.bind AskAnswer.confirmed).getD false
    (if confirmed then "Confirmed" else "Declined") ++ ": " ++ summary
  | .questions _ =>
    match answers with
    | [answer] => answerLine answer
    | answers => "\n".intercalate (answers.map answerLine)

def answerResult (answers : List AskAnswer) : Value :=
  .array (answers.map fun answer => .object
    [("id", .string answer.id),
      ("question", .string answer.question),
      ("values", .array (answer.values.map .string)),
      ("text", orNull answer.text),
      ("confirmed", (answer.confirmed.map .bool).getD .null)])

def content (text : String) : String × Value :=
  ("content", .array [.object [("type", .string "text"), ("text", .string text)]])

/-- The result that lists the answers to a plan. -/
def doneValue (plan : AskPlan) (answers : List AskAnswer) : Value :=
  .object
    [content (answerSummary plan answers),
      ("details", .object
        [("answers", answerResult answers),
          ("ui", .object [("kind", .string "ask_user_result")])])]

def pendingProgress (question : AskQuestion) : Value :=
  .object
    [content ("Waiting for your answer…\n" ++ question.question),
      ("details", .object
        [("ui", .object
          [("kind", .string question.uiKind), ("question", .string question.question)])])]

/-! ### The state -/

structure PendingQuestion where
  requestId : String
  question : AskQuestion
  /-- In nanoseconds of the clock. -/
  deadline : Option Nat

structure Drive where
  params : Value
  toolCallId : String
  started : Bool
  finished : Bool
  pending : Option PendingQuestion
  remaining : List AskQuestion
  answers : List AskAnswer
  confirm : Option String

inductive StepResult where
  | pending (progress : Option Value)
  | done (value : Value)
  | err (error : String)

inductive Event where
  | opened (requestId : String) (question : AskQuestion) (request : Value) (reply : Reply)
  | polled (requestId : String) (reply : Reply)
  | cancelRequested (requestId : String)
  | timedOut (requestId : String)
  /-- A call of `cancel` is over. -/
  | cancelled
  | returned (result : StepResult)

structure State where
  pid : Nat
  drive : Drive
  cancelled : Bool
  /-- Calls of `cancel` that have signalled and wait for the drive. -/
  cancelling : Nat
  destroyed : Bool
  /-- A panic has ended the process. -/
  crashed : Bool
  nextSeq : Nat
  log : List Event

namespace State

def record (s : State) (e : Event) : State := { s with log := s.log ++ [e] }

def returns (s : State) (result : StepResult) : State := s.record (.returned result)

end State

/-- The handle of a new call. -/
def execute (pid nextSeq : Nat) (toolCallId : String) (params : Value) : State where
  pid := pid
  drive :=
    { params, toolCallId, started := false, finished := false, pending := none, remaining := []
      answers := [], confirm := none }
  cancelled := false
  cancelling := 0
  destroyed := false
  crashed := false
  nextSeq := nextSeq
  log := []

/-! ### Polls -/

/-- What a call of `open_next` meets. -/
structure Opening where
  /-- The requests of other calls since the last one of this call. -/
  others : Nat
  nanos : Nat
  reply : Reply
  now : Nat

structure Polling where
  now : Nat
  reply : Reply
  next : Opening

structure Turn where
  first : Opening
  poll : Polling
  /-- A call of `cancel` signals while the poll is under way. -/
  signalled : Bool

inductive Outcome where
  | response (value : Value)
  | nothing
  | failed (error : String)
  | panicked

/-- `Instant::now() + Duration::from_secs(seconds)`, which panics past the last moment of the clock. -/
def deadlineOf (now : Nat) : Option UInt64 → Option (Option Nat)
  | none => some none
  | some seconds =>
    if now / 10 ^ 9 + seconds.toNat < 2 ^ 63 then some (some (now + seconds.toNat * 10 ^ 9)) else none

/-- Opens the next queued question, if one remains. -/
def openNext (s : State) (w : Opening) : Outcome × State :=
  match s.drive.remaining with
  | [] => (.nothing, s)
  | question :: remaining =>
    let id := requestId s.pid (s.nextSeq + w.others) w.nanos
    let s := { s with
      nextSeq := s.nextSeq + w.others + 1
      drive := { s.drive with remaining }
      log := s.log ++ [.opened id question (openRequest id s.drive.toolCallId question) w.reply] }
    match w.reply with
    | .error e => (.failed e, s)
    | .ok response =>
      match deadlineOf w.now question.timeout with
      | none => (.panicked, { s with crashed := true })
      | some deadline =>
        (.response response, { s with drive := { s.drive with pending := some ⟨id, question, deadline⟩ } })

def cancelUiDialog (s : State) (id : String) : State := s.record (.cancelRequested id)

def buildDone (d : Drive) : Value :=
  doneValue ((ask d.params).toOption.getD (.confirm "")) d.answers

/-- Asks for the answer to the question that is open; the result is given when no question remains. -/
def pollOpenQuestion (s : State) (w : Polling) : Outcome × State :=
  match s.drive.pending with
  | none => (.nothing, s)
  | some pending =>
    if pending.deadline.any (· ≤ w.now) then
      let s := cancelUiDialog (s.record (.timedOut pending.requestId)) pending.requestId
      (.failed "ask timed out", { s with drive := { s.drive with pending := none } })
    else
      let s := s.record (.polled pending.requestId w.reply)
      match w.reply with
      | .error e => (.failed e, s)
      | .ok response =>
        if status response = "answered" then
          let s := { s with drive := { s.drive with
            pending := none
            answers := s.drive.answers ++ [answerOf pending.question response] } }
          match openNext s w.next with
          | (.nothing, s) => (.response (buildDone s.drive), s)
          | (.response _, s) => (.nothing, s)
          | other => other
        else if status response = "cancelled" then (.failed "ask cancelled", s)
        else (.nothing, s)

def Drive.enqueue (d : Drive) (plan : AskPlan) : Drive :=
  { d with
    remaining := d.remaining ++ plan.asked
    confirm :=
      match plan with
      | .confirm summary => some summary
      | .questions _ => d.confirm }

def startDrive (s : State) (w : Turn) : Outcome × State :=
  match ask s.drive.params with
  | .error e => (.failed e, s)
  | .ok plan =>
    match openNext { s with drive := s.drive.enqueue plan } w.first with
    | (.response response, s) =>
      -- an immediate answer, which the host is asked for once more
      if status response = "answered" then pollOpenQuestion s w.poll else (.nothing, s)
    | other => other

def cancelPending (s : State) : State :=
  match s.drive.pending with
  | some pending => cancelUiDialog s pending.requestId
  | none => s

def waiting : Value := .object [content "Waiting for your answer…"]

/-- A call of `cancel` up to where it waits for the drive. -/
def signal (s : State) : State :=
  if s.destroyed then s else { s with cancelled := true, cancelling := s.cancelling + 1 }

def poll (s : State) (w : Turn) : State :=
  if s.destroyed then s.returns (.err "invalid or destroyed tool handle")
  else if s.cancelled then (cancelPending s).returns (.err "ask cancelled")
  else if s.drive.finished then s.returns (.err "ask_user polled after completion")
  else if s.drive.started = false then
    match startDrive { s with drive := { s.drive with started := true } } w with
    | (.response done, s) =>
      { s with drive := { s.drive with finished := true } }.returns (.done done)
    | (.nothing, s) =>
      s.returns (.pending (some ((s.drive.pending.map fun p => pendingProgress p.question).getD waiting)))
    | (.failed e, s) => s.returns (.err e)
    | (.panicked, s) => s
  else
    match pollOpenQuestion s w.poll with
    | (.response done, s) =>
      { s with drive := { s.drive with finished := true } }.returns (.done done)
    | (.nothing, s) =>
      -- the poll has slept, and looks at the signal once more
      if w.signalled then (cancelPending s).returns (.err "ask cancelled") else s.returns (.pending none)
    | (.failed e, s) => s.returns (.err e)
    | (.panicked, s) => s

/-! ### Calls -/

/-- The calls on a handle; `cancel` is a signal and, when it has the drive, the rest. -/
inductive Op where
  | poll (turn : Turn)
  | signal
  | cancelLocked
  | destroy

def cancelLocked (s : State) : State :=
  if s.cancelling = 0 then s
  else { cancelPending s with cancelling := s.cancelling - 1 }.record .cancelled

def step (s : State) (op : Op) : State :=
  if s.crashed then s
  else
    match op with
    | .poll turn =>
      let s := poll s turn
      if turn.signalled = true ∧ s.crashed = false then signal s else s
    | .signal => signal s
    | .cancelLocked => cancelLocked s
    | .destroy => { s with destroyed := true }

end AskUser
