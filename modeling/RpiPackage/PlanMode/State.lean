import RpiPackage.Lib.Json
import RpiPackage.Lib.Rust
import RpiPackage.Lib.Run

/-!
# Plan mode

The state of the extension, the tools and the session branch that its host keeps, and the calls
between the two. Each call to the host can fail, and then has no effect.
-/

namespace PlanMode

open Json Json.Value

def maxPlanChars : Nat := 50000

def planEntry : String := "plan-mode"

def planningTools : List String := ["read", "bash", "docs", "plan_mode_complete"]

structure PlanState where
  active : Bool
  plan : Option String
  previousTools : Option (List String)
  deriving DecidableEq, Repr

structure Host where
  tools : List String
  -- the entries of the current branch, the oldest first
  branch : List Value

/-- The extension and its host. What becomes of the next calls is given with them: the text of an
error, or nothing for a call that succeeds; further calls succeed. -/
structure World where
  state : PlanState
  host : Host
  faults : List (Option String)

namespace World

def start (tools : List String) (branch : List Value) : World :=
  ⟨⟨false, none, none⟩, ⟨tools, branch⟩, []⟩

def callRuntime (id : String) (w : World) : Except String Unit × World :=
  match w.faults with
  | [] => (.ok (), w)
  | none :: faults => (.ok (), { w with faults })
  | some text :: faults =>
    (.error (if text = "" then "runtime action " ++ id ++ " failed" else text), { w with faults })

def currentTools (w : World) : Except String (List String) × World :=
  match w.callRuntime "GetActiveTools" with
  | (.error error, w) => (.error error, w)
  | (.ok _, w) => (.ok w.host.tools, w)

def setTools (tools : List String) (w : World) : Except String Unit × World :=
  match w.callRuntime "SetActiveTools" with
  | (.error error, w) => (.error error, w)
  | (.ok _, w) => (.ok (), { w with host := { w.host with tools } })

def entryOf (active : Bool) (plan : Option String) : Value :=
  .object [("type", .string "custom"), ("customType", .string planEntry),
    ("data", .object [("active", .bool active), ("plan", (plan.map Value.string).getD .null)])]

/-- An entry that cannot be appended is not missed. -/
def persistState (active : Bool) (plan : Option String) (w : World) : World :=
  match w.callRuntime "AppendEntry" with
  | (.error _, w) => w
  | (.ok _, w) =>
    { w with host := { w.host with branch := w.host.branch ++ [entryOf active plan] } }

def activate (w : World) : Except String Bool × World :=
  if w.state.active then (.ok false, w)
  else
    match w.currentTools with
    | (.error error, w) => (.error error, w)
    | (.ok previous, w) =>
      match w.setTools planningTools with
      | (.error error, w) => (.error error, w)
      | (.ok _, w) =>
        (.ok true, persistState true none { w with state := ⟨true, none, some previous⟩ })

def deactivate (w : World) : Except String Bool × World :=
  if !w.state.active then (.ok false, w)
  else
    let taken := { w with state := { w.state with previousTools := none } }
    match (match w.state.previousTools with
      | some previous => taken.setTools previous
      | none => (.ok (), taken)) with
    | (.error error, w) => (.error error, w)
    | (.ok _, w) =>
      (.ok true, persistState false w.state.plan { w with state := { w.state with active := false } })

/-! ### Tools and command -/

def isBlank (plan : String) : Bool := Rust.trim plan = ""

def markdownPlan (plan : Option String) (active : Bool) : String :=
  let ready := plan.any fun plan => !isBlank plan
  let status := if active then "Planning" else if ready then "Ready" else "Idle"
  let hint :=
    if active then "Explore first, then call `plan_mode_complete` when the plan is ready."
    else if ready then "Use `/plan start` or `plan_mode_start` to create a new plan."
    else "Use `/plan start` to begin planning."
  let body :=
    match plan with
    | some plan => if isBlank plan then "_No completed plan yet._" else Rust.trim plan
    | none => "_No completed plan yet._"
  "**Plan · " ++ status ++ "**\n\n" ++ body ++ "\n\n" ++ hint

def startPlan (raw : Value) (w : World) : Except String String × World :=
  let request := ((raw.get "request").bind asStr).map Rust.trim |>.filter fun request => request ≠ ""
  match w.activate with
  | (.error error, w) => (.error error, w)
  | (.ok _, w) =>
    (.ok (match request with
      | some value => "Plan mode started for: " ++ value
      | none => "Plan mode started. Inspect the repository, then call `plan_mode_complete`."), w)

/-- The plan that is submitted. -/
def submitted (raw : Value) : Except String String :=
  match ((raw.get "plan").bind asStr).map Rust.trim |>.filter fun plan => plan ≠ "" with
  | none => .error "plan must be a non-empty string"
  | some plan =>
    if maxPlanChars < plan.length then .error "plan must not exceed 50000 characters" else .ok plan

def completePlan (raw : Value) (w : World) : Except String String × World :=
  match submitted raw with
  | .error error => (.error error, w)
  | .ok plan =>
    if !w.state.active then
      (.error "plan_mode_complete is only available while plan mode is active", w)
    else
      match ({ w with state := { w.state with plan := some plan } }).deactivate with
      | (.error error, w) => (.error error, w)
      | (.ok _, w) => (.ok (markdownPlan (some plan) false), w)

/-- The first word of a command; the words it is compared with are in lower case, and no letter
beyond ASCII has one of theirs as its lower case. -/
def firstWord (args : String) : String :=
  String.ofList (((Rust.trim args).toList.takeWhile fun c => !Rust.isWhitespace c).map Char.toLower)

/-- What `/plan` is asked to do. -/
inductive Command where
  | start
  | show
  | finalize
  | exit
  | request
  deriving DecidableEq, Repr

def commandOf (args : String) : Command :=
  let first := firstWord args
  if first = "start" then .start
  else if first = "show" || first = "status" || first = "" then .show
  else if first = "finalize" then .finalize
  else if first = "exit" || first = "off" then .exit
  else .request

/-- A command only tells of its errors. -/
def planCommand (envelope : Value) (w : World) : String × World :=
  let args := ((envelope.get "args").bind asStr).getD ""
  match commandOf args with
  | .start =>
    match w.activate with
    | (.ok true, w) =>
      ("Plan mode enabled. Inspect the codebase and call `plan_mode_complete` when ready.", w)
    | (.ok false, w) => ("Plan mode is already active.", w)
    | (.error error, w) => ("Unable to enter plan mode: " ++ error, w)
  | .show => (markdownPlan w.state.plan w.state.active, w)
  | .finalize =>
    (if w.state.plan.isSome then
      "Plan is stored in the current session. Use `/plan show` to review it."
    else "No plan yet. Complete plan mode with `plan_mode_complete` first.", w)
  | .exit =>
    match w.deactivate with
    | (.ok true, w) => ("Plan mode disabled. Full tool access restored.", w)
    | (.ok false, w) => ("Plan mode is not active.", w)
    | (.error error, w) => ("Unable to leave plan mode: " ++ error, w)
  | .request =>
    match w.activate with
    | (.error error, w) => ("Unable to enter plan mode: " ++ error, w)
    | (.ok _, w) =>
      match w.callRuntime "SendUserMessage" with
      | (.error error, w) => ("Unable to start planning request: " ++ error, w.deactivate.2)
      | (.ok _, w) => ("Plan mode started and the planning request was submitted.", w)

/-! ### The branch -/

def isPlanEntry (entry : Value) : Bool :=
  (entry.get "type").bind asStr == some "custom" &&
    (entry.get "customType").bind asStr == some planEntry

/-- The data of the last entry of plan mode. -/
def restoredData (entries : List Value) : Option Value :=
  entries.foldl (fun restored entry => if isPlanEntry entry then entry.get "data" else restored) none

def activeOf (data : Value) : Bool := ((data.get "active").bind asBool).getD false

def planOf (data : Value) : Option String := (data.get "plan").bind asStr

/-- An answer that does not confirm its filter, or has no entry, leaves the state as it is. -/
def restoreState (reply : Value) (s : PlanState) : PlanState :=
  if (reply.get "filtered").bind asBool ≠ some true then s
  else
    match restoredData (((reply.get "entries").bind asArray).getD []) with
    | none => s
    | some data => { s with active := activeOf data, plan := planOf data }

/-- The confirmed answer for a branch. -/
def getSessionBranch (branch : List Value) : Value :=
  .object [("filtered", .bool true), ("entries", .array (branch.filter isPlanEntry))]

/-- The start of a session, or a change of its tree. -/
def handleEvent (w : World) : World :=
  match w.callRuntime "GetSessionBranch" with
  | (.error _, w) => w
  | (.ok _, w) => { w with state := restoreState (getSessionBranch w.host.branch) w.state }

/-! ### Runs -/

inductive Op where
  | activate
  | deactivate
  | startPlan (raw : Value)
  | completePlan (raw : Value)
  | planCommand (envelope : Value)
  -- the session goes to a branch, and tells so
  | navigate (branch : List Value)

/-- What an operation returns: a command and an event return no error. -/
def perform (w : World) : Op → Except String Unit × World
  | .activate => w.activate.map (·.map fun _ => ()) id
  | .deactivate => w.deactivate.map (·.map fun _ => ()) id
  | .startPlan raw => (w.startPlan raw).map (·.map fun _ => ()) id
  | .completePlan raw => (w.completePlan raw).map (·.map fun _ => ()) id
  | .planCommand envelope => (.ok (), (w.planCommand envelope).2)
  | .navigate branch => (.ok (), ({ w with host := { w.host with branch } }).handleEvent)

/-- Each operation comes with what becomes of its calls. -/
def step (w : World) (move : Op × List (Option String)) : World :=
  (({ w with faults := move.2 }).perform move.1).2

def result (w : World) (move : Op × List (Option String)) : Except String Unit :=
  (({ w with faults := move.2 }).perform move.1).1

abbrev after (w : World) (moves : List (Op × List (Option String))) : World := Run.after step w moves

lemma after_append (w : World) (before later : List (Op × List (Option String))) :
    w.after (before ++ later) = (w.after before).after later :=
  Run.after_append w before later

lemma after_concat (w : World) (before : List (Op × List (Option String)))
    (move : Op × List (Option String)) : w.after (before ++ [move]) = step (w.after before) move :=
  after_append w before [move]

end World

end PlanMode
