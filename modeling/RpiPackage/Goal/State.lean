import RpiPackage.Lib.Result
import RpiPackage.Lib.Rust

/-!
# Goals

The goal of a session branch and the goals before it, what each operation makes of them, and how a
turn is counted against the budgets of the active goal.
-/

namespace GoalState

open Result

structure Goal where
  title : String
  status : String
  notes : String
  startedAt : Int64
  updatedAt : Int64
  turnsUsed : UInt32
  maxTurns : Option UInt32
  deadlineMs : Option Int64
  deriving DecidableEq, Repr

structure Goals where
  active : Option Goal
  archived : List Goal
  deriving DecidableEq, Repr

def Goals.default : Goals := ⟨none, []⟩

def maxTitleChars : Nat := 500
def maxNotesChars : Nat := 20000

/-! ### Texts -/

/-- A goal without its live counters. -/
def fingerprint (goal : Goal) : String := goal.title ++ "|" ++ goal.status ++ "|" ++ goal.notes

def formatDurationMs (ms : Int64) : String :=
  let secs := ms.toInt.toNat / 1000
  let h := secs / 3600
  let m := secs % 3600 / 60
  let s := secs % 60
  if 0 < h then toString h ++ "h" ++ toString m ++ "m"
  else if 0 < m then toString m ++ "m" ++ toString s ++ "s"
  else toString s ++ "s"

namespace Goal

variable (goal : Goal)

def budgetHint : String :=
  if goal.maxTurns = none ∧ goal.deadlineMs = none then ""
  else
    let parts := (goal.maxTurns.map fun max => toString max.toNat ++ " turns").toList ++
      (goal.deadlineMs.map fun deadline => formatDurationMs (deadline - goal.startedAt)).toList
    " (budget: " ++ " / ".intercalate parts ++ ")"

def tag : String :=
  match goal.status with
  | "paused" => "⏸️ Paused goal"
  | "complete" => "✅ Goal completed"
  | _ => "🎯 Active goal"

/-- What the model is told about the goal. -/
def customMessage : String :=
  let notes := Rust.trim goal.notes
  if notes = "" then goal.tag ++ ": " ++ goal.title ++ "." ++ goal.budgetHint
  else goal.tag ++ ": " ++ goal.title ++ " — " ++ notes ++ "." ++ goal.budgetHint

def budgetMessage (reason : String) : String :=
  "⏸️ Goal paused — " ++ reason ++ ": " ++ goal.title ++
    ". Resume with `goal resume` or `/goal resume`."

end Goal

/-! ### Operations -/

def requireActive (goals : Goals) : Except String Goal :=
  okOr goals.active "no active goal — start one first"

def validateTitle (title : String) : Except String String := do
  let title := Rust.trim title
  failIf (title = "") "goal title is required"
  failIf (maxTitleChars < title.length) "title must not exceed 500 characters"
  return title

def validateNotes (notes : String) : Except String String := do
  let notes := Rust.trim notes
  failIf (maxNotesChars < notes.length) "notes must not exceed 20000 characters"
  return notes

/-- `None` leaves a budget untouched, and `Some(None)` clears it. -/
def applyLimits (goal : Goal) (now : Int64) (maxTurns : Option (Option UInt32))
    (deadlineMs : Option (Option Int64)) : Goal :=
  { goal with
    maxTurns := match maxTurns with
      | none => goal.maxTurns
      | some max => max.filter fun n => decide (0 < n)
    deadlineMs := match deadlineMs with
      | none => goal.deadlineMs
      | some ms => (ms.filter fun ms => decide (0 < ms)).map (Rust.saturatingAdd now)
    updatedAt := now }

inductive Operation where
  | start (title notes : String) (maxTurns : Option UInt32) (deadlineMs : Option Int64)
  | update (notes status : Option String)
  | setLimits (maxTurns : Option (Option UInt32)) (deadlineMs : Option (Option Int64))
  | complete
  deriving DecidableEq, Repr

namespace Operation

/-- What is checked before the goals are read. -/
def admitted : Operation → Except String Operation
  | .start title notes maxTurns deadlineMs => do
    let title ← validateTitle title
    let notes ← validateNotes notes
    return .start title notes maxTurns deadlineMs
  | op => .ok op

/-- The goals that an operation makes of those it has read, and the goal that it is about. -/
def perform (op : Operation) (now : Int64) (goals : Goals) : Except String (Goals × Goal) :=
  match op with
  | .start title notes maxTurns deadlineMs =>
    let goal : Goal :=
      { title, status := "active", notes, startedAt := now, updatedAt := now, turnsUsed := 0,
        maxTurns, deadlineMs }
    .ok (⟨some goal, goals.archived ++ goals.active.toList⟩, goal)
  | .update notes status => do
    let active ← requireActive goals
    let notes ← match notes with
      | none => .ok active.notes
      | some notes => validateNotes notes
    let status ← match status with
      | none => .ok active.status
      | some status => do
        failIf (status ∉ ["active", "paused"]) "status must be \"active\" or \"paused\""
        .ok status
    let updated := { active with notes, status, updatedAt := now }
    return (⟨some updated, goals.archived⟩, updated)
  | .setLimits maxTurns deadlineMs => do
    let active ← requireActive goals
    let updated := applyLimits active now maxTurns deadlineMs
    return (⟨some updated, goals.archived⟩, updated)
  | .complete => do
    let active ← requireActive goals
    let finished := { active with status := "complete", updatedAt := now }
    return (⟨none, goals.archived ++ [finished]⟩, finished)

end Operation

/-! ### Turns -/

/-- What the end of a turn makes of the goals. -/
inductive Turn where
  | noGoal
  | inactive
  | counted (goals : Goals) (goal : Goal) (exhausted : Option String)
  deriving DecidableEq, Repr

/-- Why the work on a goal has to stop. -/
def exhausted (goal : Goal) : Option String :=
  match goal.maxTurns.filter fun max => decide (max ≤ goal.turnsUsed) with
  | some max => some ("turn budget reached (" ++ toString max.toNat ++ ")")
  | none =>
    (goal.deadlineMs.filter fun deadline => decide (deadline ≤ goal.updatedAt)).map fun _ =>
      "time budget reached"

def countTurn (now : Int64) (goals : Goals) : Turn :=
  match goals.active with
  | none => .noGoal
  | some goal =>
    if goal.status ≠ "active" then .inactive
    else
      let goal := { goal with turnsUsed := Rust.saturatingSucc32 goal.turnsUsed, updatedAt := now }
      match exhausted goal with
      | none => .counted { goals with active := some goal } goal none
      | some reason =>
        let goal := { goal with status := "paused" }
        .counted { goals with active := some goal } goal (some reason)

/-! ### Changes -/

/-- A change of the goals, at the time at which it was made. -/
inductive Change where
  | operation (op : Operation) (now : Int64)
  | turn (now : Int64)
  deriving DecidableEq, Repr

def Change.apply (goals : Goals) : Change → Goals
  | .operation op now =>
    match op.perform now goals with
    | .ok (goals, _) => goals
    | .error _ => goals
  | .turn now =>
    match countTurn now goals with
    | .counted goals _ _ => goals
    | _ => goals

end GoalState
