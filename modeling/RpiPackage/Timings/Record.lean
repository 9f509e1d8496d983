import Mathlib.Algebra.Group.Int.Defs
import RpiPackage.Reply
import RpiPackage.Lib.Result
import RpiPackage.Lib.Rust

/-!
# Run records of a transcript

What one record of a native transcript does to the runs that are under way on its lane and to the
timings of the finished ones.
-/

namespace Timings

open Json Service

def maxTimings : Nat := 20000
def maxLanes : Nat := 128

structure RunTiming where
  runId : String
  lane : String
  finalEntryId : String
  startedAt : Int
  finishedAt : Int
  elapsedMs : Nat
  outcome : String
  deriving DecidableEq, Repr

structure Active where
  id : String
  start : Int
  last : Option String
  deriving DecidableEq, Repr

/-- The part of a scan that the records change. -/
structure Lanes where
  active : List (String × Active)
  timings : List RunTiming
  deriving DecidableEq, Repr

def Lanes.empty : Lanes := ⟨[], []⟩

def limit (message : String) : ServiceError := failure .limitExceeded message

def short (v : Value) : Option String :=
  v.asStr.filter fun s => s != "" && decide (s.utf8ByteSize ≤ 256)

/-! ### Visible messages -/

def notBlank (v : Value) : Bool := v.asStr.any fun s => Rust.trim s != ""

def visibleBlock (b : Value) : Bool :=
  match (b.index "type").asStr with
  | some "text" => notBlank (b.index "text")
  | some "thinking" =>
    match (b.index "thinking").asStr with
    | some _ => notBlank (b.index "thinking")
    | none => notBlank (b.index "text")
  | some "image_url" => notBlank ((b.index "image_url").index "url")
  | some "image" | some "toolCall" | some "tool_call" => true
  | _ => false

def visible (m : Value) : Bool :=
  match (m.index "role").asStr with
  | some "assistant" | some "user" | some "toolResult" =>
    match m.index "content" with
    | .string s => Rust.trim s != ""
    | .array blocks => blocks.any visibleBlock
    | _ => false
  | _ => false

/-! ### Records -/

/-- The lane of a record; a record without one is on the main lane, and any other value of the
field takes the record out of every lane. -/
def laneOf (v : Value) : Option String :=
  match v.get "lane" with
  | some (.string s) => if s.utf8ByteSize ≤ 256 then some s else none
  | none => some "main"
  | _ => none

def Lanes.remove (s : Lanes) (lane : String) : Lanes :=
  { s with active := s.active.filter fun p => p.1 != lane }

/-- Any operation that starts ends the run that was active on its lane. -/
def Lanes.started (s : Lanes) (lane : String) (v : Value) : Except ServiceError Lanes :=
  let s := s.remove lane
  if ((v.index "intent").index "kind").asStr = some "run" then
    match short (v.index "id"), (v.index "timestamp").asI64 with
    | some id, some start =>
      if maxLanes ≤ s.active.length then .error (limit "too many active run lanes")
      else .ok { s with active := s.active ++ [(lane, ⟨id, start, none⟩)] }
    | _, _ => .ok s
  else .ok s

def Lanes.message (s : Lanes) (lane : String) (v : Value) : Lanes :=
  if visible (v.index "message") then
    match short (v.index "id") with
    | some id =>
      { s with active := s.active.map fun p =>
          if p.1 = lane then (p.1, { p.2 with last := some id }) else p }
    | none => s
  else s

/-- `end.checked_sub(start)` as a `u64`. -/
def elapsed (start finish : Int) : Option Nat :=
  if 0 ≤ finish - start ∧ finish - start < 2 ^ 63 then some (finish - start).toNat else none

def Lanes.finished (s : Lanes) (lane : String) (v : Value) : Except ServiceError Lanes :=
  match s.active.lookup lane with
  | none => .ok s
  | some active =>
    if (v.index "runId").asStr ≠ some active.id then .ok s
    else
      let s := s.remove lane
      match active.last, (v.index "timestamp").asI64, short (v.index "outcome") with
      | some last, some finish, some outcome =>
        match elapsed active.start finish with
        | none => .ok s
        | some elapsedMs =>
          if maxTimings ≤ s.timings.length then
            .error (limit "run timing metadata capacity exceeded")
          else
            .ok { s with timings :=
              s.timings ++ [⟨active.id, lane, last, active.start, finish, elapsedMs, outcome⟩] }
      | _, _, _ => .ok s

def Lanes.record (s : Lanes) (v : Value) : Except ServiceError Lanes :=
  match laneOf v with
  | none => .ok s
  | some lane =>
    match (v.index "kind").asStr, (v.index "type").asStr with
    | some "record", some "operation_started" => s.started lane v
    | some "entry", some "message" => .ok (s.message lane v)
    | some "record", some "operation_finished" => s.finished lane v
    | _, _ => .ok s

def checkHeader (v : Value) (id : String) : Except ServiceError Unit :=
  if (v.index "kind").asStr ≠ some "header" ∨ (v.index "version").asI64 ≠ some 4
      ∨ (v.index "id").asStr ≠ some id then
    .error (failure .unavailable "expected exact native v4 session header")
  else .ok ()

/-- A header says nothing about runs. -/
lemma Lanes.record_header {s : Lanes} {v : Value} {id : String} (h : checkHeader v id = .ok ()) :
    s.record v = .ok s := by
  simp only [checkHeader, Result.ite_error_eq_ok, not_or, not_ne_iff] at h
  obtain ⟨⟨hkind, -, -⟩, -⟩ := h
  unfold Lanes.record
  rcases laneOf v with _ | lane
  · rfl
  · simp [hkind]

end Timings
