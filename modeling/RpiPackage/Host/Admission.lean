import RpiPackage.Lib.Json
import RpiPackage.Lib.Result

/-!
# Execution admission

At most one execution intent is current. It is registered before its command is queued, published
by the writer immediately before the command is written, and settled by the frames of the native
host. Tickets are clones of the right to roll the intent back as long as it is not published.
-/

namespace Host

open Json Result

structure Intent where
  id : String
  /-- A fresh uuid; the tokens handed out are counted instead. -/
  token : Nat
  published : Bool
  accepted : Bool
  run : Option String

structure ExecutionAdmission where
  current : Option Intent
  nativeUnsettled : Bool
  nativeRun : Option String

def ExecutionAdmission.default : ExecutionAdmission := ⟨none, false, none⟩

structure ExecutionTicket where
  token : Nat
  cancelQueued : Bool

def ExecutionTicket.clone (ticket : ExecutionTicket) : ExecutionTicket :=
  { ticket with cancelQueued := true }

def ExecutionTicket.retainQueued (ticket : ExecutionTicket) : ExecutionTicket :=
  { ticket with cancelQueued := false }

def isExecution (value : Value) : Bool :=
  match (value.index "type").asStr with
  | some "prompt" | some "compact" | some "resume_pending" => true
  | _ => false

def matchesRun (expected event : Option String) : Bool :=
  match expected with
  | some expected => event == some expected
  | none => true

namespace ExecutionAdmission

def unsettled (a : ExecutionAdmission) : Bool := a.current.isSome || a.nativeUnsettled

def register (a : ExecutionAdmission) (token : Nat) (value : Value) :
    Except String (Option (ExecutionTicket × ExecutionAdmission)) :=
  if isExecution value then do
    let id ← okOr (value.index "id").asStr "execution requires a string request ID"
    failIf (a.unsettled = true) "execution admission remains unsettled"
    return some (⟨token, true⟩, { a with current := some ⟨id, token, false, false, none⟩ })
  else .ok none

/-- The check of the writer, which publishes the intent if it still is current. -/
def published (a : ExecutionAdmission) (token : Nat) : Bool × ExecutionAdmission :=
  match a.current with
  | some intent =>
    if intent.token = token then
      (true, { a with current := some { intent with published := true } })
    else (false, a)
  | none => (false, a)

/-- Dropping a ticket rolls its intent back, unless the ticket is retained or the intent is
published. -/
def drop (a : ExecutionAdmission) (ticket : ExecutionTicket) : ExecutionAdmission :=
  if ticket.cancelQueued then
    match a.current with
    | some intent =>
      if intent.token = ticket.token ∧ intent.published = false then { a with current := none }
      else a
    | none => a
  else a

def response (a : ExecutionAdmission) (value : Value) : ExecutionAdmission :=
  match a.current with
  | none => a
  | some intent =>
    if (value.index "id").asStr ≠ some intent.id then a
    else if (value.index "success").asBool = some false ∧ intent.accepted = false then
      { a with current := none }
    else if (value.index "success").asBool = some true
        ∧ ((value.index "data").index "accepted").asBool = some true then
      { current := some { intent with accepted := true }
        nativeUnsettled := true
        nativeRun := intent.run }
    else a

def agentStart (a : ExecutionAdmission) (run : Option String) : ExecutionAdmission where
  current := a.current.map fun intent => if intent.published then { intent with run } else intent
  nativeUnsettled := true
  nativeRun := run

def agentSettled (a : ExecutionAdmission) (run : Option String) : ExecutionAdmission :=
  let a := if matchesRun a.nativeRun run then
      { a with nativeUnsettled := false, nativeRun := none }
    else a
  { a with current := a.current.filter fun intent =>
      !(intent.accepted && matchesRun intent.run run) }

/-- What a frame of the native host says about the execution. -/
def observe (a : ExecutionAdmission) (value : Value) : ExecutionAdmission :=
  match (value.index "type").asStr with
  | some "response" => a.response value
  | some "agent_start" => a.agentStart (value.index "runId").asStr
  | some "agent_settled" => a.agentSettled (value.index "runId").asStr
  | _ => a

end ExecutionAdmission

/-! ### What becomes of an intent -/

/-- The frame answers the request of the intent with a refusal, and nothing has accepted it. -/
def Intent.Rejects (intent : Intent) (frame : Value) : Prop :=
  (frame.index "type").asStr = some "response" ∧ (frame.index "id").asStr = some intent.id ∧
    (frame.index "success").asBool = some false ∧ intent.accepted = false

/-- The frame answers the request of the intent with an acceptance. -/
def Intent.Accepts (intent : Intent) (frame : Value) : Prop :=
  (frame.index "type").asStr = some "response" ∧ (frame.index "id").asStr = some intent.id ∧
    (frame.index "success").asBool = some true ∧
      ((frame.index "data").index "accepted").asBool = some true

/-- The frame settles the run of an intent that has been accepted. -/
def Intent.Settles (intent : Intent) (frame : Value) : Prop :=
  (frame.index "type").asStr = some "agent_settled" ∧ intent.accepted = true ∧
    matchesRun intent.run (frame.index "runId").asStr = true

namespace ExecutionAdmission

variable {a : ExecutionAdmission} {intent : Intent}

/-- A frame keeps the intent, but for its acceptance and its run, or it removes it in one of two
ways. -/
lemma observe_current (h : a.current = some intent) (frame : Value) :
    (∃ accepted run, (a.observe frame).current = some { intent with accepted, run } ∧
        (accepted = true ↔ intent.accepted = true ∨ intent.Accepts frame)) ∨
      (a.observe frame).current = none ∧ (intent.Rejects frame ∨ intent.Settles frame) := by
  have hkeep : ¬intent.Accepts frame → ∃ accepted run,
      a.current = some { intent with accepted, run } ∧
        (accepted = true ↔ intent.accepted = true ∨ intent.Accepts frame) := by
    intro haccepts
    exact ⟨intent.accepted, intent.run, h, by rw [or_iff_left haccepts]⟩
  unfold observe
  split
  · rename_i htype
    unfold response
    simp only [h]
    by_cases hid : (frame.index "id").asStr = some intent.id
    · rw [if_neg (not_not_intro hid)]
      by_cases hrejects : (frame.index "success").asBool = some false ∧ intent.accepted = false
      · rw [if_pos hrejects]
        exact .inr ⟨rfl, .inl ⟨htype, hid, hrejects⟩⟩
      · rw [if_neg hrejects]
        by_cases haccepts : (frame.index "success").asBool = some true ∧
            ((frame.index "data").index "accepted").asBool = some true
        · rw [if_pos haccepts]
          exact .inl ⟨true, intent.run, rfl, iff_of_true rfl (.inr ⟨htype, hid, haccepts⟩)⟩
        · rw [if_neg haccepts]
          exact .inl (hkeep fun hframe => haccepts hframe.2.2)
    · rw [if_pos hid]
      exact .inl (hkeep fun hframe => hid hframe.2.1)
  · rename_i htype
    have haccepts : ¬intent.Accepts frame := fun hframe => by simp [hframe.1] at htype
    simp only [agentStart, h, Option.map_some]
    left
    split
    · exact ⟨intent.accepted, _, rfl, by rw [or_iff_left haccepts]⟩
    · exact ⟨intent.accepted, intent.run, rfl, by rw [or_iff_left haccepts]⟩
  · rename_i htype
    have haccepts : ¬intent.Accepts frame := fun hframe => by simp [hframe.1] at htype
    have hcurrent : (a.agentSettled (frame.index "runId").asStr).current =
        (some intent).filter fun intent =>
          !(intent.accepted && matchesRun intent.run (frame.index "runId").asStr) := by
      unfold agentSettled
      split <;> simp only [h]
    rw [hcurrent]
    by_cases hsettles : (intent.accepted && matchesRun intent.run (frame.index "runId").asStr) = true
    · right
      rw [Bool.and_eq_true] at hsettles
      exact ⟨by simp [hsettles], .inr ⟨htype, hsettles⟩⟩
    · left
      rw [Bool.not_eq_true] at hsettles
      rw [Option.filter_some, hsettles, Bool.not_false, if_pos rfl, ← h]
      exact hkeep haccepts
  · rename_i hother _ _
    exact .inl (hkeep fun hframe => hother hframe.1)

lemma observe_none (h : a.current = none) (frame : Value) : (a.observe frame).current = none := by
  unfold observe
  split
  · simp only [response, h]
  · simp only [agentStart, h, Option.map_none]
  · unfold agentSettled
    split <;> simp only [h, Option.filter_none]
  · exact h

/-- The check of the writer passes for the current intent only. -/
lemma published_iff (a : ExecutionAdmission) (token : Nat) :
    (a.published token).1 = true ↔ ∃ intent ∈ a.current, intent.token = token := by
  unfold published
  rcases a.current with _ | intent
  · simp
  · by_cases htoken : intent.token = token <;> simp [htoken]

/-- While an execution is unsettled no other is admitted. -/
lemma register_unsettled (h : a.unsettled = true) (token : Nat) {value : Value}
    (hexecution : isExecution value = true) : ∃ e, a.register token value = .error e := by
  unfold register
  rw [if_pos hexecution]
  rcases (value.index "id").asStr with _ | id
  · exact ⟨_, rfl⟩
  · exact ⟨"execution admission remains unsettled", by rw [h]; rfl⟩

/-- An admitted execution is the current one, not published yet. -/
lemma register_eq_ok {token : Nat} {value : Value} {ticket : ExecutionTicket}
    {a' : ExecutionAdmission} (h : a.register token value = .ok (some (ticket, a'))) :
    a.current = none ∧ ticket.token = token ∧
      ∃ id, a' = { a with current := some ⟨id, token, false, false, none⟩ } := by
  unfold register at h
  split at h
  · simp only [bind_eq_ok, failIf_eq_ok, pure_eq_ok] at h
    obtain ⟨id, -, -, hfree, h⟩ := h
    obtain ⟨rfl, rfl⟩ := Prod.mk.inj (Option.some.inj (Except.ok.inj h))
    simp only [unsettled, Bool.or_eq_true, not_or, Bool.not_eq_true,
      Option.isSome_eq_false_iff, Option.isNone_iff_eq_none] at hfree
    exact ⟨hfree.1, rfl, id, rfl⟩
  · cases h

end ExecutionAdmission

end Host
