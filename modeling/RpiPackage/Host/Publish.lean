import RpiPackage.Lib.Numbered
import RpiPackage.Lib.Run
import RpiPackage.Message.Live

/-!
# Publication

An event takes its sequence number, changes the derived state, enters the replay history and goes
out to the live subscribers, each in a section of its own. Publications of several tasks take their
sections in any order.
-/

namespace Host

open Json Message Numbered

structure BufferedEvent where
  seq : Nat
  value : Value

structure HostState where
  liveMessage : LiveMessageProjection
  status : String
  lastError : Option String
  latestSettlement : Option Value
  pendingDialogs : List Value
  resourceUnsettled : Bool
  lastSeq : Nat

def HostState.start : HostState :=
  ⟨LiveMessageProjection.default, "ready", none, none, [], false, 0⟩

def historyLimit : Nat := 512

def eventKind (value : Value) : String := ((value.index "type").asStr).getD "message"

def sameRequest (dialog value : Value) : Bool :=
  match dialog.get "requestId", value.get "requestId" with
  | some id, some id' => id.beq id'
  | none, none => true
  | _, _ => false

/-- A dialog takes the place of the first one with its request, or comes last. -/
def updateDialogs (value : Value) : List Value → List Value
  | [] => [value]
  | dialog :: dialogs =>
    if sameRequest dialog value then value :: dialogs else dialog :: updateDialogs value dialogs

/-- What an event says about the session. -/
def HostState.update (state : HostState) (value : Value) : HostState :=
  match eventKind value with
  | "agent_start" | "operation_accepted" =>
    { state with status := "running", resourceUnsettled := true }
  | "ui_dialog_request" =>
    { state with
      status := "awaiting_input", pendingDialogs := updateDialogs value state.pendingDialogs }
  | "ui_dialog_closed" =>
    let pendingDialogs := state.pendingDialogs.filter fun dialog => !sameRequest dialog value
    let status := if pendingDialogs.isEmpty && state.status == "awaiting_input" then "running"
      else state.status
    { state with status, pendingDialogs }
  | "agent_settled" =>
    { state with
      status := "ready"
      resourceUnsettled := false
      pendingDialogs := []
      latestSettlement := some value
      lastError := (value.index "error").asStr }
  | "host_closed" => { state with status := "closed", pendingDialogs := [] }
  | "host_error" => { state with lastError := (value.index "error").asStr }
  | _ => state

def HostState.project (fromStr : String → Option Value) (state : HostState) (next : Nat)
    (value : Value) : HostState × Value :=
  let (liveMessage, value) := state.liveMessage.project fromStr value
  ({ state with liveMessage, lastSeq := next }.update value, value)

/-- The replay ring. -/
def retain (history : List BufferedEvent) (event : BufferedEvent) : List BufferedEvent :=
  (if historyLimit ≤ history.length then history.drop 1 else history) ++ [event]

/-! ### Publications under way -/

/-- The last section a publication has been through. -/
inductive Stage where
  | issued
  | projected
  | retained
  deriving DecidableEq, Repr

structure Publication extends BufferedEvent where
  stage : Stage

structure Feed where
  /-- The last sequence number issued. -/
  seq : Nat
  state : HostState
  history : List BufferedEvent
  /-- Every event that has been retained, also those evicted since. -/
  published : List BufferedEvent
  /-- What has been handed to the live subscribers. -/
  sent : List BufferedEvent
  inFlight : List Publication

def Feed.start : Feed := ⟨0, HostState.start, [], [], [], []⟩

inductive PublishOp where
  | issue (value : Value)
  | project (i : Nat)
  | retain (i : Nat)
  | send (i : Nat)

section

variable (fromStr : String → Option Value)

def Feed.step (f : Feed) : PublishOp → Feed
  | .issue value =>
    { f with seq := f.seq + 1, inFlight := f.inFlight ++ [⟨⟨f.seq + 1, value⟩, .issued⟩] }
  | .project i =>
    match f.inFlight[i]? with
    | some ⟨event, .issued⟩ =>
      let (state, value) := f.state.project fromStr event.seq event.value
      { f with state, inFlight := f.inFlight.set i ⟨⟨event.seq, value⟩, .projected⟩ }
    | _ => f
  | .retain i =>
    match f.inFlight[i]? with
    | some ⟨event, .projected⟩ =>
      { f with
        history := retain f.history event
        published := f.published ++ [event]
        inFlight := f.inFlight.set i ⟨event, .retained⟩ }
    | _ => f
  | .send i =>
    match f.inFlight[i]? with
    | some ⟨event, .retained⟩ =>
      { f with sent := f.sent ++ [event], inFlight := f.inFlight.eraseIdx i }
    | _ => f

def Feed.run (ops : List PublishOp) : Feed := Run.after (Feed.step fromStr) Feed.start ops

end

/-- Everything a step can do. -/
inductive Feed.Effect (fromStr : String → Option Value) (f : Feed) : PublishOp → Feed → Prop where
  | idle (op : PublishOp) : Effect fromStr f op f
  | issue (value : Value) : Effect fromStr f (.issue value)
      { f with seq := f.seq + 1, inFlight := f.inFlight ++ [⟨⟨f.seq + 1, value⟩, .issued⟩] }
  | project (i : Nat) (before after : List Publication) (event : BufferedEvent)
      (under : f.inFlight = before ++ ⟨event, .issued⟩ :: after) (at_i : i = before.length) :
      Effect fromStr f (.project i)
        { f with
          state := (f.state.project fromStr event.seq event.value).1
          inFlight := before ++
            ⟨⟨event.seq, (f.state.project fromStr event.seq event.value).2⟩, .projected⟩ :: after }
  | retain (i : Nat) (before after : List Publication) (event : BufferedEvent)
      (under : f.inFlight = before ++ ⟨event, .projected⟩ :: after) (at_i : i = before.length) :
      Effect fromStr f (.retain i)
        { f with
          history := Host.retain f.history event
          published := f.published ++ [event]
          inFlight := before ++ ⟨event, .retained⟩ :: after }
  | send (i : Nat) (before after : List Publication) (event : BufferedEvent)
      (under : f.inFlight = before ++ ⟨event, .retained⟩ :: after) (at_i : i = before.length) :
      Effect fromStr f (.send i) { f with sent := f.sent ++ [event], inFlight := before ++ after }

lemma exists_split_of_getElem? {α : Type*} {l : List α} {i : Nat} {a : α} (h : l[i]? = some a) :
    ∃ before after, l = before ++ a :: after ∧ i = before.length ∧
      (∀ b, l.set i b = before ++ b :: after) ∧ l.eraseIdx i = before ++ after := by
  obtain ⟨hi, rfl⟩ := List.getElem?_eq_some_iff.mp h
  refine ⟨l.take i, l.drop (i + 1), ?_, ?_, fun b => ?_, ?_⟩
  · rw [List.getElem_cons_drop, List.take_append_drop]
  · rw [List.length_take, Nat.min_eq_left (Nat.le_of_lt hi)]
  · rw [List.set_eq_take_append_cons_drop, if_pos hi]
  · rw [List.eraseIdx_eq_take_drop_succ]

lemma Feed.step_effect (fromStr : String → Option Value) (f : Feed) (op : PublishOp) :
    f.Effect fromStr op (f.step fromStr op) := by
  cases op with
  | issue value => exact .issue value
  | project i =>
    simp only [Feed.step]
    split
    · rename_i event hevent
      obtain ⟨before, after, hunder, hi, hset, -⟩ := exists_split_of_getElem? hevent
      rw [hset]
      exact .project i before after event hunder hi
    · exact .idle _
  | retain i =>
    simp only [Feed.step]
    split
    · rename_i event hevent
      obtain ⟨before, after, hunder, hi, hset, -⟩ := exists_split_of_getElem? hevent
      rw [hset]
      exact .retain i before after event hunder hi
    · exact .idle _
  | send i =>
    simp only [Feed.step]
    split
    · rename_i event hevent
      obtain ⟨before, after, hunder, hi, -, herase⟩ := exists_split_of_getElem? hevent
      rw [herase]
      exact .send i before after event hunder hi
    · exact .idle _

end Host
