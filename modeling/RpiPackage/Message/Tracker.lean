import RpiPackage.Lib.Run
import RpiPackage.Message.Projection

/-!
# Run tracking

A tracker follows one prompt or compaction through the frames of a native host: its acceptance, the
updates of its reply and its outcome.
-/

namespace Message

open Json Result

inductive RunKind where
  | prompt
  | compact
  deriving DecidableEq, Repr

def RunKind.command : RunKind → String
  | .prompt => "prompt"
  | .compact => "compact"

inductive RunOutcome where
  | completed
  | cancelled
  | tokenLimit
  deriving DecidableEq, Repr

structure RunProgress where
  deltas : List Value
  outcome : Option (Except String RunOutcome)

def RunProgress.default : RunProgress := ⟨[], none⟩

structure RunTracker where
  id : Value
  kind : RunKind
  compactSettled : Bool
  accepted : Bool
  messages : MessageProjection
  streamError : Option String

namespace RunTracker

def forKind (id : Value) (kind : RunKind) : RunTracker :=
  ⟨id, kind, false, false, MessageProjection.default, none⟩

def new (id : Value) : RunTracker := forKind id .prompt

def requireMessageIds (t : RunTracker) (required : Bool) : RunTracker :=
  { t with messages := t.messages.requireMessageIds required }

/-- The frame answers the request of the run. -/
def answers (t : RunTracker) (event : Value) : Bool :=
  (event.index "type").asStr == some "response" && (event.index "id").beq t.id

/-- The frame accepts a run; a successful response may also say that it does not. -/
def accepts (event : Value) : Bool :=
  (event.index "success").asBool == some true &&
    ((event.index "data").index "accepted").asBool == some true

def response (t : RunTracker) (event : Value) (cancelled : Bool) : RunTracker × RunProgress :=
  if (event.index "success").asBool ≠ some true then
    let outcome := if cancelled then .ok .cancelled
      else .error (((event.index "error").asStr).getD s!"agent rejected the {t.kind.command}")
    (t, ⟨[], some outcome⟩)
  else if accepts event = false then
    (t, ⟨[], some (.error s!"rpi did not acknowledge {t.kind.command} acceptance")⟩)
  else ({ t with accepted := true }, .default)

def isSettled (event : Value) : Bool := (event.index "type").asStr == some "agent_settled"

/-- The session is over. -/
def isEnd (event : Value) : Bool :=
  match (event.index "type").asStr with
  | some "session_end" | some "host_closed" => true
  | _ => false

def outcomeName (event : Value) : String := ((event.index "outcome").asStr).getD "unknown"

def notEmpty (text : Option String) : Option String := text.filter (· != "")

def compactOutcome (event : Value) (cancelled : Bool) : Except String RunOutcome :=
  match outcomeName event with
  | "compacted" | "declined" => .ok .completed
  | "aborted" => .ok .cancelled
  | "failed" =>
    if cancelled then .ok .cancelled
    else .error ((notEmpty (event.index "error").asStr).getD "rpi compaction failed")
  | outcome => .error s!"rpi compaction did not complete: {outcome}"

def compactSummary (event : Value) (cancelled : Bool) : Option String :=
  let summary := if cancelled && outcomeName event == "failed" then none
    else notEmpty (event.index "summary").asStr
  summary.or (if outcomeName event = "declined" then some "Nothing to compact yet." else none)

def observeCompact (t : RunTracker) (event : Value) (cancelled : Bool) :
    RunTracker × RunProgress :=
  if isSettled event && t.accepted then
    let deltas := (compactSummary event cancelled).toList.map fun summary => update .text summary
    ({ t with compactSettled := true }, ⟨deltas, some (compactOutcome event cancelled)⟩)
  else if isEnd event then
    (t, ⟨[], some (.error "rpi session ended before compaction completed")⟩)
  else (t, .default)

def promptOutcome (messages : MessageProjection) (event : Value) : Except String RunOutcome :=
  match outcomeName event with
  | "aborted" => .ok .cancelled
  | "failed" =>
    .error (((notEmpty (event.index "error").asStr).or messages.error).getD
      "rpi run failed before completing the reply; check the agent stderr log")
  | "completed" => if messages.stopReason = some "length" then .ok .tokenLimit else .ok .completed
  | outcome => .error s!"rpi run did not complete: {outcome}"

/-- The settlement of a prompt, which takes a pending stream error with it. -/
def settle (t : RunTracker) (event : Value) : RunTracker × RunProgress :=
  match t.streamError with
  | some error => ({ t with streamError := none }, ⟨[], some (.error error)⟩)
  | none =>
    match (event.index "finalText").asStr with
    | none => (t, ⟨[], some (promptOutcome t.messages event)⟩)
    | some text =>
      match t.messages.complete text with
      | (messages, .error error) => ({ t with messages }, ⟨[], some (.error error)⟩)
      | (messages, .ok delta) =>
        ({ t with messages }, ⟨delta.toList, some (promptOutcome messages event)⟩)

/-- A frame of the reply; a poisoned stream emits no further updates. -/
def project (t : RunTracker) (event : Value) : RunTracker × RunProgress :=
  match t.streamError with
  | some _ => (t, .default)
  | none =>
    match t.messages.event event with
    | (messages, .ok deltas) => ({ t with messages }, ⟨deltas, none⟩)
    | (messages, .error error) => ({ t with messages, streamError := some error }, .default)

def observePrompt (t : RunTracker) (event : Value) : RunTracker × RunProgress :=
  if isSettled event && t.accepted then t.settle event
  else if isEnd event then
    (t, ⟨[], some (.error "rpi session ended before the prompt completed")⟩)
  else t.project event

def observe (t : RunTracker) (event : Value) (cancelled : Bool) : RunTracker × RunProgress :=
  if t.compactSettled then (t, .default)
  else if t.answers event then t.response event cancelled
  else
    match t.kind with
    | .compact => t.observeCompact event cancelled
    | .prompt => t.observePrompt event

end RunTracker

/-! ### The text of updates -/

/-- The text an update adds to the reply; a thought adds none. -/
def textDelta? (update : Value) : String :=
  if (update.index "kind").asStr = some "text" then ((update.index "text").asStr).getD "" else ""

def textOf (updates : List Value) : String := String.join (updates.map textDelta?)

@[simp] lemma textOf_nil : textOf [] = "" := rfl

lemma textOf_append (updates updates' : List Value) :
    textOf (updates ++ updates') = textOf updates ++ textOf updates' := by
  rw [textOf, List.map_append, String.join_append, textOf, textOf]

lemma textOf_singleton (update : Value) : textOf [update] = textDelta? update := by
  simp [textOf]

namespace MessageProjection

variable {p p' : MessageProjection} {frame : Value}

/-- An assistant message starts. -/
def startsMessage (event : Value) : Bool :=
  (event.index "type").asStr == some "message_start" &&
    ((event.index "message").index "role").asStr == some "assistant"

/-- What an update of a kind adds to the text of the reply. -/
def added (content : Content) (text : String) : String :=
  match content with
  | .text => text
  | .thinking => ""

lemma textDelta?_update (content : Content) (text : String) :
    textDelta? (update content text) = added content text := by
  cases content <;> rfl

lemma textDelta?_withIdentity (p : MessageProjection) (update : Value) :
    textDelta? (p.withIdentity update) = textDelta? update := by
  unfold withIdentity
  split
  · rw [textDelta?, Value.index_set_ne _ (by decide), Value.index_set_ne _ (by decide), textDelta?]
  · rfl

lemma textOf_withIdentity (p : MessageProjection) (updates : List Value) :
    textOf (updates.map p.withIdentity) = textOf updates := by
  rw [textOf, List.map_map, textOf]
  congr 1
  refine List.map_congr_left fun update _ => ?_
  exact textDelta?_withIdentity p update

lemma text_setSent (p : MessageProjection) (content : Content) (text : String) :
    (p.setSent content (p.sent content ++ text)).text = p.text ++ added content text := by
  cases content with
  | text => rfl
  | thinking => exact (String.append_empty).symm

lemma text_delta (p : MessageProjection) (event : Value) :
    (p.delta event).1.text = p.text ++ textOf (p.delta event).2 := by
  unfold delta
  split
  · rename_i content text _
    rw [textOf_singleton, textDelta?_withIdentity, textDelta?_update]
    exact text_setSent p content text
  · simp

lemma text_appendParts {ending : Bool} {blocks : List Value} {content : Content}
    {updates : List Value} (h : p.appendParts ending blocks content = .ok (p', updates)) :
    p'.text = p.text ++ textOf updates := by
  unfold appendParts at h
  split at h
  · obtain ⟨rfl, rfl⟩ := Prod.mk.inj (Except.ok.inj h)
    simp
  · obtain ⟨⟨sent, added⟩, happend, h⟩ := bind_eq_ok.mp h
    obtain ⟨rfl, rfl⟩ := Prod.mk.inj (Except.ok.inj h)
    rcases appendSnapshot_eq_ok happend with ⟨rfl, rfl, -⟩ | ⟨suffix, -, rfl, -, rfl⟩
    · show (p.setSent content (p.sent content)).text = _
      simp
    · rw [Option.toList_some, textOf_singleton, textDelta?_update]
      exact text_setSent p content suffix

lemma text_appendContents {ending : Bool} {blocks : List Value} {contents : List Content}
    {updates : List Value} (h : p.appendContents ending blocks contents = (p', .ok updates)) :
    p'.text = p.text ++ textOf updates := by
  induction contents generalizing p p' updates with
  | nil =>
    obtain ⟨rfl, hnil⟩ := Prod.mk.inj h
    rw [← Except.ok.inj hnil]
    simp
  | cons content contents ih =>
    unfold appendContents at h
    split at h
    · cases h
    · rename_i q first hparts
      rcases hrest : q.appendContents ending blocks contents with ⟨q', e | rest⟩
      · rw [hrest] at h
        cases h
      · rw [hrest] at h
        obtain ⟨rfl, hupdates⟩ := Prod.mk.inj h
        rw [← Except.ok.inj hupdates, textOf_append, ih hrest, text_appendParts hparts,
          String.append_assoc]

lemma text_snapshot {ending : Bool} {updates : List Value}
    (h : p.snapshot frame ending = (p', .ok updates)) : p'.text = p.text ++ textOf updates := by
  have hfinish : (if ending then p.finish (frame.index "message") else p).text = p.text := by
    split <;> rfl
  unfold snapshot at h
  dsimp only at h
  generalize (if ending then p.finish (frame.index "message") else p) = q at h hfinish
  rw [← hfinish]
  split at h
  · obtain ⟨rfl, hupdates⟩ := Prod.mk.inj h
    rw [← Except.ok.inj hupdates]
    exact text_delta q frame
  · rename_i blocks _
    rcases hcontents : q.appendContents ending blocks [.thinking, .text] with ⟨q', e | first⟩
    · rw [hcontents] at h
      cases h
    · rw [hcontents] at h
      have hfirst := text_appendContents hcontents
      by_cases hfalls : fallsBack ending frame blocks = true
      · simp only [hfalls, if_true] at h
        obtain ⟨rfl, hupdates⟩ := Prod.mk.inj h
        rw [← Except.ok.inj hupdates, textOf_withIdentity, textOf_append, text_delta, hfirst,
          String.append_assoc]
      · simp only [hfalls, Bool.false_eq_true, if_false] at h
        obtain ⟨rfl, hupdates⟩ := Prod.mk.inj h
        rw [← Except.ok.inj hupdates, textOf_withIdentity, textOf_append, hfirst]
        simp

lemma text_identify {start : Bool} (h : p.identify frame start = .ok p') :
    p'.text = if start = true then "" else p.text := by
  obtain ⟨messageId, rfl⟩ := identify_eq_ok h
  cases start <;> rfl

/-- What a frame adds to the text is what it emits; the first frame of a message starts over. -/
lemma text_event {updates : List Value} (h : p.event frame = (p', .ok updates)) :
    p'.text = (if startsMessage frame = true then "" else p.text) ++ textOf updates := by
  unfold event at h
  dsimp only at h
  split at h
  · rename_i hmessage
    split at h
    · cases h
    · rename_i q hidentify
      have htext := text_identify hidentify
      split at h
      · rename_i hassistant
        rw [text_snapshot h, htext, startsMessage, hassistant, Bool.and_true]
      · rename_i hassistant
        obtain ⟨rfl, hupdates⟩ := Prod.mk.inj h
        have hupdate := hmessage.2.resolve_left hassistant
        have hstart : startsMessage frame = false := by
          rw [startsMessage, hupdate]
          rfl
        have htype : ((frame.index "type").asStr == some "message_start") = false := by
          rw [hupdate]
          rfl
        rw [← Except.ok.inj hupdates, text_delta, htext, hstart, htype]
  · rename_i hmessage
    obtain ⟨rfl, hupdates⟩ := Prod.mk.inj h
    have hstart : startsMessage frame = false := by
      rw [Bool.eq_false_iff]
      intro hstart
      rw [startsMessage, Bool.and_eq_true, beq_iff_eq] at hstart
      exact hmessage ⟨by rw [hstart.1]; rfl, .inl hstart.2⟩
    rw [← Except.ok.inj hupdates, text_delta, hstart]
    rfl

/-- The final text repairs the tail of what has been sent. -/
lemma text_complete {finalText : String} {update : Option Value}
    (h : p.complete finalText = (p', .ok update)) :
    p'.text = p.text ++ textOf update.toList ∧ ∃ rest, p'.text = finalText ++ rest := by
  unfold complete at h
  split at h
  · cases h
  · split at h
    · cases h
    · rename_i text added happend
      obtain ⟨rfl, hupdate⟩ := Prod.mk.inj h
      rw [← Except.ok.inj hupdate]
      rcases appendSnapshot_eq_ok happend with ⟨rfl, rfl, hdelayed⟩ | ⟨suffix, -, rfl, hcomplete, rfl⟩
      · exact ⟨by simp, hdelayed⟩
      · refine ⟨?_, "", by simpa using hcomplete⟩
        rw [Option.map_some, Option.toList_some, textOf_singleton, textDelta?_withIdentity]
        rfl

end MessageProjection

end Message
