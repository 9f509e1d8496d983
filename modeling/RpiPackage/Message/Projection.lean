import RpiPackage.Message.Live

/-!
# The message projection

Turns the frames of a native stream into updates of the reply. Deltas are appended; a snapshot is
cumulative, so what it adds to the text sent so far is sent.
-/

namespace Message

open Json Result

/-- The two kinds of content that are streamed, each under one name for its block, its field and
its updates. -/
inductive Content where
  | thinking
  | text
  deriving DecidableEq, Repr

def Content.name : Content → String
  | .thinking => "thinking"
  | .text => "text"

structure MessageProjection where
  text : String
  thinking : String
  stopReason : Option String
  error : Option String
  repaired : Nat
  messageId : Option String
  messageIdsRequired : Bool

def update (kind : Content) (text : String) : Value :=
  .object [("kind", .string kind.name), ("text", .string text)]

def appendSnapshot (sent complete : String) (variant : Content) :
    Except String (String × Option Value) :=
  match Rust.stripPrefix complete sent with
  | some suffix =>
    if suffix = "" then .ok (sent, none) else .ok (complete, some (update variant suffix))
  | none =>
    -- a delayed partial snapshot
    if Rust.startsWith sent complete then .ok (sent, none)
    else .error "rpi final message differs from the streamed text; reload this session to recover the saved reply"

def isMessage (kind : Option String) : Bool :=
  match kind with
  | some "message_start" | some "message_update" | some "message_end" => true
  | _ => false

/-- The content a delta belongs to. -/
def deltaContent (event : Value) : Option Content :=
  match (event.index "eventType").asStr with
  | some "text_delta" => some .text
  | some "thinking_delta" => some .thinking
  | _ => none

def isBlock (content : Content) (block : Value) : Bool :=
  (block.index "type").asStr == some content.name

/-- The texts of the blocks of one kind. -/
def parts (blocks : List Value) (content : Content) : List String :=
  (blocks.filter (isBlock content)).filterMap fun block => (block.index content.name).asStr

namespace MessageProjection

def default : MessageProjection := ⟨"", "", none, none, 0, none, false⟩

def requireMessageIds (p : MessageProjection) (required : Bool) : MessageProjection :=
  { p with messageIdsRequired := required }

def sent (p : MessageProjection) : Content → String
  | .thinking => p.thinking
  | .text => p.text

def setSent (p : MessageProjection) (content : Content) (sent : String) : MessageProjection :=
  match content with
  | .thinking => { p with thinking := sent }
  | .text => { p with text := sent }

def incomingId (event : Value) : Except String (Option String) :=
  match event.get "messageId" with
  | none => .ok none
  | some value => some <$> validatedMessageId value

/-- Another id, or a first id after some content. -/
def changesId (p : MessageProjection) (id : String) : Bool :=
  p.messageId.any (· != id) || (p.messageId.isNone && (p.text != "" || p.thinking != ""))

def identify (p : MessageProjection) (event : Value) (start : Bool) :
    Except String MessageProjection := do
  let incoming ← incomingId event
  failIf ((p.messageIdsRequired && incoming.isNone) = true)
    "rpi assistant message is missing its native messageId"
  failIf ((!start && incoming.any p.changesId) = true)
    "rpi assistant messageId changed within a message"
  let p := if start then
      { default with repaired := p.repaired, messageIdsRequired := p.messageIdsRequired }
    else p
  return { p with messageId := incoming.or p.messageId }

def withIdentity (p : MessageProjection) (update : Value) : Value :=
  match p.messageId with
  | some id => update.set "messageId" (.string id)
  | none => update

/-- A delta that has something to append. -/
def deltaText (event : Value) : Option (Content × String) :=
  if (event.index "type").asStr = some "message_update" then
    match deltaContent event, (event.index "delta").asStr with
    | some content, some text => if text = "" then none else some (content, text)
    | _, _ => none
  else none

def delta (p : MessageProjection) (event : Value) : MessageProjection × List Value :=
  match deltaText event with
  | some (content, text) =>
    let p := p.setSent content (p.sent content ++ text)
    (p, [p.withIdentity (update content text)])
  | none => (p, [])

/-- The bytes an update repairs at the end of a message. -/
def updateLen (update : Option Value) : Nat :=
  match update with
  | some update => (((update.index "text").asStr).getD "").utf8ByteSize
  | none => 0

def appendParts (p : MessageProjection) (ending : Bool) (blocks : List Value)
    (content : Content) : Except String (MessageProjection × List Value) :=
  if parts blocks content = [] then .ok (p, [])
  else do
    let (sent, update) ← appendSnapshot (p.sent content) (String.join (parts blocks content)) content
    let repaired := if ending then p.repaired + updateLen update else p.repaired
    return ({ p.setSent content sent with repaired }, update.toList)

/-- An error leaves what the kinds before it have appended. -/
def appendContents (p : MessageProjection) (ending : Bool) (blocks : List Value) :
    List Content → MessageProjection × Except String (List Value)
  | [] => (p, .ok [])
  | content :: contents =>
    match p.appendParts ending blocks content with
    | .error e => (p, .error e)
    | .ok (p, updates) =>
      let (p, rest) := p.appendContents ending blocks contents
      (p, (updates ++ ·) <$> rest)

/-- The end of a message tells how it came about. -/
def finish (p : MessageProjection) (message : Value) : MessageProjection :=
  { p with
    stopReason := (message.index "stopReason").asStr
    error := (message.index "errorMessage").asStr.filter (· != "") }

/-- The delta of a snapshot counts when the snapshot has no block of its kind. -/
def fallsBack (ending : Bool) (event : Value) (blocks : List Value) : Bool :=
  !ending && !blocks.any fun block =>
    (block.index "type").asStr == some (((deltaContent event).map Content.name).getD "")

def snapshot (p : MessageProjection) (event : Value) (ending : Bool) :
    MessageProjection × Except String (List Value) :=
  let message := event.index "message"
  let p := if ending then p.finish message else p
  match (message.index "content").asArray with
  | none =>
    let (p, updates) := p.delta event
    (p, .ok updates)
  | some blocks =>
    match p.appendContents ending blocks [.thinking, .text] with
    | (p, .error e) => (p, .error e)
    | (p, .ok updates) =>
      let (p, fallback) := if fallsBack ending event blocks then p.delta event else (p, [])
      (p, .ok ((updates ++ fallback).map p.withIdentity))

def event (p : MessageProjection) (event : Value) :
    MessageProjection × Except String (List Value) :=
  let kind := (event.index "type").asStr
  let assistant := ((event.index "message").index "role").asStr == some "assistant"
  if isMessage kind = true ∧ (assistant = true ∨ kind = some "message_update") then
    match p.identify event (kind == some "message_start") with
    | .error e => (p, .error e)
    | .ok p =>
      if assistant then p.snapshot event (kind == some "message_end")
      else
        let (p, updates) := p.delta event
        (p, .ok updates)
  else
    let (p, updates) := p.delta event
    (p, .ok updates)

def complete (p : MessageProjection) (finalText : String) :
    MessageProjection × Except String (Option Value) :=
  if p.messageIdsRequired = true ∧ finalText ≠ "" ∧ p.messageId = none then
    (p, .error "rpi finalText has no validated assistant messageId")
  else
    match appendSnapshot p.text finalText .text with
    | .error e => (p, .error e)
    | .ok (text, update) =>
      let p := { p with text, repaired := p.repaired + updateLen update }
      (p, .ok (update.map p.withIdentity))

/-! ### Lemmas -/

variable {p : MessageProjection}

@[simp] lemma sent_setSent (p : MessageProjection) (content : Content) (sent : String) :
    (p.setSent content sent).sent content = sent := by
  cases content <;> rfl

lemma sent_setSent_ne {content other : Content} (h : other ≠ content) (sent : String) :
    (p.setSent content sent).sent other = p.sent other := by
  cases content <;> cases other <;> first | rfl | exact absurd rfl h

@[simp] lemma setSent_sent (p : MessageProjection) (content : Content) :
    p.setSent content (p.sent content) = p := by
  cases content <;> rfl

@[simp] lemma messageId_setSent (p : MessageProjection) (content : Content) (sent : String) :
    (p.setSent content sent).messageId = p.messageId := by
  cases content <;> rfl

@[simp] lemma repaired_setSent (p : MessageProjection) (content : Content) (sent : String) :
    (p.setSent content sent).repaired = p.repaired := by
  cases content <;> rfl

@[simp] lemma sent_repaired (p : MessageProjection) (repaired : Nat) (content : Content) :
    sent { p with repaired := repaired } content = p.sent content := by
  cases content <;> rfl

@[simp] lemma sent_finish (p : MessageProjection) (message : Value) (content : Content) :
    (p.finish message).sent content = p.sent content := by
  cases content <;> rfl

lemma appendSnapshot_append (sent suffix : String) (variant : Content) :
    appendSnapshot sent (sent ++ suffix) variant =
      .ok (sent ++ suffix, if suffix = "" then none else some (update variant suffix)) := by
  rw [appendSnapshot, Rust.stripPrefix_append]
  by_cases h : suffix = ""
  · simp [h]
  · simp [h]

/-- A snapshot that has been overtaken adds nothing. -/
lemma appendSnapshot_delayed (complete rest : String) (variant : Content) :
    appendSnapshot (complete ++ rest) complete variant = .ok (complete ++ rest, none) := by
  rw [appendSnapshot]
  rcases hstrip : Rust.stripPrefix complete (complete ++ rest) with _ | suffix
  · rw [Rust.startsWith_iff.mpr ⟨rest, rfl⟩]
    rfl
  · have hsuffix : complete = complete ++ (rest ++ suffix) := by
      rw [← String.append_assoc]
      exact Rust.stripPrefix_eq_some.mp hstrip
    have hnil : suffix = "" := by
      have hlength := congrArg String.length hsuffix
      simp only [String.length_append] at hlength
      rw [← String.length_eq_zero_iff]
      omega
    simp [hnil]

/-- What a snapshot adds is the text of its update. -/
lemma appendSnapshot_eq_ok {sent complete sent' : String} {variant : Content}
    {added : Option Value} (h : appendSnapshot sent complete variant = .ok (sent', added)) :
    (sent' = sent ∧ added = none ∧ ∃ rest, sent = complete ++ rest) ∨
      ∃ suffix, suffix ≠ "" ∧ sent' = sent ++ suffix ∧ sent' = complete ∧
        added = some (update variant suffix) := by
  unfold appendSnapshot at h
  rcases hstrip : Rust.stripPrefix complete sent with _ | suffix
  · simp only [hstrip] at h
    split at h
    · rename_i hdelayed
      obtain ⟨rfl, rfl⟩ := Prod.mk.inj (Except.ok.inj h)
      exact .inl ⟨rfl, rfl, Rust.startsWith_iff.mp hdelayed⟩
    · cases h
  · have hcomplete := Rust.stripPrefix_eq_some.mp hstrip
    simp only [hstrip] at h
    split at h
    · rename_i hsuffix
      obtain ⟨rfl, rfl⟩ := Prod.mk.inj (Except.ok.inj h)
      exact .inl ⟨rfl, rfl, "", by rw [hcomplete, hsuffix]; simp⟩
    · rename_i hsuffix
      obtain ⟨rfl, rfl⟩ := Prod.mk.inj (Except.ok.inj h)
      exact .inr ⟨suffix, hsuffix, hcomplete, rfl, rfl⟩

/-- An identification keeps what has been sent, unless it starts a message. -/
lemma identify_eq_ok {frame : Value} {start : Bool} {p' : MessageProjection}
    (h : p.identify frame start = .ok p') :
    ∃ messageId, p' =
      { (if start then { default with
            repaired := p.repaired, messageIdsRequired := p.messageIdsRequired } else p) with
        messageId } := by
  simp only [identify, bind_eq_ok, failIf_eq_ok, pure_eq_ok, Except.ok.injEq] at h
  obtain ⟨incoming, -, -, -, -, -, rfl⟩ := h
  exact ⟨_, rfl⟩

lemma sent_identify {frame : Value} {p' : MessageProjection}
    (h : p.identify frame false = .ok p') (content : Content) : p'.sent content = p.sent content := by
  obtain ⟨messageId, rfl⟩ := identify_eq_ok h
  cases content <;> rfl

lemma sent_identify_start {frame : Value} {p' : MessageProjection}
    (h : p.identify frame true = .ok p') (content : Content) : p'.sent content = "" := by
  obtain ⟨messageId, rfl⟩ := identify_eq_ok h
  cases content <;> rfl

end MessageProjection

end Message
