import RpiPackage.Lib.Json
import RpiPackage.Lib.Result
import RpiPackage.Lib.Rust

/-!
# The live message

A compact native stream carries the deltas of an assistant message only. The live projection keeps
the current message, applies each delta to the block it addresses and puts the resulting snapshot
on the frame.
-/

namespace Message

open Json Result

structure LiveMessageProjection where
  message : Option Value
  messageId : Option String
  /-- The arguments of the tool calls as far as they have arrived, by content index. -/
  toolJson : List (Nat × String)

def LiveMessageProjection.default : LiveMessageProjection := ⟨none, none, []⟩

def validatedMessageId (value : Value) : Except String String :=
  okOr (value.asStr.filter fun id =>
      id != "" && decide (id.utf8ByteSize ≤ 256) && !id.toList.any Rust.isControl)
    "rpi assistant messageId must be nonempty, at most 256 bytes and contain no controls"

/-- The content block a frame is about; every `u64` is a `usize`. -/
def contentIndex (event : Value) : Option Nat :=
  ((event.index "contentIndex").asU64.or
    ((event.index "assistantMessageEvent").index "contentIndex").asU64).map UInt64.toNat

def updateKind (event : Value) : String :=
  ((event.index "eventType").asStr.or
    ((event.index "assistantMessageEvent").index "type").asStr).getD ""

/-- The type of block a delta extends, and the field that it extends. -/
def deltaField (kind : String) : Option (String × String) :=
  match kind with
  | "text_delta" => some ("text", "text")
  | "thinking_delta" => some ("thinking", "thinking")
  | "toolcall_delta" => some ("toolCall", "arguments")
  | _ => none

namespace LiveMessageProjection

/-- A frame of another message is left alone. -/
def identify (live : LiveMessageProjection) (event : Value) : Option LiveMessageProjection :=
  match event.get "messageId" with
  | none => some live
  | some rawId =>
    match validatedMessageId rawId with
    | .error _ => none
    | .ok id =>
      if live.messageId.any (· != id) || (live.message.isSome && live.messageId.isNone) then none
      else some { live with messageId := some id }

/-- Whether a native snapshot has established a tool call at the index. -/
def knownTool (live : LiveMessageProjection) (index : Nat) : Bool :=
  (live.message.bind fun message => (message.index "content").asArray).any fun blocks =>
    blocks[index]?.any fun block => (block.index "type").asStr == some "toolCall"

def trackTool (live : LiveMessageProjection) (index : Option Nat) (kind : String)
    (event : Value) : LiveMessageProjection :=
  match index with
  | none => live
  | some index =>
    let others := live.toolJson.filter fun entry => entry.1 != index
    if kind = "toolcall_start" ∨ kind = "toolcall_end" then { live with toolJson := others }
    else if kind = "toolcall_delta" then
      match (event.index "delta").asStr with
      | some delta =>
        if live.knownTool index then
          let raw := (live.toolJson.lookup index).getD ""
          { live with toolJson := others ++ [(index, raw ++ delta)] }
        else live
      | none => live
    else live

-- The parser of `serde_json`.
variable (fromStr : String → Option Value)

/-- A tool call takes its identity from the frame, and its arguments once they parse. -/
def extendTool (live : LiveMessageProjection) (index : Nat) (event block : Value) : Value :=
  let nested := event.index "assistantMessageEvent"
  let block :=
    match (nested.index "id").asStr with
    | some id => block.set "id" (.string id)
    | none => block
  let block :=
    match (nested.index "toolName").asStr with
    | some name => block.set "name" (.string name)
    | none => block
  match (live.toolJson.lookup index).bind fromStr with
  | some arguments => block.set "arguments" arguments
  | none => block

/-- The block after a delta; a block without text takes none. -/
def extendBlock (live : LiveMessageProjection) (index : Nat) (event : Value) (delta : String)
    (blockType field : String) (block : Value) : Option Value :=
  if blockType = "toolCall" then some (live.extendTool fromStr index event block)
  else
    match (block.index field).asStr with
    | none => none
    | some text => some (block.set field (.string (text ++ delta)))

def applyDelta (live : LiveMessageProjection) (index : Option Nat) (kind : String)
    (event : Value) : LiveMessageProjection × Value :=
  match deltaField kind, index, (event.index "delta").asStr, live.message with
  | some (blockType, field), some index, some delta, some message =>
    match (message.index "content").asArray with
    | none =>
      -- the mutable access to an absent field creates it
      let message := if (message.get "content").isNone then message.set "content" .null else message
      ({ live with message := some message }, event)
    | some blocks =>
      match blocks[index]? with
      | none => (live, event)
      | some block =>
        if (block.index "type").asStr ≠ some blockType then (live, event)
        else
          match live.extendBlock fromStr index event delta blockType field block with
          | none => (live, event)
          | some block =>
            let message := message.set "content" (.array (blocks.set index block))
            ({ live with message := some message }, event.set "message" message)
  | _, _, _, _ => (live, event)

def messageFrame (live : LiveMessageProjection) (event : Value) : LiveMessageProjection × Value :=
  let type := (event.index "type").asStr
  let index := contentIndex event
  let kind := updateKind event
  let live := if type = some "message_start" then default else live
  match live.identify event with
  | none => (live, event)
  | some live =>
    let live := live.trackTool index kind event
    let message := event.index "message"
    if (message.index "role").asStr = some "assistant" then
      if type = some "message_end" then (default, event)
      else ({ live with message := some message }, event)
    else if type ≠ some "message_update" ∨ message.isNull = false then (live, event)
    else live.applyDelta fromStr index kind event

def project (live : LiveMessageProjection) (event : Value) : LiveMessageProjection × Value :=
  match (event.index "type").asStr with
  | some "message_start" | some "message_update" | some "message_end" =>
    live.messageFrame fromStr event
  | some "agent_start" | some "retry_scheduled" | some "agent_settled" | some "host_closed" =>
    (default, event)
  | _ => (live, event)

/-! ### What a frame does -/

variable {live : LiveMessageProjection} {event : Value}

lemma message_trackTool (index : Option Nat) (kind : String) (event : Value) :
    (live.trackTool index kind event).message = live.message := by
  unfold trackTool
  split
  · rfl
  · dsimp only
    split
    · rfl
    · split
      · split
        · split <;> rfl
        · rfl
      · rfl

lemma message_identify {live' : LiveMessageProjection} (h : live.identify event = some live') :
    live'.message = live.message := by
  unfold identify at h
  split at h
  · obtain rfl := Option.some.inj h
    rfl
  · split at h
    · cases h
    · split at h
      · cases h
      · obtain rfl := Option.some.inj h
        rfl

/-- A frame that carries no other identity than the current one is only refused for an identity
that is no valid one. -/
lemma identify_eq_none (h : live.identify event = none)
    (hid : ∀ rawId id, event.get "messageId" = some rawId → validatedMessageId rawId = .ok id →
      live.messageId = some id) :
    ∃ rawId e, event.get "messageId" = some rawId ∧ validatedMessageId rawId = .error e := by
  unfold identify at h
  split at h
  · cases h
  · rename_i rawId hraw
    split at h
    · rename_i e herror
      exact ⟨rawId, e, hraw, herror⟩
    · rename_i id hok
      simp [hid rawId id hraw hok] at h

lemma extendTool_type (live : LiveMessageProjection) (index : Nat) (event block : Value) :
    (live.extendTool fromStr index event block).index "type" = block.index "type" := by
  unfold extendTool
  dsimp only
  split <;> split <;> split <;> simp only [Value.index_set_ne, ne_eq, String.reduceEq,
    not_false_eq_true]

lemma applyDelta_event (live : LiveMessageProjection) (index : Option Nat) (kind : String)
    (event : Value) :
    (live.applyDelta fromStr index kind event).2 = event ∨
      ∃ message, (live.applyDelta fromStr index kind event).2 = event.set "message" message := by
  unfold applyDelta
  split
  · split
    · exact .inl rfl
    · split
      · exact .inl rfl
      · split
        · exact .inl rfl
        · split
          · exact .inl rfl
          · exact .inr ⟨_, rfl⟩
  · exact .inl rfl

/-- A frame keeps its type, and its other fields, but for the message it is given. -/
lemma project_event (live : LiveMessageProjection) (event : Value) :
    (live.project fromStr event).2 = event ∨
      ∃ message, (live.project fromStr event).2 = event.set "message" message := by
  have hframe : (live.messageFrame fromStr event).2 = event ∨
      ∃ message, (live.messageFrame fromStr event).2 = event.set "message" message := by
    unfold messageFrame
    dsimp only
    split
    · exact .inl rfl
    · split
      · split <;> exact .inl rfl
      · split
        · exact .inl rfl
        · exact applyDelta_event fromStr _ _ _ event
  unfold project
  split
  · exact hframe
  · exact hframe
  · exact hframe
  · exact .inl rfl
  · exact .inl rfl
  · exact .inl rfl
  · exact .inl rfl
  · exact .inl rfl

end LiveMessageProjection

end Message
