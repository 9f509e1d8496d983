import RpiPackage.Antigravity.Usage

/-!
# The state machine of the stream

Each chunk adds to the message and tells events of what it adds. What a chunk tells is listed with
the state in which it is told, so that a sink that refuses an event stops the machine there.
-/

namespace Antigravity

open Json

structure ToolCall where
  id : Value
  name : Value
  arguments : Value
  thoughtSignature : Option Value
  deriving Repr

inductive Block where
  | text (text : String) (textSignature : Option Value)
  | thinking (thinking : String) (thinkingSignature : Option Value)
  | toolCall (call : ToolCall)
  deriving Repr

inductive StopReason where
  | stop
  | length
  | toolUse
  | error
  | aborted
  deriving DecidableEq, Repr

/-- The message, which each event carries. -/
structure Output where
  api : Value
  provider : Value
  model : Value
  content : List Block
  usage : Usage
  stopReason : StopReason
  errorMessage : Option String
  timestamp : Int
  deriving Repr

inductive Event where
  | start (partialMessage : Output)
  | textStart (contentIndex : Nat) (partialMessage : Output)
  | textDelta (contentIndex : Nat) (delta : String) (partialMessage : Output)
  | textEnd (contentIndex : Nat) (content : String) (partialMessage : Output)
  | thinkingStart (contentIndex : Nat) (partialMessage : Output)
  | thinkingDelta (contentIndex : Nat) (delta : String) (partialMessage : Output)
  | thinkingEnd (contentIndex : Nat) (content : String) (partialMessage : Output)
  | toolcallStart (contentIndex : Nat) (partialMessage : Output)
  | toolcallEnd (contentIndex : Nat) (toolCall : ToolCall) (partialMessage : Output)
  | done (reason : StopReason) (message : Output)
  | error (reason : StopReason) (error : Output)
  deriving Repr

inductive Flow where
  | continue
  | trailingUsage
  | complete
  deriving DecidableEq, Repr

structure State where
  output : Output
  model : Value
  textIndex : Option Nat
  thinkingIndex : Option Nat
  pendingSignature : Option Value
  terminalReason : Option String

/-- An event, and the state in which it is told. -/
structure Told where
  event : Event
  state : State

/-- Why a computation ends early. -/
inductive Stop where
  | failed (error : String)
  | panicked

/-- What a computation tells, the state that it leaves, and how it ends. -/
structure Telling (α : Type) where
  told : List Told
  state : State
  result : Except Stop α

/-- A computation that always goes on. -/
abbrev Spoken := List Told × State

/-- One computation after another. -/
def Spoken.andThen (before : Spoken) (next : State → Spoken) : Spoken :=
  (before.1 ++ (next before.2).1, (next before.2).2)

namespace State

def new (model : Value) (timestamp : Int) : State where
  output :=
    { api := model.index "api"
      provider := model.index "provider"
      model := model.index "id"
      content := []
      usage := .new
      stopReason := .stop
      errorMessage := none
      timestamp }
  model
  textIndex := none
  thinkingIndex := none
  pendingSignature := none
  terminalReason := none

def tell (s : State) (event : Event) : Spoken := ([⟨event, s⟩], s)

def setContent (s : State) (content : List Block) : State :=
  { s with output := { s.output with content } }

def setUsage (s : State) (usage : Usage) : State :=
  { s with output := { s.output with usage } }

/-! ### The blocks

An index in the state is always that of a block of its kind, and the other blocks are never asked. -/

def textAt (s : State) (index : Nat) : String :=
  match s.output.content[index]? with
  | some (.text text _) => text
  | _ => ""

def thinkingAt (s : State) (index : Nat) : String :=
  match s.output.content[index]? with
  | some (.thinking thinking _) => thinking
  | _ => ""

def signText (signature : Value) : Block → Block
  | .text text _ => .text text (some signature)
  | block => block

def appendText (delta : String) : Block → Block
  | .text text signature => .text (text ++ delta) signature
  | block => block

def signThinking (signature : Value) : Block → Block
  | .thinking thinking _ => .thinking thinking (some signature)
  | block => block

def appendThinking (delta : String) : Block → Block
  | .thinking thinking signature => .thinking (thinking ++ delta) signature
  | block => block

def closeText (s : State) : Spoken :=
  match s.textIndex with
  | some index =>
    ({ s with textIndex := none }).tell (.textEnd index (s.textAt index) s.output)
  | none => ([], s)

def closeThinking (s : State) : Spoken :=
  match s.thinkingIndex with
  | some index =>
    ({ s with thinkingIndex := none }).tell (.thinkingEnd index (s.thinkingAt index) s.output)
  | none => ([], s)

/-! ### Parts -/

/-- The signature of a part, or the one that is pending. -/
def signatureOf (s : State) (part : Value) : Option Value :=
  (((part.get "thoughtSignature").filter fun value => !value.isNull).or s.pendingSignature).filter
    truthy

/-- A signature on its own is for the open text, or for what comes. -/
def keepSignature (s : State) (signature : Value) : State :=
  match s.textIndex with
  | some index => s.setContent (s.output.content.modify index (signText signature))
  | none => { s with pendingSignature := some signature }

/-- The tool call of a part; one without an identifier gets the next one, and there is at most one
call at each index of the message. -/
def toolOf (nextId : Nat → String) (s : State) (part : Value) : ToolCall :=
  let call := part.index "functionCall"
  let field (key : String) := (call.get key).filter fun value => !value.isNull
  { id := (field "id").getD (.string ("call_" ++ nextId s.output.content.length))
    name := (field "name").getD (.string "")
    arguments := (field "args").getD (.object [])
    thoughtSignature := s.signatureOf part }

def callTool (tool : ToolCall) (s : State) : Spoken :=
  let index := s.output.content.length
  let pushed := s.setContent (s.output.content ++ [.toolCall tool])
  let spoken := (pushed.tell (.toolcallStart index pushed.output)).andThen fun s =>
    s.tell (.toolcallEnd index tool s.output)
  (spoken.1, { spoken.2 with output := { spoken.2.output with stopReason := .toolUse } })

def openThinking (part : Value) (s : State) : Spoken :=
  match s.thinkingIndex with
  | some _ => ([], s)
  | none =>
    let index := s.output.content.length
    let signature := part.index "thoughtSignature"
    let block := Block.thinking "" (if truthy signature then some signature else none)
    let opened := { s.setContent (s.output.content ++ [block]) with thinkingIndex := some index }
    opened.tell (.thinkingStart index opened.output)

def addThinking (part : Value) (text : String) (s : State) : Spoken :=
  match s.thinkingIndex with
  | none => ([], s)
  | some index =>
    let signature := part.index "thoughtSignature"
    let content := s.output.content.modify index (appendThinking text)
    let s := s.setContent
      (if truthy signature then content.modify index (signThinking signature) else content)
    s.tell (.thinkingDelta index text s.output)

def openText (part : Value) (s : State) : Spoken :=
  match s.textIndex with
  | some _ => ([], s)
  | none =>
    let index := s.output.content.length
    let block := Block.text "" (s.signatureOf part)
    let opened := { s.setContent (s.output.content ++ [block]) with
      textIndex := some index
      pendingSignature := none }
    opened.tell (.textStart index opened.output)

def addText (part : Value) (text : String) (s : State) : Spoken :=
  match s.textIndex with
  | none => ([], s)
  | some index =>
    let signature := part.index "thoughtSignature"
    let content := s.output.content.modify index (appendText text)
    let s := s.setContent
      (if truthy signature then content.modify index (signText signature) else content)
    s.tell (.textDelta index text s.output)

def isSignature (part : Value) : Bool :=
  !truthy (part.index "thought") && !truthy (part.index "functionCall") &&
    !truthy (part.index "text") && truthy (part.index "thoughtSignature")

/-- The text of a part, if it is one and is not empty. -/
def textOf (part : Value) : Option String :=
  (part.index "text").asStr.filter fun text => text ≠ ""

/-- A part of a candidate that is not `null`. -/
def part (nextId : Nat → String) (part : Value) (s : State) : Spoken :=
  if isSignature part then ([], s.keepSignature (part.index "thoughtSignature"))
  else
    let s :=
      if truthy (part.index "thought") && !truthy (part.index "text") &&
          truthy (part.index "thoughtSignature") then
        { s with pendingSignature := some (part.index "thoughtSignature") }
      else s
    if truthy (part.index "functionCall") then
      (({ s with pendingSignature := none }).closeText.andThen closeThinking).andThen
        (callTool (s.toolOf nextId part))
    else
      match textOf part with
      | none => ([], s)
      | some text =>
        if truthy (part.index "thought") then
          (s.closeText.andThen (openThinking part)).andThen (addThinking part text)
        else (s.closeThinking.andThen (openText part)).andThen (addText part text)

def parts (nextId : Nat → String) (s : State) : List Value → Telling Unit
  | [] => ⟨[], s, .ok ()⟩
  | p :: ps =>
    if p.isNull then ⟨[], s, .error (.failed "Cannot read properties of null (reading 'thought')")⟩
    else
      let spoken := s.part nextId p
      let rest := parts nextId spoken.2 ps
      { rest with told := spoken.1 ++ rest.told }

/-! ### Chunks -/

variable (F : Type) [Doubles F]

mutual
/-- The text of a value in a script. -/
def string : Value → String
  | .string s => s
  | .number n => Doubles.number (Doubles.ofNumber n : F)
  | .array xs => ",".intercalate (strings xs)
  | .object _ => "[object Object]"
  | .null => "null"
  | .bool b => if b then "true" else "false"

def strings : List Value → List String
  | [] => []
  | x :: xs => (if x.isNull then "" else string x) :: strings xs
end

/-- The failure that a chunk tells of. -/
def embeddedFailure (chunk : Value) : Option String :=
  match chunk.get "error" with
  | some (.object fields) => some (described (.object fields))
  | some (.array xs) => some (described (.array xs))
  | some error =>
    some ("Antigravity stream error" ++ ((error.asStr.map fun text => ": " ++ text).getD ""))
  | none =>
    let feedback := chunk.index "promptFeedback"
    let reason := (feedback.index "blockReason").asStr.filter fun value => value ≠ ""
    let message := (feedback.index "blockReasonMessage").asStr.filter fun value => value ≠ ""
    if reason.isNone && message.isNone then none
    else
      some ("Antigravity prompt blocked" ++ ((reason.map fun value => " (" ++ value ++ ")").getD "")
        ++ ((message.map fun value => ": " ++ value).getD ""))
where
  described (error : Value) : String :=
    let code := error.index "code"
    let labels := (error.index "status").asStr.toList ++
      (if isNumber code || isString code then ["code " ++ string F code] else [])
    let reason := ((error.index "details").asArray.getD []).findSome? fun detail =>
      (detail.index "reason").asStr
    let labels := labels ++
      (reason.filter fun reason => reason ≠ "" && !labels.contains reason).toList
    let label := if labels.isEmpty then "" else " (" ++ ", ".intercalate labels ++ ")"
    let message := (error.index "message").asStr.filter fun message => message ≠ ""
    "Antigravity stream error" ++ label ++ ((message.map fun message => ": " ++ message).getD "")

def candidateOf (chunk : Value) : Value :=
  (((chunk.index "candidates").asArray.bind fun candidates => candidates[0]?)).getD .null

def partsOf (chunk : Value) : List Value :=
  ((((candidateOf chunk).index "content").index "parts").asArray).getD []

def finishReason (chunk : Value) : Value := (candidateOf chunk).index "finishReason"

/-- Some models tell of their usage only after the end. No letter beyond ASCII has one of theirs as
its lower case. -/
def awaitsUsage (s : State) (chunk : Value) : Bool :=
  ((((s.model.index "id").asStr.getD "").toList.map Char.toLower).tails.any fun tail =>
    "gpt-oss".toList.isPrefixOf tail) && !truthy (chunk.index "usageMetadata")

/-- The candidate has ended: nothing stays open. -/
def settle (chunk : Value) (s : State) : Spoken :=
  let spoken := s.closeText.andThen closeThinking
  let output := spoken.2.output
  let stopReason : StopReason :=
    if output.stopReason = .toolUse then .toolUse
    else if (finishReason chunk).asStr = some "MAX_TOKENS" then .length else .stop
  (spoken.1, { spoken.2 with
    output := { output with stopReason }
    terminalReason := some (string F (finishReason chunk)) })

/-- What the parts have left, and the end of the candidate. -/
def afterParts (chunk : Value) (parts : Telling Unit) : Telling Flow :=
  match parts.result with
  | .error stop => ⟨parts.told, parts.state, .error stop⟩
  | .ok _ =>
    if truthy (finishReason chunk) then
      let spoken := parts.state.settle F chunk
      ⟨parts.told ++ spoken.1, spoken.2,
        .ok (if awaitsUsage spoken.2 chunk then .trailingUsage else .complete)⟩
    else ⟨parts.told, parts.state, .ok .continue⟩

def chunk (nextId : Nat → String) (s : State) (chunk : Value) : Telling Flow :=
  if chunk.isNull then ⟨[], s, .error (.failed "Cannot read properties of null (reading 'error')")⟩
  else
    match embeddedFailure F chunk with
    | some error => ⟨[], s, .error (.failed error)⟩
    | none =>
      match updateUsage F s.model s.output.usage (chunk.get "usageMetadata") with
      | none => ⟨[], s, .error .panicked⟩
      | some usage =>
        let s := s.setUsage usage
        if s.terminalReason.isSome then
          ⟨[], s, .ok (if truthy (chunk.index "usageMetadata") then .complete else .trailingUsage)⟩
        else afterParts F chunk (s.parts nextId (partsOf chunk))

/-- One chunk after another, up to the first that fails. -/
def feed (nextId : Nat → String) (s : State) : List Value → Telling Unit
  | [] => ⟨[], s, .ok ()⟩
  | c :: cs =>
    let first := s.chunk F nextId c
    match first.result with
    | .error stop => ⟨first.told, first.state, .error stop⟩
    | .ok _ =>
      let rest := feed nextId first.state cs
      { rest with told := first.told ++ rest.told }

def finish (s : State) (cancelled : Bool) : Telling Unit :=
  if cancelled then ⟨[], s, .error (.failed "Request was aborted")⟩
  else
    match s.terminalReason with
    | none =>
      ⟨[], s,
        .error (.failed "Antigravity stream ended without a terminal candidate response")⟩
    | some reason =>
      if s.output.content.isEmpty then
        ⟨[], s,
          .error (.failed ("Antigravity returned an empty response (" ++ reason ++ ")"))⟩
      else ⟨[⟨.done s.output.stopReason s.output, s⟩], s, .ok ()⟩

/-- The error that ends a message, redacted. -/
def fail (redact : String → String) (s : State) (error : String) (cancelled : Bool) : Told :=
  let output :=
    { s.output with
      stopReason := if cancelled then .aborted else .error
      errorMessage := some (redact error) }
  ⟨.error output.stopReason output, { s with output }⟩

end State

end Antigravity
