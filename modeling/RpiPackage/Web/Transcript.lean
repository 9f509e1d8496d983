import RpiPackage.Lib.First
import RpiPackage.Lib.Js

/-!
# Transcript rows of the web client

Native messages are projected into one ordered list of rows; the rows of an older page are put
before those that are there. What the platform prints of values, and the instant at which the rows
are built, are parameters.
-/

namespace Transcript

open Js (Value Numeric)

structure Platform (ν : Type*) where
  /-- `String(v)` -/
  display : Value ν → String
  /-- `Number(v)` -/
  toNumber : Value ν → ν
  toLocaleString : ν → String
  /-- `performance.now()` -/
  now : ν

/-! ### Strings -/

/-- The characters that `trim` removes. -/
def isSpace (c : Char) : Bool :=
  let n := c.toNat
  (9 ≤ n && n ≤ 13) || n == 0x20 || n == 0xA0 || n == 0x1680 || (0x2000 ≤ n && n ≤ 0x200A)
    || n == 0x2028 || n == 0x2029 || n == 0x202F || n == 0x205F || n == 0x3000 || n == 0xFEFF

/-- `!s.trim()` -/
def isBlank (s : String) : Bool := s.toList.all isSpace

def trim (s : List Char) : List Char := ((s.dropWhile isSpace).reverse.dropWhile isSpace).reverse

/-- The characters whose lower case is an ASCII letter, and no other is changed. -/
def toLower (c : Char) : Char := if c.toNat = 0x212A then 'k' else c.toLower

def isAskTool (name : String) : Bool :=
  let cs := (trim name.toList).map toLower
  let plain := if "functions.".toList.isPrefixOf cs then cs.drop 10 else cs
  [ "ask_user", "ask" ].any fun known => known.toList == plain

/-! ### Rows -/

structure ImageBlock where
  data : Option String := none
  mimeType : Option String := none
  url : Option String := none
  alt : Option String := none

structure ToolTiming (ν : Type*) where
  elapsedMs : ν
  running : Bool
  receivedAt : ν

inductive ToolStatus where
  | pending | running | done | error
  deriving DecidableEq, Repr

inductive Role where
  | user | assistant
  deriving DecidableEq, Repr

structure ToolRow (ν : Type*) where
  nativeToolCallId : Option String
  name : String
  args : Value ν := .undefined
  result : Value ν := .undefined
  images : Option (List ImageBlock) := none
  status : ToolStatus
  timing : Option (ToolTiming ν)

structure Translation (ν : Type*) where
  key : String
  before : String
  kept : ν

inductive RowContent (ν : Type*) where
  | boundary
  | text (role : Role) (text : String)
  | image (role : Role) (image : ImageBlock)
  | thinking (text : String)
  | tool (tool : ToolRow ν)
  | note (text : String) (translation : Option (Translation ν))

structure Row (ν : Type*) where
  id : String
  content : RowContent ν
  entryId : Option String := none

variable {ν : Type*}

/-- `row.kind === "tool" && row.id === id` -/
def Row.isTool (id : String) (row : Row ν) : Bool :=
  match row.content with
  | .tool _ => row.id == id
  | _ => false

def Row.updateTool (f : ToolRow ν → ToolRow ν) (row : Row ν) : Row ν :=
  match row.content with
  | .tool t => { row with content := .tool (f t) }
  | _ => row

/-! ### The blocks of a message -/

def blocksOf (message : Value ν) : List (Value ν) :=
  ((message.get "content").asArray.getD []).filter Value.isObject

def imageBlockOf (item : Value ν) : Option ImageBlock :=
  if (item.get "type").isText "image_url" && (item.get "image_url").isObject then
    ((item.get "image_url").get "url").asString.map fun url => { url := some url }
  else if (item.get "type").isText "image" then
    match item.get "data" with
    | .string data =>
      if data = "" then none
      else some {
        data := some data
        mimeType := (item.get "mimeType").asString
        alt := (item.get "alt").asString }
    | _ => none
  else none

def imageBlocksOf (value : Value ν) : List ImageBlock := (blocksOf value).filterMap imageBlockOf

def textBlocks (message : Value ν) : List String :=
  match message.get "content" with
  | .string content => if isBlank content then [] else [content]
  | _ =>
    ((blocksOf message).filterMap fun block =>
      if (block.get "type").isText "text" then (block.get "text").asString else none).filter
        fun text => !isBlank text

def textOf (value : Value ν) : String := "\n\n".intercalate (textBlocks value)

variable [Numeric ν]

namespace Platform

variable (P : Platform ν)

def toolTiming (value : Value ν) : Option (ToolTiming ν) :=
  match value.get "elapsedMs" with
  | .number elapsedMs =>
    if Numeric.isNonneg elapsedMs then
      some { elapsedMs, running := (value.get "running").isTrue, receivedAt := P.now }
    else none
  | _ => none

/-- `String(v ?? fallback)` -/
def displayOr (fallback : String) (v : Value ν) : String :=
  (v.nonNullish.map P.display).getD fallback

/-! ### Rows of a message -/

/-- The id of a tool call that is complete. -/
def callIdOf (block : Value ν) : Option String :=
  if (block.get "type").isText "toolCall" then
    (block.get "id").asString.filter fun id => id != ""
  else none

/-- One block of an assistant message; the text of adjacent blocks is one row. -/
def assistantBlock (pre : String) (rows : List (Row ν)) (item : Value ν × Nat) : List (Row ν) :=
  let block := item.1
  let id := pre ++ ":b" ++ item.2.repr
  let isText (kind : String) := (block.get "type").isText kind
  if isText "text" && (block.get "text").asString.isSome then
    let text := (block.get "text").asString.getD ""
    if isBlank text then rows
    else
      match rows.getLast? with
      | some { id := last, content := .text .assistant previous, entryId } =>
        rows.dropLast ++ [{
          id := last, content := .text .assistant (previous ++ "\n\n" ++ text), entryId }]
      | _ => rows ++ [{ id, content := .text .assistant text }]
  else if isText "image" || isText "image_url" then
    match imageBlockOf block with
    | some image => rows ++ [{ id, content := .image .assistant image }]
    | none => rows
  else if isText "thinking" then
    let text :=
      match block.get "thinking", block.get "text" with
      | .string thinking, _ => thinking
      | _, .string text => text
      | _, _ => ""
    if isBlank text then rows else rows ++ [{ id, content := .thinking text }]
  else
    match callIdOf block with
    | none => rows
    | some callId => rows ++ [{
        id := "call-" ++ callId
        content := .tool {
          nativeToolCallId := some callId
          name := P.displayOr "tool" (block.get "name")
          args := block.get "arguments"
          status := if ((block.get "webTiming").get "running").isTruthy then .running else .pending
          timing := P.toolTiming (block.get "webTiming") } }]

def rowsFromAssistant (message : Value ν) (pre : String) : List (Row ν) :=
  (blocksOf message).zipIdx.foldl (P.assistantBlock pre) []

def rowsFromUser (message : Value ν) (pre : String) : List (Row ν) :=
  (if textOf message = "" then [] else [{ id := pre, content := .text .user (textOf message) }])
    ++ (imageBlocksOf message).zipIdx.map fun item =>
      { id := pre ++ ":image" ++ item.2.repr, content := .image .user item.1 }

/-- Most tools need only text; ask history also needs its answer metadata. -/
def resultOf (message : Value ν) : Value ν :=
  if isAskTool (P.displayOr "" (message.get "toolName")) && (message.get "details").isObject then
    .object [("content", message.get "content"), ("details", message.get "details")]
  else if textBlocks message = [] then (message.get "content").nonNullish.getD (.string "")
  else .string ("\n".intercalate (textBlocks message))

def resultStatus (message : Value ν) : ToolStatus :=
  if (message.get "isError").isTruthy then .error else .done

/-- A tool result in the row of the call that it answers. -/
def foldResult (message : Value ν) (t : ToolRow ν) : ToolRow ν :=
  { t with
    result := P.resultOf message
    images := some (imageBlocksOf message)
    status := resultStatus message
    timing := P.toolTiming (message.get "webTiming") <|> t.timing }

/-- The row of a tool result whose call is not there. -/
def resultRow (message : Value ν) : ToolRow ν where
  nativeToolCallId := (message.get "toolCallId").asString
  name := P.displayOr "tool" (message.get "toolName")
  result := P.resultOf message
  images := some (imageBlocksOf message)
  status := resultStatus message
  timing := P.toolTiming (message.get "webTiming")

/-- The call that a tool result answers; without one, a call of its own. -/
def answeredCall (message : Value ν) (key : String) : String :=
  let callId := P.displayOr "" (message.get "toolCallId")
  if callId = "" then key else callId

def compactionRow (message : Value ν) (key : String) : Row ν :=
  let before := P.toLocaleString (P.toNumber ((message.get "tokensBefore").nonNullish.getD (.string "0")))
  let kept := P.toNumber ((message.get "retainedMessages").nonNullish.getD (.string "0"))
  { id := "compaction-" ++ key
    content := .note ("Conversation compacted · " ++ before ++ " tokens before, "
      ++ P.display (.number kept) ++ " messages kept.")
      (some { key := "compactedMessage", before, kept }) }

def keyOf (message : Value ν) (index : Nat) : String :=
  (message.get "entryId").asString.getD ("s" ++ index.repr)

/-- The rows that stay with their messages, and those that a message adds. -/
def project (rows : List (Row ν)) (message : Value ν) (key : String) :
    List (Row ν) × List (Row ν) :=
  let role := P.displayOr "assistant" (message.get "role")
  if role = "user" then (rows, rowsFromUser message key)
  else if role = "assistant" then (rows, P.rowsFromAssistant message key)
  else if role = "toolResult" then
    let id := "call-" ++ P.answeredCall message key
    let boundary : Row ν := { id := key ++ ":end", content := .boundary }
    if rows.any (Row.isTool id) then
      -- the result folds into an earlier card; its chronological boundary stays here
      (First.update (Row.isTool id) (Row.updateTool (P.foldResult message)) rows, [boundary])
    else (rows, [{ id, content := .tool (P.resultRow message) }, boundary])
  else if role = "compaction" then (rows, [P.compactionRow message key])
  else (rows, if textOf message = "" then [] else [{ id := key, content := .note (textOf message) none }])

def addMessage (rows : List (Row ν)) (item : Value ν × Nat) : List (Row ν) :=
  if item.1.isObject then
    let (rows, added) := P.project rows item.1 (keyOf item.1 item.2)
    -- all rows of one entry share its id
    rows ++ added.map fun row =>
      { row with entryId := (item.1.get "entryId").asString <|> row.entryId }
  else rows

def rowsFromMessages (raw : List (Value ν)) : List (Row ν) := raw.zipIdx.foldl P.addMessage []

end Platform

/-! ### Older pages -/

/-- `a ?? b` for values. -/
def orElse (a b : Value ν) : Value ν := a.nonNullish.getD b

def isUndefined : Value ν → Bool
  | .undefined => true
  | _ => false

/-- A call of an older page with what a row of the same call adds to it. -/
def mergeTool (candidate row : ToolRow ν) : ToolRow ν where
  nativeToolCallId := row.nativeToolCallId <|> candidate.nativeToolCallId
  name := if row.name != "tool" then row.name else candidate.name
  args := orElse row.args candidate.args
  result := orElse row.result candidate.result
  images := row.images <|> candidate.images
  timing := row.timing <|> candidate.timing
  status := if row.status = .error ∨ row.status = .done then row.status else candidate.status

def mergeRow (row candidate : Row ν) : Row ν :=
  match candidate.content, row.content with
  | .tool c, .tool r => {
      id := candidate.id
      content := .tool (mergeTool c r)
      entryId :=
        if !isUndefined r.result then row.entryId <|> candidate.entryId
        else if !isUndefined c.result then candidate.entryId <|> row.entryId
        else row.entryId <|> candidate.entryId }
  | _, _ => candidate

def prependRow (merged : List (Row ν)) (row : Row ν) : List (Row ν) :=
  if row.isTool row.id && merged.any (Row.isTool row.id) then
    First.update (Row.isTool row.id) (mergeRow row) merged
  else if merged.any fun candidate => candidate.id == row.id then merged
  else merged ++ [row]

def prependRows (older current : List (Row ν)) : List (Row ν) := current.foldl prependRow older

end Transcript
