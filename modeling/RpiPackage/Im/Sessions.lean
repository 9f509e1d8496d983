import RpiPackage.Lib.Json
import RpiPackage.Lib.Rust
import RpiPackage.Lib.Run

/-!
# The session store of the IM bridge

The commands that list, create and select the sessions of a chat, and the store file they share.
A file is held as the value its text stands for.
-/

namespace Im

open Json

def conversationSessionId (conversationId : String) : String :=
  let suffix := String.ofList ((conversationId.toList.filter fun c =>
    Rust.isAsciiAlphanumeric c || c == '-' || c == '_').take 96)
  if suffix = "" then "im-feishu-unknown" else "im-feishu-" ++ suffix

def storeLimit : Nat := 1048576

def emptyStore : Value := .object [("version", .number (.posInt 1)), ("chats", .object [])]

def load (read : Except String Unit) (path : Option Value) : Except String Value :=
  match path with
  | none => .ok emptyStore
  | some value => do
    read
    if storeLimit < value.prettySize then .error "IM session store exceeds 1 MiB"
    else if (value.index "version").asI64 ≠ some 1 || !(value.index "chats").isObject then
      .error "invalid IM session store schema"
    else .ok value

def key (profile chat : String) : String := profile ++ "\n" ++ chat

def selection (value : Value) (profile chat : String) : Except String (Option String) :=
  let entry := (value.index "chats").index (key profile chat)
  if entry.isNull then .ok none
  else
    match (entry.index "selected").asStr, (entry.index "sessions").asArray with
    | none, _ => .error "invalid IM session selection"
    | some _, none => .error "invalid IM session list"
    | some selected, some known =>
      let base := conversationSessionId chat
      if !(selected == base || Rust.startsWith selected (base ++ "-"))
          || !selected.toList.all (fun c => Rust.isAsciiAlphanumeric c || c == '-' || c == '_')
          || !known.any (fun id => id.asStr == some selected) then
        .error "IM session selection is not owned by this chat"
      else .ok (some selected)

/-- What the calls outside the process answer: reading the file, the clock in nanoseconds since the
epoch, and the writes that put a new file in place. -/
structure Env where
  read : Except String Unit
  stamp : Except String Nat
  saved : Except String Unit
  deriving Repr

def selected (path : Option Value) (profile chat : String) (env : Env) :
    Except String (Option String) := do
  selection (← load env.read path) profile chat

def sessionId (base : String) (stamp : Nat) : String := base ++ "-" ++ Rust.lowerHex stamp

/-- `value["chats"][key] = entry`. -/
def setEntry (value : Value) (key : String) (entry : Value) : Value :=
  value.set "chats" ((value.index "chats").set key entry)

/-- The answer of a command, and the store it leaves to be saved. -/
def respond (value : Value) (profile chat : String) (words : List String)
    (stamp : Except String Nat) : Except String (String × Option Value) := do
  let base := conversationSessionId chat
  let current := (← selection value profile chat).getD base
  let entryKey := key profile chat
  let value :=
    if ((value.index "chats").index entryKey).isNull then
      setEntry value entryKey (.object [("selected", .string base), ("sessions", .array [.string base])])
    else value
  let entry := (value.index "chats").index entryKey
  match words with
  | ["/session"] =>
    .ok ("当前 session：" ++ current ++
      "\n/new 新建会话\n/sessions 查看会话列表\n/session <ID> 切换会话", none)
  | ["/sessions"] =>
    match (entry.index "sessions").asArray with
    | none => .error "invalid IM session list"
    | some known =>
      let lines := ((known.reverse.take 20).filterMap Value.asStr).map fun id =>
        (if id = current then "当前 →" else "•") ++ " " ++ id
      .ok ("\n".intercalate (["当前聊天的 sessions（最近 20 个）："] ++ lines ++
        ["发送 /session <ID> 切换；/new 新建空白会话。"]), none)
  | ["/new"] => do
    let id := sessionId base (← stamp)
    let entry := entry.set "selected" (.string id)
    match (entry.index "sessions").asArray with
    | none => .error "invalid IM session list"
    | some known =>
      let entry := entry.set "sessions" (.array (known ++ [.string id]))
      .ok ("已新建并切换 session：" ++ id ++ "\n后续消息使用空白上下文，原会话历史已保留。",
        some (setEntry value entryKey entry))
  | ["/session", id] =>
    match (entry.index "sessions").asArray with
    | none => .error "invalid IM session list"
    | some known =>
      if !known.any (fun known => known.asStr == some id) then
        .error "未找到当前聊天的这个 session。发送 /sessions 查看完整 ID。"
      else
        .ok ("已切换 session：" ++ id ++ "\n后续消息使用该会话上下文。",
          some (setEntry value entryKey (entry.set "selected" (.string id))))
  | _ => .error "指令用法：/new、/sessions、/session 或 /session <ID>。"

/-- The answer and the file afterwards. The new file is written beside the old one and takes its
place by a rename, so a save that fails leaves the old one. -/
def handle (path : Option Value) (profile chat : String) (words : List String) (env : Env) :
    Except String String × Option Value :=
  match load env.read path >>= fun value => respond value profile chat words env.stamp with
  | .error error => (.error error, path)
  | .ok (response, none) => (.ok response, path)
  | .ok (response, some value) =>
    match env.saved with
    | .error error => (.error error, path)
    | .ok () => (.ok response, some value)

/-- Unknown slash commands remain normal user prompts. -/
def command (path : Option Value) (profile chat text : String) (env : Env) :
    Option (Except String String) × Option Value :=
  match Rust.splitWhitespace text with
  | [] => (none, path)
  | command :: words =>
    if command ∈ ["/new", "/sessions", "/session"] then
      ((handle path profile chat (command :: words) env).map some id)
    else (none, path)

/-! ### Runs -/

inductive Event where
  | command (profile chat text : String) (env : Env)
  | selected (profile chat : String) (env : Env)

/-- The file, and the pairs of a profile and a chat that have used it. -/
structure State where
  disk : Option Value
  used : List (String × String)

namespace Event

def pair : Event → String × String
  | command profile chat _ _ => (profile, chat)
  | selected profile chat _ => (profile, chat)

/-- The file after a message or a query. -/
def write (disk : Option Value) : Event → Option Value
  | command profile chat text env => (Im.command disk profile chat text env).2
  | selected _ _ _ => disk

end Event

namespace State

def start : State := ⟨none, []⟩

def step (s : State) (event : Event) : State :=
  ⟨event.write s.disk, event.pair :: s.used⟩

end State

end Im
