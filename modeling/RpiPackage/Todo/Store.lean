import RpiPackage.Lib.Json
import RpiPackage.Lib.Result
import RpiPackage.Lib.Rust

/-!
# The todo list of a branch

A todo list lives on the branch of a session, as the newest of its snapshots. Every call reads that
snapshot from the host, makes a candidate of it, and has the host append the candidate. The store
keeps the list it has seen last and whether it may still talk to the host at all.
-/

namespace Todos

open Json Json.Value Result

structure Todo where
  id : UInt64
  text : String
  done : Bool
  inProgress : Bool
  deriving DecidableEq, Repr

structure TodoState where
  todos : List Todo
  nextId : UInt64
  deriving DecidableEq, Repr

def TodoState.default : TodoState := ⟨[], 0⟩

inductive Recovery where
  | uninitialized
  | ready
  | blocked (error : String)
  deriving DecidableEq, Repr

structure Store where
  committed : TodoState
  recovery : Recovery
  deriving DecidableEq, Repr

def Store.default : Store := ⟨.default, .uninitialized⟩

def todoEntry : String := "todo-state"

/-! ### Snapshots -/

def parseTodo (s : TodoState) (item : Value) : Option TodoState := do
  let id ← (item.get "id").bind asU64
  let text ← (item.get "text").bind asStr
  let status := (item.get "status").bind asStr
  let todo : Todo :=
    { id, text
      done := ((item.get "done").bind asBool).getD (status == some "completed")
      inProgress := status == some "in_progress" }
  return ⟨s.todos ++ [todo], max s.nextId (Rust.saturatingSucc id)⟩

def parseTodos (value : Value) : Option TodoState := do
  let todos ← (value.get "todos").bind asArray
  todos.foldlM parseTodo ⟨[], ((value.get "nextId").bind asU64).getD 0⟩

def todoJson (todo : Todo) : Value :=
  .object [("id", .number (.posInt todo.id)), ("text", .string todo.text), ("done", .bool todo.done),
    ("status", .string (if todo.done then "completed" else if todo.inProgress then "in_progress"
      else "pending"))]

def stateJson (s : TodoState) : Value :=
  .object [("todos", .array (s.todos.map todoJson)), ("nextId", .number (.posInt s.nextId))]

/-! ### The host -/

inductive RuntimeFailure where
  | rejected (message : String)
  | invalidResponse (message : String)
  deriving DecidableEq, Repr

def RuntimeFailure.message : RuntimeFailure → String
  | .rejected message | .invalidResponse message => message

/-- What a runtime action returns: its code and its text. -/
structure Reply where
  rc : Int
  text : String
  deriving DecidableEq, Repr

abbrev Response : Type := Except RuntimeFailure Value

/-- The parser of a text is `serde_json`. -/
def callRuntime (fromStr : String → Except String Value) (reply : Reply) : Response :=
  if reply.rc ≠ 0 then
    .error (.rejected (if reply.text = "" then "runtime action failed" else reply.text))
  else if Rust.trim reply.text = "" then .ok .null
  else (fromStr reply.text).mapError fun e => .invalidResponse ("invalid runtime response: " ++ e)

/-- What a call asks of the host. -/
inductive HostCall where
  | getSessionBranch
  | appendEntry (data : Value)

/-! ### Reading the branch -/

def restored (response : Response) : Except String TodoState := do
  let value ← response.mapError RuntimeFailure.message
  failIf ((value.get "filtered").bind asBool ≠ some true)
    "branch response did not confirm filtered: true"
  let entries ← okOr ((value.get "entries").bind asArray) "branch response has no entries array"
  failIf (1 < entries.length) "branch response exceeded snapshot limit"
  match entries.head? with
  | none => return .default
  | some entry => do
    failIf ((entry.get "type").bind asStr ≠ some "custom" ∨
        (entry.get "customType").bind asStr ≠ some todoEntry)
      "branch response contains an unexpected entry"
    okOr (parseTodos ((entry.get "data").getD .null)) "invalid todo-state snapshot"

/-- What a call leaves in the store, what it asked of the host, and what it returns. -/
structure Outcome (α : Type) where
  store : Store
  calls : List HostCall
  result : Except String α

inductive EventTag where
  | sessionStart
  | sessionTree
  | other
  deriving DecidableEq, Repr

namespace Store

variable (store : Store)

def restoreFromBranch (response : Response) : Outcome Unit :=
  match restored response with
  | .ok state => ⟨⟨state, .ready⟩, [.getSessionBranch], .ok ()⟩
  | .error e =>
    let error := "todo restore failed: " ++ e ++ "; explicitly reload the session before retrying"
    ⟨{ store with recovery := .blocked error }, [.getSessionBranch], .error error⟩

/-- Every use that is not blocked reads the branch anew. -/
def currentState (response : Response) : Outcome TodoState :=
  match store.recovery with
  | .blocked error => ⟨store, [], .error error⟩
  | _ =>
    let x := store.restoreFromBranch response
    ⟨x.store, x.calls, x.result.map fun _ => x.store.committed⟩

def handleEvent (tag : EventTag) (response : Response) : Outcome Unit :=
  match tag with
  | .sessionStart | .sessionTree => store.restoreFromBranch response
  | .other => ⟨store, [], .ok ()⟩

end Store

/-! ### Candidates -/

def renderTodo (todo : Todo) : String :=
  "[" ++ (if todo.done then "✓" else if todo.inProgress then "•" else " ") ++ "] #" ++
    toString todo.id.toNat ++ ": " ++ todo.text

def render (s : TodoState) (includeDone : Bool) : String :=
  if s.todos = [] then "No todos"
  else
    "\n".intercalate
      ((toString (s.todos.countP Todo.done) ++ "/" ++ toString s.todos.length ++ " completed") ::
        (s.todos.filter fun todo => includeDone || !todo.done).map renderTodo)

/-- The response to an action, with the whole list. -/
def result (action : String) (s : TodoState) (text : String) (error : Option String) : Value :=
  let details := (stateJson s).set "action" (.string action)
  .object [("content", .array [.object [("type", .string "text"), ("text", .string text)]]),
    ("details", match error with
      | some error => details.set "error" (.string error)
      | none => details)]

def notFound (id : UInt64) : String :=
  "Todo #" ++ toString id.toNat ++
    " not found; call `todo` with action `list` and use the returned zero-based id"

/-- The first todo with an id is changed, if there is one. -/
def changeTodo (id : UInt64) (f : Todo → Todo) : List Todo → Option (List Todo)
  | [] => none
  | todo :: todos =>
    if todo.id = id then some (f todo :: todos) else (changeTodo id f todos).map (todo :: ·)

def add (s : TodoState) (text : String) : TodoState :=
  ⟨s.todos ++ [⟨s.nextId, text, false, false⟩], Rust.saturatingSucc s.nextId⟩

/-- A response, and the list it is about. -/
def change (action : String) (s : TodoState) (id : UInt64) (f : Todo → Todo) : Value × TodoState :=
  match changeTodo id f s.todos with
  | none => (result action s (notFound id) (some "todo not found"), s)
  | some todos =>
    let next := { s with todos }
    (result action next (render next true) none, next)

def candidate (params : Value) (s : TodoState) : Except String (Value × TodoState) :=
  let action := ((params.get "action").bind asStr).getD "list"
  match action with
  | "list" =>
    let includeDone := ((params.get "includeDone").bind asBool).getD false
    .ok (result action s (render s includeDone) none, s)
  | "add" =>
    let text := Rust.trim (((params.get "text").bind asStr).getD "")
    if text = "" then
      .ok (result action s "Error: text required for add" (some "text required"), s)
    else
      let next := add s text
      .ok (result action next (render next true) none, next)
  | "toggle" => do
    let id ← okOr ((params.get "id").bind asU64) "id required for toggle"
    return change action s id fun todo => { todo with done := !todo.done, inProgress := false }
  | "update" => do
    let id ← okOr ((params.get "id").bind asU64) "id required for update"
    let status ← okOr ((params.get "status").bind asStr) "status required for update"
    failIf (status ∉ ["pending", "in_progress", "completed"])
      "status must be pending, in_progress, or completed"
    return change action s id fun todo =>
      { todo with done := status == "completed", inProgress := status == "in_progress" }
  | "clear" =>
    .ok (result action .default (render .default true) none, .default)
  | _ => .error "action must be one of: list, add, update, toggle, clear"

/-! ### Committing -/

/-- What an answer says about the entry that was to be appended. -/
inductive Acknowledgement where
  | committed
  | rejected (error : String)
  | unknown (reason : String)
  deriving DecidableEq, Repr

def acknowledgement : Response → Acknowledgement
  | .ok value =>
    if ((value.get "entryId").bind asStr).any (fun id => Rust.trim id != "") = true then .committed
    else .unknown "AppendEntry returned no usable entryId"
  | .error (.rejected error) => .rejected error
  | .error (.invalidResponse error) => .unknown error

namespace Store

variable (store : Store)

def todo (params : Value) (read append : Response) : Outcome Value :=
  let x := store.currentState read
  match x.result with
  | .error e => ⟨x.store, x.calls, .error e⟩
  | .ok committed =>
    match candidate params committed with
    | .error e => ⟨x.store, x.calls, .error e⟩
    | .ok (response, next) =>
      if next = committed then ⟨x.store, x.calls, .ok response⟩
      else
        let calls := x.calls ++ [.appendEntry (stateJson next)]
        match acknowledgement append with
        | .committed => ⟨{ x.store with committed := next }, calls, .ok response⟩
        | .rejected error => ⟨x.store, calls, .error ("todo persistence failed: " ++ error)⟩
        | .unknown reason =>
          let error := "todo append acknowledgement is unknown: " ++ reason ++
            "; explicitly reload the session before retrying"
          ⟨{ x.store with recovery := .blocked error }, calls, .error error⟩

/-- The command that shows the list. -/
def command (read : Response) : Outcome Value :=
  let x := store.currentState read
  ⟨x.store, x.calls, .ok (match x.result with
    | .ok s => .object [("kind", .string "message"), ("text", .string (render s true))]
    | .error e => .object [("kind", .string "message"), ("text", .string ("Error: " ++ e)),
        ("error", .string e)])⟩

end Store

end Todos
