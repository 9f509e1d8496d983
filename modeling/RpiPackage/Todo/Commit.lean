import RpiPackage.Lib.Run
import RpiPackage.Todo.Store

/-!
# Commits to the branch

The store and the branch of the session it is on, over any sequence of calls, events and
navigations. Every entry that is appended is the candidate made of the newest snapshot on the
branch, and once the branch is in doubt nothing is asked of the host until it has been restored.
-/

namespace Todos

open Json Json.Value Result

variable {fromStr : String → Except String Value}

/-! ### Snapshots -/

/-- The identifiers that follow are new. -/
def TodoState.Ahead (s : TodoState) : Prop :=
  ∀ todo ∈ s.todos, Rust.saturatingSucc todo.id ≤ s.nextId

/-- A todo that is done is not shown as in progress. -/
def Todo.shown (todo : Todo) : Todo :=
  { todo with inProgress := !todo.done && todo.inProgress }

def TodoState.shown (s : TodoState) : TodoState := { s with todos := s.todos.map Todo.shown }

lemma parseTodo_todoJson (s : TodoState) (todo : Todo) :
    parseTodo s (todoJson todo) =
      some ⟨s.todos ++ [todo.shown], max s.nextId (Rust.saturatingSucc todo.id)⟩ := by
  obtain ⟨id, text, done, inProgress⟩ := todo
  cases done <;> cases inProgress <;> rfl

lemma foldlM_parseTodo {items : List Value} {s t : TodoState} (hs : s.Ahead)
    (h : items.foldlM parseTodo s = some t) : t.Ahead := by
  induction items generalizing s with
  | nil =>
    obtain rfl := Option.some.inj h
    exact hs
  | cons item items ih =>
    rw [List.foldlM_cons] at h
    obtain ⟨u, hu, h⟩ := Option.bind_eq_some_iff.mp h
    refine ih ?_ h
    unfold parseTodo at hu
    obtain ⟨id, -, hu⟩ := Option.bind_eq_some_iff.mp hu
    obtain ⟨text, -, hu⟩ := Option.bind_eq_some_iff.mp hu
    obtain rfl := Option.some.inj hu
    intro todo htodo
    rcases List.mem_append.mp htodo with hmem | hmem
    · exact UInt64.le_trans (hs todo hmem) (Rust.le_max_left _ _)
    · obtain rfl := List.mem_singleton.mp hmem
      exact Rust.le_max_right _ _

/-- A list that was read assigns no identifier twice. -/
lemma ahead_of_parseTodos {value : Value} {s : TodoState} (h : parseTodos value = some s) :
    s.Ahead := by
  obtain ⟨items, -, h⟩ := Option.bind_eq_some_iff.mp h
  exact foldlM_parseTodo (fun _ hmem => absurd hmem List.not_mem_nil) h

lemma foldlM_parseTodo_todoJson (todos : List Todo) (s : TodoState)
    (h : ∀ todo ∈ todos, Rust.saturatingSucc todo.id ≤ s.nextId) :
    (todos.map todoJson).foldlM parseTodo s = some ⟨s.todos ++ todos.map Todo.shown, s.nextId⟩ := by
  induction todos generalizing s with
  | nil => simp
  | cons todo todos ih =>
    have hmax : max s.nextId (Rust.saturatingSucc todo.id) = s.nextId :=
      Rust.max_eq_left (h todo List.mem_cons_self)
    rw [List.map_cons, List.foldlM_cons, parseTodo_todoJson, hmax]
    have hrest := ih ⟨s.todos ++ [todo.shown], s.nextId⟩
      fun todo' hmem => h todo' (List.mem_cons_of_mem _ hmem)
    simpa using hrest

/-- A snapshot reads back as the list that is shown. -/
lemma parseTodos_stateJson {s : TodoState} (h : s.Ahead) : parseTodos (stateJson s) = some s.shown :=
  foldlM_parseTodo_todoJson s.todos ⟨[], s.nextId⟩ h

/-! ### Candidates -/

lemma changeTodo_id {id : UInt64} {f : Todo → Todo} (hf : ∀ todo, (f todo).id = todo.id)
    {todos todos' : List Todo} (h : changeTodo id f todos = some todos') :
    todos'.map Todo.id = todos.map Todo.id := by
  induction todos generalizing todos' with
  | nil => cases h
  | cons todo todos ih =>
    rw [changeTodo] at h
    split at h
    · obtain rfl := Option.some.inj h
      rw [List.map_cons, List.map_cons, hf]
    · obtain ⟨todos'', hrest, rfl⟩ := Option.map_eq_some_iff.mp h
      rw [List.map_cons, List.map_cons, ih hrest]

lemma TodoState.ahead_iff {s : TodoState} :
    s.Ahead ↔ ∀ id ∈ s.todos.map Todo.id, Rust.saturatingSucc id ≤ s.nextId := by
  simp [Ahead]

lemma ahead_add {s : TodoState} (h : s.Ahead) (text : String) : (add s text).Ahead := by
  intro todo htodo
  rcases List.mem_append.mp htodo with hmem | hmem
  · exact UInt64.le_trans (h todo hmem) (Rust.le_saturatingSucc s.nextId)
  · obtain rfl := List.mem_singleton.mp hmem
    exact UInt64.le_refl _

lemma change_spec {action : String} {s next : TodoState} {id : UInt64} {f : Todo → Todo}
    {response : Value} (hf : ∀ todo, (f todo).id = todo.id)
    (h : change action s id f = (response, next)) :
    (∃ action text error, response = result action next text error) ∧ (s.Ahead → next.Ahead) := by
  unfold change at h
  split at h
  · obtain ⟨rfl, rfl⟩ := Prod.mk.inj h
    exact ⟨⟨_, _, _, rfl⟩, fun hs => hs⟩
  · rename_i todos htodos
    obtain ⟨rfl, rfl⟩ := Prod.mk.inj h
    refine ⟨⟨_, _, _, rfl⟩, fun hs => ?_⟩
    rw [TodoState.ahead_iff] at hs ⊢
    rw [changeTodo_id hf htodos]
    exact hs

/-- The response to a call is about the candidate, whose identifiers are still behind. -/
lemma candidate_eq_ok {params response : Value} {s next : TodoState}
    (h : candidate params s = .ok (response, next)) :
    (∃ action text error, response = result action next text error) ∧ (s.Ahead → next.Ahead) := by
  unfold candidate at h
  dsimp only at h
  split at h
  · obtain ⟨rfl, rfl⟩ := Prod.mk.inj (Except.ok.inj h)
    exact ⟨⟨_, _, _, rfl⟩, fun hs => hs⟩
  · split at h
    · obtain ⟨rfl, rfl⟩ := Prod.mk.inj (Except.ok.inj h)
      exact ⟨⟨_, _, _, rfl⟩, fun hs => hs⟩
    · obtain ⟨rfl, rfl⟩ := Prod.mk.inj (Except.ok.inj h)
      exact ⟨⟨_, _, _, rfl⟩, fun hs => ahead_add hs _⟩
  · obtain ⟨id, -, h⟩ := bind_eq_ok.mp h
    have heq := Except.ok.inj h
    refine change_spec ?_ heq
    intro todo
    rfl
  · obtain ⟨id, -, h⟩ := bind_eq_ok.mp h
    obtain ⟨status, -, h⟩ := bind_eq_ok.mp h
    rw [check_bind_eq_ok] at h
    have heq := Except.ok.inj h.2
    refine change_spec ?_ heq
    intro todo
    rfl
  · obtain ⟨rfl, rfl⟩ := Prod.mk.inj (Except.ok.inj h)
    exact ⟨⟨_, _, _, rfl⟩, fun _ _ hmem => absurd hmem List.not_mem_nil⟩
  · cases h

/-! ### The host -/

/-- The entries of a branch, the oldest first. -/
abbrev Branch : Type := List Value

def isSnapshot (entry : Value) : Bool :=
  (entry.get "type").bind asStr == some "custom" &&
    (entry.get "customType").bind asStr == some todoEntry

def snapshotEntry (data : Value) : Value :=
  .object [("type", .string "custom"), ("customType", .string todoEntry), ("data", data)]

def newestEntry (branch : Branch) : Option Value := branch.reverse.find? isSnapshot

/-- The newest list on a branch, unless its snapshot is not one. -/
def newest (branch : Branch) : Option TodoState :=
  match newestEntry branch with
  | none => some .default
  | some entry => parseTodos ((entry.get "data").getD .null)

/-- The answer for a branch, to the one request that is made for it. -/
def getSessionBranch (branch : Branch) : Value :=
  .object [("filtered", .bool true), ("entries", .array (newestEntry branch).toList)]

/-- How a read is answered: for the branch, or in a way that no list can be made of. -/
inductive Read (fromStr : String → Except String Value) where
  | answer
  | other (reply : Reply) (unusable : ∃ e, restored (callRuntime fromStr reply) = .error e)

def Read.response (read : Read fromStr) (branch : Branch) : Response :=
  match read with
  | .answer => .ok (getSessionBranch branch)
  | .other reply _ => callRuntime fromStr reply

/-- How an append is answered, and whether the entry is kept in case that the answer leaves it
open. -/
structure Append where
  reply : Reply
  kept : Bool

def Append.lands (fromStr : String → Except String Value) (a : Append) : Bool :=
  match acknowledgement (callRuntime fromStr a.reply) with
  | .committed => true
  | .rejected _ => false
  | .unknown _ => a.kept

lemma newestEntry_append (branch : Branch) (data : Value) :
    newestEntry (branch ++ [snapshotEntry data]) = some (snapshotEntry data) := by
  rw [newestEntry, List.reverse_append]
  rfl

lemma restored_getSessionBranch {branch : Branch} {s : TodoState} :
    restored (.ok (getSessionBranch branch)) = .ok s ↔ newest branch = some s := by
  unfold newest getSessionBranch
  cases h : newestEntry branch with
  | none =>
    show Except.ok TodoState.default = .ok s ↔ some TodoState.default = some s
    rw [Except.ok.injEq, Option.some.injEq]
  | some entry =>
    have hentry := List.find?_some h
    simp only [isSnapshot, Bool.and_eq_true, beq_iff_eq] at hentry
    show (do
      failIf ((entry.get "type").bind asStr ≠ some "custom" ∨
        (entry.get "customType").bind asStr ≠ some todoEntry) _
      okOr (parseTodos ((entry.get "data").getD .null)) _) = .ok s ↔ _
    rw [check_bind_eq_ok, failIf_eq_ok, okOr_eq_ok, hentry.1, hentry.2]
    simp

/-- Only the newest list of the branch is ever read. -/
lemma restored_response {read : Read fromStr} {branch : Branch} {s : TodoState}
    (h : restored (read.response branch) = .ok s) : newest branch = some s := by
  cases read with
  | answer => exact restored_getSessionBranch.mp h
  | other reply unusable =>
    obtain ⟨e, he⟩ := unusable
    rw [Read.response, he] at h
    cases h

/-! ### Single calls -/

def appended (calls : List HostCall) : List Value :=
  calls.filterMap fun
    | .appendEntry data => some data
    | .getSessionBranch => none

namespace Store

variable {store : Store}

lemma currentState_blocked {error : String} (h : store.recovery = .blocked error)
    (response : Response) : store.currentState response = ⟨store, [], .error error⟩ := by
  rw [currentState, h]

lemma currentState_open (h : ∀ error, store.recovery ≠ .blocked error) (response : Response) :
    store.currentState response =
      match restored response with
      | .ok s => ⟨⟨s, .ready⟩, [.getSessionBranch], .ok s⟩
      | .error e =>
        let error :=
          "todo restore failed: " ++ e ++ "; explicitly reload the session before retrying"
        ⟨{ store with recovery := .blocked error }, [.getSessionBranch], .error error⟩ := by
  unfold currentState
  split
  · rename_i error heq
    exact absurd heq (h error)
  · rw [restoreFromBranch]
    cases restored response <;> rfl

/-- What a call can do. -/
inductive Commit (store : Store) (params : Value) (read append : Response) :
    Outcome Value → Prop
  | blocked (error : String) (isBlocked : store.recovery = .blocked error) :
      Commit store params read append ⟨store, [], .error error⟩
  | unread (e error : String) (failed : restored read = .error e) :
      Commit store params read append
        ⟨{ store with recovery := .blocked error }, [.getSessionBranch], .error error⟩
  | invalid (s : TodoState) (e : String) (known : restored read = .ok s)
      (refused : candidate params s = .error e) :
      Commit store params read append ⟨⟨s, .ready⟩, [.getSessionBranch], .error e⟩
  | unchanged (s : TodoState) (response : Value) (known : restored read = .ok s)
      (made : candidate params s = .ok (response, s)) :
      Commit store params read append ⟨⟨s, .ready⟩, [.getSessionBranch], .ok response⟩
  | committed (s next : TodoState) (response : Value) (known : restored read = .ok s)
      (made : candidate params s = .ok (response, next)) (changed : next ≠ s)
      (answer : acknowledgement append = .committed) :
      Commit store params read append
        ⟨⟨next, .ready⟩, [.getSessionBranch, .appendEntry (stateJson next)], .ok response⟩
  | rejected (s next : TodoState) (response : Value) (error : String)
      (known : restored read = .ok s) (made : candidate params s = .ok (response, next))
      (changed : next ≠ s) (answer : acknowledgement append = .rejected error) :
      Commit store params read append
        ⟨⟨s, .ready⟩, [.getSessionBranch, .appendEntry (stateJson next)],
          .error ("todo persistence failed: " ++ error)⟩
  | unknown (s next : TodoState) (response : Value) (reason error : String)
      (known : restored read = .ok s) (made : candidate params s = .ok (response, next))
      (changed : next ≠ s) (answer : acknowledgement append = .unknown reason) :
      Commit store params read append
        ⟨⟨s, .blocked error⟩, [.getSessionBranch, .appendEntry (stateJson next)], .error error⟩

lemma todo_spec (store : Store) (params : Value) (read append : Response) :
    store.Commit params read append (store.todo params read append) := by
  by_cases hopen : ∃ error, store.recovery = .blocked error
  · obtain ⟨error, hblocked⟩ := hopen
    rw [todo, currentState_blocked hblocked]
    exact .blocked error hblocked
  · rw [todo, currentState_open (not_exists.mp hopen)]
    cases hread : restored read with
    | error e => exact .unread e _ hread
    | ok s =>
      dsimp only
      cases hmade : candidate params s with
      | error e => exact .invalid s e hread hmade
      | ok made =>
        obtain ⟨response, next⟩ := made
        dsimp only
        by_cases hchanged : next = s
        · rw [if_pos hchanged]
          exact .unchanged s response hread (hchanged ▸ hmade)
        · rw [if_neg hchanged]
          cases hanswer : acknowledgement append with
          | committed => exact .committed s next response hread hmade hchanged hanswer
          | rejected error => exact .rejected s next response error hread hmade hchanged hanswer
          | unknown reason => exact .unknown s next response reason _ hread hmade hchanged hanswer

/-- What a call asks and returns does not depend on the list seen last. -/
lemma todo_open {store' : Store} (h : ∀ error, store.recovery ≠ .blocked error)
    (h' : ∀ error, store'.recovery ≠ .blocked error) (params : Value) (read append : Response) :
    (store.todo params read append).calls = (store'.todo params read append).calls ∧
      (store.todo params read append).result = (store'.todo params read append).result := by
  rw [todo, todo, currentState_open h, currentState_open h']
  cases restored read <;> exact ⟨rfl, rfl⟩

end Store

/-! ### Runs -/

structure System where
  store : Store
  branch : Branch

inductive Op (fromStr : String → Except String Value) where
  | todo (params : Value) (read : Read fromStr) (append : Append)
  | command (read : Read fromStr)
  | event (tag : EventTag) (read : Read fromStr)
  | navigate (branch : Branch)

namespace System

variable (s : System)

def start (branch : Branch) : System := ⟨.default, branch⟩

def todo (params : Value) (read : Read fromStr) (append : Append) : Outcome Value :=
  s.store.todo params (read.response s.branch) (callRuntime fromStr append.reply)

def command (read : Read fromStr) : Outcome Value := s.store.command (read.response s.branch)

def step (s : System) : Op fromStr → System
  | .todo params read append =>
    let x := s.todo params read append
    ⟨x.store, if append.lands fromStr then s.branch ++ (appended x.calls).map snapshotEntry
      else s.branch⟩
  | .command read => { s with store := (s.command read).store }
  | .event tag read => { s with store := (s.store.handleEvent tag (read.response s.branch)).store }
  | .navigate branch => { s with branch }

/-- The list that a call would show now. -/
def visible : Except String TodoState := (s.store.currentState (.ok (getSessionBranch s.branch))).result

/-- The branch could not be read, or it is not known what became of an entry. -/
def Doubts (s : System) : Op fromStr → Prop
  | .todo params read append =>
    (.getSessionBranch ∈ (s.todo params read append).calls ∧
        ∃ e, restored (read.response s.branch) = .error e) ∨
      (appended (s.todo params read append).calls ≠ [] ∧
        ∃ reason, acknowledgement (callRuntime fromStr append.reply) = .unknown reason)
  | .command read =>
    .getSessionBranch ∈ (s.command read).calls ∧ ∃ e, restored (read.response s.branch) = .error e
  | .event tag read => tag ≠ .other ∧ ∃ e, restored (read.response s.branch) = .error e
  | .navigate _ => False

/-- The branch is restored by the start of a session or by a change of its tree. -/
def Restores (s : System) : Op fromStr → Prop
  | .event tag read => tag ≠ .other ∧ ∃ t, restored (read.response s.branch) = .ok t
  | _ => False

def Blocked (s : System) : Prop := ∃ error, s.store.recovery = .blocked error

lemma todo_spec (params : Value) (read : Read fromStr) (append : Append) :
    s.store.Commit params (read.response s.branch) (callRuntime fromStr append.reply)
      (s.todo params read append) :=
  s.store.todo_spec params _ _

variable {s}

lemma blocked_of_doubts {op : Op fromStr} (h : s.Doubts op) : (s.step op).Blocked := by
  cases op with
  | todo params read append =>
    revert h
    show (.getSessionBranch ∈ (s.todo params read append).calls ∧ _) ∨
      (appended (s.todo params read append).calls ≠ [] ∧ _) →
        ∃ error, (s.todo params read append).store.recovery = .blocked error
    have hspec := s.todo_spec params read append
    generalize s.todo params read append = x at hspec ⊢
    cases hspec with
    | blocked error isBlocked => exact fun _ => ⟨error, isBlocked⟩
    | unread e error failed => exact fun _ => ⟨error, rfl⟩
    | invalid t e known refused => simp [known, appended]
    | unchanged t response known made => simp [known, appended]
    | committed t next response known made changed answer => simp [known, answer]
    | rejected t next response error known made changed answer => simp [known, answer]
    | unknown t next response reason error known made changed answer => exact fun _ => ⟨error, rfl⟩
  | command read =>
    obtain ⟨-, e, he⟩ := h
    show ∃ error, (s.store.currentState (read.response s.branch)).store.recovery = .blocked error
    by_cases hopen : ∃ error, s.store.recovery = .blocked error
    · obtain ⟨error, hblocked⟩ := hopen
      rw [Store.currentState_blocked hblocked]
      exact ⟨error, hblocked⟩
    · rw [Store.currentState_open (not_exists.mp hopen), he]
      exact ⟨_, rfl⟩
  | event tag read =>
    obtain ⟨htag, e, he⟩ := h
    show ∃ error, (s.store.handleEvent tag (read.response s.branch)).store.recovery = .blocked error
    cases tag with
    | other => exact absurd rfl htag
    | sessionStart | sessionTree =>
      rw [Store.handleEvent, Store.restoreFromBranch, he]
      exact ⟨_, rfl⟩
  | navigate branch => exact h.elim

/-- Only a restored branch ends the doubt. -/
lemma Blocked.step {op : Op fromStr} (h : s.Blocked) (hop : ¬s.Restores op) :
    (s.step op).Blocked := by
  obtain ⟨error, herror⟩ := h
  cases op with
  | todo params read append =>
    show ∃ error, (s.store.todo _ _ _).store.recovery = .blocked error
    rw [Store.todo, Store.currentState_blocked herror]
    exact ⟨error, herror⟩
  | command read =>
    show ∃ error, (s.store.command _).store.recovery = .blocked error
    rw [Store.command, Store.currentState_blocked herror]
    exact ⟨error, herror⟩
  | event tag read =>
    show ∃ error, (s.store.handleEvent tag (read.response s.branch)).store.recovery = .blocked error
    cases hread : restored (read.response s.branch) with
    | ok t =>
      cases tag with
      | other => exact ⟨error, herror⟩
      | sessionStart | sessionTree => exact absurd ⟨by decide, t, hread⟩ hop
    | error e =>
      cases tag with
      | other => exact ⟨error, herror⟩
      | sessionStart | sessionTree =>
        rw [Store.handleEvent, Store.restoreFromBranch, hread]
        exact ⟨_, rfl⟩
  | navigate branch => exact ⟨error, herror⟩

lemma Blocked.calls (h : s.Blocked) (params : Value) (read : Read fromStr) (append : Append) :
    (s.todo params read append).calls = [] ∧ (s.command read).calls = [] := by
  obtain ⟨error, herror⟩ := h
  constructor
  · rw [System.todo, Store.todo, Store.currentState_blocked herror]
  · rw [System.command, Store.command, Store.currentState_blocked herror]

/-- A list that can be seen is the newest of the branch. -/
lemma visible_eq (h : ∀ error, s.store.recovery ≠ .blocked error) {t : TodoState}
    (ht : newest s.branch = some t) : s.visible = .ok t := by
  rw [visible, Store.currentState_open h, restored_getSessionBranch.mpr ht]

/-- A branch that has got a snapshot shows it. -/
lemma newest_append (branch : Branch) {t : TodoState} (h : t.Ahead) :
    newest (branch ++ [snapshotEntry (stateJson t)]) = some t.shown := by
  rw [newest, newestEntry_append]
  exact parseTodos_stateJson h

lemma ahead_of_newest {branch : Branch} {t : TodoState} (h : newest branch = some t) : t.Ahead := by
  unfold newest at h
  split at h
  · obtain rfl := Option.some.inj h
    exact fun _ hmem => absurd hmem List.not_mem_nil
  · exact ahead_of_parseTodos h

/-- An entry is only ever made of the newest list on the branch. -/
lemma appended_todo {params : Value} {read : Read fromStr} {append : Append} {data : Value}
    (h : data ∈ appended (s.todo params read append).calls) :
    ∃ t response next, newest s.branch = some t ∧ candidate params t = .ok (response, next) ∧
      data = stateJson next := by
  have hspec := s.todo_spec params read append
  generalize s.todo params read append = x at hspec h
  cases hspec with
  | blocked | unread | invalid | unchanged => exact absurd h List.not_mem_nil
  | committed t next response known made | rejected t next response error known made
  | unknown t next response reason error known made =>
    exact ⟨t, response, next, restored_response known, made, List.mem_singleton.mp h⟩

/-- A refused entry leaves everything as it was seen before. -/
lemma rejected_todo {params : Value} {read : Read fromStr} {append : Append} {error : String}
    (hcalls : appended (s.todo params read append).calls ≠ [])
    (h : acknowledgement (callRuntime fromStr append.reply) = .rejected error) :
    (s.step (.todo params read append)).branch = s.branch ∧
      (s.step (.todo params read append)).visible = s.visible ∧
      ∀ params' read' append',
        ((s.step (.todo params read append)).todo params' read' append').calls =
            (s.todo params' (read' : Read fromStr) append').calls ∧
          ((s.step (.todo params read append)).todo params' read' append').result =
            (s.todo params' read' append').result := by
  have hbranch : (s.step (.todo params read append)).branch = s.branch := by
    show (if append.lands fromStr then _ else s.branch) = s.branch
    rw [Append.lands, h]
    rfl
  obtain ⟨t, hopen, hstore, ht⟩ : ∃ t, (∀ error, s.store.recovery ≠ .blocked error) ∧
      (s.step (.todo params read append)).store = ⟨t, .ready⟩ ∧ newest s.branch = some t := by
    show ∃ t, _ ∧ (s.todo params read append).store = ⟨t, .ready⟩ ∧ _
    have hopen : ∀ error, s.store.recovery ≠ .blocked error := by
      intro error hblocked
      rw [(Blocked.calls ⟨error, hblocked⟩ params read append).1] at hcalls
      exact hcalls rfl
    have hspec := s.todo_spec params read append
    generalize s.todo params read append = x at hspec hcalls
    cases hspec with
    | blocked | unread | invalid | unchanged => exact absurd rfl hcalls
    | committed t next response known made changed answer => simp [h] at answer
    | rejected t next response error' known =>
      exact ⟨t, hopen, rfl, restored_response known⟩
    | unknown t next response reason error' known made changed answer => simp [h] at answer
  have hready : ∀ error, (s.step (.todo params read append)).store.recovery ≠ .blocked error := by
    intro error heq
    rw [hstore] at heq
    cases heq
  refine ⟨hbranch, ?_, ?_⟩
  · rw [visible_eq hready (hbranch.symm ▸ ht), visible_eq hopen ht]
  · intro params' read' append'
    rw [System.todo, System.todo, hbranch]
    exact Store.todo_open hready hopen params' _ _

/-- A call that returns has left its list on the branch. -/
lemma ok_todo {params : Value} {read : Read fromStr} {append : Append} {response : Value}
    (h : (s.todo params read append).result = .ok response) :
    ∃ t next, newest s.branch = some t ∧ candidate params t = .ok (response, next) ∧
      (∃ action text error, response = result action next text error) ∧
      (next ≠ t →
        (s.step (.todo params read append)).branch = s.branch ++ [snapshotEntry (stateJson next)] ∧
        newest (s.step (.todo params read append)).branch = some next.shown) := by
  have hbranch : (s.step (.todo params read append)).branch =
      if append.lands fromStr then
        s.branch ++ (appended (s.todo params read append).calls).map snapshotEntry
      else s.branch := rfl
  rw [hbranch]
  have hspec := s.todo_spec params read append
  generalize s.todo params read append = x at hspec h ⊢
  cases hspec with
  | blocked | unread | invalid | rejected | unknown => cases h
  | unchanged t response' known made =>
    obtain rfl := Except.ok.inj h
    exact ⟨t, t, restored_response known, made, (candidate_eq_ok made).1,
      fun hchanged => absurd rfl hchanged⟩
  | committed t next response' known made changed answer =>
    obtain rfl := Except.ok.inj h
    have hnewest := restored_response known
    refine ⟨t, next, hnewest, made, (candidate_eq_ok made).1, fun _ => ?_⟩
    rw [Append.lands, answer]
    exact ⟨rfl, newest_append s.branch ((candidate_eq_ok made).2 (ahead_of_newest hnewest))⟩

variable (fromStr)

/-- In every run each entry is the candidate made of the newest list on the branch, a refused entry
changes nothing, a branch in doubt is left alone until it is restored, and a call that returns has
its list on the branch. -/
theorem run_commits (branch : Branch) (ops : List (Op fromStr)) :
    let s := Run.after step (start branch) ops
    (∀ params (read : Read fromStr) append, ∀ data ∈ appended (s.todo params read append).calls,
      ∃ t response next, newest s.branch = some t ∧ candidate params t = .ok (response, next) ∧
        data = stateJson next) ∧
    (∀ params (read : Read fromStr) append error, appended (s.todo params read append).calls ≠ [] →
      acknowledgement (callRuntime fromStr append.reply) = .rejected error →
        (s.step (.todo params read append)).branch = s.branch ∧
        (s.step (.todo params read append)).visible = s.visible ∧
        ∀ params' (read' : Read fromStr) append',
          ((s.step (.todo params read append)).todo params' read' append').calls =
              (s.todo params' read' append').calls ∧
            ((s.step (.todo params read append)).todo params' read' append').result =
              (s.todo params' read' append').result) ∧
    (∀ (op : Op fromStr) (later : List (Op fromStr)), s.Doubts op → Run.Meets step (fun s op => ¬s.Restores op) (s.step op) later →
      ∀ params (read : Read fromStr) append,
        ((Run.after step (s.step op) later).todo params read append).calls = [] ∧
        ((Run.after step (s.step op) later).command read).calls = []) ∧
    (∀ params (read : Read fromStr) append response, (s.todo params read append).result = .ok response →
      ∃ t next, newest s.branch = some t ∧ candidate params t = .ok (response, next) ∧
        (∃ action text error, response = result action next text error) ∧
        (next ≠ t →
          (s.step (.todo params read append)).branch =
            s.branch ++ [snapshotEntry (stateJson next)] ∧
          newest (s.step (.todo params read append)).branch = some next.shown)) := by
  intro s
  refine ⟨?_, ?_, ?_, ?_⟩
  · intro params read append data hdata
    exact appended_todo hdata
  · intro params read append error hcalls hanswer
    exact rejected_todo hcalls hanswer
  · intro op later hdoubts hlater params read append
    have hblocked : (Run.after step (s.step op) later).Blocked :=
      hlater.invariant (P := Blocked) (fun _ _ h hop => h.step hop) (blocked_of_doubts hdoubts)
    exact hblocked.calls params read append
  · intro params read append response hresult
    exact ok_todo hresult

end System

end Todos
