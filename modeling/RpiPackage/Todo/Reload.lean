import Mathlib.Data.List.Nodup
import RpiPackage.Todo.Commit

/-!
# Reloads

A todo list whose every candidate is written as a snapshot and read back. A snapshot is taken as it
is, so its identifiers may be anything; as long as they are distinct and there are some left, those
that are assigned later are distinct, too, and each of them means one todo.
-/

namespace Todos

open Json Json.Value Result

/-- The list as a reload of its snapshot finds it. -/
def reload (s : TodoState) : TodoState := (parseTodos (stateJson s)).getD s

/-- A call whose candidate is written and read back; a call that fails leaves the list as it is. -/
def callThenReload (s : TodoState) (params : Value) : TodoState :=
  match candidate params s with
  | .ok (_, next) => reload next
  | .error _ => reload s

/-- Identifiers mean one todo each, and there are some left. -/
structure TodoState.Fresh (s : TodoState) : Prop where
  distinct : (s.todos.map Todo.id).Nodup
  below : ∀ todo ∈ s.todos, todo.id < s.nextId

def maxId : UInt64 := 18446744073709551615

/-- A call that adds a todo finds an identifier that is not the last one. -/
def Room (s : TodoState) (params : Value) : Prop :=
  (params.get "action").bind asStr = some "add" → s.nextId < maxId

instance (s : TodoState) (params : Value) : Decidable (Room s params) :=
  inferInstanceAs (Decidable (_ → _))

section

variable {s next : TodoState} {id : UInt64} {f : Todo → Todo} {todos : List Todo} {params : Value}

lemma saturatingSucc_of_lt {n : UInt64} (h : n < maxId) :
    (Rust.saturatingSucc n).toNat = n.toNat + 1 := by
  have hlt := UInt64.lt_iff_toNat_lt.mp h
  have hmax : maxId.toNat = 2 ^ 64 - 1 := rfl
  rw [Rust.toNat_saturatingSucc]
  omega

lemma le_maxId (n : UInt64) : n ≤ maxId := by
  have hlt := n.toNat_lt
  have hmax : maxId.toNat = 2 ^ 64 - 1 := rfl
  rw [UInt64.le_iff_toNat_le]
  omega

/-- An accepted list with distinct identifiers has room, unless the last one is among them. -/
lemma fresh_of_ahead (h : s.Ahead) (hdistinct : (s.todos.map Todo.id).Nodup)
    (hlast : ∀ todo ∈ s.todos, todo.id ≠ maxId) : s.Fresh := by
  refine ⟨hdistinct, ?_⟩
  intro todo htodo
  have hlt : todo.id < maxId := UInt64.lt_of_le_of_ne (le_maxId _) (hlast todo htodo)
  have hle := UInt64.le_iff_toNat_le.mp (h todo htodo)
  rw [saturatingSucc_of_lt hlt] at hle
  exact UInt64.lt_iff_toNat_lt.mpr hle

/-! ### Changes -/

/-- The first todo with an identifier is changed, and no other. -/
lemma changeTodo_eq_some (h : changeTodo id f s.todos = some todos) :
    ∃ before todo after, s.todos = before ++ todo :: after ∧ todo.id = id ∧
      (∀ t ∈ before, t.id ≠ id) ∧ todos = before ++ f todo :: after := by
  generalize s.todos = all at h
  induction all generalizing todos with
  | nil => cases h
  | cons todo all ih =>
    rw [changeTodo] at h
    split at h
    · next hid =>
      obtain rfl := Option.some.inj h
      exact ⟨[], todo, all, rfl, hid, by simp, rfl⟩
    · next hid =>
      obtain ⟨rest, hrest, rfl⟩ := Option.map_eq_some_iff.mp h
      obtain ⟨before, found, after, rfl, hfound, hbefore, rfl⟩ := ih hrest
      refine ⟨todo :: before, found, after, rfl, hfound, ?_, rfl⟩
      intro t ht
      rcases List.mem_cons.mp ht with rfl | ht
      · exact hid
      · exact hbefore t ht

lemma changeTodo_eq_none (h : changeTodo id f todos = none) : ∀ todo ∈ todos, todo.id ≠ id := by
  induction todos with
  | nil => simp
  | cons todo todos ih =>
    rw [changeTodo] at h
    split at h
    · cases h
    · next hid =>
      intro t ht
      rcases List.mem_cons.mp ht with rfl | ht
      · exact hid
      · exact ih (Option.map_eq_none_iff.mp h) t ht

/-- What a call that names a todo makes of the list. -/
structure Changes (s next : TodoState) (id : UInt64) (f : Todo → Todo) : Prop where
  nextId : next.nextId = s.nextId
  one : (next = s ∧ ∀ todo ∈ s.todos, todo.id ≠ id) ∨
    ∃ before todo after, s.todos = before ++ todo :: after ∧ todo.id = id ∧
      (∀ t ∈ before, t.id ≠ id) ∧ next.todos = before ++ f todo :: after

lemma changes_of_change {action : String} {response : Value}
    (h : change action s id f = (response, next)) : Changes s next id f := by
  unfold change at h
  split at h
  · next hnone =>
    obtain ⟨-, rfl⟩ := Prod.mk.inj h
    exact ⟨rfl, .inl ⟨rfl, changeTodo_eq_none hnone⟩⟩
  · next todos hsome =>
    obtain ⟨-, rfl⟩ := Prod.mk.inj h
    exact ⟨rfl, .inr (changeTodo_eq_some hsome)⟩

/-- With distinct identifiers, the todo with an identifier is the only one that is changed. -/
lemma Changes.eq_map (h : Changes s next id f) (hdistinct : (s.todos.map Todo.id).Nodup) :
    next.todos = s.todos.map fun todo => if todo.id = id then f todo else todo := by
  have hothers : ∀ {todos : List Todo}, (∀ todo ∈ todos, todo.id ≠ id) →
      todos.map (fun todo => if todo.id = id then f todo else todo) = todos := by
    intro todos hne
    rw [List.map_congr_left (fun todo htodo => if_neg (hne todo htodo)), List.map_id']
  rcases h.one with ⟨rfl, hne⟩ | ⟨before, todo, after, htodos, hid, hbefore, hnext⟩
  · exact (hothers hne).symm
  · rw [htodos, List.map_append, List.map_cons, List.nodup_append, List.nodup_cons] at hdistinct
    have hafter : ∀ t ∈ after, t.id ≠ id := by
      intro t ht heq
      exact hdistinct.2.1.1 (List.mem_map.mpr ⟨t, ht, heq.trans hid.symm⟩)
    rw [hnext, htodos, List.map_append, List.map_cons, hothers hbefore, hothers hafter, if_pos hid]

lemma ids_of_changes (h : Changes s next id f) (hf : ∀ todo, (f todo).id = todo.id) :
    next.todos.map Todo.id = s.todos.map Todo.id := by
  rcases h.one with ⟨rfl, -⟩ | ⟨before, todo, after, htodos, -, -, hnext⟩
  · rfl
  · rw [htodos, hnext]
    simp [hf]

/-! ### Candidates -/

def Todo.toggled (todo : Todo) : Todo := { todo with done := !todo.done, inProgress := false }

def Todo.updated (status : String) (todo : Todo) : Todo :=
  { todo with done := status == "completed", inProgress := status == "in_progress" }

lemma changes_of_toggle {response : Value} (haction : (params.get "action").bind asStr = some "toggle")
    (hid : (params.get "id").bind asU64 = some id)
    (h : candidate params s = .ok (response, next)) : Changes s next id Todo.toggled := by
  unfold candidate at h
  rw [haction, hid] at h
  exact changes_of_change (Except.ok.inj h)

lemma changes_of_update {response : Value} {status : String}
    (haction : (params.get "action").bind asStr = some "update")
    (hid : (params.get "id").bind asU64 = some id)
    (hstatus : (params.get "status").bind asStr = some status)
    (h : candidate params s = .ok (response, next)) : Changes s next id (Todo.updated status) := by
  unfold candidate at h
  rw [haction, hid, hstatus] at h
  obtain ⟨id', hid', h⟩ := bind_eq_ok.mp h
  obtain rfl := Except.ok.inj hid'
  obtain ⟨status', hstatus', h⟩ := bind_eq_ok.mp h
  obtain rfl := Except.ok.inj hstatus'
  obtain ⟨_, -, h⟩ := bind_eq_ok.mp h
  exact changes_of_change (Except.ok.inj h)

/-- What a call that succeeds makes of the list. -/
lemma candidate_cases {response : Value} (h : candidate params s = .ok (response, next)) :
    next = s ∨ next = .default ∨
      ((params.get "action").bind asStr = some "add" ∧ ∃ text, next = add s text) ∨
        ∃ id f, (∀ todo, (f todo).id = todo.id) ∧ Changes s next id f := by
  unfold candidate at h
  cases haction : (params.get "action").bind asStr with
  | none =>
    rw [haction] at h
    exact .inl (Prod.mk.inj (Except.ok.inj h)).2.symm
  | some action =>
    rw [haction, Option.getD_some] at h
    dsimp only at h
    split at h
    · exact .inl (Prod.mk.inj (Except.ok.inj h)).2.symm
    · split at h
      · exact .inl (Prod.mk.inj (Except.ok.inj h)).2.symm
      · exact .inr (.inr (.inl ⟨rfl, _, (Prod.mk.inj (Except.ok.inj h)).2.symm⟩))
    · obtain ⟨id, -, h⟩ := bind_eq_ok.mp h
      refine .inr (.inr (.inr ⟨id, Todo.toggled, ?_, changes_of_change (Except.ok.inj h)⟩))
      intro todo
      rfl
    · obtain ⟨id, -, h⟩ := bind_eq_ok.mp h
      obtain ⟨status, -, h⟩ := bind_eq_ok.mp h
      obtain ⟨_, -, h⟩ := bind_eq_ok.mp h
      refine .inr (.inr (.inr ⟨id, Todo.updated status, ?_, changes_of_change (Except.ok.inj h)⟩))
      intro todo
      rfl
    · exact .inr (.inl (Prod.mk.inj (Except.ok.inj h)).2.symm)
    · cases h

lemma fresh_default : TodoState.default.Fresh :=
  ⟨List.nodup_nil, fun _ htodo => absurd htodo List.not_mem_nil⟩

lemma fresh_add (h : s.Fresh) (hroom : s.nextId < maxId) (text : String) : (add s text).Fresh := by
  have hnext : s.nextId < Rust.saturatingSucc s.nextId := by
    rw [UInt64.lt_iff_toNat_lt, saturatingSucc_of_lt hroom]
    exact Nat.lt_succ_self _
  refine ⟨?_, ?_⟩
  · rw [add, List.map_append, List.nodup_append]
    refine ⟨h.distinct, List.nodup_singleton _, ?_⟩
    intro id hid id' hid'
    obtain ⟨todo, htodo, rfl⟩ := List.mem_map.mp hid
    rw [List.mem_singleton.mp hid']
    exact UInt64.ne_of_lt (h.below todo htodo)
  · intro todo htodo
    rcases List.mem_append.mp htodo with htodo | htodo
    · exact UInt64.lt_trans (h.below todo htodo) hnext
    · rw [List.mem_singleton.mp htodo]
      exact hnext

lemma fresh_candidate {response : Value} (h : candidate params s = .ok (response, next))
    (hfresh : s.Fresh) (hroom : Room s params) : next.Fresh := by
  rcases candidate_cases h with rfl | rfl | ⟨haction, text, rfl⟩ | ⟨id, f, hf, hchanges⟩
  · exact hfresh
  · exact fresh_default
  · exact fresh_add hfresh (hroom haction) text
  · have hids := ids_of_changes hchanges hf
    refine ⟨hids ▸ hfresh.distinct, ?_⟩
    intro todo htodo
    obtain ⟨old, hold, heq⟩ := List.mem_map.mp (hids ▸ List.mem_map_of_mem htodo : todo.id ∈ _)
    rw [hchanges.nextId, ← heq]
    exact hfresh.below old hold

/-! ### Reloads -/

lemma reload_eq (h : s.Ahead) : reload s = s.shown := by
  rw [reload, parseTodos_stateJson h]
  rfl

lemma shown_shown (s : TodoState) : s.shown.shown = s.shown := by
  simp [TodoState.shown, Todo.shown]

lemma ids_shown (s : TodoState) : s.shown.todos.map Todo.id = s.todos.map Todo.id := by
  simp [TodoState.shown, Todo.shown]

lemma ahead_shown (h : s.Ahead) : s.shown.Ahead := by
  rw [TodoState.ahead_iff] at h ⊢
  rw [ids_shown]
  exact h

lemma fresh_shown (h : s.Fresh) : s.shown.Fresh := by
  refine ⟨by rw [ids_shown]; exact h.distinct, ?_⟩
  intro todo htodo
  obtain ⟨old, hold, rfl⟩ := List.mem_map.mp htodo
  exact h.below old hold

/-- A call and a reload lead to the list of the call, as it is shown. -/
lemma callThenReload_eq (h : s.Ahead) :
    ∃ next, callThenReload s params = next.shown ∧ next.Ahead ∧
      (next = s ∨ ∃ response, candidate params s = .ok (response, next)) := by
  unfold callThenReload
  cases hcandidate : candidate params s with
  | error e => exact ⟨s, reload_eq h, h, .inl rfl⟩
  | ok made =>
    obtain ⟨response, next⟩ := made
    have hnext := (candidate_eq_ok hcandidate).2 h
    exact ⟨next, reload_eq hnext, hnext, .inr ⟨response, rfl⟩⟩

lemma ahead_callThenReload (h : s.Ahead) : (callThenReload s params).Ahead := by
  obtain ⟨next, heq, hnext, -⟩ := @callThenReload_eq s params h
  rw [heq]
  exact ahead_shown hnext

lemma fresh_callThenReload (h : s.Ahead) (hfresh : s.Fresh) (hroom : Room s params) :
    (callThenReload s params).Fresh := by
  obtain ⟨next, heq, -, hnext⟩ := @callThenReload_eq s params h
  rw [heq]
  rcases hnext with rfl | ⟨response, hcandidate⟩
  · exact fresh_shown hfresh
  · exact fresh_shown (fresh_candidate hcandidate hfresh hroom)

/-- The lists of a run: what was accepted, and what calls and reloads have made of it. -/
def calls (s : TodoState) (ops : List Value) : TodoState := Run.after callThenReload s ops

lemma ahead_calls (h : s.Ahead) (ops : List Value) : (calls s ops).Ahead :=
  Run.invariant (fun _ _ => ahead_callThenReload) h ops

lemma shown_calls (h : s.Ahead) {ops : List Value} (hops : ops ≠ []) :
    (calls s ops).shown = calls s ops := by
  obtain ⟨ops, params, rfl⟩ := (List.eq_nil_or_concat' ops).resolve_left hops
  obtain ⟨next, heq, -⟩ := @callThenReload_eq _ params (ahead_calls h ops)
  rw [calls, Run.after_append]
  show (callThenReload (calls s ops) params).shown = callThenReload (calls s ops) params
  rw [heq, shown_shown]

/-- Every list of a run reads back as it is shown, and so as it is once it has been reloaded. A call
that names a todo changes the first one with that identifier at most. If the accepted snapshot has
distinct identifiers and the last one is never assigned, the identifiers stay distinct, the next one
is greater than all of them, and the todo that is changed is the only one with its identifier. -/
theorem calls_spec (value : Value) (s : TodoState) (h : parseTodos value = some s)
    (ops : List Value) :
    parseTodos (stateJson (calls s ops)) = some (calls s ops).shown ∧
      (ops ≠ [] → parseTodos (stateJson (calls s ops)) = some (calls s ops) ∧
        ∀ todo ∈ (calls s ops).todos, ¬(todo.done = true ∧ todo.inProgress = true)) ∧
      (∀ params response next id, candidate params (calls s ops) = .ok (response, next) →
        (params.get "id").bind asU64 = some id →
          ((params.get "action").bind asStr = some "toggle" →
            Changes (calls s ops) next id Todo.toggled) ∧
          ∀ status, (params.get "action").bind asStr = some "update" →
            (params.get "status").bind asStr = some status →
              Changes (calls s ops) next id (Todo.updated status)) ∧
      ((s.todos.map Todo.id).Nodup → (∀ todo ∈ s.todos, todo.id ≠ maxId) →
        Run.Meets callThenReload Room s ops →
          (calls s ops).Fresh ∧
            ∀ next id f, Changes (calls s ops) next id f →
              next.todos = (calls s ops).todos.map
                fun todo => if todo.id = id then f todo else todo) := by
  have hahead := ahead_of_parseTodos h
  have hread := parseTodos_stateJson (ahead_calls hahead ops)
  refine ⟨hread, ?_, ?_, ?_⟩
  · intro hops
    have hshown := shown_calls hahead hops
    refine ⟨hread.trans (congrArg some hshown), ?_⟩
    intro todo htodo hboth
    rw [← hshown] at htodo
    obtain ⟨old, -, rfl⟩ := List.mem_map.mp htodo
    cases hdone : old.done <;> simp [Todo.shown, hdone] at hboth
  · intro params response next id hcandidate hid
    refine ⟨fun haction => changes_of_toggle haction hid hcandidate, ?_⟩
    intro status haction hstatus
    exact changes_of_update haction hid hstatus hcandidate
  · intro hdistinct hlast hroom
    have hfresh : (calls s ops).Fresh := by
      have hstart : s.Ahead ∧ s.Fresh := ⟨hahead, fresh_of_ahead hahead hdistinct hlast⟩
      have hkept : ∀ t params, TodoState.Ahead t ∧ t.Fresh → Room t params →
          (callThenReload t params).Ahead ∧ (callThenReload t params).Fresh :=
        fun t params ht hmeets =>
          ⟨ahead_callThenReload ht.1, fresh_callThenReload ht.1 ht.2 hmeets⟩
      exact (Run.Meets.invariant (P := fun t => TodoState.Ahead t ∧ t.Fresh) hkept hstart hroom).2
    refine ⟨hfresh, ?_⟩
    intro next id f hchanges
    exact hchanges.eq_map hfresh.distinct

end

/-! ### Snapshots that are taken as they are -/

def todoValue (id : UInt64) (text : String) (more : List (String × Value)) : Value :=
  .object ([("id", .number (.posInt id)), ("text", .string text)] ++ more)

def snapshot (todos : List Value) : Value := .object [("todos", .array todos)]

def addParams (text : String) : Value :=
  .object [("action", .string "add"), ("text", .string text)]

def toggleParams (id : UInt64) : Value :=
  .object [("action", .string "toggle"), ("id", .number (.posInt id))]

theorem calls_spec_of_two_calls :
    (calls ⟨[⟨3, "a", true, true⟩], 4⟩ [addParams "b", toggleParams 4]).Fresh ∧
      (calls ⟨[⟨3, "a", true, true⟩], 4⟩ [addParams "b", toggleParams 4]).todos =
        [⟨3, "a", true, false⟩, ⟨4, "b", true, false⟩] := by
  have hspec := calls_spec
    (snapshot [todoValue 3 "a" [("done", .bool true), ("status", .string "in_progress")]])
    ⟨[⟨3, "a", true, true⟩], 4⟩ (by rfl) [addParams "b", toggleParams 4]
  exact ⟨(hspec.2.2.2 (by decide) (by decide) (by decide +kernel)).1, by decide +kernel⟩

/-- Two todos of a snapshot may have one identifier, of which a call changes the first; a todo may
be done and in progress; and the last identifier is assigned again and again. -/
theorem snapshots_as_they_are :
    (parseTodos (snapshot [todoValue 1 "a" [], todoValue 1 "b" []])).map
        (fun s => (s.todos.map Todo.id, (calls s [toggleParams 1]).todos.map Todo.done)) =
      some ([1, 1], [true, false]) ∧
    (parseTodos (snapshot [todoValue 1 "a"
        [("done", .bool true), ("status", .string "in_progress")]])).any
        (fun s => parseTodos (stateJson s) != some s) = true ∧
    (parseTodos (snapshot [todoValue maxId "a" []])).map
        (fun s => ((calls s [addParams "b"]).todos.map Todo.id, (calls s [addParams "b"]).nextId)) =
      some ([maxId, maxId], maxId) := by
  decide +kernel

end Todos
