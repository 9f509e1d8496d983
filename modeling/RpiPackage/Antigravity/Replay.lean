import RpiPackage.Antigravity.Stream

/-!
# The events of a message

A reader rebuilds the blocks of a message from its events alone: a block is started at the next
index, grows by its deltas, and ends with the text that they add up to. No other block is open at
the time.
-/

namespace Antigravity

/-- A block, without its signature. -/
inductive Piece where
  | text (text : String)
  | thinking (thinking : String)
  | toolCall (call : ToolCall)

def Block.piece : Block → Piece
  | .text s _ => .text s
  | .thinking s _ => .thinking s
  | .toolCall c => .toolCall c

/-- The block that has been started and not been ended. -/
inductive Current where
  | text (deltas : String)
  | thinking (deltas : String)
  | toolCall

/-- What has been read: the ended blocks, and the open one. -/
structure Replay where
  ended : List Piece
  current : Option Current

namespace Replay

variable {r r' : Replay} {event : Event} {events events' : List Event}

def new : Replay := ⟨[], none⟩

def begin (r : Replay) (index : Nat) (current : Current) : Option Replay :=
  if r.current.isNone && index == r.ended.length then some { r with current := some current }
  else none

def next (r : Replay) : Event → Option Replay
  | .textStart index _ => r.begin index (.text "")
  | .thinkingStart index _ => r.begin index (.thinking "")
  | .toolcallStart index _ => r.begin index .toolCall
  | .textDelta index delta _ =>
    match r.current with
    | some (.text deltas) =>
      if index = r.ended.length then some { r with current := some (.text (deltas ++ delta)) }
      else none
    | _ => none
  | .thinkingDelta index delta _ =>
    match r.current with
    | some (.thinking deltas) =>
      if index = r.ended.length then some { r with current := some (.thinking (deltas ++ delta)) }
      else none
    | _ => none
  | .textEnd index content _ =>
    match r.current with
    | some (.text deltas) =>
      if index = r.ended.length ∧ content = deltas then some ⟨r.ended ++ [.text deltas], none⟩
      else none
    | _ => none
  | .thinkingEnd index content _ =>
    match r.current with
    | some (.thinking deltas) =>
      if index = r.ended.length ∧ content = deltas then some ⟨r.ended ++ [.thinking deltas], none⟩
      else none
    | _ => none
  | .toolcallEnd index call _ =>
    match r.current with
    | some .toolCall =>
      if index = r.ended.length then some ⟨r.ended ++ [.toolCall call], none⟩ else none
    | _ => none
  | .start _ | .done _ _ | .error _ _ => none

def run (r : Replay) (events : List Event) : Option Replay := events.foldlM next r

@[simp] lemma run_nil (r : Replay) : r.run [] = some r := rfl

@[simp] lemma run_cons (r : Replay) (event : Event) (events : List Event) :
    r.run (event :: events) = (r.next event).bind fun r => r.run events := rfl

lemma run_append (r : Replay) (events events' : List Event) :
    r.run (events ++ events') = (r.run events).bind fun r => r.run events' := by
  induction events generalizing r with
  | nil => rfl
  | cons event events ih =>
    rw [List.cons_append, run_cons, run_cons, Option.bind_assoc]
    congr 1
    funext r
    exact ih r

/-- What can be read can be read up to any moment. -/
lemma run_isSome_left (h : r.run (events ++ events') = some r') : ∃ m, r.run events = some m := by
  rw [run_append] at h
  obtain ⟨m, hm, -⟩ := Option.bind_eq_some_iff.mp h
  exact ⟨m, hm⟩

/-! ### Indices -/

end Replay

/-- The index of the block that an event starts. -/
def Event.startIndex : Event → Option Nat
  | .textStart index _ | .thinkingStart index _ | .toolcallStart index _ => some index
  | _ => none

/-- The index of the block that an event ends. -/
def Event.endIndex : Event → Option Nat
  | .textEnd index _ _ | .thinkingEnd index _ _ | .toolcallEnd index _ _ => some index
  | _ => none

namespace Replay

variable {r r' : Replay} {event : Event} {events : List Event}

/-- The number of blocks that have been started. -/
def started (r : Replay) : Nat := r.ended.length + if r.current.isSome then 1 else 0

/-- An event starts the next block, ends the open one, or does neither. -/
lemma next_indices (h : r.next event = some r') :
    (List.range r'.started = List.range r.started ++ event.startIndex.toList) ∧
      List.range r'.ended.length = List.range r.ended.length ++ event.endIndex.toList := by
  obtain ⟨ended, current⟩ := r
  have hbegin : ∀ (index : Nat) (opened : Current), begin ⟨ended, current⟩ index opened = some r' →
      current = none ∧ index = ended.length ∧ r' = ⟨ended, some opened⟩ := by
    intro index opened hbegin
    unfold begin at hbegin
    split at hbegin
    · rename_i hcond
      rw [Bool.and_eq_true, Option.isNone_iff_eq_none, beq_iff_eq] at hcond
      exact ⟨hcond.1, hcond.2, (Option.some.inj hbegin).symm⟩
    · cases hbegin
  cases event with
  | textStart index _ | thinkingStart index _ | toolcallStart index _ =>
    obtain ⟨rfl, rfl, rfl⟩ := hbegin index _ h
    simp [started, Event.startIndex, Event.endIndex, List.range_succ]
  | textDelta index delta _ | thinkingDelta index delta _ =>
    unfold next at h
    dsimp only at h
    split at h
    · split at h
      · obtain rfl := Option.some.inj h
        simp [started, Event.startIndex, Event.endIndex]
      · cases h
    · cases h
  | textEnd index content _ | thinkingEnd index content _ | toolcallEnd index call _ =>
    unfold next at h
    dsimp only at h
    split at h
    · split at h
      · rename_i hindex
        obtain rfl := Option.some.inj h
        simp [started, Event.startIndex, Event.endIndex, List.range_succ, hindex]
      · cases h
    · cases h
  | start | done | error => cases h

/-- Blocks are started in order, and ended in order. -/
lemma run_indices (h : r.run events = some r') :
    (List.range r'.started = List.range r.started ++ events.filterMap Event.startIndex) ∧
      List.range r'.ended.length =
        List.range r.ended.length ++ events.filterMap Event.endIndex := by
  induction events generalizing r with
  | nil =>
    obtain rfl := Option.some.inj h
    simp
  | cons event events ih =>
    rw [run_cons] at h
    obtain ⟨m, hnext, hrun⟩ := Option.bind_eq_some_iff.mp h
    obtain ⟨hstarted, hended⟩ := next_indices hnext
    obtain ⟨hstarted', hended'⟩ := ih hrun
    rw [hstarted', hended', hstarted, hended, List.append_assoc, List.append_assoc,
      List.filterMap_cons, List.filterMap_cons]
    constructor
    · cases event.startIndex <;> rfl
    · cases event.endIndex <;> rfl

end Replay

end Antigravity
