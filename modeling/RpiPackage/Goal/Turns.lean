import RpiPackage.Goal.Linear

/-!
# Turns of one thread

The operations and the ends of turns, one at a time: a thread finishes one of them before it begins
the next. What has happened is recorded with them, whether or not the host has kept it. As long as
the host keeps each counted turn, and no other state is pending then, the goals that are read are
those that the record leads to.
-/

namespace GoalState

open Function Result

/-- What happens with the next section of a thread: an operation is performed, or a turn ends. -/
def State.seen (s : State) (move : Move) : Option Change :=
  match move.event, s.threads move.thread with
  | .resume now _, .opQueue op goals =>
    match op.perform now goals with
    | .ok _ => some (.operation op now)
    | .error _ => none
  | .resume now _, .turnCount _ => some (.turn now)
  | _, _ => none

/-- Whether the host refuses what it is asked for. -/
def Event.refused : Event → Bool
  | .call _ => false
  | .resume _ ok => !ok

def Turn.isCounted : Turn → Bool
  | .counted _ _ _ => true
  | .noGoal | .inactive => false

/-- Whether the next section of a thread counts a turn. -/
def State.counts (s : State) (move : Move) : Bool :=
  match move.event, s.threads move.thread with
  | .resume now _, .turnCount goals => (countTurn now goals).isCounted
  | _, _ => false

/-- A state of the threads, the goals that were there first, what has happened since, and how many
turns have been said to end. -/
structure Ledger where
  state : State
  initial : Goals
  record : List Change
  ended : Nat

def goalsAfter (initial : Goals) (record : List Change) : Goals := record.foldl Change.apply initial

/-- The number of turns of the active goal, where `n` turns were counted before. -/
def Change.turns (goals : Goals) (n : Nat) : Change → Nat
  | .operation (.start _ _ _ _) _ => 0
  | .operation _ _ => n
  | .turn _ => if goals.active.any (fun goal => goal.status == "active") then n + 1 else n

/-- How many turns have ended while the active goal was there with the status `active`. -/
def turnsAfter (goals : Goals) (n : Nat) : List Change → Nat
  | [] => n
  | change :: record => turnsAfter (change.apply goals) (change.turns goals n) record

def turnsOf (goals : Goals) : Nat := (goals.active.map fun goal => goal.turnsUsed.toNat).getD 0

namespace Ledger

def start (branch : List Entry) : Ledger := ⟨.start branch, stored branch, [], 0⟩

/-- A turn is said to end if the thread is free to hear of it. -/
def endsTurn (l : Ledger) (move : Move) : Bool :=
  move.event == .call .turnEnd && l.state.threads move.thread == .idle

def step (l : Ledger) (move : Move) : Ledger :=
  { l with
    state := l.state.step move
    record := l.record ++ (l.state.seen move).toList
    ended := if l.endsTurn move then l.ended + 1 else l.ended }

def goals (l : Ledger) : Goals := goalsAfter l.initial l.record

/-- There is one thread, and the host finds the branch at the end of a turn. -/
def Sequential (l : Ledger) (move : Move) : Prop :=
  move.thread = 0 ∧ (l.state.threads 0 = .turnBranch → move.event.refused = false)

/-- A turn is only counted while no other state is pending, and the host keeps it. -/
def Kept (l : Ledger) (move : Move) : Prop :=
  l.state.counts move = true → move.event.refused = false ∧ l.state.pending = none

/-- The conditions of a run: one thread, and the host keeps each turn that is counted. -/
def Orderly (l : Ledger) (move : Move) : Prop := l.Sequential move ∧ l.Kept move

instance (l : Ledger) (move : Move) : Decidable (l.Sequential move) :=
  inferInstanceAs (Decidable (_ ∧ _))

instance (l : Ledger) (move : Move) : Decidable (l.Kept move) :=
  inferInstanceAs (Decidable (_ → _))

instance (l : Ledger) (move : Move) : Decidable (l.Orderly move) :=
  inferInstanceAs (Decidable (_ ∧ _))

end Ledger

/-- The goals of the record are those that a thread sees where it is. -/
def Phase.Agrees (pending : Option Goals) (read goals : Goals) : Phase → Prop
  | .opQueue _ held | .turnCount held => held = goals ∧ read = goals
  | .stateAppend held _ | .statePut held _ => held = goals ∧ pending = none
  | .opBranch _ | .turnBranch => pending = none ∧ read = goals
  | _ => read = goals

def Ledger.Agrees (l : Ledger) : Prop :=
  (l.state.threads 0).Agrees l.state.pending l.state.readGoals l.goals

/-- A thread that has no state in its hands and has not found that none is pending. -/
def Phase.plain : Phase → Bool
  | .opQueue _ _ | .turnCount _ | .stateAppend _ _ | .statePut _ _ | .opBranch _ | .turnBranch => false
  | _ => true

/-! ### The thread and the record -/

namespace Ledger

section

variable {l : Ledger} {move : Move} {goals goals' : Goals} {phase : Phase} {now : Int64} {ok : Bool}

@[simp] lemma threads_setPhase_self (s : State) (thread : Nat) (phase : Phase) :
    (s.setPhase thread phase).threads thread = phase :=
  Function.update_self _ _ _

lemma goals_step_none (h : l.state.seen move = none) : (l.step move).goals = l.goals := by
  unfold step goals
  rw [h, Option.toList_none, List.append_nil]

lemma goals_step_some {change : Change} (h : l.state.seen move = some change) :
    (l.step move).goals = change.apply l.goals := by
  unfold step goals goalsAfter
  rw [h, Option.toList_some, List.foldl_append]
  rfl

lemma agrees_of_plain (hplain : (l.state.threads 0).plain = true) :
    l.Agrees ↔ l.state.readGoals = l.goals := by
  unfold Agrees
  cases hphase : l.state.threads 0 <;> first | rfl | (rw [hphase] at hplain; cases hplain)

lemma plain_afterNotice (turn : Bool) : (State.afterNotice turn).plain = true := by
  cases turn <;> rfl

lemma plain_afterFlush (flushed : Bool) (next : Next) : (State.afterFlush flushed next).plain = true := by
  cases next with
  | nothing => rfl
  | notice turn => cases flushed with
    | true => rfl
    | false => exact plain_afterNotice turn

lemma readGoals_eq {s s' : State} (hpending : s'.pending = s.pending)
    (hstored : stored s'.branch = stored s.branch) : s'.readGoals = s.readGoals := by
  unfold State.readGoals
  rw [hpending, hstored]

/-- A move that neither shows in the record nor changes what is read. -/
lemma agrees_of_quiet (hread : l.state.readGoals = l.goals) (hseen : l.state.seen move = none)
    (hsame : (l.state.step move).readGoals = l.state.readGoals)
    (hplain : ((l.state.step move).threads 0).plain = true) : (l.step move).Agrees := by
  have hafter : (l.step move).state.threads 0 = (l.state.step move).threads 0 := rfl
  rw [agrees_of_plain (by rw [hafter]; exact hplain), goals_step_none hseen, ← hread, ← hsame]
  rfl

lemma agrees_call (h : l.Agrees) (c : Call) : (l.step ⟨0, .call c⟩).Agrees := by
  have hseen : l.state.seen ⟨0, .call c⟩ = none := rfl
  by_cases hidle : l.state.threads 0 = .idle
  · have hread := (agrees_of_plain (by rw [hidle]; rfl)).mp h
    have hstep : l.state.step ⟨0, .call c⟩ = l.state.begin 0 c := if_pos hidle
    apply agrees_of_quiet hread hseen
    · rw [hstep]
      cases c with
      | operation op =>
        unfold State.begin
        dsimp only
        split <;> rfl
      | flushState | flush | turnEnd => rfl
    · rw [hstep]
      cases c with
      | operation op =>
        unfold State.begin
        dsimp only
        split
        · rw [threads_setPhase_self]
          rfl
        · rw [hidle]
          rfl
      | flushState | flush | turnEnd =>
        unfold State.begin
        rw [threads_setPhase_self]
        rfl
  · have hsame : l.step ⟨0, .call c⟩ = l := by
      unfold step
      rw [hseen, Option.toList_none, List.append_nil, State.step]
      simp [endsTurn, hidle]
    rw [hsame]
    exact h

@[simp] lemma readGoals_setPhase (s : State) (thread : Nat) (phase : Phase) :
    (s.setPhase thread phase).readGoals = s.readGoals := rfl

@[simp] lemma readGoals_append_message (s : State) (goal : Goal) (text : String) :
    (s.append (.message goal text)).readGoals = s.readGoals :=
  readGoals_eq rfl (stored_append_message s.branch goal text)

/-- The sections that have to do with notices, or with nothing. -/
def noticing : Phase → Bool
  | .idle | .opNotice _ | .noticeTake _ | .noticeInject _ _ | .noticeSettle _ _ _ | .turnNotice _ _
  | .turnCheck _ | .turnInject _ => true
  | _ => false

lemma resume_noticing {s : State} (h : noticing (s.threads 0) = true) :
    (s.resume 0 now ok).readGoals = s.readGoals ∧
      ((s.resume 0 now ok).threads 0).plain = true ∧ s.seen ⟨0, .resume now ok⟩ = none := by
  cases hphase : s.threads 0 with
  | idle => simp [State.resume, State.seen, hphase, Phase.plain]
  | opNotice goal =>
    refine ⟨?_, ?_, ?_⟩
    · simp only [State.resume, hphase, readGoals_setPhase]
      rfl
    · simp [State.resume, hphase, Phase.plain]
    · simp [State.seen, hphase]
  | noticeTake turn =>
    refine ⟨?_, ?_, ?_⟩
    · simp only [State.resume, hphase]
      split <;> rfl
    · simp only [State.resume, hphase]
      split
      · rw [threads_setPhase_self]
        exact plain_afterNotice turn
      · rw [threads_setPhase_self]
        rfl
    · simp [State.seen, hphase]
  | noticeInject pending turn =>
    refine ⟨?_, ?_, ?_⟩
    · simp only [State.resume, hphase, readGoals_setPhase]
      split
      · exact readGoals_append_message s _ _
      · rfl
    · simp [State.resume, hphase, Phase.plain]
    · simp [State.seen, hphase]
  | noticeSettle pending delivered turn =>
    refine ⟨?_, ?_, ?_⟩
    · simp only [State.resume, hphase]
      split
      · rfl
      · split <;> rfl
    · simp only [State.resume, hphase]
      split
      · rw [threads_setPhase_self]
        exact plain_afterNotice turn
      · split
        · rw [threads_setPhase_self]
          exact plain_afterNotice turn
        · rw [threads_setPhase_self]
          exact plain_afterNotice turn
    · simp [State.seen, hphase]
  | turnNotice goal reason =>
    refine ⟨?_, ?_, ?_⟩
    · simp only [State.resume, hphase, readGoals_setPhase]
      rfl
    · simp [State.resume, hphase, Phase.plain]
    · simp [State.seen, hphase]
  | turnCheck goal =>
    refine ⟨?_, ?_, ?_⟩
    · simp only [State.resume, hphase]
      split <;> rfl
    · simp only [State.resume, hphase]
      split
      · rw [threads_setPhase_self]
        rfl
      · rw [threads_setPhase_self]
        rfl
    · simp [State.seen, hphase]
  | turnInject goal =>
    refine ⟨?_, ?_, ?_⟩
    · simp only [State.resume, hphase]
      split
      · exact readGoals_append_message s _ _
      · rfl
    · simp only [State.resume, hphase]
      split
      · rw [threads_setPhase_self]
        rfl
      · rw [threads_setPhase_self]
        rfl
    · simp [State.seen, hphase]
  | opRead | opBranch | opQueue | stateTake | stateAppend | statePut | turnRead | turnBranch
  | turnCount =>
    rw [hphase] at h
    cases h

/-- A move after which a thread is in a phase, and the goals of the record are as given. -/
lemma agrees_setPhase {s : State} (hstep : l.state.step move = s.setPhase 0 phase)
    (hgoals : (l.step move).goals = goals) (h : phase.Agrees s.pending s.readGoals goals) :
    (l.step move).Agrees := by
  have hstate : (l.step move).state = s.setPhase 0 phase := hstep
  unfold Agrees
  rw [hstate, hgoals, threads_setPhase_self]
  exact h

lemma agrees_plain {pending : Option Goals} {read goals : Goals} (hplain : phase.plain = true)
    (h : read = goals) : phase.Agrees pending read goals := by
  cases phase <;> first | exact h | cases hplain

lemma held_eq {s : State} {held : Goals} (h : s.readGoals = goals) (hpending : s.pending = some held) :
    held = goals := by
  rw [← h, State.readGoals, hpending]
  rfl

lemma stored_eq_of_none {s : State} (hpending : s.pending = none) (h : s.readGoals = goals) :
    stored s.branch = goals := by
  rw [← h, State.readGoals, hpending]
  rfl

lemma readGoals_append_state {s : State} (hpending : s.pending = none) :
    (s.append (.state goals)).readGoals = goals := by
  have hstored := stored_append_state s.branch goals
  unfold State.readGoals State.append
  rw [hpending]
  exact hstored

lemma agrees_step (h : l.Agrees) (hsequential : l.Sequential move) (hkept : l.Kept move) :
    (l.step move).Agrees := by
  obtain ⟨hthread, -⟩ := hsequential
  obtain ⟨thread, event⟩ := move
  obtain rfl : thread = 0 := hthread
  cases event with
  | call c => exact agrees_call h c
  | resume now ok =>
    by_cases hnoticing : noticing (l.state.threads 0) = true
    · obtain ⟨hsame, hplain, hseen⟩ := @resume_noticing now ok l.state hnoticing
      refine agrees_of_quiet ((agrees_of_plain ?_).mp h) hseen hsame hplain
      revert hnoticing
      cases l.state.threads 0 <;> simp [noticing, Phase.plain]
    have hstep : l.state.step ⟨0, .resume now ok⟩ = l.state.resume 0 now ok := rfl
    unfold Agrees at h
    cases hphase : l.state.threads 0 with
    | opRead op =>
      rw [hphase] at h
      have hgoals := @goals_step_none l ⟨0, .resume now ok⟩ (by simp [State.seen, hphase])
      rw [State.resume, hphase] at hstep
      cases hpending : l.state.pending with
      | none =>
        rw [hpending] at hstep
        exact agrees_setPhase hstep hgoals ⟨hpending, h⟩
      | some held =>
        rw [hpending] at hstep
        exact agrees_setPhase hstep hgoals ⟨held_eq h hpending, h⟩
    | opBranch op =>
      rw [hphase] at h
      have hgoals := @goals_step_none l ⟨0, .resume now ok⟩ (by simp [State.seen, hphase])
      rw [State.resume, hphase] at hstep
      refine agrees_setPhase hstep hgoals ?_
      split
      · exact ⟨stored_eq_of_none h.1 h.2, h.2⟩
      · exact h.2
    | opQueue op held =>
      rw [hphase] at h
      obtain ⟨rfl, hread⟩ := h
      rw [State.resume, hphase] at hstep
      dsimp only at hstep
      cases hperform : op.perform now l.goals with
      | error e =>
        rw [hperform] at hstep
        have hgoals := @goals_step_none l ⟨0, .resume now ok⟩ (by simp [State.seen, hphase, hperform])
        exact agrees_setPhase hstep hgoals hread
      | ok made =>
        obtain ⟨made, goal⟩ := made
        rw [hperform] at hstep
        have hgoals := @goals_step_some l ⟨0, .resume now ok⟩ (.operation op now)
          (by simp [State.seen, hphase, hperform])
        refine agrees_setPhase hstep hgoals ?_
        show made = Change.apply l.goals (.operation op now)
        rw [Change.apply, hperform]
    | stateTake next =>
      rw [hphase] at h
      have hgoals := @goals_step_none l ⟨0, .resume now ok⟩ (by simp [State.seen, hphase])
      rw [State.resume, hphase] at hstep
      dsimp only at hstep
      cases hpending : l.state.pending with
      | none =>
        rw [hpending] at hstep
        exact agrees_setPhase hstep hgoals (agrees_plain (plain_afterFlush true next) h)
      | some held =>
        rw [hpending] at hstep
        exact agrees_setPhase hstep hgoals ⟨held_eq h hpending, rfl⟩
    | stateAppend held next =>
      rw [hphase] at h
      obtain ⟨rfl, hpending⟩ := h
      have hgoals := @goals_step_none l ⟨0, .resume now ok⟩ (by simp [State.seen, hphase])
      rw [State.resume, hphase] at hstep
      dsimp only at hstep
      cases ok with
      | true =>
        refine agrees_setPhase hstep hgoals (agrees_plain (plain_afterFlush true next) ?_)
        exact readGoals_append_state hpending
      | false => exact agrees_setPhase hstep hgoals ⟨rfl, hpending⟩
    | statePut held next =>
      rw [hphase] at h
      obtain ⟨rfl, hpending⟩ := h
      have hgoals := @goals_step_none l ⟨0, .resume now ok⟩ (by simp [State.seen, hphase])
      rw [State.resume, hphase] at hstep
      exact agrees_setPhase hstep hgoals (agrees_plain (plain_afterFlush false next) rfl)
    | turnRead =>
      rw [hphase] at h
      have hgoals := @goals_step_none l ⟨0, .resume now ok⟩ (by simp [State.seen, hphase])
      rw [State.resume, hphase] at hstep
      cases hpending : l.state.pending with
      | none =>
        rw [hpending] at hstep
        exact agrees_setPhase hstep hgoals ⟨hpending, h⟩
      | some held =>
        rw [hpending] at hstep
        exact agrees_setPhase hstep hgoals ⟨held_eq h hpending, h⟩
    | turnBranch =>
      rw [hphase] at h
      have hgoals := @goals_step_none l ⟨0, .resume now ok⟩ (by simp [State.seen, hphase])
      rw [State.resume, hphase] at hstep
      refine agrees_setPhase hstep hgoals ?_
      split
      · exact ⟨stored_eq_of_none h.1 h.2, h.2⟩
      · exact h.2
    | turnCount held =>
      rw [hphase] at h
      obtain ⟨rfl, hread⟩ := h
      have hgoals := @goals_step_some l ⟨0, .resume now ok⟩ (.turn now) (by simp [State.seen, hphase])
      rw [State.resume, hphase] at hstep
      dsimp only at hstep
      cases hcount : countTurn now l.goals with
      | noGoal =>
        rw [hcount] at hstep
        refine agrees_setPhase hstep hgoals ?_
        rw [Change.apply, hcount]
        exact hread
      | inactive =>
        rw [hcount] at hstep
        refine agrees_setPhase hstep hgoals ?_
        rw [Change.apply, hcount]
        exact hread
      | counted made goal exhausted =>
        rw [hcount] at hstep
        obtain ⟨hkept, hpending⟩ := hkept (by simp [State.counts, hphase, hcount, Turn.isCounted])
        obtain rfl : ok = true := by simpa [Event.refused] using hkept
        have hmade : Change.apply l.goals (.turn now) = made := by rw [Change.apply, hcount]
        refine agrees_setPhase hstep hgoals (agrees_plain ?_ ?_)
        · cases exhausted <;> rfl
        · rw [hmade]
          exact readGoals_append_state hpending
    | idle | opNotice | noticeTake | noticeInject | noticeSettle | turnNotice | turnCheck
    | turnInject =>
      rw [hphase] at hnoticing
      exact absurd rfl hnoticing

end

/-! ### Each turn that ends is recorded -/

/-- The thread is at the end of a turn that is not recorded yet. -/
def inTurn : Phase → Bool
  | .stateTake next | .stateAppend _ next | .statePut _ next => next == .notice true
  | .noticeTake turn | .noticeInject _ turn | .noticeSettle _ _ turn => turn
  | .turnRead | .turnBranch | .turnCount _ => true
  | _ => false

def isTurn : Change → Bool
  | .turn _ => true
  | .operation _ _ => false

/-- Each turn that has ended is in the record, or the thread is about to record it. -/
def Recorded (l : Ledger) : Prop :=
  l.ended = l.record.countP isTurn + (inTurn (l.state.threads 0)).toNat

section

variable {l : Ledger} {move : Move}

lemma inTurn_afterNotice (turn : Bool) : inTurn (State.afterNotice turn) = turn := by
  cases turn <;> rfl

lemma inTurn_afterFlush (flushed : Bool) (next : Next) :
    inTurn (State.afterFlush flushed next) = (next == .notice true) := by
  cases next with
  | nothing => rfl
  | notice turn => cases flushed <;> cases turn <;> rfl

lemma recorded_resume {s : State} {now : Int64} {ok : Bool}
    (hreads : s.threads 0 = .turnBranch → ok = true) :
    (s.seen ⟨0, .resume now ok⟩).toList.countP isTurn +
      (inTurn ((s.resume 0 now ok).threads 0)).toNat = (inTurn (s.threads 0)).toNat := by
  have hquiet : ∀ {phase phase' : Phase}, inTurn phase' = inTurn phase →
      (none : Option Change).toList.countP isTurn + (inTurn phase').toNat = (inTurn phase).toNat := by
    intro phase phase' h
    rw [h]
    exact Nat.zero_add _
  cases hphase : s.threads 0 with
  | idle | opNotice | noticeInject | turnNotice =>
    simp only [State.seen, State.resume, hphase, threads_setPhase_self]
    exact hquiet rfl
  | opRead op =>
    simp only [State.seen, State.resume, hphase]
    split <;> exact hquiet rfl
  | opBranch op => cases ok <;> simp only [State.seen, State.resume, hphase] <;> exact hquiet rfl
  | opQueue op held =>
    simp only [State.seen, State.resume, hphase]
    cases op.perform now held <;> rfl
  | stateTake next =>
    simp only [State.seen, State.resume, hphase]
    cases s.pending with
    | none => exact hquiet (inTurn_afterFlush true next)
    | some held => exact hquiet rfl
  | stateAppend held next =>
    simp only [State.seen, State.resume, hphase]
    cases ok with
    | true => exact hquiet (inTurn_afterFlush true next)
    | false => exact hquiet rfl
  | statePut held next =>
    simp only [State.seen, State.resume, hphase]
    exact hquiet (inTurn_afterFlush false next)
  | noticeTake turn =>
    simp only [State.seen, State.resume, hphase]
    cases s.notice with
    | none => exact hquiet (inTurn_afterNotice turn)
    | some pending => exact hquiet rfl
  | noticeSettle pending delivered turn =>
    simp only [State.seen, State.resume, hphase]
    split
    · exact hquiet (inTurn_afterNotice turn)
    · split <;> exact hquiet (inTurn_afterNotice turn)
  | turnRead =>
    simp only [State.seen, State.resume, hphase]
    cases s.pending <;> exact hquiet rfl
  | turnBranch =>
    obtain rfl := hreads hphase
    simp only [State.seen, State.resume, hphase]
    exact hquiet rfl
  | turnCount held =>
    simp only [State.seen, State.resume, hphase]
    cases countTurn now held with
    | noGoal | inactive => rfl
    | counted made goal exhausted => cases exhausted <;> rfl
  | turnCheck goal =>
    simp only [State.seen, State.resume, hphase]
    split <;> exact hquiet rfl
  | turnInject goal =>
    simp only [State.seen, State.resume, hphase]
    cases ok <;> exact hquiet rfl

lemma recorded_step (h : l.Recorded) (hsequential : l.Sequential move) :
    (l.step move).Recorded := by
  obtain ⟨hthread, hreads⟩ := hsequential
  obtain ⟨thread, event⟩ := move
  obtain rfl : thread = 0 := hthread
  unfold Recorded at h ⊢
  cases event with
  | call c =>
    have hrecord : (l.step ⟨0, .call c⟩).record = l.record := List.append_nil _
    rw [hrecord]
    by_cases hidle : l.state.threads 0 = .idle
    · have hstate : (l.step ⟨0, .call c⟩).state = l.state.begin 0 c := if_pos hidle
      rw [hidle] at h
      rw [hstate]
      cases c with
      | operation op =>
        have hended : (l.step ⟨0, .call (.operation op)⟩).ended = l.ended := rfl
        rw [hended, h]
        unfold State.begin
        dsimp only
        split
        · rw [threads_setPhase_self]
          rfl
        · rw [hidle]
      | flushState | flush => exact h
      | turnEnd =>
        have hended : (l.step ⟨0, .call .turnEnd⟩).ended = l.ended + 1 := by
          simp [step, endsTurn, hidle]
        rw [hended, h]
        rfl
    · have hended : (l.step ⟨0, .call c⟩).ended = l.ended := by
        simp [step, endsTurn, hidle]
      have hstate : (l.step ⟨0, .call c⟩).state = l.state := if_neg hidle
      rw [hended, hstate, h]
  | resume now ok =>
    have hended : (l.step ⟨0, .resume now ok⟩).ended = l.ended := rfl
    have hrecord : (l.step ⟨0, .resume now ok⟩).record =
        l.record ++ (l.state.seen ⟨0, .resume now ok⟩).toList := rfl
    have hstate : (l.step ⟨0, .resume now ok⟩).state = l.state.resume 0 now ok := rfl
    have hresume := @recorded_resume l.state now ok (by
      intro hphase
      simpa [Event.refused] using hreads hphase)
    rw [hended, hrecord, hstate, h, List.countP_append]
    omega

end

/-! ### What the record says -/

section

variable {goals : Goals} {goal : Goal} {change : Change} {n : Nat}

/-- A new goal is active and has no turns; another operation leaves the turns of the goal alone, and
its status unless it updates that, or takes the goal away. -/
lemma perform_cases {op : Operation} {now : Int64} {goals' : Goals}
    (h : op.perform now goals = .ok (goals', goal)) :
    (∃ title notes maxTurns deadlineMs, op = .start title notes maxTurns deadlineMs ∧
        goals'.active = some goal ∧ goal.turnsUsed = 0) ∨
      (op = .complete ∧ goals'.active = none) ∨
      ∃ old, goals.active = some old ∧ goals'.active = some goal ∧
        goal.turnsUsed = old.turnsUsed ∧
          (goal.status = old.status ∨
            ∃ notes, op = .update notes (some goal.status) ∧ goal.status ∈ ["active", "paused"]) ∧
          ∀ title notes maxTurns deadlineMs, op ≠ .start title notes maxTurns deadlineMs := by
  cases op with
  | start title notes maxTurns deadlineMs =>
    obtain ⟨rfl, rfl⟩ := Prod.mk.inj (Except.ok.inj h)
    exact .inl ⟨title, notes, maxTurns, deadlineMs, rfl, rfl, rfl⟩
  | complete =>
    obtain ⟨old, hold, h⟩ := bind_eq_ok.mp h
    obtain ⟨rfl, rfl⟩ := Prod.mk.inj (Except.ok.inj h)
    exact .inr (.inl ⟨rfl, rfl⟩)
  | setLimits maxTurns deadlineMs =>
    obtain ⟨old, hold, h⟩ := bind_eq_ok.mp h
    obtain ⟨rfl, rfl⟩ := Prod.mk.inj (Except.ok.inj h)
    refine .inr (.inr ⟨old, okOr_eq_ok.mp hold, rfl, rfl, .inl rfl, ?_⟩)
    intros
    exact Operation.noConfusion
  | update notes status =>
    obtain ⟨old, hold, h⟩ := bind_eq_ok.mp h
    have hstatus : ∃ notes' status',
        (status = none ∧ status' = old.status ∨
          status = some status' ∧ status' ∈ ["active", "paused"]) ∧
        goals' = ⟨some { old with notes := notes', status := status', updatedAt := now },
          goals.archived⟩ ∧
        goal = { old with notes := notes', status := status', updatedAt := now } := by
      cases notes with
      | none =>
        cases status with
        | none =>
          obtain ⟨rfl, rfl⟩ := Prod.mk.inj (Except.ok.inj h)
          exact ⟨_, _, .inl ⟨rfl, rfl⟩, rfl, rfl⟩
        | some status =>
          obtain ⟨notes', -, h⟩ := bind_eq_ok.mp h
          obtain ⟨_, hcheck, h⟩ := bind_eq_ok.mp h
          obtain ⟨rfl, rfl⟩ := Prod.mk.inj (Except.ok.inj h)
          exact ⟨_, _, .inr ⟨rfl, not_not.mp (failIf_eq_ok.mp hcheck)⟩, rfl, rfl⟩
      | some notes =>
        obtain ⟨notes', -, h⟩ := bind_eq_ok.mp h
        cases status with
        | none =>
          obtain ⟨rfl, rfl⟩ := Prod.mk.inj (Except.ok.inj h)
          exact ⟨_, _, .inl ⟨rfl, rfl⟩, rfl, rfl⟩
        | some status =>
          obtain ⟨_, hcheck, h⟩ := bind_eq_ok.mp h
          obtain ⟨rfl, rfl⟩ := Prod.mk.inj (Except.ok.inj h)
          exact ⟨_, _, .inr ⟨rfl, not_not.mp (failIf_eq_ok.mp hcheck)⟩, rfl, rfl⟩
    obtain ⟨notes', status', hstatus, rfl, rfl⟩ := hstatus
    refine .inr (.inr ⟨old, okOr_eq_ok.mp hold, rfl, rfl, ?_, ?_⟩)
    · rcases hstatus with ⟨-, rfl⟩ | ⟨rfl, hmem⟩
      · exact .inl rfl
      · exact .inr ⟨notes, rfl, hmem⟩
    · intros
      exact Operation.noConfusion

/-- Whether the work on a goal has to stop at the end of a turn. -/
def Spent (goal : Goal) (turns : Nat) (now : Int64) : Prop :=
  (∃ max, goal.maxTurns = some max ∧ max.toNat ≤ turns) ∨
    ∃ deadline, goal.deadlineMs = some deadline ∧ deadline ≤ now

lemma exhausted_eq_none_iff {counted : Goal} :
    exhausted counted = none ↔
      ¬Spent counted counted.turnsUsed.toNat counted.updatedAt := by
  unfold exhausted Spent
  cases hmax : counted.maxTurns.filter fun max => decide (max ≤ counted.turnsUsed) with
  | some max =>
    obtain ⟨hmem, hle⟩ := Option.mem_filter_iff.mp hmax
    have hle := UInt32.le_iff_toNat_le.mp (of_decide_eq_true hle)
    simp only [reduceCtorEq, false_iff, not_not]
    exact .inl ⟨max, hmem, hle⟩
  | none =>
    rw [Option.filter_eq_none_iff] at hmax
    rw [Option.map_eq_none_iff, Option.filter_eq_none_iff]
    simp only [decide_eq_true_eq, UInt32.le_iff_toNat_le] at hmax ⊢
    constructor
    · intro hdeadline
      rintro (⟨max, hmem, hle⟩ | ⟨deadline, hmem, hle⟩)
      · exact hmax max hmem hle
      · exact hdeadline deadline hmem hle
    · intro hspent deadline hmem hle
      exact hspent (.inr ⟨deadline, hmem, hle⟩)

/-- The goal of a turn that is counted. -/
lemma apply_turn {now : Int64} (hgoal : goals.active = some goal) (hactive : goal.status = "active") :
    ∃ counted, ((Change.turn now).apply goals).active = some counted ∧
      counted.turnsUsed = Rust.saturatingSucc32 goal.turnsUsed ∧
        ((Spent goal counted.turnsUsed.toNat now ∧ counted.status = "paused") ∨
          (¬Spent goal counted.turnsUsed.toNat now ∧ counted.status = "active")) := by
  have hiff := @exhausted_eq_none_iff
    { goal with turnsUsed := Rust.saturatingSucc32 goal.turnsUsed, updatedAt := now }
  unfold Change.apply countTurn
  rw [hgoal]
  dsimp only
  rw [if_neg (not_not.mpr hactive)]
  cases hexhausted : exhausted
      { goal with turnsUsed := Rust.saturatingSucc32 goal.turnsUsed, updatedAt := now } with
  | none => exact ⟨_, rfl, rfl, .inr ⟨hiff.mp hexhausted, hactive⟩⟩
  | some reason =>
    rw [hexhausted] at hiff
    exact ⟨_, rfl, rfl, .inl ⟨not_not.mp fun h => (nomatch hiff.mpr h), rfl⟩⟩

lemma apply_turn_of_inactive {now : Int64} (h : ∀ goal, goals.active = some goal → goal.status ≠ "active") :
    (Change.turn now).apply goals = goals := by
  unfold Change.apply countTurn
  cases hgoal : goals.active with
  | none => rfl
  | some goal =>
    dsimp only
    rw [if_pos (h goal hgoal)]

/-- The active goal has the number of its turns, as far as that can be held. -/
def Counts (goals : Goals) (n : Nat) : Prop :=
  ∀ goal, goals.active = some goal → goal.turnsUsed.toNat = min n (2 ^ 32 - 1)

lemma counts_apply (h : Counts goals n) : Counts (change.apply goals) (change.turns goals n) := by
  intro goal hgoal
  cases change with
  | operation op now =>
    have hturns : (∀ title notes maxTurns deadlineMs, op ≠ .start title notes maxTurns deadlineMs) →
        Change.turns goals n (.operation op now) = n := by
      intro hne
      cases op with
      | start title notes maxTurns deadlineMs => exact absurd rfl (hne title notes maxTurns deadlineMs)
      | update | setLimits | complete => rfl
    rw [Change.apply] at hgoal
    cases hperform : op.perform now goals with
    | error e =>
      rw [hperform] at hgoal
      rw [hturns (by
        rintro title notes maxTurns deadlineMs rfl
        cases hperform)]
      exact h goal hgoal
    | ok made =>
      obtain ⟨made, goal'⟩ := made
      rw [hperform] at hgoal
      dsimp only at hgoal
      rcases perform_cases hperform with ⟨title, notes, max, deadline, rfl, hmade, hzero⟩ | ⟨-, hmade⟩ |
        ⟨old, hold, hmade, hsame, -, hne⟩
      · obtain rfl := Option.some.inj (hmade.symm.trans hgoal)
        rw [hzero]
        exact (Nat.zero_min _).symm
      · rw [hmade] at hgoal
        cases hgoal
      · obtain rfl := Option.some.inj (hmade.symm.trans hgoal)
        rw [hsame, hturns hne]
        exact h old hold
  | turn now =>
    by_cases hactive : ∃ old, goals.active = some old ∧ old.status = "active"
    · obtain ⟨old, hold, hactive⟩ := hactive
      obtain ⟨counted, hcounted, hused, -⟩ := @apply_turn goals old now hold hactive
      obtain rfl := Option.some.inj (hcounted.symm.trans hgoal)
      have hturns : Change.turns goals n (.turn now) = n + 1 := by simp [Change.turns, hold, hactive]
      have hbefore := h old hold
      rw [hused, hturns, Rust.toNat_saturatingSucc32, hbefore]
      omega
    · have hinactive : ∀ old, goals.active = some old → old.status ≠ "active" :=
        fun old hold hstatus => hactive ⟨old, hold, hstatus⟩
      rw [apply_turn_of_inactive hinactive] at hgoal
      have hturns : Change.turns goals n (.turn now) = n := by
        have := hinactive goal hgoal
        simp [Change.turns, hgoal, this]
      rw [hturns]
      exact h goal hgoal

lemma counts_after (h : Counts goals n) (record : List Change) :
    Counts (goalsAfter goals record) (turnsAfter goals n record) := by
  induction record generalizing goals n with
  | nil => exact h
  | cons change record ih => exact ih (counts_apply h)

lemma counts_turnsOf (goals : Goals) : Counts goals (turnsOf goals) := by
  intro goal hgoal
  have hlt := goal.turnsUsed.toNat_lt
  rw [turnsOf, hgoal]
  show goal.turnsUsed.toNat = min goal.turnsUsed.toNat _
  omega

lemma goalsAfter_concat (initial : Goals) (before : List Change) (change : Change) :
    goalsAfter initial (before ++ [change]) = change.apply (goalsAfter initial before) :=
  List.foldl_concat _ _ _ _

/-- What ends a pause: a new goal, the end of the goal, or an update of its status. -/
def resumes : Change → Bool
  | .operation (.start _ _ _ _) _ | .operation .complete _ => true
  | .operation (.update _ status) _ => status == some "active"
  | _ => false

lemma paused_apply (hgoal : goals.active = some goal) (hpaused : goal.status = "paused")
    (hresumes : resumes change = false) :
    ∃ kept, (change.apply goals).active = some kept ∧ kept.status = "paused" ∧
      kept.turnsUsed = goal.turnsUsed := by
  cases change with
  | turn now =>
    have hinactive : ∀ old, goals.active = some old → old.status ≠ "active" := by
      intro old hold hactive
      obtain rfl := Option.some.inj (hgoal.symm.trans hold)
      rw [hpaused] at hactive
      exact absurd hactive (by decide)
    rw [apply_turn_of_inactive hinactive]
    exact ⟨goal, hgoal, hpaused, rfl⟩
  | operation op now =>
    rw [Change.apply]
    cases hperform : op.perform now goals with
    | error e => exact ⟨goal, hgoal, hpaused, rfl⟩
    | ok made =>
      obtain ⟨made, goal'⟩ := made
      rcases perform_cases hperform with ⟨title, notes, max, deadline, rfl, -⟩ | ⟨rfl, -⟩ |
        ⟨old, hold, hmade, hsame, hstatus, -⟩
      · cases hresumes
      · cases hresumes
      · obtain rfl := Option.some.inj (hgoal.symm.trans hold)
        refine ⟨goal', hmade, ?_, hsame⟩
        rcases hstatus with hstatus | ⟨notes, rfl, hmem⟩
        · rw [hstatus, hpaused]
        · simp only [List.mem_cons, List.not_mem_nil, or_false] at hmem
          rcases hmem with hactive | hpaused'
          · rw [hactive] at hresumes
            cases hresumes
          · exact hpaused'

end

lemma invariant_run (branch : List Entry) (moves : List Move)
    (h : Run.Meets step Orderly (start branch) moves) :
    (Run.after step (start branch) moves).Agrees ∧
      (Run.after step (start branch) moves).Recorded := by
  refine Run.Meets.invariant (P := fun l => l.Agrees ∧ l.Recorded) ?_ ⟨rfl, rfl⟩ h
  intro l move hl hmove
  exact ⟨agrees_step hl.1 hmove.1 hmove.2, recorded_step hl.2 hmove.1⟩

/-- As long as the host keeps each counted turn, the goal that is read has the number of the turns
that have ended while it was active, it is paused by the turn that spends a budget and by no turn
before, and it stays paused until it is resumed. -/
theorem turn_budget (branch : List Entry) (moves : List Move)
    (h : Run.Meets step Orderly (start branch) moves) (l : Ledger)
    (hl : l = Run.after step (start branch) moves) (hidle : l.state.threads 0 = .idle) :
    l.ended = l.record.countP isTurn ∧ l.state.readGoals = goalsAfter l.initial l.record ∧
      (∀ goal, l.state.readGoals.active = some goal →
        goal.turnsUsed.toNat =
          min (turnsAfter l.initial (turnsOf l.initial) l.record) (2 ^ 32 - 1)) ∧
      (∀ before now after goal, l.record = before ++ .turn now :: after →
        (goalsAfter l.initial before).active = some goal → goal.status = "active" →
          ∃ counted, (goalsAfter l.initial (before ++ [.turn now])).active = some counted ∧
            counted.turnsUsed.toNat =
              min (turnsAfter l.initial (turnsOf l.initial) before + 1) (2 ^ 32 - 1) ∧
            ((Spent goal counted.turnsUsed.toNat now ∧ counted.status = "paused") ∨
              (¬Spent goal counted.turnsUsed.toNat now ∧ counted.status = "active"))) ∧
      ∀ before change after goal, l.record = before ++ change :: after →
        (goalsAfter l.initial before).active = some goal → goal.status = "paused" →
          resumes change = false →
            ∃ kept, (goalsAfter l.initial (before ++ [change])).active = some kept ∧
              kept.status = "paused" ∧ kept.turnsUsed = goal.turnsUsed := by
  obtain ⟨hagrees, hrecorded⟩ := invariant_run branch moves h
  rw [← hl] at hagrees hrecorded
  have hread : l.state.readGoals = goalsAfter l.initial l.record :=
    (agrees_of_plain (by rw [hidle]; rfl)).mp hagrees
  refine ⟨?_, hread, ?_, ?_, ?_⟩
  · rw [Recorded, hidle] at hrecorded
    exact hrecorded
  · intro goal hgoal
    rw [hread] at hgoal
    exact counts_after (counts_turnsOf l.initial) l.record goal hgoal
  · intro before now after goal hrecord hgoal hactive
    obtain ⟨counted, hcounted, hused, hstatus⟩ := @apply_turn _ goal now hgoal hactive
    have hbefore := counts_after (counts_turnsOf l.initial) before goal hgoal
    rw [goalsAfter_concat]
    refine ⟨counted, hcounted, ?_, hstatus⟩
    rw [hused, Rust.toNat_saturatingSucc32, hbefore]
    omega
  · intro before change after goal hrecord hgoal hpaused hresumes
    rw [goalsAfter_concat]
    exact paused_apply hgoal hpaused hresumes

/-! ### A turn that the host does not keep -/

/-- A goal for one turn is started, and its state is appended at the second attempt. -/
def startedForOneTurn : List Move :=
  [⟨0, .call (.operation (.start "a" "" (some 1) none))⟩, ⟨0, .resume 1 true⟩,
    ⟨0, .resume 1 true⟩, ⟨0, .resume 1 true⟩, ⟨0, .resume 1 true⟩, ⟨0, .call .flushState⟩,
    ⟨0, .resume 1 true⟩, ⟨0, .resume 1 false⟩, ⟨0, .resume 1 true⟩, ⟨0, .call .flushState⟩,
    ⟨0, .resume 1 true⟩, ⟨0, .resume 1 true⟩]

/-- A turn ends; the host keeps its count or not, and everything else. -/
def turnEnds (kept : Bool) : List Move :=
  [⟨0, .call .turnEnd⟩] ++ List.replicate 6 ⟨0, .resume 2 true⟩ ++ [⟨0, .resume 2 kept⟩] ++
    List.replicate 5 ⟨0, .resume 2 true⟩

theorem turn_budget_of_one_turn :
    let l := Run.after step (start []) (startedForOneTurn ++ turnEnds true)
    l.ended = 1 ∧ l.state.readGoals = goalsAfter .default l.record ∧
      l.state.readGoals.active.map (fun goal => (goal.turnsUsed, goal.status)) =
        some (1, "paused") := by
  have hbudget := turn_budget [] (startedForOneTurn ++ turnEnds true) (by decide +kernel) _ rfl
    (by decide +kernel)
  exact ⟨by decide +kernel, hbudget.2.1, by decide +kernel⟩

/-- A turn has ended while the goal was active, and it spends the budget; but when the host has not
kept its count, the goal that is read has no turn and is still active. -/
theorem turn_lost :
    let l := Run.after step (start []) (startedForOneTurn ++ turnEnds false)
    Run.Meets step Sequential (start []) (startedForOneTurn ++ turnEnds false) ∧
      l.state.threads 0 = .idle ∧ l.ended = 1 ∧ turnsAfter l.initial 0 l.record = 1 ∧
      l.state.readGoals.active.map (fun goal => (goal.turnsUsed, goal.maxTurns, goal.status)) =
        some (0, some 1, "active") := by
  decide +kernel

end Ledger

end GoalState
