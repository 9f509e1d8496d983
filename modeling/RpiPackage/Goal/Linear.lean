import RpiPackage.Goal.Threads
import RpiPackage.Lib.Run

/-!
# One line of states

Every state of the goals is made of another one. As long as each is made of the newest there is, and
no other one is appended or put back, the states are those of a single line of changes: the branch
holds them in their order, and nothing that was changed is lost. A flush that puts its state back
over a newer one breaks that line.
-/

namespace GoalState

open Function Result

/-- The change that a thread makes with its next section, if it makes one. -/
def State.change (s : State) (move : Move) : Option Change :=
  match move.event, s.threads move.thread with
  | .resume now _, .opQueue op goals =>
    match op.perform now goals with
    | .ok _ => some (.operation op now)
    | .error _ => none
  | .resume now true, .turnCount goals =>
    match countTurn now goals with
    | .counted _ _ _ => some (.turn now)
    | _ => none
  | _, _ => none

/-- A state of the threads, the goals that were there first, and the changes since. -/
structure History where
  state : State
  initial : Goals
  changes : List Change

namespace History

def start (branch : List Entry) : History := ⟨.start branch, stored branch, []⟩

def step (h : History) (move : Move) : History :=
  { h with state := h.state.step move, changes := h.changes ++ (h.state.change move).toList }

/-- The goals after the first of the changes. -/
def replay (h : History) (n : Nat) : Goals := (h.changes.take n).foldl Change.apply h.initial

def newest (h : History) : Goals := h.changes.foldl Change.apply h.initial

/-- A thread only goes on with the newest state, and a turn is only counted when none is pending. -/
def Current (h : History) (move : Move) : Prop :=
  match move.event, h.state.threads move.thread with
  | .resume now _, .opQueue op goals => (∃ x, op.perform now goals = .ok x) → goals = h.newest
  | .resume _ true, .stateAppend goals _ => goals = h.newest
  | .resume _ _, .statePut goals _ => goals = h.newest
  | .resume now true, .turnCount goals =>
    (∃ x y z, countTurn now goals = .counted x y z) → goals = h.newest ∧ h.state.pending = none
  | _, _ => True

end History

/-- A state that is neither pending nor on the branch. -/
def Phase.InFlight (phase : Phase) (goals : Goals) : Prop :=
  ∃ next, phase = .stateAppend goals next ∨ phase = .statePut goals next

/-! ### Sections -/

lemma states_append (branch : List Entry) (entry : Entry) :
    states (branch ++ [entry]) = states branch ++ states [entry] := by
  rw [states, List.filterMap_append]
  rfl

lemma stored_append_state (branch : List Entry) (goals : Goals) :
    stored (branch ++ [.state goals]) = goals := by
  rw [stored, states_append]
  simp [states]

lemma stored_append_message (branch : List Entry) (goal : Goal) (text : String) :
    stored (branch ++ [.message goal text]) = stored branch := by
  rw [stored, states_append]
  simp [states, stored]

lemma Phase.inFlight_stateAppend {goals goals' : Goals} {next : Next} :
    (Phase.stateAppend goals next).InFlight goals' ↔ goals' = goals := by
  simp [Phase.InFlight, eq_comm]

lemma Phase.inFlight_statePut {goals goals' : Goals} {next : Next} :
    (Phase.statePut goals next).InFlight goals' ↔ goals' = goals := by
  simp [Phase.InFlight, eq_comm]

/-- What a section does to the states of the goals, and the change that it makes. -/
inductive Section (s s' : State) (move : Move) : Option Change → Prop
  | quiet (pending : s'.pending = s.pending) (branch : states s'.branch = states s.branch)
      (inFlight : ∀ goals, (s.threads move.thread).InFlight goals →
        (s'.threads move.thread).InFlight goals) :
      Section s s' move none
  | queued (now : Int64) (ok : Bool) (op : Operation) (goals made : Goals) (goal : Goal)
      (event : move.event = .resume now ok) (phase : s.threads move.thread = .opQueue op goals)
      (performed : op.perform now goals = .ok (made, goal)) (pending : s'.pending = some made)
      (branch : states s'.branch = states s.branch) :
      Section s s' move (some (.operation op now))
  | taken (goals : Goals) (waiting : s.pending = some goals) (pending : s'.pending = none)
      (branch : states s'.branch = states s.branch)
      (inFlight : (s'.threads move.thread).InFlight goals) : Section s s' move none
  | appended (now : Int64) (goals : Goals) (next : Next) (event : move.event = .resume now true)
      (phase : s.threads move.thread = .stateAppend goals next) (pending : s'.pending = s.pending)
      (branch : states s'.branch = states s.branch ++ [goals]) : Section s s' move none
  | put (now : Int64) (ok : Bool) (goals : Goals) (next : Next)
      (event : move.event = .resume now ok) (phase : s.threads move.thread = .statePut goals next)
      (pending : s'.pending = some goals) (branch : states s'.branch = states s.branch) :
      Section s s' move none
  | counted (now : Int64) (goals made : Goals) (goal : Goal) (exhausted : Option String)
      (event : move.event = .resume now true) (phase : s.threads move.thread = .turnCount goals)
      (made_eq : countTurn now goals = .counted made goal exhausted)
      (pending : s'.pending = s.pending) (branch : states s'.branch = states s.branch ++ [made]) :
      Section s s' move (some (.turn now))

namespace State

variable {s : State} {move : Move}

lemma threads_setPhase (s : State) (thread : Nat) (phase : Phase) :
    (s.setPhase thread phase).threads thread = phase := by
  simp [setPhase]

/-- No other thread goes on. -/
lemma threads_step {thread : Nat} (h : thread ≠ move.thread) :
    (s.step move).threads thread = s.threads thread := by
  have hphase : ∀ (s' : State) phase, s'.threads = s.threads →
      (s'.setPhase move.thread phase).threads thread = s.threads thread := by
    intro s' phase heq
    rw [← heq]
    exact update_of_ne h phase s'.threads
  obtain ⟨t, event⟩ := move
  cases event with
  | call c =>
    unfold step
    dsimp only
    split
    · cases c with
      | operation op =>
        unfold begin
        dsimp only
        split
        · exact hphase s _ rfl
        · rfl
      | flushState | flush | turnEnd => exact hphase s _ rfl
    · rfl
  | resume now ok =>
    show (s.resume t now ok).threads thread = s.threads thread
    unfold resume
    split
    all_goals repeat' split
    all_goals first
      | rfl
      | exact hphase _ _ rfl

lemma states_append_message (branch : List Entry) (goal : Goal) (text : String) :
    states (branch ++ [.message goal text]) = states branch := by
  rw [states_append]
  exact List.append_nil _

lemma section_of_step (s : State) (move : Move) : Section s (s.step move) move (s.change move) := by
  obtain ⟨t, event⟩ := move
  -- a thread that has no state goes on without touching any
  have hquiet : (∀ goals, ¬(s.threads t).InFlight goals) → ∀ event (s' : State),
      s'.pending = s.pending → states s'.branch = states s.branch →
        Section s s' ⟨t, event⟩ none := fun hno _ _ hpending hbranch =>
    .quiet hpending hbranch fun goals h => absurd h (hno goals)
  cases event with
  | call c =>
    show Section s (if s.threads t = .idle then s.begin t c else s) ⟨t, .call c⟩ none
    split
    · rename_i hidle
      have hno : ∀ goals, ¬(s.threads t).InFlight goals := by simp [hidle, Phase.InFlight]
      cases c with
      | operation op =>
        unfold begin
        dsimp only
        split
        · exact hquiet hno _ _ rfl rfl
        · exact hquiet hno _ _ rfl rfl
      | flushState | flush | turnEnd => exact hquiet hno _ _ rfl rfl
    · exact .quiet rfl rfl fun _ h => h
  | resume now ok =>
    show Section s (s.resume t now ok) ⟨t, .resume now ok⟩ (s.change ⟨t, .resume now ok⟩)
    unfold resume change
    cases hphase : s.threads t with
    | stateAppend goals next =>
      dsimp only
      cases ok with
      | true =>
        refine .appended now goals next rfl hphase rfl ?_
        exact states_append s.branch (.state goals)
      | false =>
        refine .quiet rfl rfl fun goals' h => ?_
        rw [hphase, Phase.inFlight_stateAppend] at h
        rw [if_neg Bool.false_ne_true, threads_setPhase, Phase.inFlight_statePut]
        exact h
    | statePut goals next => exact .put now ok goals next rfl hphase rfl rfl
    | idle => exact .quiet rfl rfl fun _ h => h
    | opQueue op goals =>
      have hno : ∀ goals, ¬(s.threads t).InFlight goals := by simp [hphase, Phase.InFlight]
      dsimp only
      cases hmade : op.perform now goals with
      | error e => exact hquiet hno _ _ rfl rfl
      | ok made => exact .queued now ok op goals made.1 made.2 rfl hphase hmade rfl rfl
    | stateTake next =>
      have hno : ∀ goals, ¬(s.threads t).InFlight goals := by simp [hphase, Phase.InFlight]
      dsimp only
      cases hpending : s.pending with
      | none => exact hquiet hno _ _ rfl rfl
      | some goals =>
        refine .taken goals hpending rfl rfl ?_
        rw [threads_setPhase, Phase.inFlight_stateAppend]
    | turnCount goals =>
      have hno : ∀ goals, ¬(s.threads t).InFlight goals := by simp [hphase, Phase.InFlight]
      cases ok with
      | true =>
        dsimp only
        cases hcount : countTurn now goals with
        | noGoal | inactive => exact hquiet hno _ _ rfl rfl
        | counted made goal reason =>
          refine .counted now goals made goal reason rfl hphase hcount rfl ?_
          exact states_append s.branch (.state made)
      | false =>
        dsimp only
        cases countTurn now goals with
        | noGoal | inactive | counted => exact hquiet hno _ _ rfl rfl
    | noticeInject pending turn =>
      have hno : ∀ goals, ¬(s.threads t).InFlight goals := by simp [hphase, Phase.InFlight]
      cases ok with
      | true => exact hquiet hno _ _ rfl (states_append_message _ _ _)
      | false => exact hquiet hno _ _ rfl rfl
    | turnInject goal =>
      have hno : ∀ goals, ¬(s.threads t).InFlight goals := by simp [hphase, Phase.InFlight]
      cases ok with
      | true => exact hquiet hno _ _ rfl (states_append_message _ _ _)
      | false => exact hquiet hno _ _ rfl rfl
    | opRead | opBranch | opNotice | turnBranch | turnNotice =>
      have hno : ∀ goals, ¬(s.threads t).InFlight goals := by simp [hphase, Phase.InFlight]
      dsimp only
      first
        | exact hquiet hno _ _ rfl rfl
        | split <;> exact hquiet hno _ _ rfl rfl
    | noticeTake | turnRead | turnCheck =>
      have hno : ∀ goals, ¬(s.threads t).InFlight goals := by simp [hphase, Phase.InFlight]
      dsimp only
      split <;> exact hquiet hno _ _ rfl rfl
    | noticeSettle pending delivered turn =>
      have hno : ∀ goals, ¬(s.threads t).InFlight goals := by simp [hphase, Phase.InFlight]
      dsimp only
      split
      · exact hquiet hno _ _ rfl rfl
      · split <;> exact hquiet hno _ _ rfl rfl

end State

namespace History

variable {h : History} {move : Move}

variable (h move) in
lemma newest_step :
    (h.step move).newest = (h.state.change move).elim h.newest (Change.apply h.newest) := by
  rw [newest, step, List.foldl_append]
  cases h.state.change move <;> rfl

/-- What was replayed before is replayed again. -/
lemma replay_step {n : Nat} (hn : n ≤ h.changes.length) : (h.step move).replay n = h.replay n := by
  rw [replay, replay, step]
  dsimp only
  rw [List.take_append_of_le_length hn]

lemma replay_length : h.replay h.changes.length = h.newest := by
  rw [replay, newest, List.take_length]

/-- The newest state is pending, or under way, or the last on the branch, and those on the branch
are the states after more and more of the changes. -/
structure Line (earlier : List Goals) (h : History) : Prop where
  pending : ∀ goals, h.state.pending = some goals → goals = h.newest
  kept : h.state.pending = none →
    (∃ thread, (h.state.threads thread).InFlight h.newest) ∨ stored h.state.branch = h.newest
  order : ∃ ns : List Nat, ns.Pairwise (· ≤ ·) ∧ (∀ n ∈ ns, n ≤ h.changes.length) ∧
    states h.state.branch = earlier ++ ns.map h.replay

lemma stored_eq {branch branch' : List Entry} (h : states branch' = states branch) :
    stored branch' = stored branch := by
  rw [stored, stored, h]

/-- A state that is appended comes last. -/
lemma stored_append {branch branch' : List Entry} {goals : Goals}
    (h : states branch' = states branch ++ [goals]) : stored branch' = goals := by
  rw [stored, h, List.getLastD_concat]

variable {earlier : List Goals}

lemma Line.order_step (hline : h.Line earlier)
    (hstates : states (h.step move).state.branch = states h.state.branch ∨
      states (h.step move).state.branch = states h.state.branch ++ [(h.step move).newest]) :
    ∃ ns : List Nat, ns.Pairwise (· ≤ ·) ∧ (∀ n ∈ ns, n ≤ (h.step move).changes.length) ∧
      states (h.step move).state.branch = earlier ++ ns.map (h.step move).replay := by
  obtain ⟨ns, hrises, hbound, hbranch⟩ := hline.order
  have hle : h.changes.length ≤ (h.step move).changes.length := by
    rw [step, List.length_append]
    exact Nat.le_add_right _ _
  have hreplay : ns.map (h.step move).replay = ns.map h.replay :=
    List.map_congr_left fun n hn => replay_step (hbound n hn)
  rcases hstates with hsame | happended
  · exact ⟨ns, hrises, fun n hn => (hbound n hn).trans hle, by rw [hsame, hbranch, hreplay]⟩
  · refine ⟨ns ++ [(h.step move).changes.length], ?_, ?_, ?_⟩
    · rw [List.pairwise_append]
      refine ⟨hrises, List.pairwise_singleton _ _, fun n hn m hm => ?_⟩
      rw [List.mem_singleton.mp hm]
      exact (hbound n hn).trans hle
    · intro n hn
      rcases List.mem_append.mp hn with hn | hn
      · exact (hbound n hn).trans hle
      · rw [List.mem_singleton.mp hn]
    · rw [happended, hbranch, List.map_append, hreplay, List.map_singleton, replay_length,
        List.append_assoc]

/-- A state that is under way at another thread stays under way. -/
lemma inFlight_step {goals : Goals}
    (hself : ∀ goals, (h.state.threads move.thread).InFlight goals →
      ((h.step move).state.threads move.thread).InFlight goals)
    (hflight : ∃ thread, (h.state.threads thread).InFlight goals) :
    ∃ thread, ((h.step move).state.threads thread).InFlight goals := by
  obtain ⟨thread, hthread⟩ := hflight
  refine ⟨thread, ?_⟩
  by_cases heq : thread = move.thread
  · subst heq
    exact hself goals hthread
  · show ((h.state.step move).threads thread).InFlight goals
    rw [State.threads_step heq]
    exact hthread

lemma Line.step (hline : h.Line earlier) (hcurrent : h.Current move) :
    (h.step move).Line earlier := by
  have hsection := State.section_of_step h.state move
  have hnewest := newest_step h move
  generalize hchange : h.state.change move = change at hsection hnewest
  unfold Current at hcurrent
  cases hsection with
  | quiet pending branch inFlight =>
    refine ⟨?_, ?_, hline.order_step (.inl branch)⟩
    · intro goals hgoals
      rw [hnewest]
      exact hline.pending goals (pending.symm.trans hgoals)
    · intro hnone
      rw [hnewest]
      rcases hline.kept (pending.symm.trans hnone) with hflight | hstored
      · exact .inl (inFlight_step inFlight hflight)
      · exact .inr ((stored_eq branch).trans hstored)
  | queued now ok op goals made goal event phase performed pending branch =>
    rw [event, phase] at hcurrent
    obtain rfl := hcurrent ⟨_, performed⟩
    have hmade : (h.step move).newest = made := by
      rw [hnewest]
      show Change.apply h.newest (.operation op now) = made
      rw [Change.apply, performed]
    refine ⟨?_, ?_, hline.order_step (.inl branch)⟩
    · intro goals hgoals
      rw [hmade]
      exact (Option.some.inj (pending.symm.trans hgoals)).symm
    · intro hnone
      exact absurd (pending.symm.trans hnone) (Option.some_ne_none _)
  | taken goals waiting pending branch inFlight =>
    obtain rfl := hline.pending goals waiting
    refine ⟨?_, ?_, hline.order_step (.inl branch)⟩
    · intro goals hgoals
      exact absurd (hgoals.symm.trans pending) (Option.some_ne_none _)
    · intro _
      rw [hnewest]
      exact .inl ⟨move.thread, inFlight⟩
  | appended now goals next event phase pending branch =>
    rw [event, phase] at hcurrent
    obtain rfl : goals = h.newest := hcurrent
    refine ⟨?_, ?_, hline.order_step (.inr ?_)⟩
    · intro goals hgoals
      rw [hnewest]
      exact hline.pending goals (pending.symm.trans hgoals)
    · intro _
      rw [hnewest]
      exact .inr (stored_append branch)
    · rw [hnewest]
      exact branch
  | put now ok goals next event phase pending branch =>
    rw [event, phase] at hcurrent
    obtain rfl : goals = h.newest := hcurrent
    refine ⟨?_, ?_, hline.order_step (.inl branch)⟩
    · intro goals hgoals
      rw [hnewest]
      exact (Option.some.inj (pending.symm.trans hgoals)).symm
    · intro hnone
      exact absurd (pending.symm.trans hnone) (Option.some_ne_none _)
  | counted now goals made goal exhausted event phase made_eq pending branch =>
    rw [event, phase] at hcurrent
    obtain ⟨rfl, hnone⟩ := hcurrent ⟨_, _, _, made_eq⟩
    have hmade : (h.step move).newest = made := by
      rw [hnewest]
      show Change.apply h.newest (.turn now) = made
      rw [Change.apply, made_eq]
    refine ⟨?_, ?_, hline.order_step (.inr ?_)⟩
    · intro goals hgoals
      exact absurd (hgoals.symm.trans (pending.trans hnone)) (Option.some_ne_none _)
    · intro _
      rw [hmade]
      exact .inr (stored_append branch)
    · rw [hmade]
      exact branch

/-- Only the newest state is ever appended. -/
lemma newest_of_append (hcurrent : h.Current move) {goals : Goals}
    (happend : states (h.step move).state.branch = states h.state.branch ++ [goals]) :
    goals = (h.step move).newest := by
  have hsection := State.section_of_step h.state move
  have hnewest := newest_step h move
  have hother : states (h.state.step move).branch ≠ states h.state.branch := by
    intro heq
    rw [show (h.step move).state.branch = (h.state.step move).branch from rfl, heq] at happend
    simpa using congrArg List.length happend
  have hlast : ∀ made, states (h.state.step move).branch = states h.state.branch ++ [made] →
      goals = made := by
    intro made hmade
    have heq := happend.symm.trans hmade
    exact List.head_eq_of_cons_eq (List.append_cancel_left heq)
  generalize hchange : h.state.change move = change at hsection hnewest
  unfold Current at hcurrent
  cases hsection with
  | quiet pending branch | queued now ok op base made goal event phase performed pending branch
  | taken base waiting pending branch | put now ok base next event phase pending branch =>
    exact absurd branch hother
  | appended now base next event phase pending branch =>
    rw [event, phase] at hcurrent
    obtain rfl : base = h.newest := hcurrent
    rw [hnewest]
    exact hlast _ branch
  | counted now base made goal exhausted event phase made_eq pending branch =>
    rw [event, phase] at hcurrent
    obtain ⟨rfl, -⟩ := hcurrent ⟨_, _, _, made_eq⟩
    rw [hnewest, hlast _ branch]
    show made = Change.apply h.newest (.turn now)
    rw [Change.apply, made_eq]

/-- Changes are only ever made on top of others. -/
lemma changes_after (h : History) (moves : List Move) :
    ∃ later, (Run.after step h moves).changes = h.changes ++ later ∧
      (Run.after step h moves).newest = later.foldl Change.apply h.newest := by
  induction moves generalizing h with
  | nil => exact ⟨[], (List.append_nil _).symm, rfl⟩
  | cons move moves ih =>
    obtain ⟨later, hchanges, hnewest⟩ := ih (h.step move)
    refine ⟨(h.state.change move).toList ++ later, ?_, ?_⟩
    · rw [Run.after_cons, hchanges, step, List.append_assoc]
    · rw [Run.after_cons, hnewest, List.foldl_append, newest_step]
      cases h.state.change move <;> rfl

lemma line_start (branch : List Entry) : (start branch).Line (states branch) where
  pending := fun _ h => absurd h.symm (Option.some_ne_none _)
  kept := fun _ => .inr rfl
  order := ⟨[], .nil, fun _ h => absurd h List.not_mem_nil, (List.append_nil _).symm⟩

def startCall (title : String) : Event := .call (.operation (.start title "" none none))

/-- A goal is started, and its state is appended. -/
def started : List Move :=
  [⟨0, startCall "a"⟩, ⟨0, .resume 1 true⟩, ⟨0, .resume 1 true⟩, ⟨0, .resume 1 true⟩,
    ⟨0, .resume 1 true⟩, ⟨1, .call .flushState⟩, ⟨1, .resume 1 true⟩, ⟨1, .resume 1 true⟩]

/-- A second goal is started while the first is being appended, in vain. -/
def startedTwice : List Move :=
  started.take 7 ++
    [⟨0, startCall "b"⟩, ⟨0, .resume 2 true⟩, ⟨0, .resume 2 true⟩, ⟨0, .resume 2 true⟩,
      ⟨0, .resume 2 true⟩, ⟨1, .resume 2 false⟩, ⟨1, .resume 2 true⟩, ⟨1, .call .flushState⟩,
      ⟨1, .resume 3 true⟩, ⟨1, .resume 3 true⟩]

end History

end GoalState
