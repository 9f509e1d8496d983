import RpiPackage.PlanMode.Tools

/-!
# The branch of the session

The current branch is to be the source of truth. An event reads the flag and the plan back from the
branch, but it neither forgets them on a branch that has no entry nor sets the tools of the host.
-/

namespace PlanMode

open Json Json.Value

namespace World

variable {w : World} {tools : List String} {branch : List Value} {ops : List Op}

/-- The last entry of plan mode on a branch. -/
def lastEntry (branch : List Value) : Option Value := (branch.filter isPlanEntry).getLast?

lemma restoredData_concat (entries : List Value) (entry : Value) :
    restoredData (entries ++ [entry]) =
      if isPlanEntry entry then entry.get "data" else restoredData entries := by
  unfold restoredData
  rw [List.foldl_append]
  rfl

/-- What is restored is the data of the last entry. -/
lemma restoredData_filter (branch : List Value) :
    restoredData (branch.filter isPlanEntry) = (lastEntry branch).bind fun entry => entry.get "data" := by
  unfold lastEntry
  have hall : ∀ entry ∈ branch.filter isPlanEntry, isPlanEntry entry = true := fun entry hentry =>
    (List.mem_filter.mp hentry).2
  rcases List.eq_nil_or_concat (branch.filter isPlanEntry) with hnil | ⟨entries, entry, heq⟩
  · rw [hnil]
    rfl
  · rw [heq] at hall ⊢
    rw [List.concat_eq_append] at hall ⊢
    rw [restoredData_concat, if_pos (hall entry (by simp)), List.getLast?_append]
    rfl

lemma restoreState_getSessionBranch (branch : List Value) (s : PlanState) :
    restoreState (getSessionBranch branch) s =
      match (lastEntry branch).bind fun entry => entry.get "data" with
      | none => s
      | some data => { s with active := activeOf data, plan := planOf data } := by
  rw [← restoredData_filter]
  rfl

/-- The host does what it is asked. -/
def performs (w : World) (op : Op) : World := step w (op, [])

abbrev afterOps (w : World) (ops : List Op) : World := Run.after performs w ops

lemma afterOps_concat (w : World) (before : List Op) (op : Op) :
    w.afterOps (before ++ [op]) = performs (w.afterOps before) op :=
  Run.after_append w before [op]

/-- The branch says what the extension has in mind: plan mode is active on both, or on neither, and
without an entry there is nothing to forget. -/
def agrees (w : World) : Op → Bool
  | .navigate branch =>
    match (lastEntry branch).bind fun entry => entry.get "data" with
    | none => !w.state.active && w.state.plan.isNone
    | some data => activeOf data == w.state.active
  | _ => true

/-- What is to be expected of an event: the state is the one of the branch, and the tools are those
of the state. -/
structure Follows (tools : List String) (branch : List Value) (w : World) : Prop where
  restored : ∀ entry data, lastEntry branch = some entry → entry.get "data" = some data →
    w.state.active = activeOf data ∧ w.state.plan = planOf data
  absent : lastEntry branch = none → w.state.active = false ∧ w.state.plan = none
  active : w.state.active = true → w.host.tools = planningTools
  inactive : w.state.active = false → w.host.tools = tools

/-- Calls that succeed refuse nothing. -/
lemma keepsTools_of_faults {op : Op} (h : w.faults = []) (hop : ∀ b, op ≠ .navigate b) :
    w.keepsTools op = true := by
  have hfault : ∀ n, w.faultAt n = false := by
    intro n
    rw [faultAt, h]
    rfl
  have hrestore : w.refusesRestore = false := by
    rw [refusesRestore, hfault, Bool.and_false]
  have hrollback : w.refusesRollback = false := by
    unfold refusesRollback
    rw [hfault, hfault, hfault]
    simp
  cases op with
  | activate => rfl
  | startPlan raw => rfl
  | deactivate => simp [keepsTools, hrestore]
  | completePlan raw => simp [keepsTools, hrestore]
  | planCommand envelope =>
    unfold keepsTools
    dsimp only
    split
    · simp [hrestore]
    · simp [hrollback]
    · rfl
  | navigate b => exact absurd rfl (hop b)

lemma performs_navigate (w : World) (branch : List Value) :
    performs w (.navigate branch) =
      ⟨restoreState (getSessionBranch branch) w.state, { w.host with branch }, []⟩ := rfl

/-- An event that agrees with the branch keeps the tools. -/
lemma Holds.performs (h : Holds tools w) {op : Op} (hagrees : w.agrees op = true) :
    Holds tools (World.performs w op) := by
  by_cases hop : ∃ b, op = .navigate b
  · obtain ⟨b, rfl⟩ := hop
    rw [performs_navigate, restoreState_getSessionBranch]
    unfold agrees at hagrees
    dsimp only at hagrees ⊢
    cases hdata : (lastEntry b).bind fun entry => entry.get "data" with
    | none => exact ⟨h.active, h.inactive⟩
    | some data =>
      rw [hdata] at hagrees
      have hsame : activeOf data = w.state.active := eq_of_beq hagrees
      refine ⟨fun hactive => ?_, fun hinactive => ?_⟩
      · exact h.active (hsame.symm.trans hactive)
      · exact h.inactive (hsame.symm.trans hinactive)
  · have hfaults : Holds tools { w with faults := [] } := h.of_same ⟨rfl, rfl, rfl⟩
    refine (hfaults.perform (keepsTools_of_faults rfl ?_)).1
    rintro b rfl
    exact hop ⟨b, rfl⟩

lemma Holds.follows (h : Holds tools w) {b : List Value} (hagrees : w.agrees (.navigate b) = true) :
    Follows tools b (World.performs w (.navigate b)) := by
  have hafter := h.performs hagrees
  have hstate : (World.performs w (.navigate b)).state = _ :=
    (restoreState_getSessionBranch b w.state)
  refine ⟨?_, ?_, fun hactive => (hafter.active hactive).1, hafter.inactive⟩
  · intro entry data hentry hdata
    rw [hstate, hentry]
    dsimp only [Option.bind_some]
    rw [hdata]
    exact ⟨rfl, rfl⟩
  · intro hnone
    unfold agrees at hagrees
    dsimp only at hagrees
    rw [hnone] at hagrees
    rw [hstate, hnone]
    simpa using hagrees

end World

end PlanMode
