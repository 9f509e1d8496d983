import RpiPackage.PlanMode.State

/-!
# The tools of the host

Plan mode takes the tools of the host away and gives them back. The saved tools are taken out of
the state before the host is asked to set them, so they are lost when the host refuses.
-/

namespace PlanMode

namespace World

variable {w w' : World} {n : Nat} {tools : List String} {move : Op × List (Option String)}
  {moves : List (Op × List (Option String))}

/-- The call that many calls ahead fails. -/
def faultAt (w : World) (n : Nat) : Bool := (w.faults[n]?.join).isSome

/-- What follows the next call. -/
def rest (w : World) : World := { w with faults := w.faults.tail }

lemma faultAt_rest (w : World) (n : Nat) : w.rest.faultAt n = w.faultAt (n + 1) := by
  unfold faultAt rest
  rw [List.getElem?_tail]

/-- A call uses up what becomes of it, and has no effect on its own. -/
lemma callRuntime_cases (id : String) (w : World) :
    (w.faultAt 0 = false ∧ w.callRuntime id = (.ok (), w.rest)) ∨
      (w.faultAt 0 = true ∧ ∃ error, w.callRuntime id = (.error error, w.rest)) := by
  obtain ⟨state, host, faults⟩ := w
  cases faults with
  | nil => exact .inl ⟨rfl, rfl⟩
  | cons fault faults =>
    cases fault with
    | none => exact .inl ⟨rfl, rfl⟩
    | some text => exact .inr ⟨rfl, _, rfl⟩

lemma persistState_cases (active : Bool) (plan : Option String) (w : World) :
    ∃ branch, persistState active plan w = { w.rest with host := { w.host with branch } } := by
  unfold persistState
  rcases callRuntime_cases "AppendEntry" w with ⟨-, hcall⟩ | ⟨-, error, hcall⟩
  · rw [hcall]
    exact ⟨_, rfl⟩
  · rw [hcall]
    exact ⟨w.host.branch, rfl⟩

lemma setTools_cases (tools : List String) (w : World) :
    (w.faultAt 0 = false ∧
        w.setTools tools = (.ok (), { w.rest with host := { w.host with tools } })) ∨
      (w.faultAt 0 = true ∧ ∃ error, w.setTools tools = (.error error, w.rest)) := by
  unfold setTools
  rcases callRuntime_cases "SetActiveTools" w with ⟨hfault, hcall⟩ | ⟨hfault, error, hcall⟩
  · rw [hcall]
    exact .inl ⟨hfault, rfl⟩
  · rw [hcall]
    exact .inr ⟨hfault, error, rfl⟩

/-- Plan mode, its saved tools and the tools of the host are what they were. -/
structure Same (w w' : World) : Prop where
  active : w'.state.active = w.state.active
  previousTools : w'.state.previousTools = w.state.previousTools
  tools : w'.host.tools = w.host.tools

lemma Same.refl (w : World) : Same w w := ⟨rfl, rfl, rfl⟩

/-- An activation has nothing to do, fails without effect, or saves the tools. -/
inductive Activation (w : World) : Except String Bool × World → Prop
  | idle (hactive : w.state.active = true) : Activation w (.ok false, w)
  | failed {error : String} {w' : World} (hactive : w.state.active = false) (hsame : Same w w') :
      Activation w (.error error, w')
  | saved (hactive : w.state.active = false) (hget : w.faultAt 0 = false)
      (hset : w.faultAt 1 = false) (branch : List Json.Value) :
      Activation w (.ok true,
        ⟨⟨true, none, some w.host.tools⟩, ⟨planningTools, branch⟩, w.rest.rest.rest.faults⟩)

lemma activate_activation (w : World) : Activation w w.activate := by
  unfold activate
  split
  · rename_i hactive
    exact .idle hactive
  · rename_i hactive
    have hinactive : w.state.active = false := by simpa using hactive
    unfold currentTools
    rcases callRuntime_cases "GetActiveTools" w with ⟨hget, hcall⟩ | ⟨-, error, hcall⟩
    · rw [hcall]
      dsimp only
      rcases setTools_cases planningTools w.rest with ⟨hset, hcall⟩ | ⟨-, error, hcall⟩
      · rw [hcall]
        dsimp only
        let saved : World := ⟨⟨true, none, some w.host.tools⟩, ⟨planningTools, w.host.branch⟩,
          w.rest.rest.faults⟩
        show Activation w (.ok true, persistState true none saved)
        obtain ⟨branch, hpersist⟩ := persistState_cases true none saved
        rw [hpersist]
        rw [faultAt_rest] at hset
        exact .saved hinactive hget hset branch
      · rw [hcall]
        exact .failed hinactive ⟨rfl, rfl, rfl⟩
    · rw [hcall]
      exact .failed hinactive ⟨rfl, rfl, rfl⟩

/-- A deactivation has nothing to do, loses the saved tools to a host that refuses, or gives them
back. -/
inductive Deactivation (w : World) : Except String Bool × World → Prop
  | idle (hactive : w.state.active = false) : Deactivation w (.ok false, w)
  | lost {error : String} {w' : World} (hactive : w.state.active = true)
      (hsaved : w.state.previousTools.isSome = true) (hset : w.faultAt 0 = true) :
      Deactivation w (.error error, w')
  | restored {branch : List Json.Value} {faults : List (Option String)}
      (hactive : w.state.active = true) :
      Deactivation w (.ok true, ⟨⟨false, w.state.plan, none⟩,
        ⟨w.state.previousTools.getD w.host.tools, branch⟩, faults⟩)

lemma deactivate_deactivation (w : World) : Deactivation w w.deactivate := by
  unfold deactivate
  split
  · rename_i hactive
    exact .idle (by simpa using hactive)
  · rename_i hactive
    have hactive : w.state.active = true := by simpa using hactive
    dsimp only
    cases hsaved : w.state.previousTools with
    | none =>
      dsimp only
      obtain ⟨branch, hpersist⟩ := persistState_cases false w.state.plan
        { w with state := ⟨false, w.state.plan, none⟩ }
      rw [hpersist]
      have hrestored := @Deactivation.restored w branch w.faults.tail hactive
      rw [hsaved] at hrestored
      exact hrestored
    | some previous =>
      dsimp only
      rcases setTools_cases previous { w with state := { w.state with previousTools := none } } with
        ⟨-, hcall⟩ | ⟨hset, error, hcall⟩
      · rw [hcall]
        dsimp only
        let restored : World := ⟨⟨false, w.state.plan, none⟩, ⟨previous, w.host.branch⟩,
          w.faults.tail⟩
        show Deactivation w (.ok true, persistState false w.state.plan restored)
        obtain ⟨branch, hpersist⟩ := persistState_cases false w.state.plan restored
        rw [hpersist]
        have hrestored := @Deactivation.restored w branch w.faults.tail.tail hactive
        rw [hsaved] at hrestored
        exact hrestored
      · rw [hcall]
        exact .lost hactive (by rw [hsaved]; rfl) hset

/-- The host refuses to set the saved tools when plan mode is left. -/
def refusesRestore (w : World) : Bool :=
  w.state.active && w.state.previousTools.isSome && w.faultAt 0

/-- The host takes no message, and does not set the saved tools when plan mode is left for that. An
activation before it makes three calls. -/
def refusesRollback (w : World) : Bool :=
  if w.state.active then w.faultAt 0 && w.state.previousTools.isSome && w.faultAt 1
  else !w.faultAt 0 && !w.faultAt 1 && w.faultAt 3 && w.faultAt 4

/-- The saved tools are not refused by the host. -/
def keepsTools (w : World) : Op → Bool
  | .activate | .startPlan _ => true
  | .deactivate => !w.refusesRestore
  | .completePlan raw => !(submitted raw).isOk || !w.refusesRestore
  | .planCommand envelope =>
    match commandOf (((envelope.get "args").bind Json.Value.asStr).getD "") with
    | .exit => !w.refusesRestore
    | .request => !w.refusesRollback
    | _ => true
  | .navigate _ => false

/-- The tools are those of planning while it is active, and the others are saved. -/
structure Holds (tools : List String) (w : World) : Prop where
  active : w.state.active = true →
    w.host.tools = planningTools ∧ w.state.previousTools = some tools
  inactive : w.state.active = false → w.host.tools = tools

lemma holds_start (branch : List Json.Value) : Holds tools (start tools branch) := by
  refine ⟨fun hactive => ?_, fun _ => rfl⟩
  cases hactive

lemma Holds.of_same (h : Holds tools w) (hsame : Same w w') : Holds tools w' := by
  refine ⟨?_, ?_⟩
  · intro hactive
    rw [hsame.active] at hactive
    rw [hsame.tools, hsame.previousTools]
    exact h.active hactive
  · intro hinactive
    rw [hsame.active] at hinactive
    rw [hsame.tools]
    exact h.inactive hinactive

/-- An activation keeps the tools, and has no effect when it fails. -/
lemma Holds.activate (h : Holds tools w) :
    Holds tools w.activate.2 ∧ ∀ error, w.activate.1 = .error error → Same w w.activate.2 := by
  have hactivation := activate_activation w
  generalize w.activate = out at hactivation ⊢
  cases hactivation with
  | idle => exact ⟨h, fun _ _ => .refl w⟩
  | failed hactive hsame => exact ⟨h.of_same hsame, fun _ _ => hsame⟩
  | saved hactive =>
    refine ⟨⟨fun _ => ⟨rfl, congrArg some (h.inactive hactive)⟩, fun hinactive => ?_⟩, ?_⟩
    · cases hinactive
    · intro error herror
      cases herror

/-- A deactivation that the host does not refuse gives the tools back. -/
lemma Holds.deactivate (h : Holds tools w) (hkeeps : w.refusesRestore = false) :
    Holds tools w.deactivate.2 ∧ w.deactivate.2.state.active = false ∧
      ∀ error, w.deactivate.1 ≠ .error error := by
  have hdeactivation := deactivate_deactivation w
  generalize w.deactivate = out at hdeactivation ⊢
  cases hdeactivation with
  | idle hactive => exact ⟨h, hactive, by simp⟩
  | lost hactive hsaved hset =>
    rw [refusesRestore, hactive, hsaved, hset] at hkeeps
    cases hkeeps
  | restored hactive =>
    obtain ⟨-, hprevious⟩ := h.active hactive
    refine ⟨⟨fun hactive => ?_, fun _ => ?_⟩, rfl, by simp⟩
    · cases hactive
    · rw [hprevious]
      rfl

lemma Holds.startPlan (h : Holds tools w) (raw : Json.Value) :
    Holds tools (w.startPlan raw).2 ∧ ∀ error, (w.startPlan raw).1 = .error error →
      Same w (w.startPlan raw).2 := by
  obtain ⟨hholds, hsame⟩ := h.activate
  unfold World.startPlan
  dsimp only
  split
  · rename_i error w' hactivate
    rw [hactivate] at hholds hsame
    exact ⟨hholds, fun _ _ => hsame error rfl⟩
  · rename_i hactivate
    rw [hactivate] at hholds
    exact ⟨hholds, fun _ herror => absurd herror (by simp)⟩

lemma Holds.completePlan (h : Holds tools w) {raw : Json.Value}
    (hkeeps : (!(submitted raw).isOk || !w.refusesRestore) = true) :
    Holds tools (w.completePlan raw).2 ∧ ∀ error, (w.completePlan raw).1 = .error error →
      Same w (w.completePlan raw).2 := by
  unfold World.completePlan
  split
  · exact ⟨h, fun _ _ => .refl w⟩
  · rename_i plan hplan
    rw [hplan] at hkeeps
    split
    · exact ⟨h, fun _ _ => .refl w⟩
    · have hplanned : Holds tools { w with state := { w.state with plan := some plan } } :=
        ⟨h.active, h.inactive⟩
      have hrestore : w.refusesRestore = false := by
        simpa [Except.isOk, Except.toBool] using hkeeps
      obtain ⟨hholds, -, hok⟩ := hplanned.deactivate hrestore
      split
      · rename_i error w' hdeactivate
        rw [hdeactivate] at hok
        exact absurd rfl (hok error)
      · rename_i hdeactivate
        rw [hdeactivate] at hholds
        exact ⟨hholds, fun _ herror => absurd herror (by simp)⟩

/-- What a request does when it is not taken depends on the calls before it. -/
lemma refusesRestore_of_activate {out : Except String Bool × World}
    (hactivation : Activation w out) (hok : ∃ b, out.1 = .ok b) (hsend : out.2.faultAt 0 = true)
    (hkeeps : w.refusesRollback = false) : out.2.rest.refusesRestore = false := by
  unfold refusesRollback at hkeeps
  cases hactivation with
  | idle hactive =>
    dsimp only at hsend ⊢
    rw [if_pos hactive, hsend, Bool.true_and] at hkeeps
    rw [refusesRestore, faultAt_rest]
    show (w.state.active && w.state.previousTools.isSome && w.faultAt 1) = false
    rw [hactive, Bool.true_and]
    exact hkeeps
  | failed hactive hsame =>
    obtain ⟨b, hb⟩ := hok
    cases hb
  | saved hactive hget hset branch =>
    have hthird : w.faultAt 3 = true := by
      rw [← hsend]
      show w.faultAt 3 = w.rest.rest.rest.faultAt 0
      rw [faultAt_rest, faultAt_rest, faultAt_rest]
    have hfourth : w.faultAt 4 = false := by
      simpa [hactive, hget, hset, hthird] using hkeeps
    rw [refusesRestore, faultAt_rest]
    show (true && true && w.rest.rest.rest.faultAt 1) = false
    rw [faultAt_rest, faultAt_rest, faultAt_rest, hfourth]
    rfl

lemma Holds.planCommand (h : Holds tools w) {envelope : Json.Value}
    (hkeeps : w.keepsTools (.planCommand envelope) = true) :
    Holds tools (w.planCommand envelope).2 := by
  unfold keepsTools at hkeeps
  unfold World.planCommand
  dsimp only at hkeeps ⊢
  obtain ⟨hactivated, -⟩ := h.activate
  have hactivation := activate_activation w
  cases hcommand : commandOf (((envelope.get "args").bind Json.Value.asStr).getD "") with
  | start =>
    dsimp only
    split
    · rename_i heq
      rw [heq] at hactivated
      exact hactivated
    · rename_i heq
      rw [heq] at hactivated
      exact hactivated
    · rename_i heq
      rw [heq] at hactivated
      exact hactivated
  | «show» => exact h
  | finalize => exact h
  | exit =>
    rw [hcommand] at hkeeps
    obtain ⟨hdeactivated, -⟩ := h.deactivate (by simpa using hkeeps)
    dsimp only
    split
    · rename_i heq
      rw [heq] at hdeactivated
      exact hdeactivated
    · rename_i heq
      rw [heq] at hdeactivated
      exact hdeactivated
    · rename_i heq
      rw [heq] at hdeactivated
      exact hdeactivated
  | request =>
    rw [hcommand] at hkeeps
    dsimp only
    split
    · rename_i heq
      rw [heq] at hactivated
      exact hactivated
    · rename_i b w' heq
      rw [heq] at hactivated hactivation
      rcases callRuntime_cases "SendUserMessage" w' with ⟨-, hcall⟩ | ⟨hsend, error, hcall⟩
      · rw [hcall]
        exact hactivated.of_same ⟨rfl, rfl, rfl⟩
      · rw [hcall]
        have hrest : Holds tools w'.rest := hactivated.of_same ⟨rfl, rfl, rfl⟩
        refine (hrest.deactivate ?_).1
        exact refusesRestore_of_activate hactivation ⟨b, rfl⟩ hsend (by simpa using hkeeps)

lemma error_of_map {α β : Type} {f : α → β} {x : Except String α} {error : String}
    (h : x.map f = .error error) : x = .error error := by
  cases x with
  | error e => exact congrArg _ (Except.error.inj h)
  | ok a => cases h

/-- An operation keeps the tools, and has no effect on them when it returns an error. -/
lemma Holds.perform (h : Holds tools w) {op : Op} (hkeeps : w.keepsTools op = true) :
    Holds tools (w.perform op).2 ∧ ∀ error, (w.perform op).1 = .error error →
      Same w (w.perform op).2 := by
  cases op with
  | activate =>
    obtain ⟨hholds, hsame⟩ := h.activate
    exact ⟨hholds, fun error herror => hsame error (error_of_map herror)⟩
  | deactivate =>
    obtain ⟨hholds, -, hok⟩ := h.deactivate (by simpa [keepsTools] using hkeeps)
    exact ⟨hholds, fun error herror => absurd (error_of_map herror) (hok error)⟩
  | startPlan raw =>
    obtain ⟨hholds, hsame⟩ := h.startPlan raw
    exact ⟨hholds, fun error herror => hsame error (error_of_map herror)⟩
  | completePlan raw =>
    obtain ⟨hholds, hsame⟩ := h.completePlan hkeeps
    exact ⟨hholds, fun error herror => hsame error (error_of_map herror)⟩
  | planCommand envelope =>
    have hholds := h.planCommand hkeeps
    unfold World.perform
    dsimp only
    refine ⟨hholds, fun error herror => ?_⟩
    cases herror
  | navigate branch => exact absurd hkeeps (by simp [keepsTools])

/-! ### Runs -/

/-- A step whose tools are not refused. -/
def keepsToolsAt (w : World) (move : Op × List (Option String)) : Bool :=
  ({ w with faults := move.2 }).keepsTools move.1

/-- What is to be expected of the tools after a run. -/
structure GivesBack (tools : List String) (branch : List Json.Value)
    (moves : List (Op × List (Option String))) : Prop where
  holds : Holds tools ((start tools branch).after moves)
  /-- An error changes nothing. -/
  failed : ∀ before move later, moves = before ++ move :: later → ∀ error,
    ((start tools branch).after before).result move = .error error →
      Same ((start tools branch).after before) ((start tools branch).after (before ++ [move]))
  /-- Plan mode can be left, and the tools are what they were. -/
  restored : ∀ faults, ((start tools branch).after moves).result (.deactivate, faults) = .ok () →
    (((start tools branch).after moves).step (.deactivate, faults)).host.tools = tools ∧
      (((start tools branch).after moves).step (.deactivate, faults)).state.active = false

lemma Holds.step (h : Holds tools w) (hkeeps : w.keepsToolsAt move = true) :
    Holds tools (World.step w move) ∧ ∀ error, w.result move = .error error →
      Same w (World.step w move) := by
  have hfaults : Holds tools { w with faults := move.2 } := h.of_same ⟨rfl, rfl, rfl⟩
  obtain ⟨hholds, hsame⟩ := hfaults.perform hkeeps
  refine ⟨hholds, fun error herror => ?_⟩
  obtain ⟨hactive, hprevious, htools⟩ := hsame error herror
  exact ⟨hactive, hprevious, htools⟩

lemma holds_after {branch : List Json.Value}
    (h : Run.Meets World.step (fun w move => w.keepsToolsAt move = true) (start tools branch) moves) :
    Holds tools ((start tools branch).after moves) :=
  h.invariant (fun _ _ hholds hkeeps => (hholds.step hkeeps).1) (holds_start branch)

/-- Leaving plan mode without an error gives the tools back. -/
lemma Holds.restored (h : Holds tools w) {faults : List (Option String)}
    (hok : w.result (.deactivate, faults) = .ok ()) :
    (World.step w (.deactivate, faults)).host.tools = tools ∧
      (World.step w (.deactivate, faults)).state.active = false := by
  have hdeactivation := deactivate_deactivation { w with faults }
  have hresult : (({ w with faults }).deactivate.1).map (fun _ => ()) = .ok () := hok
  show ({ w with faults }).deactivate.2.host.tools = tools ∧
    ({ w with faults }).deactivate.2.state.active = false
  generalize ({ w with faults }).deactivate = out at hdeactivation hresult ⊢
  cases hdeactivation with
  | idle hactive => exact ⟨h.inactive hactive, hactive⟩
  | lost => cases hresult
  | restored hactive =>
    refine ⟨?_, rfl⟩
    show w.state.previousTools.getD w.host.tools = tools
    rw [(h.active hactive).2]
    rfl

/-- Plan mode gives the tools back when the host does not refuse to set them. -/
theorem givesBack_of_keepsTools {branch : List Json.Value}
    (h : Run.Meets World.step (fun w move => w.keepsToolsAt move = true) (start tools branch) moves) :
    GivesBack tools branch moves := by
  refine ⟨holds_after h, ?_, fun faults hok => (holds_after h).restored hok⟩
  rintro before move later rfl error herror
  obtain ⟨hbefore, hmove, -⟩ := Run.meets_append.mp h
  rw [after_concat]
  exact ((holds_after hbefore).step hmove).2 error herror

/-- Plan mode is entered, a message is refused, and it is left. -/
theorem givesBack_of_keepsTools_request :
    GivesBack ["read", "edit"] [] [(.activate, []), (.planCommand (.object [("args", .string "it")]),
      [some "busy"]), (.activate, [some ""]), (.deactivate, [])] :=
  givesBack_of_keepsTools (by decide +kernel)

/-- A host that refuses to set the tools once takes them for good. -/
theorem not_givesBack : ¬∀ tools branch moves, (∀ move ∈ moves, ∀ b, move.1 ≠ .navigate b) →
    GivesBack tools branch moves := by
  intro h
  have hback := h ["read", "edit"] [] [(.activate, []), (.deactivate, [some "busy"])] (by simp)
  have hholds := hback.holds.active (by decide +kernel)
  exact absurd hholds.2 (by decide +kernel)

end World

end PlanMode
