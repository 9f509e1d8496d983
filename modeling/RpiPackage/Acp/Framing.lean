import RpiPackage.Acp.Writer

/-!
# The frames of a connection

The calls of a writer write in turns, so its output is whole frames and at most one that was broken
off, which is the last.
-/

namespace Acp

open Json

def Phase.turn : Phase → Turn
  | .absent | .called | .numbered | .waiting => .idle
  | .locked => .ready
  | .framing sent => .writing sent
  | .flushing => .written
  | .closing _ => .torn
  | .unlocking _ => .releasing
  | .leaving _ | .awaiting | .removing _ | .finished _ => .gone

namespace Writer

/-- The output, as parties share it. -/
def bus (w : Writer) : Turns Nat UInt8 where
  out := w.out
  holder := w.holder
  isSealed := w.closed
  turn c := (w.calls c).phase.turn
  line c := (w.calls c).frame.line

variable {w w' : Writer} {c c' : Nat} {phase : Phase}

/-! ### A step is moves of the output -/

lemma Quiet.moves (h : Quiet w w') : w.bus.Moves w'.bus := by
  have hbus : w'.bus = { w.bus with isSealed := w'.closed } := by
    unfold bus
    rw [h.out, h.holder]
    congr 1
    · funext c
      rw [(h.calls c).phase]
    · funext c
      rw [(h.calls c).frame]
  rw [hbus]
  exact .single (.quiet h.closed fun _ _ => rfl)

lemma bus_goto (w : Writer) (c : Nat) (phase : Phase) :
    (w.goto c phase).bus = w.bus.take c phase.turn := by
  unfold bus Turns.take
  congr 1
  · funext c'
    by_cases hc : c' = c
    · subst hc
      simp
    · simp [calls_goto_of_ne hc, hc]
  · funext c'
    by_cases hc : c' = c
    · subst hc
      simp [Call.frame]
    · rw [calls_goto_of_ne hc]

/-- A call goes on beside the output. -/
lemma moves_goto (hturn : phase.turn = (w.calls c).phase.turn) : w.bus.Moves (w.goto c phase).bus := by
  have hsame : (w.goto c phase).bus = w.bus := by
    rw [bus_goto, hturn]
    unfold Turns.take
    congr 1
    exact Function.update_eq_self c w.bus.turn
  rw [hsame]

/-- A call that has not come to the output is changed. -/
lemma moves_setCall {call : Call} (hbefore : (w.calls c).phase.turn = .idle)
    (hafter : call.phase.turn = .idle) {nextId : UInt64} {pending : Table UInt64 ClientPending} :
    w.bus.Moves ({ w with nextId, pending }.setCall c call).bus := by
  have hbus : ({ w with nextId, pending }.setCall c call).bus =
      { w.bus with line := Function.update w.bus.line c call.frame.line } := by
    unfold bus
    congr 1
    · funext c'
      by_cases hc : c' = c
      · subst hc
        rw [calls_setCall_self, hafter]
        exact hbefore.symm
      · rw [calls_setCall_of_ne hc]
    · funext c'
      by_cases hc : c' = c
      · subst hc
        simp
      · simp [calls_setCall_of_ne hc, hc]
  rw [hbus]
  refine .single (.quiet id fun c' hturn => ?_)
  have hc : c' ≠ c := by
    rintro rfl
    exact hturn hbefore
  simp [hc]

lemma moves_skip (h : (w.calls c).phase.turn = .idle) (hgone : phase.turn = .gone) :
    w.bus.Moves (w.goto c phase).bus := by
  rw [bus_goto, hgone]
  exact .single (.skip h)

lemma moves_abandon (w : Writer) (c : Nat) (exit : Exit) :
    w.bus.Moves (w.abandon c exit).bus := by
  unfold abandon
  split
  · rename_i hwaiting
    exact moves_skip (by rw [hwaiting]; rfl) rfl
  · rename_i sent hframing
    rw [bus_goto]
    exact .single (.tear (.inr (.inl ⟨sent, congrArg Phase.turn hframing⟩)))
  · rename_i hflushing
    rw [bus_goto]
    exact .single (.tear (.inr (.inr (congrArg Phase.turn hflushing))))
  · exact .refl

lemma moves_admitCall (h : (w.calls c).phase = .numbered) : w.bus.Moves (w.admitCall c).bus := by
  have hidle : (w.calls c).phase.turn = .idle := by rw [h]; rfl
  unfold admitCall
  split
  · exact moves_skip hidle rfl
  split
  · exact moves_skip hidle rfl
  · dsimp only
    have hquiet := quiet_forget w (w.calls c).id
    refine hquiet.moves.trans ?_
    have hidle' : ((w.forget (w.calls c).id).calls c).phase.turn = .idle := by
      rw [(hquiet.calls c).phase, hidle]
    exact moves_setCall hidle' rfl

lemma moves_leave {exit : Exit} (h : (w.calls c).phase = .leaving exit) :
    w.bus.Moves (w.leave c exit).bus := by
  have hquiet : Quiet w (if exit.closes then w.close else w) := by
    split
    · exact quiet_close w
    · exact .refl w
  unfold leave
  dsimp only
  generalize (if exit.closes then w.close else w) = w' at hquiet
  refine hquiet.moves.trans ?_
  have hgone : (w'.calls c).phase.turn = .gone := by rw [(hquiet.calls c).phase, h]; rfl
  have hclose : (w'.close.calls c).phase.turn = .gone := by
    rw [((quiet_close w').calls c).phase, hgone]
  split
  · split
    · exact moves_goto hgone.symm
    · exact (quiet_close w').moves.trans (moves_goto hclose.symm)
    · exact moves_goto hgone.symm
  · split
    · exact moves_goto hgone.symm
    · exact moves_goto hgone.symm

lemma moves_advance (w : Writer) (c : Nat) : w.bus.Moves (w.advance c).bus := by
  unfold advance
  split
  · rename_i hcalled
    split
    · exact moves_setCall (by rw [hcalled]; rfl) rfl
    · exact moves_goto (by rw [hcalled]; rfl)
  · rename_i hnumbered
    exact moves_admitCall hnumbered
  · rename_i hwaiting
    split
    · rename_i hfree
      have hbus : ({ w.goto c .locked with holder := some c }).bus =
          { w.bus.take c .ready with holder := some c } := by
        rw [← show Phase.locked.turn = .ready from rfl, ← bus_goto]
        rfl
      rw [hbus]
      exact .single (.enter (congrArg Phase.turn hwaiting) (Option.isNone_iff_eq_none.mp hfree))
    · exact .refl
  · rename_i hlocked
    split
    · rw [bus_goto]
      exact .single (.tear (.inl (congrArg Phase.turn hlocked)))
    · rename_i hopen
      rw [bus_goto]
      refine .single (.begin (congrArg Phase.turn hlocked) (Bool.not_eq_true _ ▸ hopen) ?_)
      show (w.calls c).frame.line ≠ []
      simp [Document.line]
  · rename_i exit hclosing
    refine (quiet_close w).moves.trans ?_
    have htorn : w.close.bus.turn c = .torn := by
      show (w.close.calls c).phase.turn = .torn
      rw [((quiet_close w).calls c).phase, hclosing]
      rfl
    have hbus : (w.close.goto c (.unlocking exit)).bus =
        { w.close.bus.take c .releasing with isSealed := true } := by
      rw [bus_goto]
      rfl
    rw [hbus]
    exact .single (.close htorn)
  · rename_i exit hunlocking
    have hbus : ({ w.goto c (.leaving exit) with holder := none }).bus =
        { w.bus.take c .gone with holder := none } := by
      rw [← show (Phase.leaving exit).turn = .gone from rfl, ← bus_goto]
      rfl
    rw [hbus]
    exact .single (.release (congrArg Phase.turn hunlocking))
  · rename_i exit hleaving
    exact moves_leave hleaving
  · rename_i hawaiting
    split
    · exact .refl
    · exact moves_goto (by rw [hawaiting]; rfl)
    · exact moves_goto (by rw [hawaiting]; rfl)
  · rename_i outcome hremoving
    have hquiet := quiet_forget w (w.calls c).id
    refine hquiet.moves.trans (moves_goto ?_)
    rw [(hquiet.calls c).phase, hremoving]
    rfl
  all_goals exact .refl

lemma moves_put (w : Writer) (c n : Nat) : w.bus.Moves (w.put c n).bus := by
  unfold put
  split
  · rename_i sent hframing
    have hturn : w.bus.turn c = .writing sent := congrArg Phase.turn hframing
    dsimp only
    split
    · rw [bus_goto]
      exact .single (.tear (.inr (.inl ⟨sent, hturn⟩)))
    split
    · rename_i hlt
      have hbus : ({ w.goto c (.framing (sent + n)) with
            out := w.out ++ ((w.calls c).frame.line.drop sent).take n }).bus =
          { w.bus.take c (.writing (sent + n)) with
            out := w.bus.out ++ ((w.bus.line c).drop sent).take n } := by
        rw [← show (Phase.framing (sent + n)).turn = .writing (sent + n) from rfl, ← bus_goto]
        rfl
      rw [hbus]
      refine .single (.put hturn ?_)
      rw [List.length_drop] at hlt
      show sent + n < (w.calls c).frame.line.length
      omega
    · have hbus : ({ w.goto c .flushing with
            out := w.out ++ (w.calls c).frame.line.drop sent }).bus =
          { w.bus.take c .written with out := w.bus.out ++ (w.bus.line c).drop sent } := by
        rw [← show Phase.flushing.turn = .written from rfl, ← bus_goto]
        rfl
      rw [hbus]
      exact .single (.complete hturn)
  · exact .refl

lemma moves_run (w : Writer) (c : Nat) (input : Input) : w.bus.Moves (w.run c input).bus := by
  unfold run
  split
  · exact moves_advance w c
  · exact moves_put w c _
  · split
    · rename_i hflushing
      rw [bus_goto]
      exact .single (.finish (congrArg Phase.turn hflushing))
    · exact .refl
  · split
    · rename_i sent hframing
      rw [bus_goto]
      exact .single (.tear (.inr (.inl ⟨sent, congrArg Phase.turn hframing⟩)))
    · rename_i hflushing
      rw [bus_goto]
      exact .single (.tear (.inr (.inr (congrArg Phase.turn hflushing))))
    · exact .refl
  · split
    · exact moves_abandon w c _
    · exact .refl
  · unfold timeout
    split
    · exact moves_abandon w c _
    · exact moves_abandon w c _
    · exact moves_abandon w c _
    · exact (quiet_close w).moves.trans (moves_abandon _ c _)
    · exact (quiet_close w).moves.trans (moves_abandon _ c _)
    · exact (quiet_close w).moves.trans (moves_abandon _ c _)
    · exact .refl
  · unfold drop
    split
    · rename_i hcalled
      exact moves_skip (by rw [hcalled]; rfl) rfl
    · rename_i hawaiting
      exact moves_goto (by rw [hawaiting]; rfl)
    · exact moves_abandon w c _

lemma moves_step (w : Writer) (event : Event) : w.bus.Moves (w.step event).bus := by
  unfold step
  split
  · split
    · rename_i habsent
      exact moves_setCall (by rw [habsent]; rfl) rfl
    · exact .refl
  · exact moves_run w _ _
  · exact (quiet_resolveChecked w _ _).moves
  · exact (quiet_cancelRequest w _).moves
  · exact (quiet_close w).moves

/-! ### Runs -/

lemma sound_new : new.bus.Sound where
  holder c := by
    show false = true ↔ none = some c
    simp
  framed := by
    refine ⟨[], [], rfl, List.nodup_nil, ?_, ?_, ?_⟩
    · intro c hc
      cases hc
    · intro c sent hc
      cases hc
    · intro _ hpart
      exact absurd rfl hpart

lemma sound_after (events : List Event) : (new.after events).bus.Sound :=
  Run.invariant (P := fun w : Writer => w.bus.Sound) (fun w event h => h.moves (moves_step w event)) sound_new
    events

lemma over_after (h : w.bus.Sound) (hover : w.bus.Over) (events : List Event) :
    (w.after events).out = w.out := by
  have hkeeps : ∀ w' : Writer, w'.bus.Sound ∧ w'.bus.Over ∧ w'.out = w.out → ∀ event,
      (w'.step event).bus.Sound ∧ (w'.step event).bus.Over ∧ (w'.step event).out = w.out := by
    rintro w' ⟨hsound, hover, hout⟩ event
    have hmoves := moves_step w' event
    obtain ⟨hover', hout'⟩ := hover.moves hsound hmoves
    exact ⟨hsound.moves hmoves, hover', hout'.trans hout⟩
  exact (Run.invariant (fun w' event h => hkeeps w' h event) ⟨h, hover, rfl⟩ events).2.2

end Writer

end Acp
