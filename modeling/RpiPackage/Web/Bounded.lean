import Mathlib.Data.List.Nodup
import Mathlib.Data.List.Pairwise
import RpiPackage.Web.Snapshot

/-!
# The trace stays bounded and truthful

Whatever events and snapshots arrive, the trace keeps to its limits, refers to what it holds, and
shows no other group running than the active one.
-/

namespace ExecutionTrace

open Js (Value Numeric)
open ExecutionTraceState

variable {ν : Type*} {C : Prop} {s s' : ExecutionTraceState ν} [Numeric ν] (R : Redaction ν)

/-! ### Events -/

omit [Numeric ν] in
lemma settledGroup_spec (s : ExecutionTraceState ν) (runId : Option String) :
    Keeps C s (Redaction.settledGroup s runId).1 ∧
      (Current s → CurrentBut (Redaction.settledGroup s runId).2 (Redaction.settledGroup s runId).1) := by
  unfold Redaction.settledGroup
  extract_lets named current
  generalize (named <|> current) = found
  cases found with
  | some g => exact ⟨.refl C s, fun hc => hc.but _⟩
  | none =>
    have hmark := Within.markPartial (C := C) (s.group .live false).1 (s.group .live false).2
    exact ⟨(Keeps.group s .live false).trans hmark.toKeeps,
      fun hc => (currentBut_group hc .live false).within hmark⟩

lemma Advances.agentSettled {event : Value ν} (h : Settles event) (s : ExecutionTraceState ν)
    (runId : Option String) : Advances C s (R.agentSettled s runId event) := by
  unfold Redaction.agentSettled
  obtain ⟨hkeeps, hbut⟩ := settledGroup_spec (C := C) s runId
  generalize Redaction.settledGroup s runId = found at hkeeps hbut ⊢
  obtain ⟨s₁, g⟩ := found
  dsimp only at hkeeps hbut ⊢
  have hrun := Within.setRunId (C := C) s₁ runId g
  obtain ⟨hsettle, hcurrent⟩ := settle_spec (C := C) R h
    (s₁.updateGroup g fun g => { g with runId := runId <|> g.runId }) g
  refine ⟨(hkeeps.trans hrun.toKeeps).trans hsettle, fun hs hc => ?_⟩
  exact hcurrent (hrun.sound (hkeeps.sound hs)) ((hbut hc).within hrun)

lemma Advances.retryScheduled (s : ExecutionTraceState ν) (event : SeqEvent ν) :
    Advances C s (R.retryScheduled s event) := by
  unfold Redaction.retryScheduled
  have hadd := Within.add (C := C) s.liveGroup.1 s.liveGroup.2 .retry .completed none (by simp)
  refine ((Advances.liveGroup C s).trans hadd.advances).trans (Within.advances ?_)
  apply Within.edit
  intro n
  exact ⟨rfl, rfl, fun h => h, fun _ h => h⟩

lemma Advances.messageEvent (s : ExecutionTraceState ν) (event : SeqEvent ν)
    (hC : C → event.type = "message_end" → IsNative (event.get "message")) :
    Advances C s (R.messageEvent s event) := by
  unfold Redaction.messageEvent
  extract_lets r isEnd current known
  have hend : C → isEnd = true → IsNative r := fun hc hend => hC hc (beq_iff_eq.mp hend)
  split
  · have hcontext := Advances.contextGroup (C := C) s (known.bind fun known => s.ownerOf known.id)
    generalize Redaction.contextGroup s (known.bind fun known => s.ownerOf known.id) = context
      at hcontext ⊢
    obtain ⟨s₁, g⟩ := context
    have hmessage := Within.message (C := C) R s₁ r g isEnd none current hend
    dsimp -zeta only at hcontext ⊢
    generalize R.message s₁ r g isEnd none current = written at hmessage ⊢
    obtain ⟨s₂, n⟩ := written
    dsimp -zeta only at hmessage ⊢
    extract_lets s₃
    have hassistant : Within C s₂ s₃ := by
      show Within C s₂ (if _ then _ else _)
      split
      · exact .of_groups rfl rfl rfl rfl
      · exact .refl C s₂
    refine (hcontext.trans hmessage.advances).trans (Within.advances (hassistant.trans ?_))
    split
    · exact .of_groups rfl rfl rfl rfl
    · exact .refl C s₃
  · exact .refl C s

lemma Advances.toolExecution (s : ExecutionTraceState ν) (event : SeqEvent ν) :
    Advances C s (R.toolExecution s event) := by
  unfold Redaction.toolExecution
  extract_lets call owner
  have hcontext := Advances.contextGroup (C := C) s (owner.map Group.id)
  generalize Redaction.contextGroup s (owner.map Group.id) = context at hcontext ⊢
  obtain ⟨s₁, g⟩ := context
  have htool := Within.tool (C := C) s₁ g call .unknown
  exact hcontext.trans (htool.trans (.edit (tame_withExecution R event) _ _)).advances

omit [Numeric ν] in
lemma Advances.hostClosed (s : ExecutionTraceState ν) : Advances C s (Redaction.hostClosed s) := by
  refine ⟨.in_place rfl rfl ?_, fun _ _ g hg hrun => ?_⟩
  · refine List.forall₂_map_right_iff.mpr (List.forall₂_same.mpr fun g _ => ⟨rfl, ?_⟩)
    exact List.forall₂_map_right_iff.mpr
      (List.forall₂_same.mpr fun n _ => tame_stop (by decide) n)
  · obtain ⟨g', -, rfl⟩ := List.mem_map.mp hg
    dsimp only at hrun
    split at hrun
    · cases hrun
    · rename_i hnot
      exact absurd hrun hnot

/-- What an event settles, it settles in one of the known ways. -/
def SeqEvent.Settles (event : SeqEvent ν) : Prop :=
  event.type = "agent_settled" → ExecutionTrace.Settles (.object event.fields)

/-- An event that is not stale advances the trace. -/
lemma applyTraceEvent_cases {event : SeqEvent ν} (h : event.Settles)
    (hC : C → event.type = "message_end" → IsNative (event.get "message"))
    (s : ExecutionTraceState ν) (seq : ν) :
    R.applyTraceEvent s event seq = s ∨
      ∃ n s', s.lastSeq < n ∧ Advances C { s with lastSeq := n } s' ∧
        R.applyTraceEvent s event seq = s'.bound := by
  unfold Redaction.applyTraceEvent
  split
  · exact .inl rfl
  · rename_i n hn
    split
    · exact .inl rfl
    · rename_i hfresh
      extract_lets s₁ runId s₂ s₃
      refine .inr ⟨n, s₃, by omega, ?_, rfl⟩
      have hkind : Advances C s₁ s₂ := by
        show Advances C s₁ (if _ then _ else if _ then _ else if _ then _ else if _ then _
          else if _ then _ else _)
        split
        · exact .agentStart s₁ runId
        · split
          · rename_i htype
            exact .agentSettled R (h htype) s₁ runId
          · split
            · exact .retryScheduled R s₁ event
            · split
              · exact .messageEvent R s₁ event hC
              · split
                · exact .toolExecution R s₁ event
                · exact .refl C s₁
      refine hkind.trans ?_
      show Advances C s₂ (if _ then _ else _)
      split
      · exact .hostClosed s₂
      · exact .refl C s₂

lemma applyTraceEvent_stale (s : ExecutionTraceState ν) (event : SeqEvent ν) (seq : ν)
    (h : ∀ n, Numeric.toSafeInteger seq = some n → n ≤ s.lastSeq) :
    R.applyTraceEvent s event seq = s := by
  unfold Redaction.applyTraceEvent
  split
  · rfl
  · rename_i n hn
    exact if_pos (.inr (h n hn))

/-! ### Runs -/

def Call.Settles : Call ν → Prop
  | .event e _ => e.Settles
  | .snapshot frame _ => frame.Settles

/-- The messages that a call completes have a stop reason of the host's, which has none for a
message that is still running. -/
def Call.IsNative : Call ν → Prop
  | .event e _ => e.type = "message_end" → ExecutionTrace.IsNative (e.get "message")
  | .snapshot frame _ => ∀ r ∈ frame.items, ExecutionTrace.IsNative r

/-- What a call keeps, whatever becomes of the sequence number. -/
structure Follows (C : Prop) (s s' : ExecutionTraceState ν) : Prop where
  nextId : s.nextId ≤ s'.nextId
  lastSeq : s.lastSeq ≤ s'.lastSeq
  sound : Sound s → Sound s'
  current : Sound s → Current s → Current s'
  ended : ∀ n' ∈ s'.nodes, n'.id ≤ s.nextId →
    ∃ n ∈ s.nodes, n.id = n'.id ∧ (n.ended = true → n'.ended = true)
  rested : C → Rested s → Rested s'

/-- The limits hold, and what the state refers to is there. -/
def Capped (s : ExecutionTraceState ν) : Prop :=
  s.nodes.length ≤ MAX_NODES ∧ s.groups.length ≤ MAX_GROUPS ∧ Refers s

omit [Numeric ν] in
lemma capped_bound (s : ExecutionTraceState ν) : Capped s.bound :=
  ⟨length_bound_nodes s, length_bound_groups s, refers_bound s⟩

omit [Numeric ν] in
lemma Follows.refl (C : Prop) (s : ExecutionTraceState ν) : Follows C s s :=
  ⟨Nat.le_refl _, Int.le_refl _, id, fun _ => id, (Keeps.refl C s).ended, fun _ => id⟩

omit [Numeric ν] in
lemma Follows.trans {s'' : ExecutionTraceState ν} (h : Follows C s s') (h' : Follows C s' s'') :
    Follows C s s'' := by
  refine ⟨Nat.le_trans h.nextId h'.nextId, Int.le_trans h.lastSeq h'.lastSeq,
    fun hs => h'.sound (h.sound hs), fun hs hc => h'.current (h.sound hs) (h.current hs hc), ?_,
    fun hC hs => h'.rested hC (h.rested hC hs)⟩
  intro n'' hn'' hle
  obtain ⟨n', hn', hid', hended'⟩ := h'.ended n'' hn'' (Nat.le_trans hle h.nextId)
  obtain ⟨n, hn, hid, hended⟩ := h.ended n' hn' (hid' ▸ hle)
  exact ⟨n, hn, hid.trans hid', fun hn => hended' (hended hn)⟩

omit [Numeric ν] in
lemma Advances.follows {n : Int} (hn : s.lastSeq ≤ n) (h : Advances C { s with lastSeq := n } s') :
    Follows C s s' := by
  refine ⟨h.nextId, h.lastSeq ▸ hn, fun hs => ?_, fun hs hc => ?_, h.ended, h.rested⟩
  · exact h.sound ⟨hs.groupIds, hs.groupLe, hs.nodeIds, hs.nodeLe, hs.calls⟩
  · exact h.current ⟨hs.groupIds, hs.groupLe, hs.nodeIds, hs.nodeLe, hs.calls⟩ hc

lemma step_follows {call : Call ν} (h : call.Settles) (hC : C → call.IsNative)
    (s : ExecutionTraceState ν) :
    Follows C s (step R s call) ∧ (Capped s → Capped (step R s call)) := by
  cases call with
  | event event seq =>
    rcases applyTraceEvent_cases R h hC s seq with heq | ⟨n, s', hlt, hadvances, heq⟩
    · rw [step, heq]
      exact ⟨.refl C s, id⟩
    · rw [step, heq]
      exact ⟨(hadvances.trans (.bound C s')).follows (Int.le_of_lt hlt), fun _ => capped_bound s'⟩
  | snapshot frame mode =>
    obtain ⟨s', hadvances, heq⟩ := Advances.applyTraceSnapshot R h hC s mode
    rw [step, heq]
    exact ⟨(hadvances.trans (.bound C s')).follows (Int.le_refl _), fun _ => capped_bound s'⟩

lemma after_follows {calls : List (Call ν)} (h : ∀ call ∈ calls, call.Settles)
    (hC : C → ∀ call ∈ calls, call.IsNative) (s : ExecutionTraceState ν) :
    Follows C s (Run.after (step R) s calls) ∧
      (Capped s → Capped (Run.after (step R) s calls)) := by
  induction calls generalizing s with
  | nil => exact ⟨.refl C s, id⟩
  | cons call calls ih =>
    obtain ⟨hstep, hcapped⟩ := step_follows (C := C) R (h call List.mem_cons_self)
      (fun hc => hC hc call List.mem_cons_self) s
    obtain ⟨hrest, hcapped'⟩ := ih (fun c hc => h c (List.mem_cons_of_mem _ hc))
      (fun hc c hmem => hC hc c (List.mem_cons_of_mem _ hmem)) (step R s call)
    exact ⟨hstep.trans hrest, fun hs => hcapped' (hcapped hs)⟩

omit [Numeric ν] in
lemma sound_create : Sound (createExecutionTrace : ExecutionTraceState ν) :=
  ⟨.nil, fun _ h => (by cases h), .nil, fun _ h => (by cases h), .nil⟩

/-- The trace keeps to its limits and says nothing of itself that is not so. -/
structure Truthful (s : ExecutionTraceState ν) : Prop where
  nodes : s.nodes.length ≤ 300
  groups : s.groups.length ≤ 50
  nodeIds : (s.nodes.map Node.id).Nodup
  groupIds : (s.groups.map Group.id).Nodup
  calls : ∀ n ∈ s.nodes, ∀ m ∈ s.nodes, n.kind = .tool → m.kind = .tool →
    n.call.isSome → n.call = m.call → n = m
  refers : Refers s
  running : ∀ g ∈ s.groups, g.status = .running → s.active = some g.id
  oneRuns : ∀ g ∈ s.groups, ∀ g' ∈ s.groups, g.status = .running → g'.status = .running → g = g'

lemma eq_of_nodup_filterMap {α β : Type*} {f : α → Option β} {xs : List α} {a a' : α} {b : β}
    (h : (xs.filterMap f).Nodup) (ha : a ∈ xs) (ha' : a' ∈ xs) (hb : f a = some b)
    (hb' : f a' = some b) : a = a' := by
  by_contra hne
  have hpairs := List.pairwise_filterMap.mp h
  have hsymm : Std.Symm fun x y => ∀ b, f x = some b → ∀ b', f y = some b' → b ≠ b' :=
    ⟨fun x y hxy b hb b' hb' => (hxy b' hb' b hb).symm⟩
  exact hpairs.forall ha ha' hne b hb b hb' rfl

lemma truthful_after {calls : List (Call ν)} (h : ∀ call ∈ calls, call.Settles) :
    Truthful (Run.after (step R) createExecutionTrace calls) := by
  obtain ⟨hfollows, hcapped⟩ := after_follows (C := False) R h (fun hc => hc.elim) createExecutionTrace
  have hs := hfollows.sound sound_create
  have hc := hfollows.current sound_create fun _ hg => by cases hg
  obtain ⟨hnodes, hgroups, hrefers⟩ := hcapped ⟨Nat.zero_le _, Nat.zero_le _,
    fun _ h => (by cases h), fun _ h => (by cases h), fun _ h => (by cases h)⟩
  refine ⟨hnodes, hgroups, hs.nodeIds, hs.groupIds, ?_, hrefers, hc, ?_⟩
  · intro n hn m hm hkind hkind' hsome heq
    obtain ⟨c, hc⟩ := Option.isSome_iff_exists.mp hsome
    have hcall : n.toolCall = some c := by rw [Node.toolCall, if_pos hkind, hc]
    have hcall' : m.toolCall = some c := by rw [Node.toolCall, if_pos hkind', ← heq, hc]
    exact eq_of_nodup_filterMap hs.calls hn hm hcall hcall'
  · intro g hg g' hg' hrun hrun'
    have hid : g.id = g'.id := Option.some.inj ((hc g hg hrun).symm.trans (hc g' hg' hrun'))
    exact List.inj_on_of_nodup_map hs.groupIds hg hg' hid

/-- For every run, and at every point of it, the trace is truthful and stale events change nothing.
What has ended does not run again, as long as the host's messages are not over while they say that
they run. -/
theorem truthful_run (earlier later : List (Call ν))
    (h : ∀ call ∈ earlier ++ later, call.Settles) :
    let s := Run.after (step R) createExecutionTrace earlier
    let s' := Run.after (step R) createExecutionTrace (earlier ++ later)
    Truthful s' ∧ s.lastSeq ≤ s'.lastSeq ∧
      (∀ event seq, (∀ n, Numeric.toSafeInteger seq = some n → n ≤ s'.lastSeq) →
        R.applyTraceEvent s' event seq = s') ∧
      ((∀ call ∈ earlier ++ later, call.IsNative) →
        ∀ n ∈ s.nodes, n.ended = true → ∀ n' ∈ s'.nodes, n'.id = n.id → n'.status ≠ .running) := by
  intro s s'
  have hearlier := fun call hcall => h call (List.mem_append_left _ hcall)
  have hlater := fun call hcall => h call (List.mem_append_right _ hcall)
  have hs' : s' = Run.after (step R) s later := Run.after_append _ _ _
  have hsound : Sound s :=
    (after_follows (C := False) R hearlier (fun hc => hc.elim) createExecutionTrace).1.sound sound_create
  refine ⟨truthful_after R h, ?_, fun event seq hstale => ?_, fun hnative => ?_⟩
  · rw [hs']
    exact (after_follows (C := False) R hlater (fun hc => hc.elim) s).1.lastSeq
  · exact applyTraceEvent_stale R s' event seq hstale
  · intro n hn hended n' hn' hid
    rw [hs'] at hn'
    have hfirst := (after_follows (C := True) R hearlier
      (fun _ call hcall => hnative call (List.mem_append_left _ hcall)) createExecutionTrace).1
    have hrest := (after_follows (C := True) R hlater
      (fun _ call hcall => hnative call (List.mem_append_right _ hcall)) s).1
    have hrested : Rested s := hfirst.rested trivial fun _ h => by cases h
    -- ids are never reused, so the later node is the earlier one
    obtain ⟨m, hm, hmid, hmended⟩ := hrest.ended n' hn' (hid ▸ hsound.nodeLe n hn)
    obtain rfl : m = n := List.inj_on_of_nodup_map hsound.nodeIds hm hn (hmid.trans hid)
    exact hrest.rested trivial hrested n' hn' (hmended hended)

/-! ### An example run -/

/-- Leaves every text as it is. -/
def plain : Redaction Int where
  text := id
  summary := Value.asString
  display v := v.asString.getD ""

def assistantMessage (stopReason : String) : Value Int :=
  .object [("role", .string "assistant"), ("stopReason", .string stopReason)]

def messageEnd (stopReason : String) : Call Int :=
  .event ⟨"message_end", [("message", assistantMessage stopReason)]⟩ 1

def settled : Call Int := .event ⟨"agent_settled", [("outcome", .string "completed")]⟩ 2

lemma settles_messageEnd (stopReason : String) : (messageEnd stopReason).Settles :=
  fun htype => absurd htype (by simp)

lemma settles_settled : settled.Settles := fun _ => ⟨"completed", by simp, rfl⟩

theorem truthful_run_of_two_calls :
    Truthful (Run.after (step plain) createExecutionTrace [messageEnd "stop", settled]) ∧
      ∀ n ∈ (Run.after (step plain) createExecutionTrace [messageEnd "stop"]).nodes,
        n.ended = true →
        ∀ n' ∈ (Run.after (step plain) createExecutionTrace [messageEnd "stop", settled]).nodes,
          n'.id = n.id → n'.status ≠ .running := by
  have hsettles : ∀ call ∈ [messageEnd "stop"] ++ [settled], call.Settles := by
    intro call hcall
    rcases List.mem_cons.mp hcall with rfl | hcall
    · exact settles_messageEnd "stop"
    · rw [List.mem_singleton.mp hcall]
      exact settles_settled
  have hnative : ∀ call ∈ [messageEnd "stop"] ++ [settled], call.IsNative := by
    intro call hcall
    rcases List.mem_cons.mp hcall with rfl | hcall
    · exact fun _ _ => by decide
    · rw [List.mem_singleton.mp hcall]
      exact fun htype => absurd htype (by simp)
  obtain ⟨htruthful, -, -, hended⟩ := truthful_run plain [messageEnd "stop"] [settled] hsettles
  exact ⟨htruthful, hended hnative⟩

/-- A message that is over and says that it runs does both in the trace. -/
theorem exists_ended_and_running :
    ∃ earlier later : List (Call Int), (∀ call ∈ earlier ++ later, call.Settles) ∧
      ∃ n ∈ (Run.after (step plain) createExecutionTrace earlier).nodes, n.ended = true ∧
        ∃ n' ∈ (Run.after (step plain) createExecutionTrace (earlier ++ later)).nodes,
          n'.id = n.id ∧ n'.status = .running := by
  refine ⟨[messageEnd "running"], [.event ⟨"turn_end", []⟩ 2], ?_, ?_⟩
  · intro call hcall
    rcases List.mem_cons.mp hcall with rfl | hcall
    · exact settles_messageEnd "running"
    · rw [List.mem_singleton.mp hcall]
      exact fun htype => absurd htype (by simp)
  · decide +kernel

end ExecutionTrace
