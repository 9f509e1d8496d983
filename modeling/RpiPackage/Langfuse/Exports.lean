import RpiPackage.Langfuse.Turns
import RpiPackage.Lib.Run

/-!
# Exports lose and repeat nothing

Over a run whose steps keep clear of the exports under way, and in which no tool call takes the
place of another one.
-/

namespace Langfuse

variable {s : Tracer}

/-- An attempt that fails, or finds nothing to send, leaves the store as it is. -/
def Fits (s : Tracer) : Action → Prop
  | .respond i false => ∀ f ∈ s.flushes[i]?, f.sent = false → s.store.length ≤ 2000
  | .proceed i => ∀ includeOpen, .flush includeOpen ∈ s.tails[i]? →
    s.snapshot includeOpen = [] → s.store.length ≤ 2000
  | _ => True

/-- The condition on a step, given the state before it. -/
structure Admits (s : Tracer) (action : Action) : Prop where
  keeps : Keeps s action
  covers : Covers s action
  fits : Fits s action

structure Safe (s : Tracer) : Prop where
  -- what has ended is in the store or in a successful export
  kept : ∀ id, .ended id ∈ s.log → id ∈ s.store.map SpanRecord.id ∨ id ∈ exportedIds s.log
  -- no two successful exports hold the same observation, nor does one of them twice
  once : (exportedIds s.log).Nodup
  -- an export in the middle of a turn holds only what had ended
  midTurn : ∀ before batch after, s.log = before ++ .exported false batch :: after →
    ∀ rec ∈ batch, .ended rec.id ∈ before
  children : ∀ id turn, .finalized turn ∈ s.log → .started id (some turn) ∈ s.log →
    .ended id ∈ s.log
  bounded : ∀ held, .flushed held ∈ s.log → held ≤ 2000

/-- Every attempt to export left at most 2000 observations. -/
def Bounded (s : Tracer) : Prop := ∀ held, .flushed held ∈ s.log → held ≤ 2000

lemma length_bounded (store : List SpanRecord) : (Tracer.bounded store).length ≤ 2000 := by
  unfold Tracer.bounded
  split
  · rw [List.length_drop]
    omega
  · omega

namespace Bounded

lemma grow {s s' : Tracer} (h : Bounded s) {new : List Event} (hlog : s'.log = s.log ++ new)
    (hnew : ∀ held, .flushed held ∈ new → held ≤ 2000) : Bounded s' := by
  intro held hmem
  rw [hlog] at hmem
  rcases List.mem_append.mp hmem with hmem | hmem
  · exact h held hmem
  · exact hnew held hmem

lemma same {s s' : Tracer} (h : Bounded s) (hlog : s'.log = s.log) : Bounded s' :=
  h.grow (hlog.trans (List.append_nil _).symm) fun _ hmem => absurd hmem List.not_mem_nil

lemma takeTurn (h : Bounded s) (tail : Tail) : Bounded (s.takeTurn tail) := by
  unfold Tracer.takeTurn
  split
  · exact h.same rfl
  · exact h.same rfl

lemma onTurn (h : Bounded s)
    (handler : Nat → PromptState → PromptState × List Op × Option Tail) :
    Bounded (s.onTurn handler) := by
  unfold Tracer.onTurn
  split
  · exact h
  · exact h.same rfl

lemma run (h : Bounded s) : Bounded s.run := by
  unfold Tracer.run
  split
  · exact h
  · rename_i op left tail hholder
    cases op with
    | start id turn => exact h.grow rfl (by simp)
    | stop id => exact h.grow rfl (by simp)
    | finalize turn root => exact h.grow (List.append_assoc _ _ _) (by simp)
  · exact h.same rfl

lemma proceed (h : Bounded s) {i : Nat} (hfits : Fits s (.proceed i)) :
    Bounded (s.proceed i) := by
  unfold Tracer.proceed
  split
  · exact h
  · exact h.grow rfl (by simp)
  · split
    · exact h
    · exact h.same rfl
  · split
    · exact h
    · have hdrop : Bounded { s with tails := s.tails.eraseIdx i } := h.same rfl
      exact hdrop.takeTurn _
  · rename_i includeOpen hi
    unfold Tracer.beginFlush
    dsimp only
    split
    · rename_i hempty
      have hlength := hfits includeOpen hi (List.isEmpty_iff.mp hempty)
      exact h.grow rfl (by simpa using hlength)
    · exact h.same rfl

lemma respond (h : Bounded s) {i : Nat} {success : Bool} (hfits : Fits s (.respond i success)) :
    Bounded (s.respond i success) := by
  unfold Tracer.respond
  split
  · rename_i includeOpen batch hi
    split
    · exact h.grow rfl (by simp)
    · rename_i hsuccess
      obtain rfl : success = false := by simpa using hsuccess
      have hlength := hfits _ hi rfl
      exact h.grow rfl (by simpa using hlength)
  · exact h

lemma prune (h : Bounded s) (i : Nat) : Bounded (s.prune i) := by
  unfold Tracer.prune
  split
  · rename_i includeOpen batch hi
    exact h.grow rfl (by simpa using length_bounded _)
  · exact h

lemma endCompaction (h : Bounded s) (i : Nat) : Bounded (s.endCompaction i) := by
  unfold Tracer.endCompaction
  split
  · exact h
  · exact h.grow rfl (by simp)

lemma step (h : Bounded s) {action : Action} (hfits : Fits s action) :
    Bounded (s.step action) := by
  cases action with
  | sessionStart => exact Tracer.of_free h fun _ => h.same rfl
  | turnStart subagent => exact Tracer.of_free h fun _ => h.takeTurn _
  | providerRequest => exact Tracer.of_free h fun _ => h.onTurn _
  | messageEnd toolCalls => exact Tracer.of_free h fun _ => h.onTurn _
  | toolStart toolCallId => exact Tracer.of_free h fun _ => h.onTurn _
  | toolEnd toolCallId usage => exact Tracer.of_free h fun _ => h.onTurn _
  | settle => exact Tracer.of_free h fun _ => h.takeTurn _
  | shutdown => exact Tracer.of_free h fun _ => h.takeTurn _
  | compact => exact h.grow rfl (by simp)
  | endCompaction i => exact h.endCompaction i
  | run => exact h.run
  | proceed i => exact h.proceed hfits
  | respond i success => exact h.respond hfits
  | prune i => exact h.prune i

end Bounded

/-! ### Runs -/

/-- What holds of every state that the steps of the condition reach. -/
structure Sound (s : Tracer) : Prop where
  kept : Kept s
  covered : Covered s
  bounded : Bounded s

lemma Sound.start : Sound Tracer.start :=
  ⟨Kept.start, Covered.start, fun _ hmem => absurd hmem List.not_mem_nil⟩

lemma Sound.step (h : Sound s) {action : Action} (hadmits : Admits s action) :
    Sound (s.step action) :=
  ⟨h.kept.step hadmits.keeps, h.covered.step h.kept hadmits.covers, h.bounded.step hadmits.fits⟩

lemma Sound.safe (h : Sound s) : Safe s where
  kept := by
    intro id hended
    obtain ⟨before, after, hlog⟩ := List.append_of_mem hended
    have hstarted : Started before id := h.kept.shelf.timely before _ after hlog
    exact h.kept.shelf.kept id (hstarted.mono (hlog ▸ List.subset_append_left _ _))
  once := h.kept.shelf.once
  midTurn := fun before batch after hlog => h.kept.shelf.timely before _ after hlog
  children := h.covered.done
  bounded := h.bounded

instance decidableKeeps (s : Tracer) : (action : Action) → Decidable (Keeps s action)
  | .respond i true => inferInstanceAs (Decidable (∀ f ∈ s.flushes[i]?, f.sent = false →
    ∀ rec ∈ f.batch, rec.id ∉ exportedIds s.log))
  | .prune i => inferInstanceAs (Decidable (∀ f ∈ s.flushes[i]?, f.sent = true →
    (∀ rec ∈ s.store, (rec.ended || f.includeOpen) = true → rec.id ∈ f.batch.map SpanRecord.id) ∧
      (s.retained f.includeOpen).length ≤ 2000))
  | .respond _ false | .sessionStart | .turnStart _ | .providerRequest | .messageEnd _
  | .toolStart _ | .toolEnd _ _ | .settle | .shutdown | .compact | .endCompaction _ | .run
  | .proceed _ => .isTrue trivial

instance decidableCovers (s : Tracer) : (action : Action) → Decidable (Covers s action)
  | .toolStart toolCallId => inferInstanceAs (Decidable (s.holder = none →
    ∀ p ∈ s.prompt, p.openTools.lookup toolCallId = none))
  | .sessionStart | .turnStart _ | .providerRequest | .messageEnd _ | .toolEnd _ _ | .settle
  | .shutdown | .compact | .endCompaction _ | .run | .proceed _ | .respond _ _ | .prune _ =>
    .isTrue trivial

instance decidableFits (s : Tracer) : (action : Action) → Decidable (Fits s action)
  | .respond i false => inferInstanceAs (Decidable (∀ f ∈ s.flushes[i]?, f.sent = false →
    s.store.length ≤ 2000))
  | .proceed i => inferInstanceAs (Decidable (∀ includeOpen, .flush includeOpen ∈ s.tails[i]? →
    s.snapshot includeOpen = [] → s.store.length ≤ 2000))
  | .respond _ true | .sessionStart | .turnStart _ | .providerRequest | .messageEnd _
  | .toolStart _ | .toolEnd _ _ | .settle | .shutdown | .compact | .endCompaction _ | .run
  | .prune _ => .isTrue trivial

instance (s : Tracer) (action : Action) : Decidable (Admits s action) :=
  decidable_of_iff (Keeps s action ∧ Covers s action ∧ Fits s action)
    ⟨fun h => ⟨h.1, h.2.1, h.2.2⟩, fun h => ⟨h.keeps, h.covers, h.fits⟩⟩

/-- A turn with a tool call, a failed export in its middle and a success at its end. -/
def toolTurn : List Action :=
  [.turnStart false, .proceed 0, .proceed 0, .providerRequest, .run, .run, .toolStart "call_1",
    .run, .run, .messageEnd true, .run, .run, .proceed 0, .respond 0 false, .toolEnd "call_1" true,
    .run, .run, .run, .run, .settle, .run, .run, .proceed 0, .respond 0 true, .prune 0]

end Langfuse
