import RpiPackage.Langfuse.Kept
import Mathlib.Data.List.Nodup

/-!
# What a turn leaves behind

When a turn is finalized every child it began has come to its end, as long as no tool call takes
the place of one that is still open.
-/

namespace Langfuse

variable {s s' : Tracer} {id t n : Nat} {op : Op} {left : List Op} {p : PromptState}

/-- The turn is gone, and it was not finalized. -/
structure Lost (s : Tracer) (t : Nat) : Prop where
  finalized : .finalized t ∉ s.log
  closing : ∀ root, .finalize t root ∉ s.ops
  prompt : ∀ p, s.prompt = some p → p.turn ≠ t

/-- The turn under way. -/
structure Current (s : Tracer) (p : PromptState) : Prop where
  turn : p.turn < s.nextTurn
  finalized : .finalized p.turn ∉ s.log
  closing : ∀ root, .finalize p.turn root ∉ s.ops
  generation : ∀ gen, p.openGeneration = some gen → gen.finished = false
  tools : (p.openTools.map Prod.fst).Nodup

structure Covered (s : Tracer) : Prop where
  current : ∀ p, s.prompt = some p → Current s p
  begun : ∀ id t, .started id (some t) ∈ s.log → t < s.nextTurn
  closed : ∀ t, .finalized t ∈ s.log → t < s.nextTurn
  closing : ∀ t root, .finalize t root ∈ s.ops → t < s.nextTurn
  last : ∀ before t root after, s.ops = before ++ .finalize t root :: after → after = []
  starting : ∀ id t, .start id t ∈ s.ops →
    ∃ p, s.prompt = some p ∧ p.turn = t ∧ (id ∈ p.openIds ∨ .stop id ∈ s.ops)
  children : ∀ id t, .started id (some t) ∈ s.log → .ended id ∈ s.log ∨ .stop id ∈ s.ops ∨
    (∃ p, s.prompt = some p ∧ p.turn = t ∧ id ∈ p.openIds) ∨ Lost s t
  done : ∀ id t, .finalized t ∈ s.log → .started id (some t) ∈ s.log → .ended id ∈ s.log

/-- No tool call takes the place of one that is open. -/
def Covers (s : Tracer) : Action → Prop
  | .toolStart toolCallId => s.holder = none →
    ∀ p ∈ s.prompt, p.openTools.lookup toolCallId = none
  | _ => True

lemma Ready.not_known {known : Nat → Prop} (h : Ready n known left) (hstart : .start id t ∈ left) :
    ¬known id := by
  induction left generalizing known with
  | nil => cases hstart
  | cons op left ih =>
    rcases List.mem_cons.mp hstart with rfl | hmem
    · exact h.2.1
    · cases op with
      | start id' t' =>
        intro hknown
        exact ih h.2.2 hmem (.inl hknown)
      | stop id' => exact ih h.2 hmem
      | finalize t' root => exact ih h.2 hmem

namespace Covered

lemma start : Covered Tracer.start where
  current := by
    intro p hp
    cases hp
  begun := by
    intro id t h
    cases h
  closed := by
    intro t h
    cases h
  closing := by
    intro t root h
    cases h
  last := by
    intro before t root after h
    exact absurd h (List.append_ne_nil_of_right_ne_nil before (List.cons_ne_nil _ _)).symm
  starting := by
    intro id t h
    cases h
  children := by
    intro id t h
    cases h
  done := by
    intro id t h
    cases h

/-- A step beside the turns. -/
lemma grow (h : Covered s) {new : List Event} (hlog : s'.log = s.log ++ new)
    (hstarted : ∀ id t, .started id (some t) ∉ new) (hfinalized : ∀ t, .finalized t ∉ new)
    (hops : s'.ops = s.ops) (hprompt : s'.prompt = s.prompt) (hnext : s'.nextTurn = s.nextTurn) :
    Covered s' := by
  have hsub : s.log ⊆ s'.log := hlog ▸ List.subset_append_left _ _
  have hold : ∀ id t, .started id (some t) ∈ s'.log → .started id (some t) ∈ s.log := by
    intro id t hmem
    rw [hlog] at hmem
    exact (List.mem_append.mp hmem).resolve_right (hstarted id t)
  have hold' : ∀ t, .finalized t ∈ s'.log → .finalized t ∈ s.log := by
    intro t hmem
    rw [hlog] at hmem
    exact (List.mem_append.mp hmem).resolve_right (hfinalized t)
  refine ⟨?_, ?_, ?_, ?_, ?_, ?_, ?_, ?_⟩
  · intro p hp
    have hcurrent := h.current p (hprompt ▸ hp)
    exact ⟨hnext ▸ hcurrent.turn, fun hmem => hcurrent.finalized (hold' _ hmem),
      hops ▸ hcurrent.closing, hcurrent.generation, hcurrent.tools⟩
  · exact fun id t hmem => hnext ▸ h.begun id t (hold id t hmem)
  · exact fun t hmem => hnext ▸ h.closed t (hold' t hmem)
  · rw [hops, hnext]
    exact h.closing
  · rw [hops]
    exact h.last
  · rw [hops, hprompt]
    exact h.starting
  · intro id t hmem
    rw [hops, hprompt]
    rcases h.children id t (hold id t hmem) with hended | hstop | hopen | hlost
    · exact .inl (hsub hended)
    · exact .inr (.inl hstop)
    · exact .inr (.inr (.inl hopen))
    · exact .inr (.inr (.inr ⟨fun hmem => hlost.finalized (hold' t hmem), hops ▸ hlost.closing,
        hprompt ▸ hlost.prompt⟩))
  · exact fun id t hfin hmem => hsub (h.done id t (hold' t hfin) (hold id t hmem))

/-! #### The handler that has the prompt state -/

lemma exec (h : Covered s) (hkept : Kept s) {tail : Option Tail}
    (hholder : s.holder = some (op :: left, tail)) :
    Covered { s.exec op with holder := some (left, tail) } := by
  have hops : s.ops = op :: left := by rw [Tracer.ops, hholder]; rfl
  have htail : ∀ op', op' ∈ left → op' ∈ s.ops := fun op' hmem => hops ▸ List.mem_cons_of_mem _ hmem
  have hlast : ∀ before t root after, left = before ++ .finalize t root :: after → after = [] := by
    intro before t root after heq
    exact h.last (op :: before) t root after (by rw [hops, heq, List.cons_append])
  have hleft : ∀ op', op' ≠ op → op' ∈ s.ops → op' ∈ left := by
    intro op' hne hmem
    rw [hops] at hmem
    exact List.mem_of_ne_of_mem hne hmem
  have hready := hkept.refers.ops
  rw [hops] at hready
  cases op with
  | start id turn =>
    obtain ⟨p, hp, hturn, hid⟩ := h.starting id turn (hops ▸ List.mem_cons_self)
    have hcurrent := h.current p hp
    have hfin : ∀ t, .finalized t ∈ s.log ++ [.started id (some turn)] → .finalized t ∈ s.log :=
      fun t hmem => (List.mem_append.mp hmem).resolve_right (by simp)
    have hstarted : ∀ id' t, .started id' (some t) ∈ s.log ++ [.started id (some turn)] →
        .started id' (some t) ∈ s.log ∨ id' = id ∧ t = turn := by
      intro id' t hmem
      rcases List.mem_append.mp hmem with hmem | hmem
      · exact .inl hmem
      · cases List.mem_singleton.mp hmem
        exact .inr ⟨rfl, rfl⟩
    refine ⟨?_, ?_, ?_, ?_, hlast, ?_, ?_, ?_⟩
    · intro q hq
      have hq := h.current q hq
      exact ⟨hq.turn, fun hmem => hq.finalized (hfin _ hmem),
        fun root hmem => hq.closing root (htail _ hmem), hq.generation, hq.tools⟩
    · intro id' t hmem
      rcases hstarted id' t hmem with hmem | ⟨-, rfl⟩
      · exact h.begun id' t hmem
      · exact hturn ▸ hcurrent.turn
    · exact fun t hmem => h.closed t (hfin t hmem)
    · exact fun t root hmem => h.closing t root (htail _ hmem)
    · intro id' t hmem
      obtain ⟨q, hq, hqturn, hqid⟩ := h.starting id' t (htail _ hmem)
      exact ⟨q, hq, hqturn, hqid.imp_right (hleft _ Op.noConfusion)⟩
    · intro id' t hmem
      rcases hstarted id' t hmem with hmem | ⟨rfl, rfl⟩
      · rcases h.children id' t hmem with hended | hstop | hopen | hlost
        · exact .inl (List.mem_append_left _ hended)
        · exact .inr (.inl (hleft _ Op.noConfusion hstop))
        · exact .inr (.inr (.inl hopen))
        · exact .inr (.inr (.inr ⟨fun hmem => hlost.finalized (hfin t hmem),
            fun root hmem => hlost.closing root (htail _ hmem), hlost.prompt⟩))
      · rcases hid with hopen | hstop
        · exact .inr (.inr (.inl ⟨p, hp, hturn, hopen⟩))
        · exact .inr (.inl (hleft _ Op.noConfusion hstop))
    · intro id' t hmem hmem'
      rcases hstarted id' t hmem' with hmem' | ⟨rfl, rfl⟩
      · exact List.mem_append_left _ (h.done id' t (hfin t hmem) hmem')
      · exact absurd (hturn ▸ hfin _ hmem) hcurrent.finalized
  | stop id =>
    have hfin : ∀ t, .finalized t ∈ s.log ++ [.ended id] → .finalized t ∈ s.log :=
      fun t hmem => (List.mem_append.mp hmem).resolve_right (by simp)
    have hstarted : ∀ id' t, .started id' (some t) ∈ s.log ++ [.ended id] →
        .started id' (some t) ∈ s.log :=
      fun id' t hmem => (List.mem_append.mp hmem).resolve_right (by simp)
    refine ⟨?_, ?_, ?_, ?_, hlast, ?_, ?_, ?_⟩
    · intro q hq
      have hq := h.current q hq
      exact ⟨hq.turn, fun hmem => hq.finalized (hfin _ hmem),
        fun root hmem => hq.closing root (htail _ hmem), hq.generation, hq.tools⟩
    · exact fun id' t hmem => h.begun id' t (hstarted id' t hmem)
    · exact fun t hmem => h.closed t (hfin t hmem)
    · exact fun t root hmem => h.closing t root (htail _ hmem)
    · intro id' t hmem
      obtain ⟨q, hq, hqturn, hqid⟩ := h.starting id' t (htail _ hmem)
      refine ⟨q, hq, hqturn, hqid.imp_right (hleft _ ?_)⟩
      rintro ⟨⟩
      exact hready.2.not_known hmem hready.1
    · intro id' t hmem
      rcases h.children id' t (hstarted id' t hmem) with hended | hstop | hopen | hlost
      · exact .inl (List.mem_append_left _ hended)
      · by_cases heq : id' = id
        · exact .inl (List.mem_append_right _ (heq ▸ List.mem_cons_self))
        · exact .inr (.inl (hleft _ (fun h => heq (Op.stop.inj h)) hstop))
      · exact .inr (.inr (.inl hopen))
      · exact .inr (.inr (.inr ⟨fun hmem => hlost.finalized (hfin t hmem),
          fun root hmem => hlost.closing root (htail _ hmem), hlost.prompt⟩))
    · exact fun id' t hmem hmem' =>
        List.mem_append_left _ (h.done id' t (hfin t hmem) (hstarted id' t hmem'))
  | finalize turn root =>
    obtain rfl : left = [] := h.last [] turn root left hops
    have hhead : .finalize turn root ∈ s.ops := hops ▸ List.mem_cons_self
    have hfin : ∀ t, .finalized t ∈ s.log ++ [.ended root] ++ [.finalized turn] →
        .finalized t ∈ s.log ∨ t = turn := by
      intro t hmem
      simpa using hmem
    have hstarted : ∀ id' t, .started id' (some t) ∈ s.log ++ [.ended root] ++ [.finalized turn] →
        .started id' (some t) ∈ s.log := by
      intro id' t hmem
      simpa using hmem
    have hended : ∀ id', .ended id' ∈ s.log →
        .ended id' ∈ s.log ++ [.ended root] ++ [.finalized turn] := by
      intro id' hmem
      exact List.mem_append_left _ (List.mem_append_left _ hmem)
    have hnil : ∀ op' : Op, op' ∉ [] := fun _ => List.not_mem_nil
    refine ⟨?_, ?_, ?_, ?_, hlast, ?_, ?_, ?_⟩
    · intro q hq
      have hq := h.current q hq
      refine ⟨hq.turn, ?_, fun root' hmem => absurd hmem (hnil _), hq.generation, hq.tools⟩
      intro hmem
      rcases hfin _ hmem with hmem | heq
      · exact hq.finalized hmem
      · exact hq.closing root (heq ▸ hhead)
    · exact fun id' t hmem => h.begun id' t (hstarted id' t hmem)
    · intro t hmem
      rcases hfin t hmem with hmem | rfl
      · exact h.closed t hmem
      · exact h.closing t root hhead
    · exact fun t root' hmem => absurd hmem (hnil _)
    · exact fun id' t hmem => absurd hmem (hnil _)
    · intro id' t hmem
      rcases h.children id' t (hstarted id' t hmem) with hend | hstop | hopen | hlost
      · exact .inl (hended id' hend)
      · exact absurd (hleft _ Op.noConfusion hstop) (hnil _)
      · exact .inr (.inr (.inl hopen))
      · refine .inr (.inr (.inr ⟨?_, fun root' hmem => absurd hmem (hnil _), hlost.prompt⟩))
        intro hmem
        rcases hfin t hmem with hmem | rfl
        · exact hlost.finalized hmem
        · exact hlost.closing root hhead
    · intro id' t hmem hmem'
      rcases hfin t hmem with hmem | rfl
      · exact hended id' (h.done id' t hmem (hstarted id' t hmem'))
      · rcases h.children id' t (hstarted id' t hmem') with hend | hstop | ⟨q, hq, rfl, -⟩ | hlost
        · exact hended id' hend
        · exact absurd (hleft _ Op.noConfusion hstop) (hnil _)
        · exact absurd hhead ((h.current q hq).closing root)
        · exact absurd hhead (hlost.closing root)

lemma run (h : Covered s) (hkept : Kept s) : Covered s.run := by
  unfold Tracer.run
  split
  · exact h
  · rename_i op left tail hholder
    exact h.exec hkept hholder
  · rename_i tail hholder
    refine h.grow (List.append_nil _).symm (fun _ _ => List.not_mem_nil)
      (fun _ => List.not_mem_nil) ?_ ?_ ?_
    · show Tracer.ops _ = Tracer.ops s
      rw [Tracer.ops, Tracer.ops, hholder]
      rfl
    · rfl
    · rfl

/-- The turn under way goes, and nothing of it is left to be done. -/
lemma drop (h : Covered s) (hfree : s.holder = none) {prompt : Option PromptState} {nextTurn : Nat}
    (hnext : s.nextTurn ≤ nextTurn)
    (hprompt : ∀ p, prompt = some p → s.nextTurn ≤ p.turn ∧ p.turn < nextTurn ∧
      p.openGeneration = none ∧ p.openTools = []) {tails : List Tail} :
    Covered { s with prompt, nextTurn, tails } := by
  have hops : s.ops = [] := by rw [Tracer.ops, hfree]; rfl
  have hnil : ∀ op : Op, op ∉ s.ops := fun op => hops ▸ List.not_mem_nil
  refine ⟨?_, ?_, ?_, ?_, h.last, ?_, ?_, h.done⟩
  · intro p hp
    obtain ⟨hle, hlt, hgen, htools⟩ := hprompt p hp
    refine ⟨hlt, fun hmem => Nat.lt_irrefl _ (Nat.lt_of_lt_of_le (h.closed _ hmem) hle), fun root => hnil _,
      ?_, by simp [htools]⟩
    intro gen hgen'
    rw [hgen] at hgen'
    cases hgen'
  · exact fun id t hmem => Nat.lt_of_lt_of_le (h.begun id t hmem) hnext
  · exact fun t hmem => Nat.lt_of_lt_of_le (h.closed t hmem) hnext
  · exact fun t root hmem => absurd hmem (hnil _)
  · exact fun id t hmem => absurd hmem (hnil _)
  · intro id t hmem
    have hne : ∀ p, prompt = some p → p.turn ≠ t := by
      rintro p hp rfl
      exact Nat.lt_irrefl _ (Nat.lt_of_lt_of_le (h.begun id _ hmem) (hprompt p hp).1)
    rcases h.children id t hmem with hended | hstop | ⟨q, hq, rfl, -⟩ | hlost
    · exact .inl hended
    · exact absurd hstop (hnil _)
    · exact .inr (.inr (.inr ⟨(h.current q hq).finalized, fun root => hnil _, hne⟩))
    · exact .inr (.inr (.inr ⟨hlost.finalized, fun root => hnil _, hne⟩))

lemma mem_stops {p : PromptState} (hop : op ∈ stopGeneration p.openGeneration ++
    p.openTools.map (fun tool => .stop tool.2)) : ∃ id, op = .stop id := by
  rcases List.mem_append.mp hop with hop | hop
  · unfold stopGeneration at hop
    split at hop
    · split at hop
      · cases hop
      · exact ⟨_, List.mem_singleton.mp hop⟩
    · cases hop
  · obtain ⟨tool, -, rfl⟩ := List.mem_map.mp hop
    exact ⟨_, rfl⟩

lemma mem_finalizeRoot {p : PromptState} (hop : op ∈ finalizeRoot p) :
    (∃ id, op = .stop id) ∨ op = .finalize p.turn p.rootObsId := by
  rcases List.mem_append.mp hop with hop | hop
  · exact .inl (mem_stops hop)
  · exact .inr (List.mem_singleton.mp hop)

/-- Everything that is open in the turn is stopped before its root is. -/
lemma stop_mem_finalizeRoot (hp : ∀ gen, p.openGeneration = some gen → gen.finished = false)
    (hid : id ∈ p.openIds) : .stop id ∈ finalizeRoot p := by
  unfold finalizeRoot
  apply List.mem_append_left
  rcases List.mem_append.mp hid with hgen | htool
  · obtain ⟨gen, hgen', rfl⟩ : ∃ gen, p.openGeneration = some gen ∧ gen.obsId = id := by
      simpa using hgen
    apply List.mem_append_left
    simp [stopGeneration, hgen', hp gen hgen']
  · obtain ⟨tool, hmem, rfl⟩ := List.mem_map.mp htool
    exact List.mem_append_right _ (List.mem_map.mpr ⟨tool, hmem, rfl⟩)

lemma takeTurn (h : Covered s) (hfree : s.holder = none) (tail : Tail) :
    Covered (s.takeTurn tail) := by
  have hnil : ∀ op : Op, op ∉ s.ops := by
    intro op
    rw [Tracer.ops, hfree]
    exact List.not_mem_nil
  unfold Tracer.takeTurn
  split
  · exact h.grow (List.append_nil _).symm (fun _ _ => List.not_mem_nil)
      (fun _ => List.not_mem_nil) rfl rfl rfl
  · rename_i p hp
    have hcurrent := h.current p hp
    refine ⟨(fun q hq => by cases hq), h.begun, h.closed, ?_, ?_, ?_, ?_, h.done⟩
    · intro t root hmem
      rcases mem_finalizeRoot hmem with ⟨id, heq⟩ | heq
      · cases heq
      · cases heq
        exact hcurrent.turn
    · intro before t root after heq
      rcases List.eq_nil_or_concat after with rfl | ⟨after, last, rfl⟩
      · rfl
      · rw [List.concat_eq_append, ← List.cons_append, ← List.append_assoc] at heq
        have hstops := (List.append_inj' (show finalizeRoot p = _ from heq) rfl).1
        have hmem : .finalize t root ∈ before ++ .finalize t root :: after :=
          List.mem_append_right _ List.mem_cons_self
        rw [← hstops] at hmem
        obtain ⟨id, hid⟩ := mem_stops hmem
        cases hid
    · intro id t hmem
      rcases mem_finalizeRoot hmem with ⟨id, heq⟩ | heq
      · cases heq
      · cases heq
    · intro id t hmem
      rcases h.children id t hmem with hended | hstop | ⟨q, hq, rfl, hid⟩ | hlost
      · exact .inl hended
      · exact absurd hstop (hnil _)
      · obtain rfl := Option.some.inj (hp.symm.trans hq)
        exact .inr (.inl (stop_mem_finalizeRoot hcurrent.generation hid))
      · refine .inr (.inr (.inr ⟨hlost.finalized, ?_, (fun q hq => by cases hq)⟩))
        intro root hmem
        rcases mem_finalizeRoot hmem with ⟨id, heq⟩ | heq
        · cases heq
        · cases heq
          exact hlost.prompt p hp rfl

/-- A handler works on the turn: what was open stays open or is stopped, and what it starts is open
or stopped afterwards. -/
lemma onTurn (h : Covered s) (hfree : s.holder = none)
    {handler : Nat → PromptState → PromptState × List Op × Option Tail}
    (hturn : ∀ p, (handler s.nextId p).1.turn = p.turn)
    (hgeneration : ∀ p, (∀ gen, p.openGeneration = some gen → gen.finished = false) →
      ∀ gen, (handler s.nextId p).1.openGeneration = some gen → gen.finished = false)
    (htools : ∀ p, (p.openTools.map Prod.fst).Nodup →
      ((handler s.nextId p).1.openTools.map Prod.fst).Nodup)
    (hstarts : ∀ p id t, .start id t ∈ (handler s.nextId p).2.1 → p.turn = t ∧
      (id ∈ (handler s.nextId p).1.openIds ∨ .stop id ∈ (handler s.nextId p).2.1))
    (hfinalize : ∀ p t root, .finalize t root ∉ (handler s.nextId p).2.1)
    (hopen : ∀ p, s.prompt = some p → Current s p → ∀ id ∈ p.openIds,
      id ∈ (handler s.nextId p).1.openIds ∨ .stop id ∈ (handler s.nextId p).2.1) :
    Covered (s.onTurn handler) := by
  have hnil : ∀ op : Op, op ∉ s.ops := by
    intro op
    rw [Tracer.ops, hfree]
    exact List.not_mem_nil
  unfold Tracer.onTurn
  split
  · exact h
  · rename_i p hp
    have hcurrent := h.current p hp
    refine ⟨?_, h.begun, h.closed, fun t root hmem => absurd hmem (hfinalize p t root), ?_, ?_, ?_,
      h.done⟩
    · intro q hq
      obtain rfl := Option.some.inj hq
      refine ⟨?_, ?_, hfinalize p _, hgeneration p hcurrent.generation, htools p hcurrent.tools⟩
      · rw [hturn]
        exact hcurrent.turn
      · rw [hturn]
        exact hcurrent.finalized
    · intro before t root after heq
      have hmem : .finalize t root ∈ before ++ .finalize t root :: after :=
        List.mem_append_right _ List.mem_cons_self
      have heq : (handler s.nextId p).2.1 = before ++ .finalize t root :: after := heq
      rw [← heq] at hmem
      exact absurd hmem (hfinalize p t root)
    · intro id t hmem
      obtain ⟨rfl, hid⟩ := hstarts p id t hmem
      exact ⟨_, rfl, hturn p, hid⟩
    · intro id t hmem
      rcases h.children id t hmem with hended | hstop | ⟨q, hq, rfl, hid⟩ | hlost
      · exact .inl hended
      · exact absurd hstop (hnil _)
      · obtain rfl := Option.some.inj (hp.symm.trans hq)
        rcases hopen p hp hcurrent id hid with hopen | hstop
        · exact .inr (.inr (.inl ⟨_, rfl, hturn p, hopen⟩))
        · exact .inr (.inl hstop)
      · refine .inr (.inr (.inr ⟨hlost.finalized, hfinalize p t, ?_⟩))
        intro q hq
        obtain rfl := Option.some.inj hq
        rw [hturn]
        exact hlost.prompt p hp

lemma stop_mem_stopGeneration {gen : OpenGeneration} (hgen : p.openGeneration = some gen)
    (hfinished : gen.finished = false) : .stop gen.obsId ∈ stopGeneration p.openGeneration := by
  simp [stopGeneration, hgen, hfinished]

lemma mem_openIds : id ∈ p.openIds ↔
    (∃ gen, p.openGeneration = some gen ∧ gen.obsId = id) ∨ ∃ tool ∈ p.openTools, tool.2 = id := by
  simp [PromptState.openIds]

lemma providerRequest (h : Covered s) (hfree : s.holder = none) :
    Covered (s.onTurn fun obsId p =>
      let (p, ops) := onBeforeProviderRequest obsId p
      (p, ops, none)) := by
  have hmem : ∀ p op, op ∈ (onBeforeProviderRequest s.nextId p).2 →
      (∃ id, op = .stop id) ∨ op = .start s.nextId p.turn := by
    intro p op hop
    rcases List.mem_append.mp hop with hop | hop
    · exact .inl (mem_stops (List.mem_append_left _ hop))
    · exact .inr (List.mem_singleton.mp hop)
  apply h.onTurn hfree
  · exact fun p => rfl
  · intro p hp gen hgen
    obtain rfl := Option.some.inj hgen
    rfl
  · exact fun p hp => hp
  · intro p id t hstart
    rcases hmem p _ hstart with ⟨id', heq⟩ | heq
    · cases heq
    · cases heq
      exact ⟨rfl, .inl (mem_openIds.mpr (.inl ⟨_, rfl, rfl⟩))⟩
  · intro p t root hfin
    rcases hmem p _ hfin with ⟨id', heq⟩ | heq
    · cases heq
    · cases heq
  · intro p hp hcurrent id hid
    rcases mem_openIds.mp hid with ⟨gen, hgen, rfl⟩ | htool
    · exact .inr (List.mem_append_left _
        (stop_mem_stopGeneration hgen (hcurrent.generation gen hgen)))
    · exact .inl (mem_openIds.mpr (.inr htool))

lemma messageEnd (h : Covered s) (hfree : s.holder = none) (toolCalls : Bool) :
    Covered (s.onTurn fun _ p => onMessageEnd toolCalls p) := by
  have hmem : ∀ p op, op ∈ (onMessageEnd toolCalls p).2.1 → ∃ id, op = .stop id := by
    intro p op hop
    unfold onMessageEnd at hop
    split at hop
    · cases hop
    · dsimp only at hop
      split at hop
      · cases hop
      · exact ⟨_, List.mem_singleton.mp hop⟩
  apply h.onTurn hfree
  · intro p
    unfold onMessageEnd
    split
    · rfl
    · dsimp only
      split
      · rfl
      · rfl
  · intro p hp gen hgen
    unfold onMessageEnd at hgen
    split at hgen
    · exact hp gen hgen
    · dsimp only at hgen
      split at hgen
      · cases hgen
      · cases hgen
  · intro p hp
    unfold onMessageEnd
    split
    · exact hp
    · dsimp only
      split
      · exact hp
      · exact hp
  · intro p id t hstart
    obtain ⟨id', heq⟩ := hmem p _ hstart
    cases heq
  · intro p t root hfin
    obtain ⟨id', heq⟩ := hmem p _ hfin
    cases heq
  · intro p hp hcurrent id hid
    unfold onMessageEnd
    cases hgen : p.openGeneration with
    | none => exact .inl hid
    | some gen =>
      have hfinished := hcurrent.generation gen hgen
      simp only [hfinished, Bool.false_eq_true, if_false]
      rcases mem_openIds.mp hid with ⟨gen', hgen', rfl⟩ | htool
      · obtain rfl := Option.some.inj (hgen.symm.trans hgen')
        exact .inr List.mem_cons_self
      · exact .inl (mem_openIds.mpr (.inr htool))

lemma nodup_erase {m : List (String × Nat)} {k : String} (h : (m.map Prod.fst).Nodup) :
    ((Assoc.erase m k).map Prod.fst).Nodup :=
  h.sublist (List.filter_sublist.map _)

lemma toolStart (h : Covered s) (hfree : s.holder = none) {toolCallId : String}
    (hcovers : Covers s (.toolStart toolCallId)) :
    Covered (s.onTurn fun obsId p =>
      let (p, ops) := onToolExecutionStart obsId toolCallId p
      (p, ops, none)) := by
  apply h.onTurn hfree
  · exact fun p => rfl
  · exact fun p hp => hp
  · intro p hp
    refine List.nodup_cons.mpr ⟨?_, nodup_erase hp⟩
    intro hmem
    obtain ⟨tool, htool, heq⟩ := List.mem_map.mp hmem
    have hne := (List.mem_filter.mp htool).2
    simp [heq] at hne
  · intro p id t hstart
    cases List.mem_singleton.mp hstart
    exact ⟨rfl, .inl (mem_openIds.mpr (.inr ⟨_, List.mem_cons_self, rfl⟩))⟩
  · intro p t root hfin
    cases List.mem_singleton.mp hfin
  · intro p hp hcurrent id hid
    have hnone := List.lookup_eq_none_iff.mp (hcovers hfree p hp)
    rcases mem_openIds.mp hid with hgen | ⟨tool, htool, rfl⟩
    · exact .inl (mem_openIds.mpr (.inl hgen))
    · refine .inl (mem_openIds.mpr (.inr ⟨tool, List.mem_cons_of_mem _ ?_, rfl⟩))
      have hne : tool.1 ≠ toolCallId := by
        intro heq
        have := hnone tool htool
        simp [heq] at this
      exact List.mem_filter.mpr ⟨htool, by simpa using hne⟩

lemma toolEnd (h : Covered s) (hfree : s.holder = none) (toolCallId : String) (usage : Bool) :
    Covered (s.onTurn fun obsId p =>
      let (p, ops) := onToolExecutionEnd obsId toolCallId usage p
      (p, ops, none)) := by
  have hmem : ∀ p op, op ∈ (onToolExecutionEnd s.nextId toolCallId usage p).2 →
      (∃ id, op = .stop id) ∨ op = .start s.nextId p.turn ∧
        .stop s.nextId ∈ (onToolExecutionEnd s.nextId toolCallId usage p).2 := by
    intro p op hop
    unfold onToolExecutionEnd at hop ⊢
    split at hop
    · cases hop
    · cases usage with
      | false => exact .inl ⟨_, List.mem_singleton.mp hop⟩
      | true =>
        rcases List.mem_cons.mp hop with rfl | hop
        · exact .inr ⟨rfl, by simp⟩
        · rcases List.mem_cons.mp hop with rfl | hop
          · exact .inl ⟨_, rfl⟩
          · exact .inl ⟨_, List.mem_singleton.mp hop⟩
  apply h.onTurn hfree
  · intro p
    dsimp only
    unfold onToolExecutionEnd
    split
    · rfl
    · rfl
  · intro p hp gen hgen
    dsimp only at hgen
    unfold onToolExecutionEnd at hgen
    split at hgen
    · exact hp gen hgen
    · exact hp gen hgen
  · intro p hp
    dsimp only
    unfold onToolExecutionEnd
    split
    · exact hp
    · exact nodup_erase hp
  · intro p id t hstart
    rcases hmem p _ hstart with ⟨id', heq⟩ | ⟨heq, hstop⟩
    · cases heq
    · cases heq
      exact ⟨rfl, .inr hstop⟩
  · intro p t root hfin
    rcases hmem p _ hfin with ⟨id', heq⟩ | ⟨heq, -⟩
    · cases heq
    · cases heq
  · intro p hp hcurrent id hid
    dsimp only
    unfold onToolExecutionEnd
    cases hlookup : p.openTools.lookup toolCallId with
    | none => exact .inl hid
    | some tool =>
      rcases mem_openIds.mp hid with hgen | ⟨other, hother, rfl⟩
      · exact .inl (mem_openIds.mpr (.inl hgen))
      · by_cases heq : other.1 = toolCallId
        · have htool := Assoc.mem_of_lookup hlookup
          have hsame : other = (toolCallId, tool) :=
            List.inj_on_of_nodup_map hcurrent.tools hother htool heq
          exact .inr (by simp [hsame])
        · exact .inl (mem_openIds.mpr (.inr
            ⟨other, List.mem_filter.mpr ⟨hother, by simpa using heq⟩, rfl⟩))

/-! #### The tasks without the prompt state -/

lemma emit (h : Covered s) {e : Event} (hlog : s'.log = s.log ++ [e])
    (hstarted : ∀ id t, e ≠ .started id (some t)) (hfinalized : ∀ t, e ≠ .finalized t)
    (hops : s'.ops = s.ops) (hprompt : s'.prompt = s.prompt) (hnext : s'.nextTurn = s.nextTurn) :
    Covered s' := by
  apply h.grow hlog _ _ hops hprompt hnext
  · exact fun id t hmem => hstarted id t (List.mem_singleton.mp hmem).symm
  · exact fun t hmem => hfinalized t (List.mem_singleton.mp hmem).symm

lemma beginFlush (h : Covered s) (includeOpen : Bool) : Covered (s.beginFlush includeOpen) := by
  unfold Tracer.beginFlush
  dsimp only
  split
  · exact h.emit rfl (fun id t heq => nomatch heq) (fun t heq => nomatch heq) rfl rfl rfl
  · exact h.grow (List.append_nil _).symm (fun _ _ => List.not_mem_nil) (fun _ => List.not_mem_nil)
      rfl rfl rfl

lemma proceed (h : Covered s) (i : Nat) : Covered (s.proceed i) := by
  have hdrop : Covered { s with tails := s.tails.eraseIdx i } :=
    h.grow (List.append_nil _).symm (fun _ _ => List.not_mem_nil) (fun _ => List.not_mem_nil)
      rfl rfl rfl
  unfold Tracer.proceed
  split
  · exact h
  · exact h.emit rfl (fun id t heq => nomatch heq) (fun t heq => nomatch heq) rfl rfl rfl
  · refine Tracer.of_free h fun hfree => ?_
    apply h.drop hfree (Nat.le_succ _)
    intro p hp
    obtain rfl := Option.some.inj hp
    exact ⟨Nat.le_refl _, Nat.lt_succ_self _, rfl, rfl⟩
  · exact Tracer.of_free h fun hfree => hdrop.takeTurn hfree _
  · exact hdrop.beginFlush _

lemma respond (h : Covered s) (i : Nat) (success : Bool) : Covered (s.respond i success) := by
  unfold Tracer.respond
  split
  · split
    · exact h.emit rfl (fun id t heq => nomatch heq) (fun t heq => nomatch heq) rfl rfl rfl
    · exact h.emit rfl (fun id t heq => nomatch heq) (fun t heq => nomatch heq) rfl rfl rfl
  · exact h

lemma prune (h : Covered s) (i : Nat) : Covered (s.prune i) := by
  unfold Tracer.prune
  split
  · exact h.emit rfl (fun id t heq => nomatch heq) (fun t heq => nomatch heq) rfl rfl rfl
  · exact h

lemma endCompaction (h : Covered s) (i : Nat) : Covered (s.endCompaction i) := by
  unfold Tracer.endCompaction
  split
  · exact h
  · exact h.emit rfl (fun id t heq => nomatch heq) (fun t heq => nomatch heq) rfl rfl rfl

lemma step (h : Covered s) (hkept : Kept s) {action : Action} (hcovers : Covers s action) :
    Covered (s.step action) := by
  cases action with
  | sessionStart =>
    refine Tracer.of_free h fun hfree => ?_
    exact h.drop hfree (Nat.le_refl _) fun p (hp : none = some p) => nomatch hp
  | turnStart subagent => exact Tracer.of_free h fun hfree => h.takeTurn hfree _
  | providerRequest => exact Tracer.of_free h h.providerRequest
  | messageEnd toolCalls => exact Tracer.of_free h fun hfree => h.messageEnd hfree toolCalls
  | toolStart toolCallId => exact Tracer.of_free h fun hfree => h.toolStart hfree hcovers
  | toolEnd toolCallId usage => exact Tracer.of_free h fun hfree => h.toolEnd hfree toolCallId usage
  | settle => exact Tracer.of_free h fun hfree => h.takeTurn hfree _
  | shutdown => exact Tracer.of_free h fun hfree => h.takeTurn hfree _
  | compact =>
    exact h.emit rfl (fun id t heq => nomatch heq) (fun t heq => nomatch heq) rfl rfl rfl
  | endCompaction i => exact h.endCompaction i
  | run => exact h.run hkept
  | proceed i => exact h.proceed i
  | respond i success => exact h.respond i success
  | prune i => exact h.prune i

end Covered

end Langfuse
