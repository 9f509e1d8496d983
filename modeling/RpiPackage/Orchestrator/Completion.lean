import RpiPackage.Orchestrator.Dispatch

/-!
# Plans that are completed

A plan that nothing interrupts, dispatched again and again, with waves that report on every node
they have marked. Every dispatch makes progress, until each node is done, has failed, or has been
skipped for a reason.
-/

namespace Orchestrator

open Json Result

/-- What came of a node: what its child said, and whether its acceptance holds. -/
abbrev Came : Type := Except String String × Except String Unit

def succeeded (c : Came) : Bool := c.1.isOk && c.2.isOk

/-- A dispatch from its first section to its last, with nothing in between. -/
def dispatch (params : Value) (came : String → Came) (s : GraphState) :
    Except String Value × GraphState :=
  match start params false s with
  | (.replied reply, s) => (reply, s)
  | (.wave w, s) =>
    match lockGraphForWave w.params w.generation s with
    | .error e => (.error e, s)
    | .ok () => finish w (report w.ready fun id => some (came id)) s

namespace Graph

/-- What holds between two waves. -/
structure Scheduled (g : Graph) : Prop where
  valid : g.Valid
  quiet : g.Quiet
  waiting : ∀ n ∈ g.nodes, n.status = .pending → ∀ dep ∈ n.deps, ¬g.IsDead dep
  ran : ∀ n ∈ g.nodes, n.status = .done ∨ n.status = .failed →
    ∀ dep ∈ n.deps, g.HasStatus dep .done
  lost : ∀ n ∈ g.nodes, n.status = .skipped → ∃ dep ∈ n.deps, g.IsDead dep

/-- The graph after a wave that reports on every node. -/
def wave (came : String → Came) (g : Graph) : Graph :=
  propagateSkips
    ⟨g.nodes.map fun n => if n.id ∈ g.ready then settled (some (came n.id)) n else n⟩

variable {g g' : Graph} {n : Node} {id : String} {came : String → Came}

lemma hasStatus_cases (hn : n ∈ g.nodes) (hquiet : g.Quiet) :
    g.HasStatus n.id .pending ∨ g.HasStatus n.id .done ∨ g.IsDead n.id := by
  cases hstatus : n.status with
  | pending => exact .inl ⟨n, hn, rfl, hstatus⟩
  | running => exact absurd hstatus (hquiet n hn)
  | done => exact .inr (.inl ⟨n, hn, rfl, hstatus⟩)
  | failed => exact .inr (.inr (.inl ⟨n, hn, rfl, hstatus⟩))
  | skipped => exact .inr (.inr (.inr ⟨n, hn, rfl, hstatus⟩))

/-- Where nothing is ready, whatever is pending waits for something lost. -/
lemma exists_dead_of_no_ready (hvalid : g.Valid) (hquiet : g.Quiet) (hready : g.ready = [])
    (hpending : g.HasStatus id .pending) :
    ∃ dep, Relation.TransGen g.DependsOn id dep ∧ g.IsDead dep := by
  obtain ⟨rank, hrank⟩ := hvalid.ranked
  -- by induction on the rank: a dependency that is not done is pending or dead
  induction hr : rank id using Nat.strong_induction_on generalizing id with
  | _ r ih =>
    obtain ⟨n, hn, rfl, hstatus⟩ := hpending
    have hnot : ¬∀ dep ∈ n.deps, g.HasStatus dep .done := by
      intro hdone
      have hmem := hvalid.mem_ready.mpr ⟨n, hn, rfl, hstatus, hdone⟩
      rw [hready] at hmem
      exact absurd hmem List.not_mem_nil
    push Not at hnot
    obtain ⟨dep, hdep, hundone⟩ := hnot
    have hstep : g.DependsOn n.id dep := ⟨n, hn, rfl, hdep⟩
    obtain ⟨m, hm, rfl⟩ := hvalid.exists_dep hn hdep
    rcases hasStatus_cases hm hquiet with hpending | hdone | hdead
    · obtain ⟨dead, hpath, hdead⟩ := ih (rank m.id) (hr ▸ hrank n hn m.id hdep) hpending rfl
      exact ⟨dead, .head hstep hpath, hdead⟩
    · exact absurd hdone hundone
    · exact ⟨m.id, .single hstep, hdead⟩

/-- In a scheduled graph something is ready as long as something is pending. -/
lemma Scheduled.ready_ne_nil (h : g.Scheduled) (hpending : g.hasPending = true) :
    g.ready ≠ [] := by
  intro hready
  obtain ⟨rank, hrank⟩ := h.valid.ranked
  have hnone : ∀ r id, rank id = r → ¬g.HasStatus id .pending := by
    intro r
    induction r using Nat.strong_induction_on with
    | _ r ih =>
      rintro id hr ⟨n, hn, rfl, hstatus⟩
      have hdone : ∀ dep ∈ n.deps, g.HasStatus dep .done := by
        intro dep hdep
        obtain ⟨m, hm, rfl⟩ := h.valid.exists_dep hn hdep
        rcases hasStatus_cases hm h.quiet with hwaits | hdone | hdead
        · exact absurd hwaits (ih (rank m.id) (hr ▸ hrank n hn m.id hdep) m.id rfl)
        · exact hdone
        · exact absurd hdead (h.waiting n hn hstatus m.id hdep)
      have hmem := h.valid.mem_ready.mpr ⟨n, hn, rfl, hstatus, hdone⟩
      rw [hready] at hmem
      exact absurd hmem List.not_mem_nil
  obtain ⟨id, hid⟩ := List.exists_mem_of_ne_nil _ (hasPending_iff.mp hpending)
  exact hnone (rank id) id rfl (mem_pendingIds.mp hid)

/-! ### One wave -/

lemma status_settled (c : Came) (n : Node) :
    (settled (some c) n).status = if succeeded c = true then .done else .failed := by
  obtain ⟨outcome, verified⟩ := c
  cases outcome <;> cases verified <;> rfl

lemma shape_settled (g : Graph) (came : String → Came) :
    shape ⟨g.nodes.map fun n => if n.id ∈ g.ready then settled (some (came n.id)) n else n⟩ =
      g.shape := by
  refine shape_map ?_
  intro n
  dsimp only
  split
  · exact keepsPlace_settled _ n
  · exact ⟨rfl, rfl⟩

lemma Skips.shape (h : Skips g g') : g'.shape = g.shape := by
  obtain ⟨f, hnodes, hplace, -⟩ := h
  rw [← shape_map (g := g) hplace, ← hnodes]

lemma shape_wave : (g.wave came).shape = g.shape :=
  (skips_propagateSkips _).shape.trans (shape_settled g came)

/-- Only what was pending is skipped, and a skipped node stays what it is. -/
lemma Skips.hasStatus_iff (h : Skips g g') {status : Status} (hpending : status ≠ .pending)
    (hskipped : status ≠ .skipped) : g'.HasStatus id status ↔ g.HasStatus id status := by
  obtain ⟨f, hnodes, hplace, hf⟩ := h
  constructor
  · rintro ⟨n, hn, rfl, rfl⟩
    rw [hnodes] at hn
    obtain ⟨m, hm, rfl⟩ := List.mem_map.mp hn
    rcases hf m hm with hsame | ⟨-, hskip, -⟩
    · rw [hsame]
      exact ⟨m, hm, rfl, rfl⟩
    · exact absurd (congrArg Node.status hskip) hskipped
  · rintro ⟨n, hn, rfl, rfl⟩
    have hsame : f n = n := (hf n hn).resolve_right fun hskip => hpending hskip.1
    exact ⟨n, hnodes ▸ List.mem_map.mpr ⟨n, hn, hsame⟩, rfl, rfl⟩

/-- What is done after a wave was done before, or has just succeeded; the same of what failed. -/
lemma hasStatus_wave (h : g.Valid) {status : Status} (hstatus : status = .done ∨ status = .failed) :
    (g.wave came).HasStatus id status ↔ g.HasStatus id status ∨
      id ∈ g.ready ∧ status = if succeeded (came id) = true then .done else .failed := by
  have hne : status ≠ .pending ∧ status ≠ .skipped := by
    rcases hstatus with rfl | rfl <;> exact ⟨by simp, by simp⟩
  rw [wave, (skips_propagateSkips _).hasStatus_iff hne.1 hne.2]
  constructor
  · rintro ⟨n, hn, rfl, hn'⟩
    obtain ⟨m, hm, rfl⟩ := List.mem_map.mp hn
    by_cases hready : m.id ∈ g.ready
    · rw [if_pos hready] at hn' ⊢
      rw [(keepsPlace_settled _ m).1]
      rw [status_settled] at hn'
      exact .inr ⟨hready, hn'.symm⟩
    · rw [if_neg hready] at hn' ⊢
      exact .inl ⟨m, hm, rfl, hn'⟩
  · rintro (⟨n, hn, rfl, rfl⟩ | ⟨hready, hn'⟩)
    · refine ⟨n, List.mem_map.mpr ⟨n, hn, if_neg ?_⟩, rfl, rfl⟩
      intro hready
      obtain ⟨m, hm, hid, hpending, -⟩ := h.mem_ready.mp hready
      obtain rfl := Toposort.eq_of_key h.nodup hm hn hid
      exact hne.1 hpending
    · obtain ⟨n, hn, rfl, -⟩ := h.mem_ready.mp hready
      refine ⟨settled (some (came n.id)) n, List.mem_map.mpr ⟨n, hn, if_pos hready⟩,
        (keepsPlace_settled _ n).1, ?_⟩
      rw [status_settled]
      exact hn'.symm

/-- A node of the graph after a wave is a node from before it, settled or skipped or as it was. -/
lemma mem_wave (hn : n ∈ (g.wave came).nodes) :
    ∃ m ∈ g.nodes, m.id = n.id ∧ m.deps = n.deps ∧
      (m.id ∈ g.ready ∧ n.status = (if succeeded (came m.id) = true then .done else .failed) ∨
        m.id ∉ g.ready ∧ n = m ∨
        m.status = .pending ∧ n.status = .skipped ∧ ∃ dep ∈ n.deps, (g.wave came).IsDead dep) := by
  obtain ⟨f, hnodes, hplace, hf⟩ := skips_propagateSkips
    ⟨g.nodes.map fun n => if n.id ∈ g.ready then settled (some (came n.id)) n else n⟩
  rw [wave, hnodes] at hn
  obtain ⟨m', hm', rfl⟩ := List.mem_map.mp hn
  obtain ⟨m, hm, rfl⟩ := List.mem_map.mp hm'
  have hid : ∀ k : Node, (if k.id ∈ g.ready then settled (some (came k.id)) k else k).id = k.id ∧
      (if k.id ∈ g.ready then settled (some (came k.id)) k else k).deps = k.deps := by
    intro k
    split
    · exact keepsPlace_settled _ k
    · exact ⟨rfl, rfl⟩
  refine ⟨m, hm, ?_, ?_, ?_⟩
  · rw [(hplace _).1, (hid m).1]
  · rw [(hplace _).2, (hid m).2]
  · by_cases hready : m.id ∈ g.ready
    · rw [if_pos hready] at hm' ⊢
      rcases hf _ hm' with hsame | ⟨hpending, -, -⟩
      · rw [hsame, status_settled]
        exact .inl ⟨hready, rfl⟩
      · rw [status_settled] at hpending
        split at hpending <;> exact absurd hpending (by simp)
    · rw [if_neg hready] at hm' ⊢
      rcases hf _ hm' with hsame | ⟨hpending, hskipped, hdead⟩
      · exact .inr (.inl ⟨hready, hsame⟩)
      · rw [(hplace m).2]
        refine .inr (.inr ⟨hpending, by rw [hskipped], hdead⟩)

lemma HasStatus.mono_wave {status : Status} (h : g.HasStatus id status) (hvalid : g.Valid)
    (hstatus : status = .done ∨ status = .failed) : (g.wave came).HasStatus id status :=
  (hasStatus_wave hvalid hstatus).mpr (.inl h)

/-- A skipped node stays skipped. -/
lemma isDead_wave (hvalid : g.Valid) (h : g.IsDead id) : (g.wave came).IsDead id := by
  rcases h with hfailed | ⟨n, hn, rfl, hskipped⟩
  · exact .inl (hfailed.mono_wave hvalid (.inr rfl))
  · refine (skips_propagateSkips _).isDead (.inr ⟨n, List.mem_map.mpr ⟨n, hn, if_neg ?_⟩, rfl, hskipped⟩)
    intro hready
    obtain ⟨m, hm, hid, hpending, -⟩ := hvalid.mem_ready.mp hready
    obtain rfl := Toposort.eq_of_key hvalid.nodup hm hn hid
    rw [hskipped] at hpending
    exact absurd hpending (by simp)

lemma Scheduled.wave (h : g.Scheduled) (came : String → Came) : (g.wave came).Scheduled := by
  refine ⟨h.valid.of_shape shape_wave, ?_, ?_, ?_, ?_⟩
  · intro n hn hrunning
    obtain ⟨m, hm, -, -, ⟨-, hstatus⟩ | ⟨-, rfl⟩ | ⟨-, hstatus, -⟩⟩ := mem_wave hn
    · rw [hrunning] at hstatus
      split at hstatus <;> exact absurd hstatus (by simp)
    · exact h.quiet n hm hrunning
    · rw [hrunning] at hstatus
      exact absurd hstatus (by simp)
  · intro n hn hpending dep hdep
    exact not_isDead_of_pending hn hpending hdep
  · intro n hn hstatus dep hdep
    obtain ⟨m, hm, hid, hdeps, ⟨hready, -⟩ | ⟨-, rfl⟩ | ⟨-, hskipped, -⟩⟩ := mem_wave hn
    · obtain ⟨m', hm', hid', -, hdone⟩ := h.valid.mem_ready.mp hready
      obtain rfl := Toposort.eq_of_key h.valid.nodup hm' hm hid'
      exact (hdone dep (hdeps ▸ hdep)).mono_wave h.valid (.inl rfl)
    · exact (h.ran n hm hstatus dep hdep).mono_wave h.valid (.inl rfl)
    · rw [hskipped] at hstatus
      exact absurd hstatus (by simp)
  · intro n hn hstatus
    obtain ⟨m, hm, -, -, ⟨-, hstatus'⟩ | ⟨-, rfl⟩ | ⟨-, -, hdead⟩⟩ := mem_wave hn
    · rw [hstatus] at hstatus'
      split at hstatus' <;> exact absurd hstatus' (by simp)
    · obtain ⟨dep, hdep, hdead⟩ := h.lost n hm hstatus
      exact ⟨dep, hdep, isDead_wave h.valid hdead⟩
    · exact hdead

/-- A wave that runs something leaves fewer pending nodes. -/
lemma pending_wave_lt (came : String → Came) (h : g.Valid) (hready : g.ready ≠ []) :
    (g.wave came).pendingIds.length < g.pendingIds.length := by
  obtain ⟨id, hid⟩ := List.exists_mem_of_ne_nil _ hready
  have hvalid : (g.wave came).Valid := h.of_shape shape_wave
  have hsub : (g.wave came).pendingIds ⊆ g.pendingIds.erase id := by
    intro x hx
    obtain ⟨n, hn, rfl, hpending⟩ := mem_pendingIds.mp hx
    obtain ⟨m, hm, hname, -, ⟨-, hstatus⟩ | ⟨hnot, rfl⟩ | ⟨-, hstatus, -⟩⟩ := mem_wave hn
    · rw [hpending] at hstatus
      split at hstatus <;> exact absurd hstatus (by simp)
    · refine (List.mem_erase_of_ne ?_).mpr (mem_pendingIds.mpr ⟨n, hm, rfl, hpending⟩)
      rintro rfl
      exact hnot hid
    · rw [hpending] at hstatus
      exact absurd hstatus (by simp)
  have hnodup : (g.wave came).pendingIds.Nodup :=
    hvalid.nodup.sublist (List.filter_sublist.map _)
  have hle := (List.subperm_of_subset hnodup hsub).length_le
  obtain ⟨n, hn, rfl, hpending, -⟩ := h.mem_ready.mp hid
  have hmem : n.id ∈ g.pendingIds := mem_pendingIds.mpr ⟨n, hn, rfl, hpending⟩
  rw [List.length_erase_of_mem hmem] at hle
  have hpos := List.length_pos_of_mem hmem
  omega

end Graph

/-! ### One dispatch -/

variable {s : GraphState} {params : Value} {came : String → Came}

lemma settled_setStatus (status : Status) (c : Came) (n : Node) :
    settled (some c) (setStatus status n) = settled (some c) n := by
  obtain ⟨outcome, verified⟩ := c
  cases outcome <;> cases verified <;> rfl

lemma wave_eq (came : String → Came) (h : s.graph.Valid) :
    (settleAll (report s.graph.ready fun id => some (came id))
      (restore s.graph.ready ((report s.graph.ready fun id => some (came id)).map Outcome.id)
        (markRunning s.graph.ready s.graph))).propagateSkips = s.graph.wave came := by
  have hmark := markRunning_eq h h.nodup_ready
  have hplace : Graph.KeepsPlace fun n =>
      if n.id ∈ s.graph.ready then setStatus .running n else n := by
    intro n
    dsimp only
    split
    · exact keepsPlace_setStatus .running n
    · exact ⟨rfl, rfl⟩
  have hvalid : (markRunning s.graph.ready s.graph).Valid :=
    h.of_shape (hmark ▸ Graph.shape_map hplace)
  rw [settleAll_restore hvalid h.nodup_ready, hmark, Graph.wave, List.map_map]
  refine congrArg (fun nodes => Graph.propagateSkips ⟨nodes⟩) (List.map_congr_left fun n _ => ?_)
  rw [Function.comp_apply, (hplace n).1]
  by_cases hready : n.id ∈ s.graph.ready
  · rw [if_pos hready, if_pos hready, if_pos hready, settled_setStatus]
  · rw [if_neg hready, if_neg hready, if_neg hready]

/-- A dispatch runs a wave as long as something is ready, and then has nothing left. -/
lemma dispatch_eq (came : String → Came) (h : s.graph.Scheduled) (hnodes : s.graph.nodes ≠ [])
    (hsession : s.session = sessionOf params) :
    (s.graph.ready ≠ [] ∧ (∃ reply, (dispatch params came s).1 = .ok reply) ∧
      (dispatch params came s).2 = { s with graph := s.graph.wave came }) ∨
    (s.graph.ready = [] ∧ dispatch params came s = (.ok (nothingLeft s.graph), s)) := by
  have hlock : lockGraph params s = s := if_pos hsession
  have hfree : s.isRunning = false := isRunning_eq_false.mpr h.quiet
  by_cases hready : s.graph.ready = []
  · have hpending : s.graph.hasPending = false :=
      Bool.eq_false_iff.mpr fun hpending => h.ready_ne_nil hpending hready
    refine .inr ⟨hready, ?_⟩
    simp [dispatch, start, hlock, hfree, hnodes, hready, hpending]
  · refine .inl ⟨hready, ?_⟩
    have hin : ∀ g, lockGraphForWave params s.generation { s with graph := g } = .ok () :=
      fun g => lockGraphForWave_eq_ok.mpr ⟨hsession, rfl⟩
    have hwave := wave_eq came h.valid
    simp [dispatch, start, hlock, hfree, hnodes, hready, hin, finish, hwave]

/-! ### Dispatching again and again -/

/-- The graph before each of the dispatches. -/
def dispatches (params : Nat → Value) (came : Nat → String → Came) (s : GraphState) :
    Nat → GraphState
  | 0 => s
  | k + 1 => (dispatch (params k) (came k) (dispatches params came s k)).2

/-- A node was run by one of the first dispatches, and this is what came of it. -/
def RanBefore (slot : Nat → GraphState) (came : Nat → String → Came) (k : Nat) (id : String)
    (success : Bool) : Prop :=
  ∃ j < k, id ∈ (slot j).graph.ready ∧ succeeded (came j id) = success

/-- What the dispatches have reached: a scheduled graph whose statuses say what was run. -/
structure Reached (g : Graph) (session : Option String) (slot : Nat → GraphState)
    (came : Nat → String → Came) (k : Nat) : Prop where
  session : (slot k).session = session
  shape : (slot k).graph.shape = g.shape
  scheduled : (slot k).graph.Scheduled
  done_iff : ∀ id, (slot k).graph.HasStatus id .done ↔ RanBefore slot came k id true
  failed_iff : ∀ id, (slot k).graph.HasStatus id .failed ↔ RanBefore slot came k id false

lemma ranBefore_succ {slot : Nat → GraphState} {came : Nat → String → Came} {k : Nat} {id : String}
    {success : Bool} :
    RanBefore slot came (k + 1) id success ↔ RanBefore slot came k id success ∨
      id ∈ (slot k).graph.ready ∧ succeeded (came k id) = success := by
  constructor
  · rintro ⟨j, hj, hran⟩
    rcases Nat.lt_succ_iff_lt_or_eq.mp hj with hlt | rfl
    · exact .inl ⟨j, hlt, hran⟩
    · exact .inr hran
  · rintro (⟨j, hj, hran⟩ | hran)
    · exact ⟨j, Nat.lt_succ_of_lt hj, hran⟩
    · exact ⟨k, Nat.lt_succ_self k, hran⟩

lemma scheduled_of_pending {g : Graph} (hvalid : g.Valid)
    (hpending : ∀ n ∈ g.nodes, n.status = .pending) : g.Scheduled := by
  have hnone : ∀ n ∈ g.nodes, ∀ status, n.status = status → status ≠ .pending → False :=
    fun n hn status hstatus hne => hne (hstatus.symm.trans (hpending n hn))
  refine ⟨hvalid, ?_, ?_, ?_, ?_⟩
  · intro n hn hrunning
    exact hnone n hn _ hrunning (by simp)
  · rintro - - - dep - (⟨m, hm, -, hdead⟩ | ⟨m, hm, -, hdead⟩)
    · exact hnone m hm _ hdead (by simp)
    · exact hnone m hm _ hdead (by simp)
  · rintro n hn (hstatus | hstatus)
    · exact absurd (by simp) (hnone n hn _ hstatus)
    · exact absurd (by simp) (hnone n hn _ hstatus)
  · intro n hn hstatus
    exact absurd (by simp) (hnone n hn _ hstatus)

section Run

variable {g : Graph} {s : GraphState} {session : Option String} {params : Nat → Value}
  {came : Nat → String → Came}

lemma Reached.nodes_ne_nil {slot : Nat → GraphState} {k : Nat} (h : Reached g session slot came k)
    (hnodes : g.nodes ≠ []) : (slot k).graph.nodes ≠ [] := by
  have hlen := congrArg List.length h.shape
  rw [Graph.shape, Graph.shape, List.length_map, List.length_map] at hlen
  intro hnil
  rw [hnil] at hlen
  exact hnodes (List.eq_nil_of_length_eq_zero hlen.symm)

/-- What a dispatch does when it has been reached. -/
lemma Reached.dispatch (hnodes : s.graph.nodes ≠ []) (hparams : ∀ k, sessionOf (params k) = s.session)
    {k : Nat} (h : Reached s.graph s.session (dispatches params came s) came k) :
    ((dispatches params came s k).graph.ready ≠ [] ∧
      (∃ reply, (dispatch (params k) (came k) (dispatches params came s k)).1 = .ok reply) ∧
      dispatches params came s (k + 1) = { dispatches params came s k with
        graph := (dispatches params came s k).graph.wave (came k) }) ∨
    ((dispatches params came s k).graph.ready = [] ∧
      (dispatch (params k) (came k) (dispatches params came s k)).1 =
        .ok (nothingLeft (dispatches params came s k).graph) ∧
      dispatches params came s (k + 1) = dispatches params came s k) := by
  rcases dispatch_eq (came k) h.scheduled (h.nodes_ne_nil hnodes)
    (h.session.trans (hparams k).symm) with hwave | ⟨hready, heq⟩
  · exact .inl hwave
  · exact .inr ⟨hready, by rw [heq], congrArg Prod.snd heq⟩

lemma reached (hnodes : s.graph.nodes ≠ []) (hvalid : s.graph.Valid)
    (hpending : ∀ n ∈ s.graph.nodes, n.status = .pending)
    (hparams : ∀ k, sessionOf (params k) = s.session) (k : Nat) :
    Reached s.graph s.session (dispatches params came s) came k := by
  induction k with
  | zero =>
    have hnone : ∀ id status, status ≠ .pending → ¬s.graph.HasStatus id status := by
      rintro id status hne ⟨n, hn, -, rfl⟩
      exact hne (hpending n hn)
    have hran : ∀ id success, ¬RanBefore (dispatches params came s) came 0 id success := by
      rintro id success ⟨j, hj, -⟩
      exact absurd hj (Nat.not_lt_zero j)
    refine ⟨rfl, rfl, scheduled_of_pending hvalid hpending, ?_, ?_⟩
    · intro id
      exact iff_of_false (hnone id .done (by simp)) (hran id true)
    · intro id
      exact iff_of_false (hnone id .failed (by simp)) (hran id false)
  | succ k ih =>
    rcases ih.dispatch hnodes hparams with ⟨hready, -, heq⟩ | ⟨hready, -, heq⟩
    · refine ⟨?_, ?_, ?_, ?_, ?_⟩
      · rw [heq]
        exact ih.session
      · rw [heq]
        exact Graph.shape_wave.trans ih.shape
      · rw [heq]
        exact ih.scheduled.wave (came k)
      · intro id
        rw [heq, ranBefore_succ, ← ih.done_iff, Graph.hasStatus_wave ih.scheduled.valid (.inl rfl)]
        cases succeeded (came k id) <;> simp
      · intro id
        rw [heq, ranBefore_succ, ← ih.failed_iff,
          Graph.hasStatus_wave ih.scheduled.valid (.inr rfl)]
        cases succeeded (came k id) <;> simp
    · have hran : ∀ id success, RanBefore (dispatches params came s) came (k + 1) id success ↔
          RanBefore (dispatches params came s) came k id success := by
        intro id success
        rw [ranBefore_succ, hready]
        simp
      refine ⟨?_, ?_, ?_, ?_, ?_⟩
      · rw [heq]
        exact ih.session
      · rw [heq]
        exact ih.shape
      · rw [heq]
        exact ih.scheduled
      · intro id
        rw [heq, hran]
        exact ih.done_iff id
      · intro id
        rw [heq, hran]
        exact ih.failed_iff id

/-- A node that was run is neither pending nor ready again. -/
lemma Reached.not_ready {slot : Nat → GraphState} {k j : Nat} {id : String}
    (h : Reached g session slot came k) (hj : j < k) (hready : id ∈ (slot j).graph.ready) :
    id ∉ (slot k).graph.ready := by
  intro hagain
  obtain ⟨n, hn, rfl, hpending, -⟩ := h.scheduled.valid.mem_ready.mp hagain
  have hwaits : (slot k).graph.HasStatus n.id .pending := ⟨n, hn, rfl, hpending⟩
  cases hsuccess : succeeded (came j n.id) with
  | true =>
    have hdone := (h.done_iff n.id).mpr ⟨j, hj, hready, hsuccess⟩
    exact absurd (h.scheduled.valid.status_unique hwaits hdone) (by simp)
  | false =>
    have hfailed := (h.failed_iff n.id).mpr ⟨j, hj, hready, hsuccess⟩
    exact absurd (h.scheduled.valid.status_unique hwaits hfailed) (by simp)

/-- What runs at all runs early: every dispatch that runs something leaves less to run. -/
lemma pending_bound (hnodes : s.graph.nodes ≠ []) (hparams : ∀ k, sessionOf (params k) = s.session)
    (hreached : ∀ k, Reached s.graph s.session (dispatches params came s) came k) (k : Nat) :
    (∃ j ≤ k, (dispatches params came s j).graph.ready = []) ∨
      (dispatches params came s k).graph.pendingIds.length + k ≤ s.graph.nodes.length := by
  induction k with
  | zero =>
    right
    show s.graph.pendingIds.length ≤ s.graph.nodes.length
    rw [Graph.pendingIds, List.length_map]
    exact List.length_filter_le _ _
  | succ k ih =>
    rcases ih with ⟨j, hj, hnone⟩ | hle
    · exact .inl ⟨j, Nat.le_succ_of_le hj, hnone⟩
    · rcases (hreached k).dispatch hnodes hparams with ⟨hready, -, heq⟩ | ⟨hready, -, -⟩
      · right
        have hlt := Graph.pending_wave_lt (came k) (hreached k).scheduled.valid hready
        rw [heq]
        dsimp only
        omega
      · exact .inl ⟨k, Nat.le_succ k, hready⟩

lemma exists_no_ready (hnodes : s.graph.nodes ≠ [])
    (hparams : ∀ k, sessionOf (params k) = s.session)
    (hreached : ∀ k, Reached s.graph s.session (dispatches params came s) came k) :
    ∃ k ≤ s.graph.nodes.length, (dispatches params came s k).graph.ready = [] := by
  rcases pending_bound hnodes hparams hreached s.graph.nodes.length with hfound | hle
  · exact hfound
  · refine ⟨s.graph.nodes.length, Nat.le_refl _, ?_⟩
    have hzero : (dispatches params came s s.graph.nodes.length).graph.pendingIds = [] :=
      List.eq_nil_of_length_eq_zero (by omega)
    rw [List.eq_nil_iff_forall_not_mem]
    intro id hid
    obtain ⟨n, hn, rfl, hpending, -⟩ := (hreached _).scheduled.valid.mem_ready.mp hid
    have hmem := Graph.mem_pendingIds.mpr ⟨n, hn, rfl, hpending⟩
    rw [hzero] at hmem
    exact absurd hmem List.not_mem_nil

/-- Once nothing is ready, nothing changes any more. -/
lemma dispatches_stay (hnodes : s.graph.nodes ≠ [])
    (hparams : ∀ k, sessionOf (params k) = s.session)
    (hreached : ∀ k, Reached s.graph s.session (dispatches params came s) came k) {k : Nat}
    (hready : (dispatches params came s k).graph.ready = []) {m : Nat} (hm : k ≤ m) :
    dispatches params came s m = dispatches params came s k := by
  induction m, hm using Nat.le_induction with
  | base => rfl
  | succ m _ ih =>
    rcases (hreached m).dispatch hnodes hparams with ⟨hsome, -, -⟩ | ⟨-, -, heq⟩
    · rw [ih] at hsome
      exact absurd hready hsome
    · rw [heq, ih]

/-! ### How it ends -/

lemma Graph.dependsOn_of_shape {g g' : Graph} (h : g'.shape = g.shape) {id dep : String} :
    g'.DependsOn id dep ↔ g.DependsOn id dep := by
  have hmem : ∀ g : Graph, g.DependsOn id dep ↔ ∃ deps, (id, deps) ∈ g.shape ∧ dep ∈ deps := by
    intro g
    constructor
    · rintro ⟨n, hn, hid, hdep⟩
      exact ⟨n.deps, Graph.mem_shape.mpr ⟨n, hn, hid, rfl⟩, hdep⟩
    · rintro ⟨deps, hin, hdep⟩
      obtain ⟨n, hn, hid, rfl⟩ := Graph.mem_shape.mp hin
      exact ⟨n, hn, hid, hdep⟩
  rw [hmem, hmem, h]

variable {id dep : String}

/-- Whatever a done or a failed node depends on is done. -/
lemma Graph.Scheduled.done_of_transGen (h : g.Scheduled)
    (hstatus : g.HasStatus id .done ∨ g.HasStatus id .failed)
    (hpath : Relation.TransGen g.DependsOn id dep) : g.HasStatus dep .done := by
  have hstep : ∀ id dep, g.HasStatus id .done ∨ g.HasStatus id .failed → g.DependsOn id dep →
      g.HasStatus dep .done := by
    rintro id dep hran ⟨n, hn, rfl, hdep⟩
    refine h.ran n hn ?_ dep hdep
    rcases hran with ⟨m, hm, hid, hstatus⟩ | ⟨m, hm, hid, hstatus⟩
    · exact .inl (Toposort.eq_of_key h.valid.nodup hm hn hid ▸ hstatus)
    · exact .inr (Toposort.eq_of_key h.valid.nodup hm hn hid ▸ hstatus)
  induction hpath with
  | single hdep => exact hstep _ _ hstatus hdep
  | tail _ hdep ih => exact hstep _ _ (.inl ih) hdep

/-- A skipped node depends on a failed one. -/
lemma Graph.Scheduled.exists_failed (h : g.Scheduled) (hskipped : g.HasStatus id .skipped) :
    ∃ dep, Relation.TransGen g.DependsOn id dep ∧ g.HasStatus dep .failed := by
  obtain ⟨rank, hrank⟩ := h.valid.ranked
  induction hr : rank id using Nat.strong_induction_on generalizing id with
  | _ r ih =>
    obtain ⟨n, hn, rfl, hstatus⟩ := hskipped
    obtain ⟨dep, hdep, hdead⟩ := h.lost n hn hstatus
    have hstep : g.DependsOn n.id dep := ⟨n, hn, rfl, hdep⟩
    rcases hdead with hfailed | hskipped
    · exact ⟨dep, .single hstep, hfailed⟩
    · obtain ⟨failed, hpath, hfailed⟩ := ih (rank dep) (hr ▸ hrank n hn dep hdep) hskipped rfl
      exact ⟨failed, .head hstep hpath, hfailed⟩

/-- Where nothing is left, every node is done, has failed, or was skipped. -/
lemma Graph.Scheduled.skipped_iff (h : g.Scheduled) (hready : g.ready = []) (hid : id ∈ g.ids) :
    g.HasStatus id .skipped ↔
      ∃ dep, Relation.TransGen g.DependsOn id dep ∧ g.HasStatus dep .failed := by
  constructor
  · exact h.exists_failed
  · rintro ⟨dep, hpath, hfailed⟩
    obtain ⟨n, hn, rfl⟩ := List.mem_map.mp hid
    have hnot : ¬(g.HasStatus n.id .done ∨ g.HasStatus n.id .failed) := by
      intro hran
      have hdone := h.done_of_transGen hran hpath
      exact absurd (h.valid.status_unique hdone hfailed) (by simp)
    rcases Graph.hasStatus_cases hn h.quiet with hpending | hdone | hfailed' | hskipped
    · have hsome : g.hasPending = true :=
        Graph.hasPending_iff.mpr (List.ne_nil_of_mem (Graph.mem_pendingIds.mpr hpending))
      exact absurd hready (h.ready_ne_nil hsome)
    · exact absurd (.inl hdone) hnot
    · exact absurd (.inr hfailed') hnot
    · exact hskipped

lemma noProgress_ne_cancelled (g : Graph) : "cancelled" ≠ noProgress g := by
  intro h
  unfold noProgress at h
  generalize String.intercalate ", " g.pendingIds = blocked at h
  have hlen := congrArg String.length h
  rw [String.length_append] at hlen
  have hlong : "cancelled".length <
      "no progress: no pending node is ready (blocked by unmet dependencies): ".length := by
    decide +kernel
  exact Nat.ne_of_lt (Nat.lt_of_lt_of_le hlong (Nat.le_add_right _ _)) hlen

/-- Every plan comes to its end in at most one dispatch a node, and one more that says so: each node
was run at most once, is done exactly if it and all it depends on succeeded, has failed exactly if it
was run in vain, and was skipped exactly if something it depends on has failed. A dispatch is stuck
only where everything that waits depends on something lost. -/
theorem dispatches_complete {value : Value} {g : Graph} (h : Graph.fromNodesValue value = .ok g)
    (session : Option String) (generation : Nat) (params : Nat → Value)
    (hparams : ∀ k, sessionOf (params k) = session) (came : Nat → String → Came) :
    (let slot := dispatches params came ⟨session, g, generation⟩
    let reply := fun k => (dispatch (params k) (came k) (slot k)).1
    (∀ k, ∃ text, reply k = .ok text) ∧
    (∀ j k id, id ∈ (slot j).graph.ready → id ∈ (slot k).graph.ready → j = k) ∧
    ∃ k ≤ g.nodes.length,
      (∀ m, k ≤ m → slot m = slot k ∧ reply m = .ok (nothingLeft (slot k).graph)) ∧
      ∀ id ∈ g.ids,
        ((slot k).graph.HasStatus id .done ↔
          ∀ dep, Relation.ReflTransGen g.DependsOn id dep → RanBefore slot came k dep true) ∧
        ((slot k).graph.HasStatus id .failed ↔ RanBefore slot came k id false) ∧
        ((slot k).graph.HasStatus id .skipped ↔
          ∃ dep, Relation.TransGen g.DependsOn id dep ∧ (slot k).graph.HasStatus dep .failed)) ∧
    ∀ (params : Value) (cancelled : Bool) (s slot : GraphState), s.graph.Valid → s.graph.Quiet →
      start params cancelled s = (.replied (.error (noProgress slot.graph)), slot) →
      ∀ id, slot.graph.HasStatus id .pending →
        ∃ dep, Relation.TransGen slot.graph.DependsOn id dep ∧ slot.graph.IsDead dep := by
  constructor
  · obtain ⟨hvalid, hnodes, hpending⟩ := Graph.fromNodesValue_eq_ok h
    intro slot reply
    have hreached : ∀ k, Reached g session slot came k :=
      reached (s := ⟨session, g, generation⟩) hnodes hvalid hpending hparams
    refine ⟨?_, ?_, ?_⟩
    · intro k
      rcases (hreached k).dispatch (s := ⟨session, g, generation⟩) hnodes hparams with
        ⟨-, hreply, -⟩ | ⟨-, hreply, -⟩
      · exact hreply
      · exact ⟨_, hreply⟩
    · intro j k id hj hk
      rcases Nat.lt_trichotomy j k with hlt | heq | hlt
      · exact absurd hk ((hreached k).not_ready hlt hj)
      · exact heq
      · exact absurd hj ((hreached j).not_ready hlt hk)
    · obtain ⟨k, hk, hready⟩ :=
        exists_no_ready (s := ⟨session, g, generation⟩) hnodes hparams hreached
      refine ⟨k, hk, ?_, ?_⟩
      · intro m hm
        have hstay : slot m = slot k :=
          dispatches_stay (s := ⟨session, g, generation⟩) hnodes hparams hreached hready hm
        refine ⟨hstay, ?_⟩
        rcases (hreached m).dispatch (s := ⟨session, g, generation⟩) hnodes hparams with
          ⟨hsome, -, -⟩ | ⟨-, hreply, -⟩
        · refine absurd ?_ hsome
          show (slot m).graph.ready = []
          rw [hstay]
          exact hready
        · rw [← hstay]
          exact hreply
      · intro id hid
        have hend := hreached k
        have hdepends : (slot k).graph.DependsOn = g.DependsOn := by
          funext id dep
          exact propext (Graph.dependsOn_of_shape hend.shape)
        have hids : id ∈ (slot k).graph.ids := by
          rw [Graph.ids_eq_shape, hend.shape, ← Graph.ids_eq_shape]
          exact hid
        refine ⟨?_, hend.failed_iff id, ?_⟩
        · constructor
          · intro hdone dep hpath
            rw [← hdepends] at hpath
            rw [← hend.done_iff]
            rcases Relation.reflTransGen_iff_eq_or_transGen.mp hpath with rfl | hpath
            · exact hdone
            · exact hend.scheduled.done_of_transGen (.inl hdone) hpath
          · intro hall
            exact (hend.done_iff id).mpr (hall id .refl)
        · rw [hend.scheduled.skipped_iff hready hids, hdepends]
  · intro params cancelled s slot hvalid hquiet hstart id hpending
    have hlocked : (lockGraph params s).graph.Valid ∧ (lockGraph params s).graph.Quiet := by
      by_cases hsession : s.session = sessionOf params
      · rw [lockGraph, if_pos hsession]
        exact ⟨hvalid, hquiet⟩
      · rw [lockGraph, if_neg hsession]
        exact ⟨Graph.valid_default, fun n hn => absurd hn List.not_mem_nil⟩
    have hresult := start_result params cancelled s
    generalize hstarted : start params cancelled s = started at hresult
    rw [hstart] at hstarted
    cases hresult with
    | cancelled =>
      have heq := congrArg Prod.fst hstarted
      simp only [Started.replied.injEq, Except.error.injEq] at heq
      exact absurd heq.symm (noProgress_ne_cancelled _)
    | replied reply slot' lock hreply =>
      obtain ⟨-, rfl⟩ := Prod.mk.inj hstarted
      subst lock
      rcases hreply with hrunning | hempty | hready
      · rw [isRunning_eq_false.mpr hlocked.2] at hrunning
        exact absurd hrunning (by simp)
      · obtain ⟨n, hn, -⟩ := hpending
        rw [hempty] at hn
        exact absurd hn List.not_mem_nil
      · exact Graph.exists_dead_of_no_ready hlocked.1 hlocked.2 hready hpending
    | wave slot' maxParallel lock quiet ready =>
      exact absurd (congrArg Prod.fst hstarted) (by simp)

/-- Two nodes, one of which depends on the other. -/
def pairValue : Value :=
  .array [.object [("id", .string "a"), ("task", .string "x")],
    .object [("id", .string "b"), ("task", .string "y"), ("deps", .array [.string "a"])]]

def pairNode (id task : String) (deps : List String) : Node :=
  { id, task, deps, role := none, provider := none, model := none, expectFile := none,
    verify := none, maxTurns := 8, timeoutSecs := 300, status := .pending, result := none }

def pair : Graph := ⟨[pairNode "a" "x" [], pairNode "b" "y" ["a"]]⟩

/-- The first of two nodes fails, and no dispatch is ever stuck. -/
theorem dispatches_complete_pair : Graph.fromNodesValue pairValue = .ok pair ∧
    ∀ k, ∃ text, (dispatch .null (fun _ => (.error "lost", .ok ()))
      (dispatches (fun _ => .null) (fun _ _ => (.error "lost", .ok ())) ⟨none, pair, 1⟩ k)).1 =
        .ok text :=
  have hpair : Graph.fromNodesValue pairValue = .ok pair := by decide +kernel
  ⟨hpair, (dispatches_complete hpair none 1 (fun _ => .null) (fun _ => rfl)
    fun _ _ => (.error "lost", .ok ())).1.1⟩

end Run

end Orchestrator
