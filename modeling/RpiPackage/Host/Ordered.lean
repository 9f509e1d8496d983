import RpiPackage.Host.Publish

/-!
# Publications in order

As long as the events enter the replay history in the order of their numbers the history has no gap,
and as long as nothing that starts or settles a run is projected after the host has closed it stays
closed. Neither is guarded by the sections of a publication themselves.
-/

namespace Host

open Json Message Numbered

/-- The numbers of the publications that have not entered the history yet. -/
def Feed.unretained (f : Feed) : List Nat :=
  (f.inFlight.filter fun p => p.stage != .retained).map fun p => p.seq

/-- An event enters the history before those with a larger number. -/
def Feed.InOrder (f : Feed) : PublishOp → Prop
  | .retain i => ∀ p, f.inFlight[i]? = some p → ∀ seq ∈ f.unretained, p.seq ≤ seq
  | _ => True

/-- The events that set the status whatever it has been. -/
def reopens (value : Value) : Bool :=
  ["agent_start", "operation_accepted", "ui_dialog_request", "agent_settled"].contains
    (eventKind value)

/-- A closed session is not reopened. -/
def Feed.KeepsClosed (f : Feed) : PublishOp → Prop
  | .project i => f.state.status = "closed" →
      ∀ p, f.inFlight[i]? = some p → reopens p.value = false
  | _ => True

/-- A replay history without a gap. -/
structure Feed.GapFree (f : Feed) : Prop where
  consecutive : ∃ first, Consecutive BufferedEvent.seq first f.history
  issued : ∀ event ∈ f.history, event.seq ≤ f.seq
  bounded : f.history.length ≤ historyLimit

/-! ### The replay history -/

structure Feed.Sequenced (f : Feed) : Prop where
  published : Consecutive BufferedEvent.seq 1 f.published
  outstanding : Outstanding f.unretained f.published.length f.seq
  length_le : f.published.length ≤ f.seq
  history : f.history = f.published.drop (f.published.length - historyLimit)

/-- The ring holds the newest events. -/
lemma retain_drop (published : List BufferedEvent) (event : BufferedEvent) :
    retain (published.drop (published.length - historyLimit)) event =
      (published ++ [event]).drop ((published ++ [event]).length - historyLimit) := by
  have hpos : 0 < historyLimit := by decide
  unfold retain
  rw [List.length_drop, List.length_append, List.length_singleton]
  by_cases hfull : historyLimit ≤ published.length
  · rw [if_pos (by omega), List.drop_drop, List.drop_append_of_le_length (by omega),
      Nat.sub_add_comm hfull]
  · have hnone : published.length - historyLimit = 0 := by omega
    have hnone' : published.length + 1 - historyLimit = 0 := by omega
    rw [if_neg (by omega), hnone, hnone']
    rfl

section

variable {f : Feed} {before after : List Publication} {event : BufferedEvent} {stage : Stage}

lemma unretained_cons (h : f.inFlight = before ++ ⟨event, stage⟩ :: after)
    (hstage : stage ≠ .retained) :
    f.unretained = (before.filter fun p => p.stage != .retained).map (fun p => p.seq) ++
      event.seq :: (after.filter fun p => p.stage != .retained).map fun p => p.seq := by
  rw [Feed.unretained, h, List.filter_append, List.filter_cons_of_pos (by simpa using hstage),
    List.map_append, List.map_cons]

lemma unretained_retained (h : f.inFlight = before ++ ⟨event, .retained⟩ :: after) :
    f.unretained = (before.filter fun p => p.stage != .retained).map (fun p => p.seq) ++
      (after.filter fun p => p.stage != .retained).map fun p => p.seq := by
  rw [Feed.unretained, h, List.filter_append, List.filter_cons_of_neg (by simp), List.map_append]

end

variable {fromStr : String → Option Value}

lemma Feed.sequenced_step {f : Feed} (h : f.Sequenced) {op : PublishOp} (horder : f.InOrder op) :
    (f.step fromStr op).Sequenced := by
  have heffect := f.step_effect fromStr op
  generalize f.step fromStr op = f' at heffect
  cases heffect with
  | idle => exact h
  | issue value =>
    refine ⟨h.published, ?_, Nat.le_succ_of_le h.length_le, h.history⟩
    have hnew := h.outstanding.issue h.length_le
    simpa [Feed.unretained] using hnew
  | project i before after event hunder hi =>
    refine ⟨h.published, ?_, h.length_le, h.history⟩
    have hold := h.outstanding
    rw [unretained_cons hunder (by decide)] at hold
    rw [unretained_cons rfl (by decide)]
    exact hold
  | retain i before after event hunder hi =>
    have hold := h.outstanding
    rw [unretained_cons hunder (by decide)] at hold
    have hmin : ∀ seq ∈ f.unretained, event.seq ≤ seq :=
      horder ⟨event, .projected⟩ (by rw [hunder, hi]; simp)
    rw [unretained_cons hunder (by decide)] at hmin
    obtain ⟨hseq, hle, hnew⟩ := hold.settle fun seq hmem => hmin seq (by
      rcases List.mem_append.mp hmem with hmem | hmem
      · exact List.mem_append_left _ hmem
      · exact List.mem_append_right _ (List.mem_cons_of_mem _ hmem))
    refine ⟨h.published.append_singleton (by rw [hseq]; omega), ?_, ?_, ?_⟩
    · rw [unretained_retained rfl, List.length_append]
      exact hnew
    · rw [List.length_append, List.length_singleton]
      show f.published.length + 1 ≤ f.seq
      omega
    · show Host.retain f.history event = _
      rw [h.history]
      exact retain_drop f.published event
  | send i before after event hunder hi =>
    refine ⟨h.published, ?_, h.length_le, h.history⟩
    have hold := h.outstanding
    rw [unretained_retained hunder] at hold
    simpa [Feed.unretained] using hold

lemma Feed.Sequenced.gapFree {f : Feed} (h : f.Sequenced) : f.GapFree := by
  refine ⟨⟨_, h.history ▸ h.published.drop _⟩, ?_, ?_⟩
  · intro event hevent
    rw [h.history] at hevent
    have hbound := (h.published.mem (List.mem_of_mem_drop hevent)).2
    have hle := h.length_le
    omega
  · rw [h.history, List.length_drop]
    omega

/-! ### Closing -/

/-- A projection has shown the session that its host has closed. -/
def HostClosed (fromStr : String → Option Value) (ops : List PublishOp) : Prop :=
  ∃ left i event right, ops = left ++ .project i :: right ∧
    (Feed.run fromStr left).inFlight[i]? = some ⟨event, .issued⟩ ∧
    eventKind event.value = "host_closed"

lemma eventKind_project (state : HostState) (next : Nat) (value : Value) :
    eventKind (state.project fromStr next value).2 = eventKind value := by
  have hevent := LiveMessageProjection.project_event fromStr state.liveMessage value
  show eventKind (state.liveMessage.project fromStr value).2 = eventKind value
  rcases hevent with hsame | ⟨message, hset⟩
  · rw [hsame]
  · rw [hset, eventKind, Value.index_set_ne value (by decide), eventKind]

lemma project_fst (state : HostState) (next : Nat) (value : Value) :
    (state.project fromStr next value).1 =
      HostState.update { state with
        liveMessage := (state.liveMessage.project fromStr value).1, lastSeq := next }
        (state.project fromStr next value).2 := rfl

lemma HostState.update_host_closed (state : HostState) {value : Value}
    (h : eventKind value = "host_closed") : (state.update value).status = "closed" := by
  unfold HostState.update
  rw [h]
  rfl

lemma HostState.update_closed {state : HostState} (hclosed : state.status = "closed")
    {value : Value} (h : reopens value = false) : (state.update value).status = "closed" := by
  unfold reopens at h
  unfold HostState.update
  split
  · rename_i hkind
    rw [hkind] at h
    cases h
  · rename_i hkind
    rw [hkind] at h
    cases h
  · rename_i hkind
    rw [hkind] at h
    cases h
  · simp [hclosed]
  · rename_i hkind
    rw [hkind] at h
    cases h
  · rfl
  · exact hclosed
  · exact hclosed

lemma Feed.closed_step {f : Feed} (h : f.state.status = "closed") {op : PublishOp}
    (hkeeps : f.KeepsClosed op) : (f.step fromStr op).state.status = "closed" := by
  have heffect := f.step_effect fromStr op
  generalize f.step fromStr op = f' at heffect
  cases heffect with
  | idle => exact h
  | issue => exact h
  | project i before after event hunder hi =>
    show ((f.state.project fromStr event.seq event.value).1).status = "closed"
    rw [project_fst]
    refine HostState.update_closed (by exact h) ?_
    have hvalue : reopens event.value = false :=
      hkeeps h ⟨event, .issued⟩ (by rw [hunder, hi]; simp)
    unfold reopens at hvalue ⊢
    rw [← hvalue]
    exact congrArg _ (eventKind_project f.state event.seq event.value)
  | retain => exact h
  | send => exact h

/-- The projection of a `host_closed` closes the session. -/
lemma Feed.project_closed {f : Feed} {i : Nat} {event : BufferedEvent}
    (hevent : f.inFlight[i]? = some ⟨event, .issued⟩)
    (hkind : eventKind event.value = "host_closed") :
    (f.step fromStr (.project i)).state.status = "closed" := by
  simp only [Feed.step, hevent]
  show ((f.state.project fromStr event.seq event.value).1).status = "closed"
  rw [project_fst]
  exact HostState.update_host_closed _ ((eventKind_project f.state event.seq event.value).trans hkind)

/-! ### Runs -/

/-- What a publication has to be careful about. -/
def Feed.Careful (f : Feed) (op : PublishOp) : Prop := f.InOrder op ∧ f.KeepsClosed op

lemma Feed.sequenced {ops : List PublishOp}
    (h : Run.Meets (Feed.step fromStr) Feed.InOrder Feed.start ops) :
    (Feed.run fromStr ops).Sequenced :=
  h.invariant (P := Feed.Sequenced) (fun _ _ h horder => Feed.sequenced_step h horder)
    ⟨consecutive_nil _ _, outstanding_nil 0, Nat.le_refl 0, rfl⟩

/-- In a run whose every retention is in order and whose every projection keeps a closed session
closed, the replay history has no gap and closing is final. -/
theorem Feed.run_gapFree (fromStr : String → Option Value) (ops : List PublishOp)
    (h : Run.Meets (Feed.step fromStr) Feed.Careful Feed.start ops) :
    (Feed.run fromStr ops).GapFree ∧
      (HostClosed fromStr ops → (Feed.run fromStr ops).state.status = "closed") := by
  constructor
  · have horder : Run.Meets (Feed.step fromStr) Feed.InOrder Feed.start ops := by
      exact h.mono fun _ _ h => h.1
    exact (Feed.sequenced horder).gapFree
  · rintro ⟨left, i, event, right, rfl, hevent, hkind⟩
    obtain ⟨-, -, hright⟩ := Run.meets_append.mp h
    rw [Feed.run, Run.after_append, Run.after_cons]
    exact hright.invariant (P := fun f : Feed => f.state.status = "closed")
      (fun f _ hclosed hop => Feed.closed_step hclosed hop.2) (Feed.project_closed hevent hkind)

/-- The reader starts a run while the host is closing. -/
def racingPublications : List PublishOp :=
  [.issue (.object [("type", .string "agent_start")]),
    .issue (.object [("type", .string "host_closed")]),
    .project 1, .project 0, .retain 1, .retain 0]

theorem Feed.racing_publications :
    ¬(Feed.run (fun _ => none) racingPublications).GapFree ∧
      HostClosed (fun _ => none) racingPublications ∧
      (Feed.run (fun _ => none) racingPublications).state.status = "running" := by
  refine ⟨fun hgapFree => ?_, ?_, rfl⟩
  · obtain ⟨first, hfirst⟩ := hgapFree.consecutive
    have hseqs : [2, 1] = List.range' first 2 := hfirst
    simp only [List.range'_succ, List.range'_zero, List.cons.injEq, and_true] at hseqs
    omega
  · exact ⟨racingPublications.take 2, 1, ⟨2, .object [("type", .string "host_closed")]⟩, _, rfl, rfl,
      rfl⟩

/-- A publication after the other. -/
def orderedPublications : List PublishOp :=
  [.issue (.object [("type", .string "agent_start")]), .project 0, .retain 0, .send 0,
    .issue (.object [("type", .string "host_closed")]), .project 0, .retain 0, .send 0]

theorem Feed.run_gapFree_ordered :
    (Feed.run (fun _ => none) orderedPublications).GapFree ∧
      (HostClosed (fun _ => none) orderedPublications →
        (Feed.run (fun _ => none) orderedPublications).state.status = "closed") := by
  refine Feed.run_gapFree _ orderedPublications ?_
  refine ⟨⟨trivial, trivial⟩, ⟨trivial, ?_⟩, ⟨?_, trivial⟩, ⟨trivial, trivial⟩, ⟨trivial, trivial⟩,
    ⟨trivial, ?_⟩, ⟨?_, trivial⟩, ⟨trivial, trivial⟩, trivial⟩
  · exact fun hclosed => absurd hclosed (by decide)
  · rintro p hp seq hseq
    obtain rfl := Option.some.inj hp
    obtain rfl := List.mem_singleton.mp hseq
    exact Nat.le_refl 1
  · exact fun hclosed => absurd hclosed (by decide)
  · rintro p hp seq hseq
    obtain rfl := Option.some.inj hp
    obtain rfl := List.mem_singleton.mp hseq
    exact Nat.le_refl 2

end Host
