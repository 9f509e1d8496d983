import Mathlib.Data.List.Infix
import RpiPackage.Lib.Run
import RpiPackage.Orchestrator.Dispatch

/-!
# Waves that interleave

Any number of plans and dispatches of any sessions meet at the one graph of the process. A wave
leaves the lock between marking its nodes and writing what came of them; the generation tells it
whether the graph it comes back to is still the one it left.
-/

namespace Orchestrator

open Json Result

/-- Where a dispatch stands outside of the lock. -/
inductive Phase where
  | idle
  | running (w : Wave)
  | verifying (w : Wave)

/-- The wave in progress. -/
def Phase.wave : Phase → Option Wave
  | .idle => none
  | .running w | .verifying w => some w

structure System where
  slot : GraphState
  threads : Nat → Phase

inductive Move where
  | plan (params : Value) (cancelled : Bool)
  | start (thread : Nat) (params : Value) (cancelled : Bool)
  | recheck (thread : Nat)
  | finish (thread : Nat) (came : String → Option (Except String String × Except String Unit))

namespace System

def initial : System := ⟨.default, fun _ => .idle⟩

def setThread (s : System) (thread : Nat) (phase : Phase) : System :=
  { s with threads := fun t => if t = thread then phase else s.threads t }

def step (s : System) : Move → System
  | .plan params cancelled => { s with slot := (plan params cancelled s.slot).2 }
  | .start thread params cancelled =>
    match s.threads thread with
    | .idle =>
      match start params cancelled s.slot with
      | (.wave w, slot) => { s.setThread thread (.running w) with slot }
      | (.replied _, slot) => { s with slot }
    | _ => s
  | .recheck thread =>
    match s.threads thread with
    | .running w =>
      match lockGraphForWave w.params w.generation s.slot with
      | .ok _ => s.setThread thread (.verifying w)
      | .error _ => s.setThread thread .idle
    | _ => s
  | .finish thread came =>
    match s.threads thread with
    | .verifying w =>
      { s.setThread thread .idle with slot := (finish w (report w.ready came) s.slot).2 }
    | _ => s

/-- A wave is in progress. -/
def InProgress (s : System) (thread : Nat) (w : Wave) : Prop := (s.threads thread).wave = some w

/-- The graph that a wave was started on: it has marked what was ready, and nothing else runs. -/
structure Marked (w : Wave) : Prop where
  nodup : w.ready.Nodup
  some_ready : w.ready ≠ []
  known : ∀ id ∈ w.ready, w.snapshot.HasStatus id .running
  running : ∀ n ∈ w.snapshot.nodes, n.status = .running → n.id ∈ w.ready
  deps_done : ∀ n ∈ w.snapshot.nodes, n.status = .running →
    ∀ dep ∈ n.deps, w.snapshot.HasStatus dep .done

/-- What holds between any two lock sections. -/
structure Safe (s : System) : Prop where
  valid : s.slot.graph.Valid
  marked : ∀ t w, s.InProgress t w → Marked w
  past : ∀ t w, s.InProgress t w → w.generation ≤ s.slot.generation
  current : ∀ t w, s.InProgress t w → w.generation = s.slot.generation →
    s.slot.session = sessionOf w.params ∧ s.slot.graph = w.snapshot
  one : ∀ t t' w w', s.InProgress t w → s.InProgress t' w' → w.generation = s.slot.generation →
    w'.generation = s.slot.generation → t = t'
  owned : ¬s.slot.graph.Quiet → ∃ t w, s.InProgress t w ∧ w.generation = s.slot.generation

variable {s : System} {t : Nat} {w : Wave} {params : Value}

lemma safe_initial : initial.Safe := by
  refine ⟨Graph.valid_default, ?_, ?_, ?_, ?_, ?_⟩
  · intro t w h
    exact absurd h (by simp [InProgress, initial, Phase.wave])
  · intro t w h
    exact absurd h (by simp [InProgress, initial, Phase.wave])
  · intro t w h
    exact absurd h (by simp [InProgress, initial, Phase.wave])
  · intro t t' w w' h
    exact absurd h (by simp [InProgress, initial, Phase.wave])
  · intro h
    exact absurd (fun n hn => absurd hn List.not_mem_nil) h

/-- While a wave is the current one, its nodes are running. -/
lemma Safe.not_quiet (h : s.Safe) (hw : s.InProgress t w)
    (hgeneration : w.generation = s.slot.generation) : ¬s.slot.graph.Quiet := by
  intro hquiet
  have hmarked := h.marked t w hw
  obtain ⟨id, hid⟩ := List.exists_mem_of_ne_nil _ hmarked.some_ready
  obtain ⟨n, hn, -, hrunning⟩ := hmarked.known id hid
  rw [(h.current t w hw hgeneration).2] at hquiet
  exact hquiet n hn hrunning

/-- A graph in which nothing runs is replaced by another one, under a new generation. -/
lemma Safe.replace (h : s.Safe) {slot : GraphState} (hgeneration : s.slot.generation < slot.generation)
    (hvalid : slot.graph.Valid) (hquiet : slot.graph.Quiet) : Safe { s with slot } := by
  have hnone : ∀ t w, s.InProgress t w → w.generation ≠ slot.generation := by
    intro t w hw
    have hle := h.past t w hw
    omega
  refine ⟨hvalid, h.marked, ?_, ?_, ?_, ?_⟩
  · intro t w hw
    have hle : w.generation ≤ s.slot.generation := h.past t w hw
    show w.generation ≤ slot.generation
    omega
  · intro t w hw heq
    exact absurd heq (hnone t w hw)
  · intro t t' w w' hw _ heq
    exact absurd heq (hnone t w hw)
  · intro hrunning
    exact absurd hquiet hrunning

lemma Safe.lock (h : s.Safe) : Safe { s with slot := lockGraph params s.slot } := by
  by_cases hsession : s.slot.session = sessionOf params
  · rw [lockGraph, if_pos hsession]
    exact h
  · rw [lockGraph, if_neg hsession]
    refine h.replace ?_ Graph.valid_default ?_
    · exact Nat.lt_succ_self _
    · exact fun n hn => absurd hn List.not_mem_nil

lemma Safe.plan (h : s.Safe) (params : Value) (cancelled : Bool) :
    Safe { s with slot := (plan params cancelled s.slot).2 } := by
  have hlock : Safe { s with slot := lockGraph params s.slot } := h.lock
  unfold Orchestrator.plan
  split
  · exact h
  · dsimp only
    generalize lockGraph params s.slot = slot at hlock ⊢
    split
    · exact hlock
    · rename_i hfree
      split
      · exact hlock
      · rename_i graph hplanned
        have hquiet : edits (((params.get "action").bind Value.asStr).getD "show") = true →
            slot.graph.Quiet := by
          intro hedits
          rw [hedits, Bool.true_and] at hfree
          exact isRunning_eq_false.mp (Bool.eq_false_iff.mpr hfree)
        rcases planned_eq_ok hplanned hquiet with ⟨hshow, rfl⟩ | ⟨hedits, hvalid, hnew⟩
        · rw [hshow]
          exact hlock
        · rw [hedits]
          exact hlock.replace (Nat.lt_succ_self _) hvalid hnew

/-- A wave goes without having written anything, when it is not the current one. -/
lemma Safe.leave (h : s.Safe) (hw : s.InProgress t w) (hstale : w.generation ≠ s.slot.generation) :
    (s.setThread t .idle).Safe := by
  have hkept : ∀ t' w', (s.setThread t .idle).InProgress t' w' → s.InProgress t' w' := by
    intro t' w' hw'
    by_cases heq : t' = t
    · simp [InProgress, setThread, heq, Phase.wave] at hw'
    · simpa [InProgress, setThread, heq] using hw'
  refine ⟨h.valid, ?_, ?_, ?_, ?_, ?_⟩
  · intro t' w' hw'
    exact h.marked t' w' (hkept t' w' hw')
  · intro t' w' hw'
    exact h.past t' w' (hkept t' w' hw')
  · intro t' w' hw'
    exact h.current t' w' (hkept t' w' hw')
  · intro t₁ t₂ w₁ w₂ hw₁ hw₂
    exact h.one t₁ t₂ w₁ w₂ (hkept t₁ w₁ hw₁) (hkept t₂ w₂ hw₂)
  · intro hrunning
    obtain ⟨t', w', hw', hcurrent⟩ := h.owned hrunning
    refine ⟨t', w', ?_, hcurrent⟩
    have hne : t' ≠ t := by
      rintro rfl
      obtain rfl := Option.some.inj (hw.symm.trans hw')
      exact hstale hcurrent
    simpa [InProgress, setThread, hne] using hw'

/-- A new wave is the only one that the graph is running for. -/
lemma Safe.begin (h : s.Safe) (hsession : s.slot.session = sessionOf params)
    (hquiet : s.slot.graph.Quiet) (hready : s.slot.graph.ready ≠ []) (maxParallel : UInt64) :
    Safe { s.setThread t (.running ⟨params, s.slot.generation,
        markRunning s.slot.graph.ready s.slot.graph, s.slot.graph.ready, maxParallel⟩) with
      slot := { s.slot with graph := markRunning s.slot.graph.ready s.slot.graph } } := by
  have hnone : ∀ t' w', s.InProgress t' w' → w'.generation ≠ s.slot.generation :=
    fun t' w' hw' hcurrent => h.not_quiet hw' hcurrent hquiet
  have hgraph := markRunning_eq h.valid h.valid.nodup_ready
  have hplace : Graph.KeepsPlace fun n =>
      if n.id ∈ s.slot.graph.ready then setStatus .running n else n := by
    intro n
    dsimp only
    split
    · exact keepsPlace_setStatus .running n
    · exact ⟨rfl, rfl⟩
  have hrunning : ∀ n ∈ (markRunning s.slot.graph.ready s.slot.graph).nodes, n.status = .running →
      ∃ m ∈ s.slot.graph.nodes, m.id = n.id ∧ m.deps = n.deps ∧ m.id ∈ s.slot.graph.ready := by
    intro n hn hstatus
    rw [hgraph] at hn
    obtain ⟨m, hm, rfl⟩ := List.mem_map.mp hn
    refine ⟨m, hm, (hplace m).1.symm, (hplace m).2.symm, ?_⟩
    by_contra hnot
    rw [if_neg hnot] at hstatus
    exact hquiet m hm hstatus
  have hmarked : Marked ⟨params, s.slot.generation, markRunning s.slot.graph.ready s.slot.graph,
      s.slot.graph.ready, maxParallel⟩ := by
    refine ⟨h.valid.nodup_ready, hready, ?_, ?_, ?_⟩
    · intro id hid
      obtain ⟨n, hn, rfl, -⟩ := h.valid.mem_ready.mp hid
      refine ⟨setStatus .running n, ?_, rfl, rfl⟩
      rw [hgraph]
      exact List.mem_map.mpr ⟨n, hn, if_pos hid⟩
    · intro n hn hstatus
      obtain ⟨m, -, hid, -, hmem⟩ := hrunning n hn hstatus
      exact hid ▸ hmem
    · intro n hn hstatus dep hdep
      obtain ⟨m, hm, hid, hdeps, hmem⟩ := hrunning n hn hstatus
      obtain ⟨m', hm', hid', -, hdone⟩ := h.valid.mem_ready.mp hmem
      obtain rfl := Toposort.eq_of_key h.valid.nodup hm' hm hid'
      obtain ⟨d, hd, hname, hstatus⟩ := hdone dep (hdeps ▸ hdep)
      refine ⟨d, ?_, hname, hstatus⟩
      rw [hgraph]
      refine List.mem_map.mpr ⟨d, hd, if_neg ?_⟩
      -- a node that is done is not ready
      intro hin
      obtain ⟨d', hd', hname', hpending, -⟩ := h.valid.mem_ready.mp hin
      obtain rfl := Toposort.eq_of_key h.valid.nodup hd' hd hname'
      rw [hstatus] at hpending
      exact absurd hpending (by simp)
  -- the thread of the new wave holds it, every other thread what it held
  generalize hwave : (⟨params, s.slot.generation, markRunning s.slot.graph.ready s.slot.graph,
    s.slot.graph.ready, maxParallel⟩ : Wave) = wave at hmarked ⊢
  have hcases : ∀ t' w', (s.setThread t (.running wave)).InProgress t' w' →
      (t' = t ∧ w' = wave) ∨ s.InProgress t' w' := by
    intro t' w' hw'
    by_cases heq : t' = t
    · refine .inl ⟨heq, ?_⟩
      simp only [InProgress, setThread, heq, if_true] at hw'
      exact (Option.some.inj hw').symm
    · exact .inr (by simpa [InProgress, setThread, heq] using hw')
  refine ⟨?_, ?_, ?_, ?_, ?_, ?_⟩
  · show (markRunning s.slot.graph.ready s.slot.graph).Valid
    rw [hgraph]
    exact h.valid.of_shape (Graph.shape_map hplace)
  · intro t' w' hw'
    rcases hcases t' w' hw' with ⟨-, rfl⟩ | hw'
    · exact hmarked
    · exact h.marked t' w' hw'
  · intro t' w' hw'
    rcases hcases t' w' hw' with ⟨-, rfl⟩ | hw'
    · rw [← hwave]
    · exact h.past t' w' hw'
  · intro t' w' hw' hcurrent
    rcases hcases t' w' hw' with ⟨-, rfl⟩ | hw'
    · rw [← hwave]
      exact ⟨hsession, rfl⟩
    · exact absurd hcurrent (hnone t' w' hw')
  · intro t₁ t₂ w₁ w₂ hw₁ hw₂ hcurrent₁ hcurrent₂
    rcases hcases t₁ w₁ hw₁ with ⟨rfl, -⟩ | hw₁
    · rcases hcases t₂ w₂ hw₂ with ⟨rfl, -⟩ | hw₂
      · rfl
      · exact absurd hcurrent₂ (hnone t₂ w₂ hw₂)
    · exact absurd hcurrent₁ (hnone t₁ w₁ hw₁)
  · intro _
    refine ⟨t, wave, ?_, ?_⟩
    · simp [InProgress, setThread, Phase.wave]
    · rw [← hwave]

lemma Safe.start (h : s.Safe) (thread : Nat) (params : Value) (cancelled : Bool) :
    (s.step (.start thread params cancelled)).Safe := by
  have hlock : Safe { s with slot := lockGraph params s.slot } := h.lock
  have hsession : (lockGraph params s.slot).session = sessionOf params := lockGraph_session
  unfold step
  dsimp only
  split
  · have hresult := start_result params cancelled s.slot
    generalize Orchestrator.start params cancelled s.slot = started at hresult ⊢
    cases hresult with
    | cancelled => exact h
    | replied reply slot lock hreply =>
      subst lock
      exact hlock
    | wave slot maxParallel lock quiet ready =>
      subst lock
      exact hlock.begin (t := thread) hsession quiet ready maxParallel
  · exact h

/-- Settling a wave leaves nothing running, in a graph of the same shape. -/
lemma settled_graph (h : s.Safe) (hw : s.InProgress t w)
    (hgeneration : w.generation = s.slot.generation)
    (came : String → Option (Except String String × Except String Unit)) :
    let g := (settleAll (report w.ready came)
      (restore w.ready ((report w.ready came).map Outcome.id) s.slot.graph)).propagateSkips
    g.Valid ∧ g.Quiet := by
  have hmarked := h.marked t w hw
  have hgraph := (h.current t w hw hgeneration).2
  rw [settleAll_restore h.valid hmarked.nodup came]
  generalize hsettled : (⟨s.slot.graph.nodes.map fun n =>
    if n.id ∈ w.ready then settled (came n.id) n else n⟩ : Graph) = g
  have hshape : g.shape = s.slot.graph.shape := by
    rw [← hsettled]
    refine Graph.shape_map fun n => ?_
    split
    · exact keepsPlace_settled _ n
    · exact ⟨rfl, rfl⟩
  have hquiet : g.Quiet := by
    intro n hn
    rw [← hsettled] at hn
    obtain ⟨m, hm, rfl⟩ := List.mem_map.mp hn
    split
    · exact status_settled_ne_running _ m
    · rename_i hnot
      intro hrunning
      exact hnot (hmarked.running m (hgraph ▸ hm) hrunning)
  obtain ⟨f, hnodes, hplace, hf⟩ := Graph.skips_propagateSkips g
  constructor
  · refine h.valid.of_shape ?_
    rw [← hshape, ← Graph.shape_map (g := g) hplace, ← hnodes]
  · intro n hn
    rw [hnodes] at hn
    obtain ⟨m, hm, rfl⟩ := List.mem_map.mp hn
    rcases hf m hm with hsame | ⟨-, hskipped, -⟩
    · rw [hsame]
      exact hquiet m hm
    · rw [hskipped]
      simp

lemma Safe.finish (h : s.Safe) (thread : Nat)
    (came : String → Option (Except String String × Except String Unit)) :
    (s.step (.finish thread came)).Safe := by
  unfold step
  dsimp only
  split
  · rename_i w hthread
    have hw : s.InProgress thread w := by rw [InProgress, hthread]; rfl
    unfold Orchestrator.finish
    split
    · rename_i e hstale
      refine h.leave hw ?_
      intro hcurrent
      have hin := lockGraphForWave_eq_ok.mpr ⟨(h.current thread w hw hcurrent).1, hcurrent.symm⟩
      rw [hin] at hstale
      exact absurd hstale (by simp)
    · rename_i hin
      have hcurrent := (lockGraphForWave_eq_ok.mp hin).2.symm
      obtain ⟨hvalid, hquiet⟩ := settled_graph h hw hcurrent came
      -- no other wave is the current one
      have hkept : ∀ t' w', (s.setThread thread .idle).InProgress t' w' →
          s.InProgress t' w' ∧ w'.generation ≠ s.slot.generation := by
        intro t' w' hw'
        by_cases heq : t' = thread
        · simp [InProgress, setThread, heq, Phase.wave] at hw'
        · have hbefore : s.InProgress t' w' := by simpa [InProgress, setThread, heq] using hw'
          exact ⟨hbefore, fun hcurrent' => heq (h.one t' thread w' w hbefore hw hcurrent' hcurrent)⟩
      refine ⟨hvalid, ?_, ?_, ?_, ?_, ?_⟩
      · intro t' w' hw'
        exact h.marked t' w' (hkept t' w' hw').1
      · intro t' w' hw'
        exact h.past t' w' (hkept t' w' hw').1
      · intro t' w' hw' heq
        exact absurd heq (hkept t' w' hw').2
      · intro t₁ t₂ w₁ w₂ hw₁ _ heq
        exact absurd heq (hkept t₁ w₁ hw₁).2
      · intro hrunning
        exact absurd hquiet hrunning
  · exact h

lemma Safe.recheck (h : s.Safe) (thread : Nat) : (s.step (.recheck thread)).Safe := by
  unfold step
  dsimp only
  split
  · rename_i w hthread
    have hw : s.InProgress thread w := by rw [InProgress, hthread]; rfl
    split
    · have hsame : ∀ t' w', (s.setThread thread (.verifying w)).InProgress t' w' ↔
          s.InProgress t' w' := by
        intro t' w'
        by_cases heq : t' = thread
        · simp [InProgress, setThread, heq, hthread, Phase.wave]
        · simp [InProgress, setThread, heq]
      refine ⟨h.valid, ?_, ?_, ?_, ?_, ?_⟩
      · intro t' w' hw'
        exact h.marked t' w' ((hsame t' w').mp hw')
      · intro t' w' hw'
        exact h.past t' w' ((hsame t' w').mp hw')
      · intro t' w' hw'
        exact h.current t' w' ((hsame t' w').mp hw')
      · intro t₁ t₂ w₁ w₂ hw₁ hw₂
        exact h.one t₁ t₂ w₁ w₂ ((hsame t₁ w₁).mp hw₁) ((hsame t₂ w₂).mp hw₂)
      · intro hrunning
        obtain ⟨t', w', hw', hcurrent⟩ := h.owned hrunning
        exact ⟨t', w', (hsame t' w').mpr hw', hcurrent⟩
    · rename_i e hstale
      refine h.leave hw ?_
      intro hcurrent
      have hin := lockGraphForWave_eq_ok.mpr ⟨(h.current thread w hw hcurrent).1, hcurrent.symm⟩
      rw [hin] at hstale
      exact absurd hstale (by simp)
  · exact h

lemma Safe.step (h : s.Safe) (move : Move) : (s.step move).Safe := by
  cases move with
  | plan params cancelled => exact h.plan params cancelled
  | start thread params cancelled => exact h.start thread params cancelled
  | recheck thread => exact h.recheck thread
  | finish thread came => exact h.finish thread came

lemma safe_run (moves : List Move) : (Run.after step initial moves).Safe :=
  Run.invariant (P := Safe) (fun _ move h => h.step move) safe_initial moves

/-! ### Generations -/

lemma generation_le_plan (params : Value) (cancelled : Bool) (slot : GraphState) :
    slot.generation ≤ (Orchestrator.plan params cancelled slot).2.generation := by
  have hlock : slot.generation ≤ (lockGraph params slot).generation := generation_le_lockGraph
  unfold Orchestrator.plan
  split
  · exact Nat.le_refl _
  · dsimp only
    split
    · exact hlock
    · split
      · exact hlock
      · dsimp only
        split
        · exact Nat.le_succ_of_le hlock
        · exact hlock

lemma generation_le_start (params : Value) (cancelled : Bool) (slot : GraphState) :
    slot.generation ≤ (Orchestrator.start params cancelled slot).2.generation := by
  have hlock : slot.generation ≤ (lockGraph params slot).generation := generation_le_lockGraph
  have hresult := start_result params cancelled slot
  generalize Orchestrator.start params cancelled slot = started at hresult ⊢
  cases hresult with
  | cancelled => exact Nat.le_refl _
  | replied reply slot' lock hreply => exact lock ▸ hlock
  | wave slot' maxParallel lock quiet ready => exact lock ▸ hlock

lemma generation_finish (w : Wave) (outcomes : List Outcome) (slot : GraphState) :
    (Orchestrator.finish w outcomes slot).2.generation = slot.generation := by
  unfold Orchestrator.finish
  split <;> rfl

lemma generation_le_step (s : System) (move : Move) :
    s.slot.generation ≤ (s.step move).slot.generation := by
  cases move with
  | plan params cancelled => exact generation_le_plan params cancelled s.slot
  | start thread params cancelled =>
    have hle := generation_le_start params cancelled s.slot
    unfold step
    dsimp only
    split
    · split <;> rename_i hstart <;> rw [hstart] at hle <;> exact hle
    · exact Nat.le_refl _
  | recheck thread =>
    unfold step
    dsimp only
    split
    · split <;> exact Nat.le_refl _
    · exact Nat.le_refl _
  | finish thread came =>
    unfold step
    dsimp only
    split
    · exact (generation_finish _ _ _).ge
    · exact Nat.le_refl _

lemma generation_le_run (s : System) (moves : List Move) :
    s.slot.generation ≤ (Run.after step s moves).slot.generation :=
  Run.invariant (P := fun s' => s.slot.generation ≤ s'.slot.generation)
    (fun s' move h => Nat.le_trans h (generation_le_step s' move)) (Nat.le_refl _) moves

/-- What a wave can write, it writes to the slot only when it is let in. -/
lemma slot_finish_eq_of_stale (hw : s.InProgress t w)
    (hstale : lockGraphForWave w.params w.generation s.slot ≠ .ok ())
    (came : String → Option (Except String String × Except String Unit)) :
    (s.step (.finish t came)).slot = s.slot := by
  unfold step
  dsimp only
  split
  · rename_i w' hthread
    obtain rfl : w' = w := by
      rw [InProgress, hthread] at hw
      exact Option.some.inj hw
    unfold Orchestrator.finish
    split
    · rfl
    · rename_i hin
      exact absurd hin hstale
  · rfl

/-- A wave that is let in finds its own graph, and would have found it at any time before. -/
lemma Safe.found (h : s.Safe) {between : List Move}
    (hkept : ∀ p, p <+: between → (Run.after System.step s p).InProgress t w)
    (hstart : w.generation = s.slot.generation)
    (hin : lockGraphForWave w.params w.generation (Run.after System.step s between).slot = .ok ())
    {p : List Move} (hp : p <+: between) :
    (Run.after System.step s p).slot.session = sessionOf w.params ∧
      (Run.after System.step s p).slot.graph = w.snapshot := by
  obtain ⟨rest, rfl⟩ := hp
  have hend := (lockGraphForWave_eq_ok.mp hin).2
  rw [Run.after_append] at hend
  have hlow := generation_le_run s p
  have hhigh := generation_le_run (Run.after System.step s p) rest
  have hsafe : (Run.after System.step s p).Safe :=
    Run.invariant (P := Safe) (fun _ move h => h.step move) h p
  refine hsafe.current t w (hkept p (List.prefix_append p rest)) ?_
  omega

lemma inProgress_start {cancelled : Bool} (hidle : s.threads t = .idle)
    (hw : (s.step (.start t params cancelled)).InProgress t w) :
    w.params = params ∧ w.generation = (s.step (.start t params cancelled)).slot.generation := by
  unfold step at hw ⊢
  simp only [hidle] at hw ⊢
  have hresult := start_result params cancelled s.slot
  generalize Orchestrator.start params cancelled s.slot = started at hresult hw ⊢
  cases hresult with
  | cancelled => simp [InProgress, hidle, Phase.wave] at hw
  | replied reply slot lock hreply => simp [InProgress, hidle, Phase.wave] at hw
  | wave slot maxParallel lock quiet ready =>
    simp only [InProgress, setThread, if_true, Phase.wave] at hw
    obtain rfl := Option.some.inj hw
    exact ⟨rfl, rfl⟩

/-- Whatever plans and dispatches interleave, the graph stays valid, only nodes whose dependencies
are done are running, they are those of one wave, and a wave writes only to the graph that it has
marked, without anything having come in between. -/
theorem run_orchestrates (moves : List Move) :
    let s := Run.after step initial moves
    s.slot.graph.ids.Nodup ∧
    (∀ n ∈ s.slot.graph.nodes, ∀ dep ∈ n.deps, dep ∈ s.slot.graph.ids) ∧
    (∀ id, ¬Relation.TransGen s.slot.graph.DependsOn id id) ∧
    (∀ n ∈ s.slot.graph.nodes, n.status = .running →
      ∀ dep ∈ n.deps, s.slot.graph.HasStatus dep .done) ∧
    (∀ t t' w w', s.InProgress t w → s.InProgress t' w' →
      lockGraphForWave w.params w.generation s.slot = .ok () →
      lockGraphForWave w'.params w'.generation s.slot = .ok () → t = t') ∧
    (∀ id, s.slot.graph.HasStatus id .running → ∃ t w, s.InProgress t w ∧
      lockGraphForWave w.params w.generation s.slot = .ok () ∧ id ∈ w.ready) ∧
    (∀ before t params cancelled between w came,
      moves = before ++ .start t params cancelled :: between →
      (Run.after step initial before).threads t = .idle →
      (∀ p, p <+: between →
        (Run.after step initial (before ++ .start t params cancelled :: p)).InProgress t w) →
      (s.step (.finish t came)).slot ≠ s.slot →
      ∀ p, p <+: between →
        let s' := Run.after step initial (before ++ .start t params cancelled :: p)
        s'.slot.session = sessionOf params ∧ s'.slot.graph = w.snapshot) ∧
    (∀ t, s.threads t = .idle → ¬s.slot.graph.Quiet → ∃ t' w, t' ≠ t ∧ s.InProgress t' w) := by
  intro s
  have hsafe : s.Safe := safe_run moves
  have howner : ¬s.slot.graph.Quiet → ∃ t w, s.InProgress t w ∧
      lockGraphForWave w.params w.generation s.slot = .ok () ∧ s.slot.graph = w.snapshot := by
    intro hrunning
    obtain ⟨t, w, hw, hcurrent⟩ := hsafe.owned hrunning
    obtain ⟨hsession, hgraph⟩ := hsafe.current t w hw hcurrent
    exact ⟨t, w, hw, lockGraphForWave_eq_ok.mpr ⟨hsession, hcurrent.symm⟩, hgraph⟩
  have hnot : ∀ n ∈ s.slot.graph.nodes, n.status = .running → ¬s.slot.graph.Quiet :=
    fun n hn hrunning hquiet => hquiet n hn hrunning
  refine ⟨hsafe.valid.nodup, hsafe.valid.known, hsafe.valid.acyclic, ?_, ?_, ?_, ?_, ?_⟩
  · intro n hn hrunning dep hdep
    obtain ⟨t, w, hw, -, hgraph⟩ := howner (hnot n hn hrunning)
    rw [hgraph] at hn ⊢
    exact (hsafe.marked t w hw).deps_done n hn hrunning dep hdep
  · intro t t' w w' hw hw' hin hin'
    exact hsafe.one t t' w w' hw hw' (lockGraphForWave_eq_ok.mp hin).2.symm
      (lockGraphForWave_eq_ok.mp hin').2.symm
  · rintro id ⟨n, hn, rfl, hrunning⟩
    obtain ⟨t, w, hw, hin, hgraph⟩ := howner (hnot n hn hrunning)
    rw [hgraph] at hn
    exact ⟨t, w, hw, hin, (hsafe.marked t w hw).running n hn hrunning⟩
  · rintro before t params cancelled between w came rfl hidle hkept hwrites p hp
    have hstarted : ∀ q, Run.after step initial (before ++ .start t params cancelled :: q) =
        Run.after step ((Run.after step initial before).step (.start t params cancelled)) q := by
      intro q
      rw [Run.after_append, Run.after_cons]
    have hfirst := hkept [] List.nil_prefix
    rw [hstarted, Run.after_nil] at hfirst
    obtain ⟨rfl, hgeneration⟩ := inProgress_start hidle hfirst
    have hin : lockGraphForWave w.params w.generation s.slot = .ok () := by
      by_contra hstale
      exact hwrites (slot_finish_eq_of_stale (hkept between List.prefix_rfl) hstale came)
    intro s'
    show (Run.after step initial _).slot.session = _ ∧ (Run.after step initial _).slot.graph = _
    rw [hstarted]
    refine ((safe_run before).step _).found (t := t) ?_ hgeneration ?_ hp
    · intro q hq
      rw [← hstarted]
      exact hkept q hq
    · rw [← hstarted]
      exact hin
  · intro t hidle hrunning
    obtain ⟨t', w, hw, -, -⟩ := howner hrunning
    refine ⟨t', w, ?_, hw⟩
    rintro rfl
    rw [InProgress, hidle] at hw
    exact absurd hw (by simp [Phase.wave])

end System

end Orchestrator
