import RpiPackage.Orchestrator.Graph

/-!
# Plans and waves

The one graph that the process keeps, with the session it belongs to. A plan replaces it. A
dispatch marks the ready nodes under the lock, lets them run outside of it, and comes back twice:
to see whether its results are still wanted, and to write them.
-/

namespace Orchestrator

open Json Json.Value Result

structure GraphState where
  session : Option String
  graph : Graph
  -- a `u64` whose end is a panic, out of reach of any number of calls
  generation : Nat
  deriving DecidableEq, Repr

def GraphState.default : GraphState := ⟨none, .default, 0⟩

def GraphState.isRunning (s : GraphState) : Bool := s.graph.nodes.any fun n => n.status == .running

/-- The session that the host attached to a call. -/
def sessionOf (params : Value) : Option String :=
  nonEmpty ((params.get "__rpi").bind fun ctx => ctx.get "sessionId")

/-- Another session starts from an empty graph. -/
def lockGraph (params : Value) (s : GraphState) : GraphState :=
  if s.session = sessionOf params then s
  else ⟨sessionOf params, .default, s.generation + 1⟩

def lockGraphForWave (params : Value) (generation : Nat) (s : GraphState) : Except String Unit :=
  failIf (s.session ≠ sessionOf params ∨ s.generation ≠ generation)
    "plan or session changed while dispatch was running; stale results discarded"

def resultWithDetails (text : String) (details : Value) : Value :=
  .object [("content", .array [.object [("type", .string "text"), ("text", .string text)]]),
    ("details", details)]

/-! ### Plans -/

/-- What each element of a list of an update does to a graph. -/
def forEach (params : Value) (key : String) (f : Graph → Value → Except String Graph) (g : Graph) :
    Except String Graph :=
  match params.get key with
  | none => .ok g
  | some value => do
    let items ← okOr value.asArray s!"`{key}` must be an array"
    items.foldlM f g

def addNode (g : Graph) (item : Value) : Except String Graph := do
  let node ← Node.fromValue item
  failIf ((g.get node.id).isSome = true) s!"node `{node.id}` already exists"
  return ⟨g.nodes ++ [node]⟩

def removeId (g : Graph) (item : Value) : Except String Graph := do
  let id ← okOr (nonEmpty (some item)) "`removeIds` must contain non-empty strings"
  return ⟨g.nodes.filter fun n => n.id != id⟩

def changeNode (g : Graph) (id : String) (f : Node → Node) : Except String Graph := do
  failIf (g.get id = none) s!"node `{id}` not found"
  return g.update id f

/-- The id is looked up as it is, the dependencies without the blanks around them. -/
def setDeps (g : Graph) (item : Value) : Except String Graph := do
  let id ← okOr ((item.get "id").bind asStr) "each `setDeps` entry needs an `id`"
  let deps ← okOr ((item.get "deps").bind asArray) "each `setDeps` entry needs a `deps` array"
  let parsed ← deps.mapM fun dep =>
    okOr (nonEmpty (some dep)) "`deps` must contain non-empty strings"
  changeNode g id fun n => { n with deps := dedup parsed }

def reset (g : Graph) (item : Value) : Except String Graph := do
  let id ← okOr (nonEmpty (some item)) "`reset` must contain non-empty strings"
  changeNode g id fun n => { n with status := .pending, result := none }

def applyUpdate (g : Graph) (params : Value) : Except String Graph := do
  let g ← forEach params "addNodes" addNode g
  let g ← forEach params "removeIds" removeId g
  let g ← forEach params "setDeps" setDeps g
  forEach params "reset" reset g

def edits (action : String) : Bool := action == "set" || action == "update"

/-- The graph that an action leaves. -/
def planned (action : String) (params : Value) (g : Graph) : Except String Graph :=
  match action with
  | "set" => do
    let nodes ← okOr (params.get "nodes") "`nodes` is required for action=set"
    Graph.fromNodesValue nodes
  | "update" => do
    let next ← applyUpdate g params
    next.validate
    return next
  | "show" => .ok g
  | other => .error s!"unknown plan action `{other}` (expected set, update, show)"

def plan (params : Value) (cancelled : Bool) (s : GraphState) :
    Except String Value × GraphState :=
  if cancelled then (.error "cancelled", s)
  else
    let action := ((params.get "action").bind asStr).getD "show"
    let s := lockGraph params s
    if edits action && s.isRunning then
      (.error "dispatch is running: wait for the wave to finish before editing the plan", s)
    else
      match planned action params s.graph with
      | .error e => (.error e, s)
      | .ok graph =>
        (.ok (resultWithDetails graph.render graph.toDetails),
          ⟨s.session, graph, if edits action then s.generation + 1 else s.generation⟩)

/-! ### Waves -/

def defaultMaxParallel : UInt64 := 4
def maxParallelCap : UInt64 := 16
def resultSummaryBytes : Nat := 2000

/-- What a dispatch takes along when it leaves the lock. -/
structure Wave where
  params : Value
  generation : Nat
  snapshot : Graph
  ready : List String
  maxParallel : UInt64

/-- What a dispatch has when it leaves the lock for the first time. -/
inductive Started where
  | replied (reply : Except String Value)
  | wave (w : Wave)

def setStatus (status : Status) (n : Node) : Node := { n with status }

def markRunning (ready : List String) (g : Graph) : Graph :=
  ready.foldl (fun g id => g.update id (setStatus .running)) g

def noProgress (g : Graph) : String :=
  "no progress: no pending node is ready (blocked by unmet dependencies): " ++
    String.intercalate ", " g.pendingIds

def nothingLeft (g : Graph) : Value :=
  resultWithDetails s!"nothing left to dispatch\n\n{g.render}" g.toDetails

def start (params : Value) (cancelled : Bool) (s : GraphState) : Started × GraphState :=
  if cancelled then (.replied (.error "cancelled"), s)
  else
    let maxParallel := clamp ((params.get "maxParallel").bind asU64) defaultMaxParallel 1
      maxParallelCap
    let s := lockGraph params s
    if s.isRunning then
      (.replied (.error "dispatch is already running: wait for the current wave to finish"), s)
    else if s.graph.nodes = [] then
      (.replied (.error "no plan yet: call plan(action=set, nodes=[...]) first"), s)
    else
      let ready := s.graph.ready
      if ready = [] then
        if s.graph.hasPending then (.replied (.error (noProgress s.graph)), s)
        else (.replied (.ok (nothingLeft s.graph)), s)
      else
        let graph := markRunning ready s.graph
        (.wave ⟨params, s.generation, graph, ready, maxParallel⟩, { s with graph })

/-- What came of a node that was run: what its child said, and whether its acceptance holds. -/
structure Outcome where
  id : String
  outcome : Except String String
  verified : Except String Unit

/-- The wave runs chunk by chunk, and a cancelled one starts only some of the chunks. -/
def runWave (w : Wave) (chunks : Nat) (child : String → Except String String) :
    List (String × Except String String) :=
  (w.ready.take (chunks * w.maxParallel.toNat)).map fun id => (id, child id)

/-- Only a node whose child succeeded is verified. -/
def verifyNode (verify : Option Node → Except String Unit) (w : Wave)
    (outcome : String × Except String String) : Outcome :=
  ⟨outcome.1, outcome.2,
    match outcome.2 with
    | .ok _ => verify (w.snapshot.get outcome.1)
    | .error _ => .ok ()⟩

def summarize (text : String) : String :=
  if text.utf8ByteSize ≤ resultSummaryBytes then text
  else String.ofList (Rust.takeBytes resultSummaryBytes text.toList) ++ "…"

def settle (o : Outcome) (n : Node) : Node :=
  match o.outcome, o.verified with
  | .ok text, .ok () => { n with status := .done, result := some (summarize text) }
  | .ok text, .error reason =>
    { n with status := .failed, result := some (summarize s!"{reason}\n---\n{text}") }
  | .error error, _ => { n with status := .failed, result := some (summarize error) }

/-- Nodes that were never started wait again. -/
def restore (ready started : List String) (g : Graph) : Graph :=
  ready.foldl (fun g id => if id ∈ started then g else g.update id (setStatus .pending)) g

def settleAll (outcomes : List Outcome) (g : Graph) : Graph :=
  outcomes.foldl (fun g o => g.update o.id (settle o)) g

def finish (w : Wave) (outcomes : List Outcome) (s : GraphState) :
    Except String Value × GraphState :=
  match lockGraphForWave w.params w.generation s with
  | .error e => (.error e, s)
  | .ok () =>
    let started := outcomes.map Outcome.id
    let graph := (settleAll outcomes (restore w.ready started s.graph)).propagateSkips
    (.ok (resultWithDetails s!"dispatched {(dedup started).length} node(s)\n\n{graph.render}"
      graph.toDetails), { s with graph })

/-- A wave reports what came of some of its nodes, in their order. -/
def report (ready : List String)
    (came : String → Option (Except String String × Except String Unit)) : List Outcome :=
  ready.filterMap fun id => (came id).map fun c => ⟨id, c.1, c.2⟩

/-- What becomes of a node that a wave has marked. -/
def settled (came : Option (Except String String × Except String Unit)) (n : Node) : Node :=
  match came with
  | none => setStatus .pending n
  | some c => settle ⟨n.id, c.1, c.2⟩ n

/-! ### Sections -/

variable {g g' : Graph} {s : GraphState} {params : Value}

/-- No node of a graph is running. -/
def Graph.Quiet (g : Graph) : Prop := ∀ n ∈ g.nodes, n.status ≠ .running

lemma isRunning_eq_false : s.isRunning = false ↔ s.graph.Quiet := by
  simp [GraphState.isRunning, Graph.Quiet]

lemma lockGraph_session : (lockGraph params s).session = sessionOf params := by
  by_cases h : s.session = sessionOf params
  · rw [lockGraph, if_pos h, h]
  · rw [lockGraph, if_neg h]

lemma generation_le_lockGraph : s.generation ≤ (lockGraph params s).generation := by
  by_cases h : s.session = sessionOf params
  · rw [lockGraph, if_pos h]
  · rw [lockGraph, if_neg h]
    exact Nat.le_succ _

/-- A wave is let in while the session and the generation are its own. -/
lemma lockGraphForWave_eq_ok {generation : Nat} :
    lockGraphForWave params generation s = .ok () ↔
      s.session = sessionOf params ∧ s.generation = generation := by
  simp [lockGraphForWave, not_or]

lemma Graph.Quiet.update (h : g.Quiet) {id : String} {f : Node → Node}
    (hf : ∀ n, n.status ≠ .running → (f n).status ≠ .running) : (g.update id f).Quiet := by
  have hnodes : ∀ nodes : List Node, (∀ n ∈ nodes, n.status ≠ .running) →
      ∀ n ∈ Graph.updateNode id f nodes, n.status ≠ .running := by
    intro nodes
    induction nodes with
    | nil => exact fun _ n hn => absurd hn List.not_mem_nil
    | cons n ns ih =>
      intro hquiet m hm
      have htail : ∀ n ∈ ns, n.status ≠ .running := fun n hn => hquiet n (List.mem_cons_of_mem _ hn)
      rw [Graph.updateNode] at hm
      split at hm <;> rcases List.mem_cons.mp hm with rfl | hm
      · exact hf n (hquiet n List.mem_cons_self)
      · exact htail m hm
      · exact hquiet m List.mem_cons_self
      · exact ih htail m hm
  exact hnodes g.nodes h

lemma Graph.Quiet.forEach {key : String} {f : Graph → Value → Except String Graph}
    (hf : ∀ item g g', g.Quiet → f g item = .ok g' → g'.Quiet) (h : g.Quiet)
    (heach : forEach params key f g = .ok g') : g'.Quiet := by
  unfold Orchestrator.forEach at heach
  split at heach
  · obtain rfl := Except.ok.inj heach
    exact h
  · obtain ⟨items, -, hfold⟩ := bind_eq_ok.mp heach
    exact foldlM_keeps (fun item _ g g' => hf item g g') h hfold

lemma Graph.Quiet.changeNode {id : String} {f : Node → Node}
    (hf : ∀ n, n.status ≠ .running → (f n).status ≠ .running) (h : g.Quiet)
    (hchange : changeNode g id f = .ok g') : g'.Quiet := by
  obtain ⟨-, hchange⟩ := check_bind_eq_ok.mp hchange
  obtain rfl := Except.ok.inj hchange
  exact h.update hf

/-- An update starts nothing. -/
lemma Graph.Quiet.applyUpdate (h : g.Quiet) (hupdate : applyUpdate g params = .ok g') :
    g'.Quiet := by
  obtain ⟨g₁, hadd, hupdate⟩ := bind_eq_ok.mp hupdate
  obtain ⟨g₂, hremove, hupdate⟩ := bind_eq_ok.mp hupdate
  obtain ⟨g₃, hdeps, hreset⟩ := bind_eq_ok.mp hupdate
  have hadded : g₁.Quiet := by
    refine h.forEach ?_ hadd
    intro item g g' hquiet hitem n hn
    obtain ⟨node, hnode, hitem⟩ := bind_eq_ok.mp hitem
    obtain ⟨-, hitem⟩ := check_bind_eq_ok.mp hitem
    obtain rfl := Except.ok.inj hitem
    rcases List.mem_append.mp hn with hn | hn
    · exact hquiet n hn
    · rw [List.mem_singleton.mp hn, Node.status_fromValue hnode]
      simp
  have hremoved : g₂.Quiet := by
    refine hadded.forEach ?_ hremove
    intro item g g' hquiet hitem n hn
    obtain ⟨id, -, hitem⟩ := bind_eq_ok.mp hitem
    obtain rfl := Except.ok.inj hitem
    exact hquiet n (List.mem_filter.mp hn).1
  have hset : g₃.Quiet := by
    refine hremoved.forEach ?_ hdeps
    intro item g g' hquiet hitem
    obtain ⟨id, -, hitem⟩ := bind_eq_ok.mp hitem
    obtain ⟨deps, -, hitem⟩ := bind_eq_ok.mp hitem
    obtain ⟨parsed, -, hitem⟩ := bind_eq_ok.mp hitem
    refine hquiet.changeNode ?_ hitem
    exact fun _ hn => hn
  refine hset.forEach ?_ hreset
  intro item g g' hquiet hitem
  obtain ⟨id, -, hitem⟩ := bind_eq_ok.mp hitem
  refine hquiet.changeNode ?_ hitem
  intro _ _
  simp

/-- What an action leaves is valid again, and starts nothing. -/
lemma planned_eq_ok {action : String} (h : planned action params g = .ok g')
    (hquiet : edits action = true → g.Quiet) :
    (edits action = false ∧ g' = g) ∨ (edits action = true ∧ g'.Valid ∧ g'.Quiet) := by
  unfold planned at h
  split at h
  · obtain ⟨nodes, -, h⟩ := bind_eq_ok.mp h
    obtain ⟨hvalid', -, hpending⟩ := Graph.fromNodesValue_eq_ok h
    refine .inr ⟨rfl, hvalid', ?_⟩
    intro n hn
    simp [hpending n hn]
  · obtain ⟨next, hnext, h⟩ := bind_eq_ok.mp h
    obtain ⟨hcheck, h⟩ := check_bind_eq_ok.mp h
    obtain rfl := Except.ok.inj h
    exact .inr ⟨rfl, Graph.valid_of_validate hcheck, (hquiet rfl).applyUpdate hnext⟩
  · obtain rfl := Except.ok.inj h
    exact .inl ⟨rfl, rfl⟩
  · exact absurd h (by simp)

/-- A dispatch that finds something to run marks it; otherwise only the lock was taken. -/
inductive StartResult (params : Value) (s : GraphState) : Started × GraphState → Prop
  | cancelled : StartResult params s (.replied (.error "cancelled"), s)
  | replied (reply : Except String Value) (slot : GraphState) (lock : slot = lockGraph params s)
    (hreply : slot.isRunning = true ∨ slot.graph.nodes = [] ∨ slot.graph.ready = []) :
    StartResult params s (.replied reply, slot)
  | wave (slot : GraphState) (maxParallel : UInt64) (lock : slot = lockGraph params s)
    (quiet : slot.graph.Quiet) (ready : slot.graph.ready ≠ []) :
    StartResult params s
      (.wave ⟨params, slot.generation, markRunning slot.graph.ready slot.graph, slot.graph.ready,
        maxParallel⟩, { slot with graph := markRunning slot.graph.ready slot.graph })

lemma start_result (params : Value) (cancelled : Bool) (s : GraphState) :
    StartResult params s (start params cancelled s) := by
  unfold start
  split
  · exact .cancelled
  · dsimp only
    generalize hlock : lockGraph params s = slot
    split
    · rename_i hrunning
      exact .replied _ slot hlock.symm (.inl hrunning)
    · rename_i hfree
      split
      · rename_i hempty
        exact .replied _ slot hlock.symm (.inr (.inl hempty))
      · split
        · rename_i hready
          split <;> exact .replied _ slot hlock.symm (.inr (.inr hready))
        · rename_i hready
          exact .wave slot _ hlock.symm (isRunning_eq_false.mp (Bool.eq_false_iff.mpr hfree)) hready

/-! ### Marking and settling -/

lemma keepsPlace_setStatus (status : Status) : Graph.KeepsPlace (setStatus status) :=
  fun _ => ⟨rfl, rfl⟩

lemma keepsPlace_settle (o : Outcome) : Graph.KeepsPlace (settle o) := by
  intro n
  unfold settle
  split <;> exact ⟨rfl, rfl⟩

lemma keepsPlace_settled (came : Option (Except String String × Except String Unit)) :
    Graph.KeepsPlace (settled came) := by
  intro n
  cases came with
  | none => exact keepsPlace_setStatus .pending n
  | some c => exact keepsPlace_settle _ n

lemma status_settled_ne_running (came : Option (Except String String × Except String Unit))
    (n : Node) : (settled came n).status ≠ .running := by
  cases came with
  | none => simp [settled, setStatus]
  | some c =>
    simp only [settled, settle]
    split <;> simp

lemma markRunning_eq (h : g.Valid) {ready : List String} (hready : ready.Nodup) :
    markRunning ready g =
      ⟨g.nodes.map fun n => if n.id ∈ ready then setStatus .running n else n⟩ :=
  Graph.foldl_update (fun _ => keepsPlace_setStatus .running) hready h.nodup

lemma Graph.update_self (g : Graph) (id : String) : g.update id (fun n => n) = g := by
  have hnodes : ∀ nodes : List Node, Graph.updateNode id (fun n => n) nodes = nodes := by
    intro nodes
    induction nodes with
    | nil => rfl
    | cons n ns ih =>
      rw [Graph.updateNode, ih]
      split <;> rfl
  exact congrArg Graph.mk (hnodes g.nodes)

lemma mem_report_ids {ready : List String}
    {came : String → Option (Except String String × Except String Unit)} {id : String} :
    id ∈ (report ready came).map Outcome.id ↔ id ∈ ready ∧ (came id).isSome = true := by
  simp only [report, List.mem_map, List.mem_filterMap, Option.map_eq_some_iff]
  constructor
  · rintro ⟨-, ⟨id', hmem, c, hcame, rfl⟩, rfl⟩
    exact ⟨hmem, by simp [hcame]⟩
  · rintro ⟨hmem, hsome⟩
    obtain ⟨c, hcame⟩ := Option.isSome_iff_exists.mp hsome
    exact ⟨_, ⟨id, hmem, c, hcame, rfl⟩, rfl⟩

/-- What a wave writes: each node it has marked is settled, and no other node is touched. -/
lemma settleAll_restore (h : g.Valid) {ready : List String} (hready : ready.Nodup)
    (came : String → Option (Except String String × Except String Unit)) :
    settleAll (report ready came) (restore ready ((report ready came).map Outcome.id) g) =
      ⟨g.nodes.map fun n => if n.id ∈ ready then settled (came n.id) n else n⟩ := by
  have hrestore : restore ready ((report ready came).map Outcome.id) g =
      ⟨g.nodes.map fun n => if n.id ∈ ready then
        (if (came n.id).isSome = true then n else setStatus .pending n) else n⟩ := by
    have hfold : restore ready ((report ready came).map Outcome.id) g =
        ready.foldl (fun g id => g.update id fun n =>
          if (came id).isSome = true then n else setStatus .pending n) g := by
      refine List.foldl_ext _ _ g ?_
      intro g id hid
      by_cases hcame : (came id).isSome = true
      · rw [if_pos (mem_report_ids.mpr ⟨hid, hcame⟩)]
        simp only [hcame, if_true]
        exact (g.update_self id).symm
      · rw [if_neg fun hmem => hcame (mem_report_ids.mp hmem).2]
        simp [hcame]
    rw [hfold]
    refine Graph.foldl_update (f := fun id n =>
      if (came id).isSome = true then n else setStatus .pending n) ?_ hready h.nodup
    intro id n
    dsimp only
    split
    · exact ⟨rfl, rfl⟩
    · exact keepsPlace_setStatus .pending n
  have hsettle : ∀ g : Graph, settleAll (report ready came) g =
      ready.foldl (fun g id => g.update id fun n =>
        match came id with
        | none => n
        | some c => settle ⟨id, c.1, c.2⟩ n) g := by
    intro g
    rw [settleAll, report, List.foldl_filterMap]
    refine List.foldl_ext _ _ g ?_
    intro g id _
    cases came id with
    | none => exact (g.update_self id).symm
    | some c => rfl
  rw [hsettle, hrestore, Graph.foldl_update (f := fun id n =>
    match came id with
    | none => n
    | some c => settle ⟨id, c.1, c.2⟩ n) ?_ hready ?_]
  · dsimp only
    rw [List.map_map]
    refine congrArg Graph.mk (List.map_congr_left fun n _ => ?_)
    rw [Function.comp_apply]
    by_cases hmem : n.id ∈ ready
    · cases hcame : came n.id with
      | none => simp [hmem, hcame, setStatus, settled]
      | some c => simp [hmem, hcame, settled]
    · simp [hmem]
  · intro id n
    dsimp only
    split
    · exact ⟨rfl, rfl⟩
    · exact keepsPlace_settle _ n
  · rw [Graph.ids_eq_shape, Graph.shape_map ?_, ← Graph.ids_eq_shape]
    · exact h.nodup
    · intro n
      dsimp only
      split
      · split
        · exact ⟨rfl, rfl⟩
        · exact keepsPlace_setStatus .pending n
      · exact ⟨rfl, rfl⟩

/-- A real wave reports the nodes of the chunks it has started. -/
lemma report_runWave (w : Wave) (hready : w.ready.Nodup) (chunks : Nat)
    (child : String → Except String String) (verify : Option Node → Except String Unit) :
    ∃ came, (runWave w chunks child).map (verifyNode verify w) = report w.ready came := by
  generalize hstarted : w.ready.take (chunks * w.maxParallel.toNat) = started
  have hsplit : w.ready = started ++ w.ready.drop (chunks * w.maxParallel.toNat) := by
    rw [← hstarted, List.take_append_drop]
  generalize w.ready.drop (chunks * w.maxParallel.toNat) = rest at hsplit
  have hrest : ∀ id ∈ rest, id ∉ started := by
    intro id hrest hin
    rw [hsplit, List.nodup_append] at hready
    exact hready.2.2 id hin id hrest rfl
  let result : String → Outcome := fun id => verifyNode verify w (id, child id)
  refine ⟨fun id => if id ∈ started then some ((result id).outcome, (result id).verified) else none,
    ?_⟩
  have hnone : rest.filterMap (fun id => (if id ∈ started then
      some ((result id).outcome, (result id).verified) else none).map
        fun c => (⟨id, c.1, c.2⟩ : Outcome)) = [] := by
    refine List.filterMap_eq_nil_iff.mpr fun id hid => ?_
    rw [if_neg (hrest id hid), Option.map_none]
  rw [runWave, hstarted, List.map_map, report, hsplit, List.filterMap_append, hnone,
    List.append_nil, ← List.filterMap_eq_map]
  refine List.filterMap_congr fun id hid => ?_
  rw [if_pos hid]
  rfl

end Orchestrator
