import RpiPackage.Lib.Json
import RpiPackage.Lib.Result
import RpiPackage.Lib.Rust
import RpiPackage.Lib.Toposort

/-!
# The orchestration graph

The nodes of a plan, their dependencies and their statuses, with the rules that decide what runs
next: which nodes are ready, which can never become ready, and which graphs are accepted at all.
-/

namespace Orchestrator

open Json Json.Value Result

def defaultMaxTurns : UInt64 := 8
def maxMaxTurns : UInt64 := 32
def defaultTimeoutSecs : UInt64 := 300
def minTimeoutSecs : UInt64 := 10
def maxTimeoutSecs : UInt64 := 1800
def maxTaskBytes : Nat := 20000

inductive Status where
  | pending
  | running
  | done
  | failed
  | skipped
  deriving DecidableEq, Repr

def Status.asStr : Status → String
  | .pending => "pending"
  | .running => "running"
  | .done => "done"
  | .failed => "failed"
  | .skipped => "skipped"

structure Node where
  id : String
  task : String
  deps : List String
  role : Option String
  provider : Option String
  model : Option String
  expectFile : Option String
  verify : Option String
  maxTurns : UInt64
  timeoutSecs : UInt64
  status : Status
  result : Option String
  deriving DecidableEq, Repr

/-! ### Reading nodes -/

def clamp (value : Option UInt64) (default min max : UInt64) : UInt64 :=
  if value.getD default < min then min
  else if max < value.getD default then max
  else value.getD default

/-- A text that is not blank, without the blanks around it. -/
def nonEmpty (value : Option Value) : Option String :=
  ((value.bind asStr).map Rust.trim).filter fun text => text != ""

def stringField (value : Value) (key : String) : Option String := nonEmpty (value.get key)

def parseStringList (value : Option Value) (what : String) : Except String (List String) :=
  match value with
  | none => .ok []
  | some value => do
    let items ← okOr value.asArray s!"{what} must be an array of strings"
    items.mapM fun item => okOr (nonEmpty (some item)) s!"{what} must contain non-empty strings"

/-- The texts in order, each once. -/
def dedup (texts : List String) : List String :=
  texts.foldl (fun seen text => if text ∈ seen then seen else seen ++ [text]) []

def Node.fromValue (value : Value) : Except String Node := do
  let id ← okOr (nonEmpty (value.get "id")) "every node needs a non-empty `id`"
  let task ← okOr (nonEmpty (value.get "task")) s!"node `{id}` needs a non-empty `task`"
  failIf (maxTaskBytes < task.utf8ByteSize) s!"node `{id}` task exceeds {maxTaskBytes} bytes"
  let deps ← parseStringList (value.get "deps") s!"node `{id}` deps"
  return {
    id, task
    -- a dependency named twice would never leave its node without one
    deps := dedup deps
    role := stringField value "role"
    provider := stringField value "provider"
    model := stringField value "model"
    expectFile := stringField value "expectFile"
    verify := stringField value "verify"
    maxTurns := clamp ((value.get "maxTurns").bind asU64) defaultMaxTurns 1 maxMaxTurns
    timeoutSecs := clamp ((value.get "timeoutSeconds").bind asU64) defaultTimeoutSecs minTimeoutSecs
      maxTimeoutSecs
    status := .pending
    result := none }

lemma Node.status_fromValue {value : Value} {n : Node} (h : Node.fromValue value = .ok n) :
    n.status = .pending := by
  unfold Node.fromValue at h
  obtain ⟨id, -, h⟩ := bind_eq_ok.mp h
  obtain ⟨task, -, h⟩ := bind_eq_ok.mp h
  obtain ⟨-, h⟩ := check_bind_eq_ok.mp h
  obtain ⟨deps, -, h⟩ := bind_eq_ok.mp h
  obtain rfl := Except.ok.inj h
  rfl

def optional (text : Option String) : Value := text.elim .null .string

def Node.toValue (n : Node) : Value :=
  .object [("id", .string n.id), ("task", .string n.task), ("deps", .array (n.deps.map .string)),
    ("role", optional n.role), ("provider", optional n.provider), ("model", optional n.model),
    ("expectFile", optional n.expectFile), ("verify", optional n.verify),
    ("maxTurns", .number (.posInt n.maxTurns)), ("timeoutSeconds", .number (.posInt n.timeoutSecs)),
    ("status", .string n.status.asStr), ("result", optional n.result)]

def Node.isDone (n : Node) : Bool := n.status == .done

/-- A node that nothing can follow any more. -/
def Node.isDead (n : Node) : Bool := n.status == .failed || n.status == .skipped

/-! ### Graphs -/

structure Graph where
  nodes : List Node
  deriving DecidableEq, Repr

namespace Graph

def default : Graph := ⟨[]⟩

def ids (g : Graph) : List String := g.nodes.map Node.id

def toDetails (g : Graph) : Value := .object [("nodes", .array (g.nodes.map Node.toValue))]

def get (g : Graph) (id : String) : Option Node := g.nodes.find? fun n => n.id == id

def updateNode (id : String) (f : Node → Node) : List Node → List Node
  | [] => []
  | n :: ns => if n.id == id then f n :: ns else n :: updateNode id f ns

/-- What is done with the node that `get_mut` finds, if there is one. -/
def update (g : Graph) (id : String) (f : Node → Node) : Graph := ⟨updateNode id f g.nodes⟩

def hasPending (g : Graph) : Bool := g.nodes.any fun n => n.status == .pending

def isReady (g : Graph) (n : Node) : Bool :=
  n.status == .pending && n.deps.all fun dep => ((g.get dep).map Node.isDone).getD false

/-- The pending nodes whose dependencies are all done. -/
def ready (g : Graph) : List String := (g.nodes.filter g.isReady).map Node.id

def pendingIds (g : Graph) : List String :=
  (g.nodes.filter fun n => n.status == .pending).map Node.id

/-! ### Dead branches -/

def dead (g : Graph) : List String := (g.nodes.filter Node.isDead).map Node.id

def isBlocked (g : Graph) (n : Node) : Bool :=
  n.status == .pending && n.deps.any fun dep => decide (dep ∈ g.dead)

def skipBlocked (g : Graph) : Graph :=
  ⟨g.nodes.map fun n => if g.isBlocked n then { n with status := .skipped } else n⟩

def skipLoop : Nat → Graph → Graph
  | 0, g => g
  | fuel + 1, g => if g.nodes.any g.isBlocked then skipLoop fuel g.skipBlocked else g

/-- A pass that changes something leaves fewer pending nodes, so that there is one pass a node. -/
def propagateSkips (g : Graph) : Graph := skipLoop g.nodes.length g

/-! ### Accepted graphs -/

def checkUnique (seen : List String) : List Node → Except String Unit
  | [] => .ok ()
  | n :: ns => do
    failIf (n.id ∈ seen) s!"duplicate node id `{n.id}`"
    checkUnique (n.id :: seen) ns

def checkKnown (seen : List String) (n : Node) : Except String Unit :=
  n.deps.forM fun dep => failIf (dep ∉ seen) s!"node `{n.id}` depends on unknown `{dep}`"

/-- The nodes are taken in an order in which they could run. -/
def checkAcyclic (g : Graph) : Except String Unit :=
  let (visited, indegree) := Toposort.kahn Node.id Node.deps g.nodes
  let cyclic := (indegree.filter fun (_, degree) => decide (0 < degree)).map fun p => p.1.id
  failIf (visited ≠ g.nodes.length)
    ("cycle detected among: " ++ String.intercalate ", " cyclic)

def validate (g : Graph) : Except String Unit := do
  checkUnique [] g.nodes
  g.nodes.forM (checkKnown g.ids)
  g.checkAcyclic

def fromNodesValue (value : Value) : Except String Graph := do
  let items ← okOr value.asArray "`nodes` must be an array"
  failIf (items = []) "`nodes` must contain at least one node"
  let nodes ← items.mapM Node.fromValue
  validate ⟨nodes⟩
  return ⟨nodes⟩

/-! ### The text of a graph -/

def mark : Status → String
  | .done => "x"
  | .failed => "!"
  | .skipped => "-"
  | .running => "~"
  | .pending => " "

def renderNode (n : Node) : String :=
  let deps := if n.deps = [] then "" else " deps=[" ++ String.intercalate "," n.deps ++ "]"
  s!"[{mark n.status}] {n.id} {n.status.asStr}{deps}"

def render (g : Graph) : String :=
  if g.nodes = [] then "plan is empty"
  else
    let done := g.nodes.countP Node.isDone
    String.intercalate "\n" (s!"{done}/{g.nodes.length} done" :: g.nodes.map renderNode)

/-! ### Valid graphs -/

/-- The ids and the dependencies, which running a graph does not change. -/
def shape (g : Graph) : List (String × List String) := g.nodes.map fun n => (n.id, n.deps)

/-- The node of one id names the other as a dependency. -/
def DependsOn (g : Graph) (id dep : String) : Prop := ∃ n ∈ g.nodes, n.id = id ∧ dep ∈ n.deps

/-- What an accepted graph is: its ids are unique, its dependencies are known and can be ranked. -/
structure Valid (g : Graph) : Prop where
  nodup : g.ids.Nodup
  known : ∀ n ∈ g.nodes, ∀ dep ∈ n.deps, dep ∈ g.ids
  ranked : ∃ rank : String → Nat, ∀ n ∈ g.nodes, ∀ dep ∈ n.deps, rank dep < rank n.id

variable {g g' : Graph} {id : String} {n : Node}

lemma valid_default : default.Valid := by
  refine ⟨List.nodup_nil, ?_, fun _ => 0, ?_⟩ <;>
    · intro n hn
      exact absurd hn List.not_mem_nil

/-- In a valid graph no node depends on itself, at any distance. -/
lemma Valid.acyclic (h : g.Valid) (id : String) : ¬Relation.TransGen g.DependsOn id id := by
  obtain ⟨rank, hrank⟩ := h.ranked
  have hlower : ∀ x y, g.DependsOn x y → rank y < rank x := by
    rintro x y ⟨n, hn, rfl, hdep⟩
    exact hrank n hn y hdep
  exact Toposort.not_transGen_self hlower id

lemma ids_eq_shape : g.ids = g.shape.map Prod.fst := by
  rw [ids, shape, List.map_map]
  rfl

lemma mem_shape {deps : List String} :
    (id, deps) ∈ g.shape ↔ ∃ n ∈ g.nodes, n.id = id ∧ n.deps = deps := by
  simp [shape]

/-- Whether a graph is valid is a matter of its shape. -/
lemma Valid.of_shape (h : g.Valid) (hshape : g'.shape = g.shape) : g'.Valid := by
  have hmem : ∀ n ∈ g'.nodes, ∃ m ∈ g.nodes, m.id = n.id ∧ m.deps = n.deps := by
    intro n hn
    have hin : (n.id, n.deps) ∈ g.shape := hshape ▸ mem_shape.mpr ⟨n, hn, rfl, rfl⟩
    exact mem_shape.mp hin
  have hids : g'.ids = g.ids := by rw [ids_eq_shape, ids_eq_shape, hshape]
  obtain ⟨rank, hrank⟩ := h.ranked
  refine ⟨hids ▸ h.nodup, ?_, rank, ?_⟩
  · intro n hn dep hdep
    obtain ⟨m, hm, -, hdeps⟩ := hmem n hn
    rw [hids]
    exact h.known m hm dep (hdeps ▸ hdep)
  · intro n hn dep hdep
    obtain ⟨m, hm, hid, hdeps⟩ := hmem n hn
    exact hid ▸ hrank m hm dep (hdeps ▸ hdep)

/-! ### What is checked -/

lemma checkUnique_eq_ok {seen : List String} {nodes : List Node}
    (h : checkUnique seen nodes = .ok ()) :
    (nodes.map Node.id).Nodup ∧ ∀ n ∈ nodes, n.id ∉ seen := by
  induction nodes generalizing seen with
  | nil => exact ⟨List.nodup_nil, fun n hn => absurd hn List.not_mem_nil⟩
  | cons n ns ih =>
    obtain ⟨hnew, hrest⟩ := check_bind_eq_ok.mp h
    rw [failIf_eq_ok] at hnew
    obtain ⟨hnodup, hfresh⟩ := ih hrest
    constructor
    · rw [List.map_cons, List.nodup_cons]
      refine ⟨?_, hnodup⟩
      rintro hmem
      obtain ⟨m, hm, heq⟩ := List.mem_map.mp hmem
      exact hfresh m hm (heq ▸ List.mem_cons_self)
    · intro m hm
      rcases List.mem_cons.mp hm with rfl | hm
      · exact hnew
      · exact fun hseen => hfresh m hm (List.mem_cons_of_mem _ hseen)

/-- What is accepted is valid. -/
lemma valid_of_validate (h : g.validate = .ok ()) : g.Valid := by
  obtain ⟨hunique, h⟩ := check_bind_eq_ok.mp h
  obtain ⟨hknown, hacyclic⟩ := check_bind_eq_ok.mp h
  have hnodup := (checkUnique_eq_ok hunique).1
  have hvisited : (Toposort.kahn Node.id Node.deps g.nodes).1 = g.nodes.length :=
    Decidable.of_not_not (failIf_eq_ok.mp hacyclic)
  refine ⟨hnodup, ?_, Toposort.exists_rank hnodup hvisited⟩
  intro n hn dep hdep
  have hchecked := forM_eq_ok.mp (forM_eq_ok.mp hknown n hn) dep hdep
  exact Decidable.of_not_not (failIf_eq_ok.mp hchecked)

lemma fromNodesValue_eq_ok {value : Value} (h : fromNodesValue value = .ok g) :
    g.Valid ∧ g.nodes ≠ [] ∧ ∀ n ∈ g.nodes, n.status = .pending := by
  obtain ⟨items, -, h⟩ := bind_eq_ok.mp h
  obtain ⟨hitems, h⟩ := check_bind_eq_ok.mp h
  obtain ⟨nodes, hnodes, h⟩ := bind_eq_ok.mp h
  obtain ⟨hvalid, h⟩ := check_bind_eq_ok.mp h
  obtain rfl := Except.ok.inj h
  obtain ⟨hread, hmade⟩ := mem_of_mapM_eq_ok hnodes
  refine ⟨valid_of_validate hvalid, ?_, ?_⟩
  · obtain ⟨item, hitem⟩ := List.exists_mem_of_ne_nil _ (failIf_eq_ok.mp hitems)
    obtain ⟨n, hn, -⟩ := hread item hitem
    exact List.ne_nil_of_mem hn
  intro n hn
  obtain ⟨item, -, hitem⟩ := hmade n hn
  exact Node.status_fromValue hitem

/-! ### Nodes by their ids -/

lemma get_eq_some (h : g.get id = some n) : n ∈ g.nodes ∧ n.id = id :=
  ⟨List.mem_of_find?_eq_some h, by simpa using List.find?_some h⟩

lemma Valid.get_of_mem (h : g.Valid) (hn : n ∈ g.nodes) : g.get n.id = some n := by
  cases hget : g.get n.id with
  | none => exact absurd (List.find?_eq_none.mp hget n hn) (by simp)
  | some m =>
    obtain ⟨hm, hid⟩ := get_eq_some hget
    rw [Toposort.eq_of_key h.nodup hm hn hid]

lemma Valid.exists_dep (h : g.Valid) (hn : n ∈ g.nodes) {dep : String} (hdep : dep ∈ n.deps) :
    ∃ m ∈ g.nodes, m.id = dep := List.mem_map.mp (h.known n hn dep hdep)

/-! ### Statuses -/

/-- The node of an id has a status. -/
def HasStatus (g : Graph) (id : String) (status : Status) : Prop :=
  ∃ n ∈ g.nodes, n.id = id ∧ n.status = status

/-- A failed or a skipped node. -/
def IsDead (g : Graph) (id : String) : Prop := g.HasStatus id .failed ∨ g.HasStatus id .skipped

/-- In a valid graph an id has one status. -/
lemma Valid.status_unique (h : g.Valid) {status status' : Status} (h₁ : g.HasStatus id status)
    (h₂ : g.HasStatus id status') : status = status' := by
  obtain ⟨n, hn, hid, rfl⟩ := h₁
  obtain ⟨m, hm, hid', rfl⟩ := h₂
  rw [Toposort.eq_of_key h.nodup hn hm (hid.trans hid'.symm)]

lemma mem_dead : id ∈ g.dead ↔ g.IsDead id := by
  simp only [dead, IsDead, HasStatus, Node.isDead, List.mem_map, List.mem_filter, Bool.or_eq_true,
    beq_iff_eq]
  constructor
  · rintro ⟨n, ⟨hn, hfailed | hskipped⟩, rfl⟩
    · exact .inl ⟨n, hn, rfl, hfailed⟩
    · exact .inr ⟨n, hn, rfl, hskipped⟩
  · rintro (⟨n, hn, rfl, hfailed⟩ | ⟨n, hn, rfl, hskipped⟩)
    · exact ⟨n, ⟨hn, .inl hfailed⟩, rfl⟩
    · exact ⟨n, ⟨hn, .inr hskipped⟩, rfl⟩

lemma mem_pendingIds : id ∈ g.pendingIds ↔ g.HasStatus id .pending := by
  simp only [pendingIds, HasStatus, List.mem_map, List.mem_filter, beq_iff_eq]
  constructor
  · rintro ⟨n, ⟨hn, hpending⟩, rfl⟩
    exact ⟨n, hn, rfl, hpending⟩
  · rintro ⟨n, hn, rfl, hpending⟩
    exact ⟨n, ⟨hn, hpending⟩, rfl⟩

lemma hasPending_iff : g.hasPending = true ↔ g.pendingIds ≠ [] := by
  rw [hasPending, pendingIds, Ne, List.map_eq_nil_iff, List.filter_eq_nil_iff, List.any_eq_true]
  simp

lemma Valid.isReady_iff (h : g.Valid) :
    g.isReady n = true ↔ n.status = .pending ∧ ∀ dep ∈ n.deps, g.HasStatus dep .done := by
  rw [isReady, Bool.and_eq_true, beq_iff_eq, List.all_eq_true]
  refine and_congr_right fun _ => forall₂_congr fun dep _ => ?_
  cases hget : g.get dep with
  | none =>
    simp only [Option.map_none, Option.getD_none, Bool.false_eq_true, false_iff]
    rintro ⟨m, hm, rfl, -⟩
    rw [h.get_of_mem hm] at hget
    exact absurd hget (by simp)
  | some m =>
    obtain ⟨hm, rfl⟩ := get_eq_some hget
    simp only [Option.map_some, Option.getD_some, Node.isDone, beq_iff_eq]
    constructor
    · intro hdone
      exact ⟨m, hm, rfl, hdone⟩
    · rintro ⟨m', hm', hid, hdone⟩
      rwa [Toposort.eq_of_key h.nodup hm hm' hid.symm]

lemma Valid.mem_ready (h : g.Valid) :
    id ∈ g.ready ↔ ∃ n ∈ g.nodes, n.id = id ∧ n.status = .pending ∧
      ∀ dep ∈ n.deps, g.HasStatus dep .done := by
  simp only [ready, List.mem_map, List.mem_filter, h.isReady_iff]
  constructor
  · rintro ⟨n, ⟨hn, hready⟩, rfl⟩
    exact ⟨n, hn, rfl, hready⟩
  · rintro ⟨n, hn, rfl, hready⟩
    exact ⟨n, ⟨hn, hready⟩, rfl⟩

lemma Valid.nodup_ready (h : g.Valid) : g.ready.Nodup :=
  h.nodup.sublist (List.filter_sublist.map _)

/-! ### Changing nodes -/

/-- A change of a node that keeps its place in the graph. -/
def KeepsPlace (f : Node → Node) : Prop := ∀ n, (f n).id = n.id ∧ (f n).deps = n.deps

lemma shape_map {f : Node → Node} (hf : KeepsPlace f) : shape ⟨g.nodes.map f⟩ = g.shape := by
  rw [shape, shape, List.map_map]
  refine List.map_congr_left fun n _ => ?_
  exact Prod.ext (hf n).1 (hf n).2

lemma updateNode_of_notMem {f : Node → Node} {nodes : List Node} (h : id ∉ nodes.map Node.id) :
    updateNode id f nodes = nodes := by
  induction nodes with
  | nil => rfl
  | cons n ns ih =>
    obtain ⟨hne, hrest⟩ := List.ne_and_not_mem_of_not_mem_cons h
    rw [updateNode, if_neg (by simpa using Ne.symm hne), ih hrest]

lemma updateNode_eq_map {f : Node → Node} {nodes : List Node} (h : (nodes.map Node.id).Nodup) :
    updateNode id f nodes = nodes.map fun n => if n.id = id then f n else n := by
  induction nodes with
  | nil => rfl
  | cons n ns ih =>
    obtain ⟨hnew, hrest⟩ := List.nodup_cons.mp h
    rw [updateNode, List.map_cons, ← ih hrest]
    by_cases hid : n.id = id
    · subst hid
      rw [if_pos (beq_self_eq_true n.id), if_pos rfl, updateNode_of_notMem hnew]
    · rw [if_neg (by simpa using hid), if_neg hid]

/-- Each of some nodes is changed, one after the other. -/
lemma foldl_update {f : String → Node → Node} (hf : ∀ id, KeepsPlace (f id)) {changed : List String}
    (hchanged : changed.Nodup) (h : g.ids.Nodup) :
    changed.foldl (fun g id => g.update id (f id)) g =
      ⟨g.nodes.map fun n => if n.id ∈ changed then f n.id n else n⟩ := by
  induction changed generalizing g with
  | nil => simp
  | cons id changed ih =>
    obtain ⟨hnew, hrest⟩ := List.nodup_cons.mp hchanged
    have hstep : g.update id (f id) = ⟨g.nodes.map fun n => if n.id = id then f id n else n⟩ :=
      congrArg Graph.mk (updateNode_eq_map h)
    have hplace : KeepsPlace fun n => if n.id = id then f id n else n := by
      intro n
      dsimp only
      split
      · exact hf id n
      · exact ⟨rfl, rfl⟩
    have hids : (g.update id (f id)).ids.Nodup := by
      rw [hstep, ids_eq_shape, shape_map hplace, ← ids_eq_shape]
      exact h
    rw [List.foldl_cons, ih hrest hids, hstep]
    dsimp only
    rw [List.map_map]
    refine congrArg Graph.mk (List.map_congr_left fun n _ => ?_)
    show (if (if n.id = id then f id n else n).id ∈ changed then
      f (if n.id = id then f id n else n).id (if n.id = id then f id n else n)
      else if n.id = id then f id n else n) = _
    by_cases hid : n.id = id
    · subst hid
      rw [if_pos rfl, (hf n.id n).1, if_neg hnew, if_pos List.mem_cons_self]
    · rw [if_neg hid]
      simp [hid]

/-! ### What is skipped -/

/-- Some pending nodes of a graph were skipped, each after one of its dependencies was lost. -/
def Skips (g g' : Graph) : Prop :=
  ∃ f, g'.nodes = g.nodes.map f ∧ KeepsPlace f ∧ ∀ n ∈ g.nodes, f n = n ∨
    n.status = .pending ∧ f n = { n with status := .skipped } ∧ ∃ dep ∈ n.deps, g'.IsDead dep

lemma Skips.refl (g : Graph) : Skips g g :=
  ⟨id, (List.map_id g.nodes).symm, fun _ => ⟨rfl, rfl⟩, fun _ _ => .inl rfl⟩

lemma Skips.isDead (h : Skips g g') (hdead : g.IsDead id) : g'.IsDead id := by
  obtain ⟨f, hnodes, -, hf⟩ := h
  have hkept : ∀ status, status ≠ .pending → g.HasStatus id status → g'.HasStatus id status := by
    rintro status hne ⟨n, hn, hid, rfl⟩
    have hsame : f n = n := (hf n hn).resolve_right fun hskip => hne hskip.1
    exact ⟨n, hnodes ▸ List.mem_map.mpr ⟨n, hn, hsame⟩, hid, rfl⟩
  rcases hdead with hfailed | hskipped
  · exact .inl (hkept .failed (by simp) hfailed)
  · exact .inr (hkept .skipped (by simp) hskipped)

lemma Skips.trans {g'' : Graph} (h : Skips g g') (h' : Skips g' g'') : Skips g g'' := by
  have hlost : ∀ id, g'.IsDead id → g''.IsDead id := fun _ => h'.isDead
  obtain ⟨f, hnodes, hplace, hf⟩ := h
  obtain ⟨f', hnodes', hplace', hf'⟩ := h'
  refine ⟨f' ∘ f, ?_, ?_, ?_⟩
  · rw [hnodes', hnodes, List.map_map]
  · intro n
    exact ⟨(hplace' (f n)).1.trans (hplace n).1, (hplace' (f n)).2.trans (hplace n).2⟩
  · intro n hn
    have hmem : f n ∈ g'.nodes := hnodes ▸ List.mem_map_of_mem hn
    rcases hf n hn with hsame | ⟨hpending, hskipped, dep, hdep, hdead⟩
    · rcases hf' (f n) hmem with hsame' | hskip
      · exact .inl (hsame'.trans hsame)
      · rw [hsame] at hskip
        exact .inr ⟨hskip.1, by rw [Function.comp_apply, hsame, hskip.2.1], hskip.2.2⟩
    · have hsame' : f' (f n) = f n := by
        refine (hf' (f n) hmem).resolve_right fun hskip => ?_
        rw [hskipped] at hskip
        exact absurd hskip.1 (by simp)
      exact .inr ⟨hpending, hsame'.trans hskipped, dep, hdep, hlost dep hdead⟩

lemma isBlocked_iff :
    g.isBlocked n = true ↔ n.status = .pending ∧ ∃ dep ∈ n.deps, g.IsDead dep := by
  simp [isBlocked, mem_dead]

lemma skips_skipBlocked (g : Graph) : Skips g g.skipBlocked := by
  have hkept : ∀ id, g.IsDead id → g.skipBlocked.IsDead id := by
    have hstatus : ∀ id status, status ≠ .pending → g.HasStatus id status →
        g.skipBlocked.HasStatus id status := by
      rintro id status hne ⟨n, hn, hid, rfl⟩
      refine ⟨n, List.mem_map.mpr ⟨n, hn, if_neg ?_⟩, hid, rfl⟩
      exact fun hblocked => hne (isBlocked_iff.mp hblocked).1
    rintro id (hfailed | hskipped)
    · exact .inl (hstatus id .failed (by simp) hfailed)
    · exact .inr (hstatus id .skipped (by simp) hskipped)
  refine ⟨fun n => if g.isBlocked n then { n with status := .skipped } else n, rfl, ?_, ?_⟩
  · intro n
    dsimp only
    split <;> exact ⟨rfl, rfl⟩
  · intro n _
    by_cases hblocked : g.isBlocked n = true
    · obtain ⟨hpending, dep, hdep, hdead⟩ := isBlocked_iff.mp hblocked
      exact .inr ⟨hpending, if_pos hblocked, dep, hdep, hkept dep hdead⟩
    · exact .inl (if_neg hblocked)

/-- A pass that skips something leaves fewer pending nodes. -/
lemma pending_skipBlocked_lt (h : g.nodes.any g.isBlocked = true) :
    g.skipBlocked.pendingIds.length < g.pendingIds.length := by
  obtain ⟨n, hn, hblocked⟩ := List.any_eq_true.mp h
  rw [pendingIds, pendingIds, List.length_map, List.length_map, ← List.countP_eq_length_filter,
    ← List.countP_eq_length_filter, skipBlocked, List.countP_map]
  have hle : ∀ m ∈ g.nodes,
      ((fun m => m.status == .pending) ∘
        fun n => if g.isBlocked n then { n with status := .skipped } else n) m = true →
      (m.status == .pending && !g.isBlocked m) = true := by
    intro m _ hm
    by_cases hblocked : g.isBlocked m = true
    · simp [hblocked] at hm
    · simpa [hblocked] using hm
  refine Nat.lt_of_le_of_lt (List.countP_mono_left hle) ?_
  rw [List.countP_eq_length_filter, List.countP_eq_length_filter]
  have hsub : (g.nodes.filter fun m => m.status == .pending && !g.isBlocked m) =
      (g.nodes.filter fun m => m.status == .pending).filter fun m => !g.isBlocked m := by
    rw [List.filter_filter]
    simp [Bool.and_comm]
  rw [hsub]
  refine List.length_filter_lt_length_iff_exists.mpr ⟨n, ?_, by simp [hblocked]⟩
  exact List.mem_filter.mpr ⟨hn, by simp [(isBlocked_iff.mp hblocked).1]⟩

lemma skipLoop_spec {fuel : Nat} (h : g.pendingIds.length ≤ fuel) :
    Skips g (skipLoop fuel g) ∧ (skipLoop fuel g).nodes.any (skipLoop fuel g).isBlocked = false := by
  induction fuel generalizing g with
  | zero =>
    refine ⟨Skips.refl g, ?_⟩
    by_contra hsome
    have hlt := pending_skipBlocked_lt (g := g) (by simpa [skipLoop] using hsome)
    omega
  | succ fuel ih =>
    by_cases hany : g.nodes.any g.isBlocked = true
    · rw [skipLoop, if_pos hany]
      have hlt := pending_skipBlocked_lt hany
      obtain ⟨hskips, hnone⟩ := ih (g := g.skipBlocked) (by omega)
      exact ⟨(skips_skipBlocked g).trans hskips, hnone⟩
    · rw [skipLoop, if_neg hany]
      exact ⟨Skips.refl g, by simpa using hany⟩

lemma skips_propagateSkips (g : Graph) : Skips g g.propagateSkips :=
  (skipLoop_spec ((List.length_map _).le.trans (List.length_filter_le _ _))).1

/-- Nothing that still waits has lost a dependency. -/
lemma not_isDead_of_pending (hn : n ∈ g.propagateSkips.nodes) (hpending : n.status = .pending)
    {dep : String} (hdep : dep ∈ n.deps) : ¬g.propagateSkips.IsDead dep := by
  intro hdead
  have hnone := (skipLoop_spec (g := g)
    ((List.length_map _).le.trans (List.length_filter_le _ _))).2
  exact List.any_eq_false.mp hnone n hn (isBlocked_iff.mpr ⟨hpending, dep, hdep, hdead⟩)

end Graph

end Orchestrator
