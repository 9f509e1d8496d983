import RpiPackage.Orchestrator.Dispatch

/-!
# Which plans are accepted

The check for cycles as a loop over indices: an indegree for every node, a stack of the nodes that
wait for nothing, and the nodes that were visited. On the graphs that a plan can make, the loop
comes to its end without an indegree below zero, and what it accepts are the graphs without a
cycle.
-/

namespace Orchestrator

open Json Json.Value Result

/-- The loop between two turns. The head of the queue is popped next; the newest visit comes first. -/
structure Kahn where
  indegree : List Nat
  queue : List Nat
  visited : List Nat
  deriving DecidableEq, Repr

namespace Kahn

/-- The indices from one on at which the degree is zero. -/
def zeros : Nat → List Nat → List Nat
  | _, [] => []
  | index, degree :: rest => if degree = 0 then index :: zeros (index + 1) rest else zeros (index + 1) rest

def start (g : Graph) : Kahn :=
  let indegree := g.nodes.map fun n => n.deps.length
  ⟨indegree, (zeros 0 indegree).reverse, []⟩

/-- The nodes from one index on wait for a node no longer: what is left of their indegrees, and the
indices that are pushed. An indegree below zero is a panic. -/
def release (id : String) : Nat → List Node → List Nat → Option (List Nat × List Nat)
  | _, [], rest => some (rest, [])
  | _, _ :: _, [] => none
  | other, n :: ns, degree :: rest =>
    if id ∈ n.deps then
      match degree with
      | 0 => none
      | degree + 1 => (release id (other + 1) ns rest).map fun (rest, pushed) =>
        (degree :: rest, if degree = 0 then other :: pushed else pushed)
    else (release id (other + 1) ns rest).map fun (rest, pushed) => (degree :: rest, pushed)

/-- The turn of a popped index. -/
def visit (g : Graph) (index : Nat) (queue : List Nat) (s : Kahn) : Option Kahn := do
  let n ← g.nodes[index]?
  let (indegree, pushed) ← release n.id 0 g.nodes s.indegree
  return ⟨indegree, pushed.reverse ++ queue, index :: s.visited⟩

/-- The loop, for as many turns as it is given; without a result when they do not suffice or when a
turn panics. -/
def run (g : Graph) : Nat → Kahn → Option Kahn
  | turns, s =>
    match s.queue, turns with
    | [], _ => some s
    | _ :: _, 0 => none
    | index :: queue, turns + 1 => (visit g index queue s).bind (run g turns)

/-- The ids that a report on a cycle names. -/
def cyclic (g : Graph) (s : Kahn) : List String :=
  ((g.nodes.zip s.indegree).filter fun (_, degree) => decide (0 < degree)).map fun p => p.1.id

def verdict (g : Graph) (s : Kahn) : Except String Unit :=
  failIf (s.visited.length ≠ g.nodes.length)
    ("cycle detected among: " ++ String.intercalate ", " (s.cyclic g))

end Kahn

namespace Graph

/-- The graphs that the tool can come to, accepted or not: nodes that were read, what an update
makes of a graph, and what a run, which leaves ids and dependencies alone, makes of it. -/
inductive Produced : Graph → Prop
  | read {items : List Value} {nodes : List Node} : items.mapM Node.fromValue = .ok nodes → Produced ⟨nodes⟩
  | update {g g' : Graph} {params : Value} : Produced g → applyUpdate g params = .ok g' → Produced g'
  | ran {g g' : Graph} : Produced g → g'.shape = g.shape → Produced g'

def Known (g : Graph) : Prop := ∀ n ∈ g.nodes, ∀ dep ∈ n.deps, dep ∈ g.ids

instance (g : Graph) : Decidable g.Known :=
  inferInstanceAs (Decidable (∀ n ∈ g.nodes, ∀ dep ∈ n.deps, dep ∈ g.ids))

def Acyclic (g : Graph) : Prop := ∀ id, ¬Relation.TransGen g.DependsOn id id

/-- No node names a dependency twice. -/
def Deduped (g : Graph) : Prop := ∀ n ∈ g.nodes, n.deps.Nodup

end Graph

/-! ### Dependencies are named once -/

lemma nodup_foldl_dedup (texts : List String) {seen : List String} (h : seen.Nodup) :
    (texts.foldl (fun seen text => if text ∈ seen then seen else seen ++ [text]) seen).Nodup := by
  induction texts generalizing seen with
  | nil => exact h
  | cons text texts ih =>
    rw [List.foldl_cons]
    apply ih
    split
    · exact h
    · rename_i hnew
      rw [List.nodup_append]
      refine ⟨h, List.nodup_singleton text, ?_⟩
      rintro x hx y hy rfl
      exact hnew (List.mem_singleton.mp hy ▸ hx)

lemma nodup_dedup (texts : List String) : (dedup texts).Nodup := nodup_foldl_dedup texts List.nodup_nil

lemma Node.nodup_deps {value : Value} {n : Node} (h : Node.fromValue value = .ok n) :
    n.deps.Nodup := by
  obtain ⟨id, -, h⟩ := bind_eq_ok.mp h
  obtain ⟨task, -, h⟩ := bind_eq_ok.mp h
  obtain ⟨-, h⟩ := check_bind_eq_ok.mp h
  obtain ⟨deps, -, h⟩ := bind_eq_ok.mp h
  obtain rfl := Except.ok.inj h
  exact nodup_dedup deps

namespace Graph

variable {g g' : Graph} {item params : Value} {id : String}

lemma Deduped.update (h : g.Deduped) {f : Node → Node} (hf : ∀ n ∈ g.nodes, (f n).deps.Nodup) :
    (g.update id f).Deduped := by
  have hall : ∀ ns : List Node, (∀ n ∈ ns, n.deps.Nodup ∧ (f n).deps.Nodup) →
      ∀ n ∈ updateNode id f ns, n.deps.Nodup := by
    intro ns hns
    induction ns with
    | nil => exact fun n hn => absurd hn List.not_mem_nil
    | cons m ns ih =>
      obtain ⟨hm, hfm⟩ := hns m List.mem_cons_self
      have hrest := fun n hn => hns n (List.mem_cons_of_mem m hn)
      intro n hn
      rw [updateNode] at hn
      split at hn
      · rcases List.mem_cons.mp hn with rfl | hn
        · exact hfm
        · exact (hrest n hn).1
      · rcases List.mem_cons.mp hn with rfl | hn
        · exact hm
        · exact ih hrest n hn
  exact hall g.nodes fun n hn => ⟨h n hn, hf n hn⟩

lemma Deduped.addNode (h : g.Deduped) (hadd : addNode g item = .ok g') : g'.Deduped := by
  obtain ⟨node, hnode, hadd⟩ := bind_eq_ok.mp hadd
  obtain ⟨-, hadd⟩ := check_bind_eq_ok.mp hadd
  obtain rfl := Except.ok.inj hadd
  intro n hn
  rcases List.mem_append.mp hn with hn | hn
  · exact h n hn
  · obtain rfl := List.mem_singleton.mp hn
    exact Node.nodup_deps hnode

lemma Deduped.removeId (h : g.Deduped) (hremove : removeId g item = .ok g') : g'.Deduped := by
  obtain ⟨id, -, hremove⟩ := bind_eq_ok.mp hremove
  obtain rfl := Except.ok.inj hremove
  exact fun n hn => h n (List.mem_of_mem_filter hn)

lemma Deduped.changeNode (h : g.Deduped) {f : Node → Node} (hf : ∀ n ∈ g.nodes, (f n).deps.Nodup)
    (hchange : changeNode g id f = .ok g') : g'.Deduped := by
  obtain ⟨-, hchange⟩ := check_bind_eq_ok.mp hchange
  obtain rfl := Except.ok.inj hchange
  exact h.update hf

lemma Deduped.setDeps (h : g.Deduped) (hset : setDeps g item = .ok g') : g'.Deduped := by
  obtain ⟨id, -, hset⟩ := bind_eq_ok.mp hset
  obtain ⟨deps, -, hset⟩ := bind_eq_ok.mp hset
  obtain ⟨parsed, -, hset⟩ := bind_eq_ok.mp hset
  exact h.changeNode (fun _ _ => nodup_dedup parsed) hset

lemma Deduped.reset (h : g.Deduped) (hreset : reset g item = .ok g') : g'.Deduped := by
  obtain ⟨id, -, hreset⟩ := bind_eq_ok.mp hreset
  have hkept : ∀ n ∈ g.nodes, ({ n with status := .pending, result := none } : Node).deps.Nodup :=
    fun n hn => h n hn
  exact h.changeNode hkept hreset

lemma Deduped.forEach (h : g.Deduped) {key : String} {f : Graph → Value → Except String Graph}
    (hf : ∀ {g g' : Graph} {item : Value}, g.Deduped → f g item = .ok g' → g'.Deduped)
    (heach : forEach params key f g = .ok g') : g'.Deduped := by
  unfold Orchestrator.forEach at heach
  split at heach
  · obtain rfl := Except.ok.inj heach
    exact h
  · obtain ⟨items, -, hfold⟩ := bind_eq_ok.mp heach
    clear heach
    induction items generalizing g with
    | nil =>
      obtain rfl := Except.ok.inj hfold
      exact h
    | cons item items ih =>
      rw [List.foldlM_cons] at hfold
      obtain ⟨next, hnext, hfold⟩ := bind_eq_ok.mp hfold
      exact ih (hf h hnext) hfold

lemma Deduped.applyUpdate (h : g.Deduped) (hupdate : applyUpdate g params = .ok g') :
    g'.Deduped := by
  obtain ⟨g₁, hadd, hupdate⟩ := bind_eq_ok.mp hupdate
  obtain ⟨g₂, hremove, hupdate⟩ := bind_eq_ok.mp hupdate
  obtain ⟨g₃, hset, hreset⟩ := bind_eq_ok.mp hupdate
  have h₁ := h.forEach (fun h => h.addNode) hadd
  have h₂ := h₁.forEach (fun h => h.removeId) hremove
  have h₃ := h₂.forEach (fun h => h.setDeps) hset
  exact h₃.forEach (fun h => h.reset) hreset

lemma Deduped.of_shape (h : g.Deduped) (hshape : g'.shape = g.shape) : g'.Deduped := by
  intro n hn
  have hin : (n.id, n.deps) ∈ g.shape := hshape ▸ mem_shape.mpr ⟨n, hn, rfl, rfl⟩
  obtain ⟨m, hm, -, hdeps⟩ := mem_shape.mp hin
  exact hdeps ▸ h m hm

/-- However a graph came about, its nodes name every dependency once. -/
lemma Produced.deduped (h : g.Produced) : g.Deduped := by
  induction h with
  | read hread =>
    intro n hn
    obtain ⟨item, -, hitem⟩ := (mem_of_mapM_eq_ok hread).2 n hn
    exact Node.nodup_deps hitem
  | update _ hupdate ih => exact ih.applyUpdate hupdate
  | ran _ hshape ih => exact ih.of_shape hshape

end Graph

/-! ### The loop over indices and the loop over ids -/

namespace Kahn

variable {g : Graph} {s : Kahn} {taken queue : List String}

/-- Indices stand for ids. -/
def Stand (g : Graph) (indices : List Nat) (ids : List String) : Prop :=
  indices.map (fun index => (g.nodes[index]?).map Node.id) = ids.map some

/-- The loop over indices is where the loop over ids is. -/
structure Follows (g : Graph) (s : Kahn) (taken queue : List String) : Prop where
  indegree : s.indegree = (Toposort.degreesAfter Node.deps taken g.nodes).map Prod.snd
  queue : Stand g s.queue queue
  visited : Stand g s.visited taken

lemma Stand.append {is js : List Nat} {xs ys : List String} (h : Stand g is xs) (h' : Stand g js ys) :
    Stand g (is ++ js) (xs ++ ys) := by
  rw [Stand, List.map_append, List.map_append, h, h']

lemma Stand.reverse {is : List Nat} {xs : List String} (h : Stand g is xs) :
    Stand g is.reverse xs.reverse := by
  rw [Stand, List.map_reverse, List.map_reverse, h]

lemma Stand.length {is : List Nat} {xs : List String} (h : Stand g is xs) : is.length = xs.length := by
  simpa using congrArg List.length h

/-- Distinct ids stand for distinct indices. -/
lemma Stand.nodup {is : List Nat} {xs : List String} (h : Stand g is xs) (hxs : xs.Nodup) :
    is.Nodup := by
  have hmapped : (is.map fun index => (g.nodes[index]?).map Node.id).Nodup := by
    rw [h]
    exact hxs.map (Option.some_injective _)
  exact hmapped.of_map _

lemma stand_zeros (base ns : List Node) (hnodes : g.nodes = base ++ ns) :
    Stand g (zeros base.length (ns.map fun n => n.deps.length))
      (((Toposort.degrees Node.deps ns).filter fun (_, n) => n == 0).map fun p => p.1.id) := by
  induction ns generalizing base with
  | nil => rfl
  | cons n ns ih =>
    have hrest := ih (base ++ [n]) (by rw [hnodes, List.append_assoc]; rfl)
    rw [List.length_append, List.length_singleton] at hrest
    have hat : g.nodes[base.length]? = some n := by simp [hnodes]
    rw [Toposort.degrees] at hrest ⊢
    rw [List.map_cons, List.map_cons, zeros]
    split
    · rename_i hzero
      rw [List.filter_cons_of_pos (by simpa using hzero), List.map_cons]
      rw [Stand, List.map_cons, List.map_cons, hat, hrest]
      rfl
    · rename_i hpos
      rw [List.filter_cons_of_neg (by simpa using hpos)]
      exact hrest

lemma follows_start (g : Graph) : Follows g (start g) []
    (((Toposort.degrees Node.deps g.nodes).filter fun (_, n) => n == 0).map
      fun p => p.1.id).reverse := by
  refine ⟨?_, (stand_zeros [] g.nodes rfl).reverse, rfl⟩
  rw [Toposort.degreesAfter_nil, Toposort.degrees, List.map_map]
  rfl

/-- The pass over the dependents of a node: no indegree goes below zero when every node that waits
for it has something left to wait for. -/
lemma release_spec {id : String} (base ns : List Node) (hnodes : g.nodes = base ++ ns)
    (hwaits : ∀ n ∈ ns, id ∈ n.deps → n.deps.length - taken.countP (· ∈ n.deps) ≠ 0) :
    ∃ pushed, release id base.length ns ((Toposort.degreesAfter Node.deps taken ns).map Prod.snd) =
        some ((Toposort.degreesAfter Node.deps (id :: taken) ns).map Prod.snd, pushed) ∧
      Stand g pushed
        (Toposort.freed Node.id Node.deps id (Toposort.degreesAfter Node.deps (id :: taken) ns)) := by
  induction ns generalizing base with
  | nil => exact ⟨[], rfl, rfl⟩
  | cons n ns ih =>
    obtain ⟨pushed, hrelease, hstand⟩ := ih (base ++ [n]) (by rw [hnodes, List.append_assoc]; rfl)
      fun m hm => hwaits m (List.mem_cons_of_mem n hm)
    rw [List.length_append, List.length_singleton] at hrelease
    have hat : g.nodes[base.length]? = some n := by simp [hnodes]
    by_cases hdep : id ∈ n.deps
    · have hpos := hwaits n List.mem_cons_self hdep
      obtain ⟨degree, hdegree⟩ := Nat.exists_eq_succ_of_ne_zero hpos
      have hleft : n.deps.length - (id :: taken).countP (· ∈ n.deps) = degree := by
        rw [List.countP_cons_of_pos (by simpa using hdep)]
        omega
      refine ⟨if degree = 0 then base.length :: pushed else pushed, ?_, ?_⟩
      · simp only [Toposort.degreesAfter, List.map_cons, hdegree, hleft, release, if_pos hdep]
        simp only [Toposort.degreesAfter] at hrelease
        rw [hrelease]
        rfl
      · simp only [Toposort.freed, Toposort.degreesAfter, List.map_cons, hleft, List.filter_cons,
          hdep, decide_true, Bool.true_and, beq_iff_eq] at hstand ⊢
        split
        · rw [Stand, List.map_cons, List.map_cons, List.map_cons, hat, hstand]
          rfl
        · exact hstand
    · have hleft : (id :: taken).countP (· ∈ n.deps) = taken.countP (· ∈ n.deps) :=
        List.countP_cons_of_neg (by simpa using hdep)
      refine ⟨pushed, ?_, ?_⟩
      · simp only [Toposort.degreesAfter, List.map_cons, hleft, release, if_neg hdep]
        simp only [Toposort.degreesAfter] at hrelease
        rw [hrelease]
        rfl
      · simp only [Toposort.freed, Toposort.degreesAfter, List.map_cons, List.filter_cons, hdep,
          decide_false, Bool.false_and, Bool.false_eq_true, if_false] at hstand ⊢
        exact hstand

/-- A turn of the one loop is a turn of the other. -/
lemma Follows.visit {id : String} (h : Follows g s taken (id :: queue)) {index : Nat}
    {rest : List Nat} (hqueue : s.queue = index :: rest)
    (hprogress : Toposort.Progress Node.id Node.deps g.nodes taken (id :: queue)) :
    ∃ s', Kahn.visit g index rest s = some s' ∧ Follows g s' (id :: taken)
      ((Toposort.freed Node.id Node.deps id
        (Toposort.degreesAfter Node.deps (id :: taken) g.nodes)).reverse ++ queue) := by
  have hstand := h.queue
  rw [hqueue, Stand, List.map_cons, List.map_cons, List.cons.injEq] at hstand
  obtain ⟨hindex, hrest⟩ := hstand
  obtain ⟨n, hn, rfl⟩ := Option.map_eq_some_iff.mp hindex
  have hperm : (n.id :: queue ++ taken).Perm (queue ++ n.id :: taken) := List.perm_middle.symm
  have hnodup : (n.id :: taken).Nodup :=
    (List.nodup_append.mp (hperm.nodup_iff.mp hprogress.nodup)).2.1
  have hfresh : n.id ∉ taken := (List.nodup_cons.mp hnodup).1
  have hwaits : ∀ m ∈ g.nodes, n.id ∈ m.deps →
      m.deps.length - taken.countP (· ∈ m.deps) ≠ 0 := fun m _ hdep hzero =>
    hfresh (Toposort.mem_taken_of_degree (List.nodup_cons.mp hnodup).2 hzero hdep)
  obtain ⟨pushed, hrelease, hpushed⟩ := @release_spec g taken n.id [] g.nodes rfl hwaits
  refine ⟨⟨_, pushed.reverse ++ rest, index :: s.visited⟩, ?_, rfl, hpushed.reverse.append hrest, ?_⟩
  · rw [Kahn.visit, hn, h.indegree]
    show (release n.id 0 g.nodes _).bind _ = _
    rw [List.length_nil] at hrelease
    rw [hrelease]
    rfl
  · rw [Stand, List.map_cons, List.map_cons, h.visited, hn]
    rfl

lemma Stand.eq_nil {is : List Nat} (h : Stand g is []) : is = [] := by
  simpa [Stand] using h

lemma run_of_nil (h : s.queue = []) (turns : Nat) : run g turns s = some s := by
  rw [run]
  exact h

lemma run_of_cons {index : Nat} {rest : List Nat} (h : s.queue = index :: rest) (turns : Nat) :
    run g (turns + 1) s = (Kahn.visit g index rest s).bind (run g turns) := by
  rw [run.eq_def]
  dsimp only
  rw [h]

/-- What the loop comes to, it comes to with any more turns. -/
lemma run_mono {turns turns' : Nat} {s' : Kahn} (h : run g turns s = some s') (hle : turns ≤ turns') :
    run g turns' s = some s' := by
  induction turns generalizing s turns' with
  | zero =>
    cases hqueue : s.queue with
    | nil => rwa [run_of_nil hqueue] at h ⊢
    | cons index rest =>
      rw [run.eq_def] at h
      dsimp only at h
      rw [hqueue] at h
      exact absurd h (by simp)
  | succ turns ih =>
    cases hqueue : s.queue with
    | nil => rwa [run_of_nil hqueue] at h ⊢
    | cons index rest =>
      obtain ⟨more, rfl⟩ := Nat.exists_eq_add_of_lt (Nat.lt_of_succ_le hle)
      rw [run_of_cons hqueue] at h ⊢
      obtain ⟨next, hvisit, hrun⟩ := Option.bind_eq_some_iff.mp h
      exact Option.bind_eq_some_iff.mpr ⟨next, hvisit, ih hrun (Nat.le_add_right _ _)⟩

/-- With a turn for every node that is not yet taken, the loop ends and no turn panics. -/
lemma run_spec (hids : g.ids.Nodup) {turns : Nat} (h : Follows g s taken queue)
    (hprogress : Toposort.Progress Node.id Node.deps g.nodes taken queue)
    (hcomplete : Toposort.Complete Node.id Node.deps g.nodes taken queue)
    (hturns : g.nodes.length ≤ taken.length + turns) :
    ∃ s' taken', run g turns s = some s' ∧ Follows g s' taken' [] ∧
      Toposort.loop Node.id Node.deps turns (Toposort.degreesAfter Node.deps taken g.nodes) queue
        taken.length = (taken'.length, Toposort.degreesAfter Node.deps taken' g.nodes) ∧
      Toposort.Progress Node.id Node.deps g.nodes taken' [] ∧
      Toposort.Complete Node.id Node.deps g.nodes taken' [] := by
  induction turns generalizing s taken queue with
  | zero =>
    have hqueue := hprogress.queue_eq_nil hturns
    subst hqueue
    exact ⟨s, taken, run_of_nil h.queue.eq_nil 0, h, rfl, hprogress, hcomplete⟩
  | succ turns ih =>
    cases hq : queue with
    | nil =>
      subst hq
      exact ⟨s, taken, run_of_nil h.queue.eq_nil _, h, rfl, hprogress, hcomplete⟩
    | cons id queue =>
      subst hq
      have hqueue := h.queue.length
      cases hqueue' : s.queue with
      | nil => simp [hqueue'] at hqueue
      | cons index rest =>
        obtain ⟨s', hvisit, hfollows⟩ := h.visit hqueue' hprogress
        obtain ⟨s'', taken', hrun, hfollows', hloop, hlast⟩ := ih hfollows (hprogress.take hids) hcomplete.take
          (by rw [List.length_cons]; omega)
        refine ⟨s'', taken', ?_, hfollows', ?_, hlast⟩
        · rw [run_of_cons hqueue', hvisit]
          exact hrun
        · rw [Toposort.loop, Toposort.relax_degreesAfter]
          exact hloop

lemma Follows.zip (h : Follows g s taken queue) :
    g.nodes.zip s.indegree = Toposort.degreesAfter Node.deps taken g.nodes := by
  rw [h.indegree, Toposort.degreesAfter, List.map_map]
  exact List.map_prod_left_eq_zip.symm

/-- What is left of the indegrees belongs to the ids that were not visited. -/
lemma mem_cyclic (h : Follows g s taken []) {id : String} :
    id ∈ s.cyclic g ↔
      ∃ n ∈ g.nodes, n.id = id ∧ 0 < n.deps.length - taken.countP (· ∈ n.deps) := by
  rw [cyclic, h.zip, Toposort.degreesAfter]
  simp only [List.mem_map, List.mem_filter, decide_eq_true_eq]
  constructor
  · rintro ⟨p, ⟨⟨n, hn, rfl⟩, hpos⟩, rfl⟩
    exact ⟨n, hn, rfl, hpos⟩
  · rintro ⟨n, hn, rfl, hpos⟩
    exact ⟨_, ⟨⟨n, hn, rfl⟩, hpos⟩, rfl⟩

/-- They are named in the order of the plan. -/
lemma cyclic_sublist (h : Follows g s taken queue) : (s.cyclic g).Sublist g.ids := by
  have hall : (Toposort.degreesAfter Node.deps taken g.nodes).map (fun p => p.1.id) = g.ids := by
    rw [Toposort.degreesAfter, List.map_map]
    rfl
  rw [cyclic, h.zip, ← hall]
  exact List.filter_sublist.map _

end Kahn

namespace Graph

variable {g : Graph}

lemma checkAcyclic_eq {s : Kahn} {taken : List String}
    (h : Kahn.Follows g s taken [])
    (hkahn : Toposort.kahn Node.id Node.deps g.nodes =
      (taken.length, Toposort.degreesAfter Node.deps taken g.nodes)) :
    g.checkAcyclic = s.verdict g := by
  have hvisited : s.visited.length = taken.length := h.visited.length
  rw [checkAcyclic, hkahn, Kahn.verdict, Kahn.cyclic, h.zip, hvisited]

lemma checkUnique_of_nodup {seen : List String} {nodes : List Node}
    (hnodup : (nodes.map Node.id).Nodup) (hseen : ∀ n ∈ nodes, n.id ∉ seen) :
    checkUnique seen nodes = .ok () := by
  induction nodes generalizing seen with
  | nil => rfl
  | cons n ns ih =>
    rw [List.map_cons, List.nodup_cons] at hnodup
    apply check_bind_eq_ok.mpr
    refine ⟨failIf_eq_ok.mpr (hseen n List.mem_cons_self), ih hnodup.2 ?_⟩
    intro m hm hmem
    rcases List.mem_cons.mp hmem with heq | hmem
    · exact hnodup.1 (heq ▸ List.mem_map_of_mem hm)
    · exact hseen m (List.mem_cons_of_mem n hm) hmem

/-- With ids that are unique and dependencies that are known, all depends on the loop. -/
lemma validate_eq (hids : g.ids.Nodup) (hknown : g.Known) : g.validate = g.checkAcyclic := by
  have hunique : checkUnique [] g.nodes = .ok () :=
    checkUnique_of_nodup hids fun n _ => List.not_mem_nil
  have hdeps : g.nodes.forM (checkKnown g.ids) = .ok () :=
    forM_eq_ok.mpr fun n hn => forM_eq_ok.mpr fun dep hdep =>
      failIf_eq_ok.mpr (not_not_intro (hknown n hn dep hdep))
  rw [validate, hunique]
  show (g.nodes.forM (checkKnown g.ids)).bind _ = _
  rw [hdeps]
  rfl

/-- A cycle is there for a node that is above it. -/
lemma acyclic_iff : g.Acyclic ↔ ∀ id, ¬Toposort.AboveCycle g.DependsOn id := by
  constructor
  · rintro h id ⟨c, -, hcc⟩
    exact h c hcc
  · intro h id hcycle
    exact h id ⟨id, .refl, hcycle⟩

/-- What is above a cycle depends on something, so that it is a node of the graph. -/
lemma mem_ids_of_aboveCycle {id : String} (h : Toposort.AboveCycle g.DependsOn id) : id ∈ g.ids := by
  obtain ⟨c, hreach, hcycle⟩ := h
  have hfirst : ∃ dep, g.DependsOn id dep := by
    rcases Relation.ReflTransGen.cases_head hreach with rfl | ⟨dep, hdep, -⟩
    · obtain ⟨dep, hdep, -⟩ := Relation.TransGen.head'_iff.mp hcycle
      exact ⟨dep, hdep⟩
    · exact ⟨dep, hdep⟩
  obtain ⟨dep, n, hn, rfl, -⟩ := hfirst
  exact List.mem_map_of_mem hn

/-- The end of the loop, over indices and over ids. -/
structure Last (g : Graph) (s : Kahn) (taken : List String) : Prop where
  run : Kahn.run g g.nodes.length (Kahn.start g) = some s
  follows : Kahn.Follows g s taken []
  progress : Toposort.Progress Node.id Node.deps g.nodes taken []
  complete : Toposort.Complete Node.id Node.deps g.nodes taken []
  checkAcyclic : g.checkAcyclic = s.verdict g

lemma exists_last (hids : g.ids.Nodup) : ∃ s taken, g.Last s taken := by
  obtain ⟨s, taken, hrun, hfollows, hloop, hprogress, hcomplete⟩ :=
    Kahn.run_spec hids (Kahn.follows_start g) (Toposort.progress_start hids)
      Toposort.complete_start (Nat.le_add_left g.nodes.length 0)
  exact ⟨s, taken, hrun, hfollows, hprogress, hcomplete, checkAcyclic_eq hfollows hloop⟩

variable {s : Kahn} {taken : List String}

/-- What the report names is what is above a cycle. -/
lemma Last.mem_cyclic_iff (h : g.Last s taken) (hids : g.ids.Nodup) (hdeps : g.Deduped)
    (hknown : g.Known) {id : String} : id ∈ s.cyclic g ↔ Toposort.AboveCycle g.DependsOn id := by
  rw [Kahn.mem_cyclic h.follows]
  constructor
  · rintro ⟨n, hn, rfl, hpos⟩
    have hnot := (Toposort.degree_pos_iff hdeps hids h.progress h.complete hn).mp hpos
    exact (Toposort.notMem_taken_iff hids hdeps hknown h.progress h.complete
      (List.mem_map_of_mem hn)).mp hnot
  · intro habove
    obtain ⟨n, hn, rfl⟩ := List.mem_map.mp (mem_ids_of_aboveCycle habove)
    have hnot := (Toposort.notMem_taken_iff hids hdeps hknown h.progress h.complete
      (List.mem_map_of_mem hn)).mpr habove
    exact ⟨n, hn, rfl, (Toposort.degree_pos_iff hdeps hids h.progress h.complete hn).mpr hnot⟩

/-- All nodes were visited when there is no cycle. -/
lemma Last.length_eq_iff (h : g.Last s taken) (hids : g.ids.Nodup) (hdeps : g.Deduped)
    (hknown : g.Known) : s.visited.length = g.nodes.length ↔ g.Acyclic := by
  have htaken : taken ⊆ g.ids := by
    intro x hx
    obtain ⟨n, hn, rfl, -⟩ := h.progress.ordered.deps_of_mem hx
    exact List.mem_map_of_mem hn
  have hsub : taken.Subperm g.ids := List.subperm_of_subset h.progress.nodup htaken
  have hlen : g.ids.length = g.nodes.length := List.length_map _
  rw [h.follows.visited.length, acyclic_iff]
  constructor
  · intro heq id habove
    have hperm := hsub.perm_of_length_le (by rw [heq, hlen])
    have hid := mem_ids_of_aboveCycle habove
    have hnot := (Toposort.notMem_taken_iff hids hdeps hknown h.progress h.complete hid).mpr habove
    exact hnot (hperm.mem_iff.mpr hid)
  · intro hnone
    have hall : g.ids ⊆ taken := by
      intro id hid
      by_contra hnot
      exact hnone id
        ((Toposort.notMem_taken_iff hids hdeps hknown h.progress h.complete hid).mp hnot)
    have hle := (List.subperm_of_subset hids hall).length_le
    exact Nat.le_antisymm (hlen ▸ hsub.length_le) (hlen ▸ hle)

/-- What a plan can come to is accepted when its ids are unique, its dependencies are known and
nothing depends on itself. The loop ends after at most as many turns as there are nodes, without a
panic, and takes no node twice; a graph with a cycle is refused with the ids, in their order, of
the nodes that lie on a cycle or depend on one that does. -/
theorem Produced.validate_spec (h : g.Produced) :
    (g.validate = .ok () ↔ g.ids.Nodup ∧ g.Known ∧ g.Acyclic) ∧
    (g.ids.Nodup → ∃ s : Kahn,
      (∀ turns, g.nodes.length ≤ turns → Kahn.run g turns (Kahn.start g) = some s) ∧
      s.queue = [] ∧ s.visited.Nodup ∧ g.checkAcyclic = s.verdict g) ∧
    (g.ids.Nodup → g.Known → ¬g.Acyclic → ∃ cyclic : List String,
      g.validate = .error ("cycle detected among: " ++ String.intercalate ", " cyclic) ∧
      cyclic.Sublist g.ids ∧
      ∀ id, id ∈ cyclic ↔ ∃ c, Relation.ReflTransGen g.DependsOn id c ∧
        Relation.TransGen g.DependsOn c c) := by
  have hdeps := h.deduped
  refine ⟨?_, ?_, ?_⟩
  · constructor
    · intro hvalid
      have hvalid := valid_of_validate hvalid
      exact ⟨hvalid.nodup, hvalid.known, hvalid.acyclic⟩
    · rintro ⟨hids, hknown, hacyclic⟩
      obtain ⟨s, taken, hlast⟩ := exists_last hids
      rw [validate_eq hids hknown, hlast.checkAcyclic]
      exact failIf_eq_ok.mpr
        (not_not_intro ((hlast.length_eq_iff hids hdeps hknown).mpr hacyclic))
  · intro hids
    obtain ⟨s, taken, hlast⟩ := exists_last hids
    exact ⟨s, fun turns hle => Kahn.run_mono hlast.run hle, hlast.follows.queue.eq_nil,
      hlast.follows.visited.nodup hlast.progress.nodup, hlast.checkAcyclic⟩
  · intro hids hknown hcycle
    obtain ⟨s, taken, hlast⟩ := exists_last hids
    refine ⟨s.cyclic g, ?_, Kahn.cyclic_sublist hlast.follows, ?_⟩
    · rw [validate_eq hids hknown, hlast.checkAcyclic, Kahn.verdict]
      exact if_pos ((hlast.length_eq_iff hids hdeps hknown).not.mpr hcycle)
    · intro id
      exact hlast.mem_cyclic_iff hids hdeps hknown

/-- A node that depends on itself, twice, and one that depends on it. -/
def loopItems : List Value :=
  [.object [("id", .string "a"), ("task", .string "x"), ("deps", .array [.string "a", .string " a "])],
    .object [("id", .string "b"), ("task", .string "y"), ("deps", .array [.string "a"])]]

def loopNode (id task : String) : Node :=
  { id, task, deps := ["a"], role := none, provider := none, model := none, expectFile := none,
    verify := none, maxTurns := 8, timeoutSecs := 300, status := .pending, result := none }

def loopGraph : Graph := ⟨[loopNode "a" "x", loopNode "b" "y"]⟩

/-- Both are in the report. -/
theorem Produced.validate_spec_of_loop :
    ∃ cyclic : List String,
      loopGraph.validate = .error ("cycle detected among: " ++ String.intercalate ", " cyclic) ∧
      "a" ∈ cyclic ∧ "b" ∈ cyclic := by
  have hread : loopItems.mapM Node.fromValue = .ok [loopNode "a" "x", loopNode "b" "y"] := by
    decide +kernel
  have hself : loopGraph.DependsOn "a" "a" := ⟨loopNode "a" "x", by decide, rfl, by decide⟩
  have habove : loopGraph.DependsOn "b" "a" := ⟨loopNode "b" "y", by decide, rfl, by decide⟩
  have hcycle : ¬loopGraph.Acyclic := fun h => h "a" (.single hself)
  obtain ⟨cyclic, herror, -, hmem⟩ := (Produced.validate_spec (.read hread)).2.2 (by decide) (by decide)
    hcycle
  exact ⟨cyclic, herror, (hmem "a").mpr ⟨"a", .refl, .single hself⟩,
    (hmem "b").mpr ⟨"a", .single habove, .single hself⟩⟩

end Graph

end Orchestrator
