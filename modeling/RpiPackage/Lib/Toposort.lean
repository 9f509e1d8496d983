import Mathlib.Data.List.Nodup
import Mathlib.Data.Set.Finite.List
import Mathlib.Order.WellFounded
import Mathlib.Data.Fintype.Card
import Mathlib.Data.List.Perm.Subperm
import Mathlib.Logic.Relation
import Mathlib.Tactic.Common

/-!
# Topological order

Kahn's algorithm over nodes that name their dependencies. It takes the nodes whose dependencies
have all been taken, one by one; when it has taken every node, the order in which it took them
ranks every node above its dependencies, so that none of them depends on itself.
-/

namespace Toposort

variable {α κ : Type*} [DecidableEq κ] (key : α → κ) (deps : α → List κ)

/-- The nodes, each with the number of its dependencies that have not been taken. -/
abbrev Degrees (α : Type*) : Type _ := List (α × Nat)

def degrees (nodes : List α) : Degrees α := nodes.map fun a => (a, (deps a).length)

/-- A node has been taken. -/
def relax (k : κ) (rows : Degrees α) : Degrees α :=
  rows.map fun (a, n) => if k ∈ deps a then (a, n - 1) else (a, n)

/-- The nodes that wait for a node no longer. -/
def freed (k : κ) (rows : Degrees α) : List κ :=
  (rows.filter fun (a, n) => decide (k ∈ deps a) && n == 0).map fun p => key p.1

/-- The head of the queue is its last element. -/
def loop : Nat → Degrees α → List κ → Nat → Nat × Degrees α
  | 0, rows, _, visited => (visited, rows)
  | _ + 1, rows, [], visited => (visited, rows)
  | fuel + 1, rows, k :: queue, visited =>
    let rows := relax deps k rows
    loop fuel rows ((freed key deps k rows).reverse ++ queue) (visited + 1)

/-- How many nodes were taken, and what is left of the degrees. -/
def kahn (nodes : List α) : Nat × Degrees α :=
  let rows := degrees deps nodes
  let queue := (rows.filter fun (_, n) => n == 0).map fun p => key p.1
  loop key deps nodes.length rows queue.reverse 0

variable {key deps} {nodes : List α} {taken queue : List κ} {k : κ}

/-- The degrees after some nodes have been taken. -/
def degreesAfter (deps : α → List κ) (taken : List κ) (nodes : List α) : Degrees α :=
  nodes.map fun a => (a, (deps a).length - taken.countP (· ∈ deps a))

lemma degreesAfter_nil : degreesAfter deps [] nodes = degrees deps nodes := rfl

lemma relax_degreesAfter :
    relax deps k (degreesAfter deps taken nodes) = degreesAfter deps (k :: taken) nodes := by
  rw [relax, degreesAfter, degreesAfter, List.map_map]
  refine List.map_congr_left ?_
  intro a _
  by_cases h : k ∈ deps a
  · simp [h, Nat.sub_sub]
  · simp [h]

/-- A degree only drops to zero when all dependencies have been taken. -/
lemma mem_taken_of_degree {l : List κ} (htaken : taken.Nodup)
    (h : l.length - taken.countP (· ∈ l) = 0) {d : κ} (hd : d ∈ l) : d ∈ taken := by
  by_contra hnot
  have hsub : taken.filter (· ∈ l) ⊆ l.erase d := by
    intro x hx
    obtain ⟨hxt, hxl⟩ := List.mem_filter.mp hx
    have hne : x ≠ d := by
      rintro rfl
      exact hnot hxt
    exact (List.mem_erase_of_ne hne).mpr (of_decide_eq_true hxl)
  have hle := (List.subperm_of_subset (htaken.filter (· ∈ l)) hsub).length_le
  rw [List.length_erase_of_mem hd, ← List.countP_eq_length_filter] at hle
  have hpos := List.length_pos_of_mem hd
  omega

/-- Each node that was taken came after its dependencies; the newest is the head. -/
def Ordered (key : α → κ) (deps : α → List κ) (nodes : List α) : List κ → Prop
  | [] => True
  | k :: taken => (∃ a ∈ nodes, key a = k ∧ ∀ d ∈ deps a, d ∈ taken) ∧
    Ordered key deps nodes taken

/-- What holds whenever the loop is about to take a node. -/
structure Progress (key : α → κ) (deps : α → List κ) (nodes : List α) (taken queue : List κ) :
    Prop where
  nodup : (queue ++ taken).Nodup
  ready : ∀ k ∈ queue, ∃ a ∈ nodes, key a = k ∧ ∀ d ∈ deps a, d ∈ taken
  ordered : Ordered key deps nodes taken

lemma mem_freed {x : κ} :
    x ∈ freed key deps k (degreesAfter deps taken nodes) ↔
      ∃ a ∈ nodes, key a = x ∧ k ∈ deps a ∧ (deps a).length - taken.countP (· ∈ deps a) = 0 := by
  simp only [freed, degreesAfter, List.mem_map, List.mem_filter, Bool.and_eq_true,
    decide_eq_true_eq, beq_iff_eq]
  constructor
  · rintro ⟨p, ⟨⟨a, ha, rfl⟩, hk, hzero⟩, rfl⟩
    exact ⟨a, ha, rfl, hk, hzero⟩
  · rintro ⟨a, ha, rfl, hk, hzero⟩
    exact ⟨_, ⟨⟨a, ha, rfl⟩, hk, hzero⟩, rfl⟩

lemma nodup_freed (hkeys : (nodes.map key).Nodup) :
    (freed key deps k (degreesAfter deps taken nodes)).Nodup := by
  refine List.Nodup.sublist ?_ hkeys
  have hsub : ((degreesAfter deps taken nodes).map fun p => key p.1) = nodes.map key := by
    rw [degreesAfter, List.map_map]
    rfl
  rw [← hsub]
  exact List.filter_sublist.map _

omit [DecidableEq κ] in
/-- The nodes of a key that is there once are one node. -/
lemma eq_of_key (hkeys : (nodes.map key).Nodup) {a b : α} (ha : a ∈ nodes) (hb : b ∈ nodes)
    (h : key a = key b) : a = b := List.inj_on_of_nodup_map hkeys ha hb h

omit [DecidableEq κ] in
lemma Ordered.deps_of_mem {x : κ} (h : Ordered key deps nodes taken) (hx : x ∈ taken) :
    ∃ a ∈ nodes, key a = x ∧ ∀ d ∈ deps a, d ∈ taken := by
  induction taken with
  | nil => exact absurd hx List.not_mem_nil
  | cons y taken ih =>
    rcases List.mem_cons.mp hx with rfl | hx
    · obtain ⟨a, ha, hkey, hdeps⟩ := h.1
      exact ⟨a, ha, hkey, fun d hd => List.mem_cons_of_mem _ (hdeps d hd)⟩
    · obtain ⟨a, ha, hkey, hdeps⟩ := ih h.2 hx
      exact ⟨a, ha, hkey, fun d hd => List.mem_cons_of_mem _ (hdeps d hd)⟩

lemma Progress.take (h : Progress key deps nodes taken (k :: queue))
    (hkeys : (nodes.map key).Nodup) :
    Progress key deps nodes (k :: taken)
      ((freed key deps k (degreesAfter deps (k :: taken) nodes)).reverse ++ queue) := by
  have hperm : (k :: queue ++ taken).Perm (queue ++ k :: taken) := List.perm_middle.symm
  have hold : (queue ++ k :: taken).Nodup := hperm.nodup_iff.mp h.nodup
  have hfresh : k ∉ taken := (List.nodup_cons.mp (List.nodup_append.mp hold).2.1).1
  have htaken : (k :: taken).Nodup := (List.nodup_append.mp hold).2.1
  refine ⟨?_, ?_, h.ready k List.mem_cons_self, h.ordered⟩
  · rw [List.append_assoc, List.nodup_append]
    refine ⟨List.nodup_reverse.mpr (nodup_freed hkeys), hold, ?_⟩
    -- a freed node waited for this one, so it was neither queued nor taken
    rintro x hx y hy rfl
    obtain ⟨a, ha, rfl, hk, -⟩ := mem_freed.mp (List.mem_reverse.mp hx)
    obtain ⟨b, hb, hkey, hdeps⟩ : ∃ b ∈ nodes, key b = key a ∧ ∀ d ∈ deps b, d ∈ taken := by
      rcases List.mem_append.mp hy with hy | hy
      · exact h.ready _ (List.mem_cons_of_mem _ hy)
      · rcases List.mem_cons.mp hy with heq | hy
        · obtain ⟨b, hb, hkey, hdeps⟩ := h.ready k List.mem_cons_self
          exact ⟨b, hb, hkey.trans heq.symm, hdeps⟩
        · exact h.ordered.deps_of_mem hy
    obtain rfl := eq_of_key hkeys hb ha hkey
    exact hfresh (hdeps k hk)
  · intro x hx
    rcases List.mem_append.mp hx with hx | hx
    · obtain ⟨a, ha, hkey, -, hzero⟩ := mem_freed.mp (List.mem_reverse.mp hx)
      exact ⟨a, ha, hkey, fun d hd => mem_taken_of_degree htaken hzero hd⟩
    · obtain ⟨a, ha, hkey, hdeps⟩ := h.ready x (List.mem_cons_of_mem _ hx)
      exact ⟨a, ha, hkey, fun d hd => List.mem_cons_of_mem _ (hdeps d hd)⟩

/-- Every node whose dependencies have been taken is queued or taken. A dependency that a node names
twice counts twice in its degree, so that such a node may be missed. -/
def Complete (key : α → κ) (deps : α → List κ) (nodes : List α) (taken queue : List κ) : Prop :=
  ∀ a ∈ nodes, (deps a).Nodup → (∀ d ∈ deps a, d ∈ taken) → key a ∈ queue ++ taken

/-- The degree of a node drops to zero with the last of its dependencies. -/
lemma degree_eq_zero {l : List κ} (hl : l.Nodup) (h : ∀ d ∈ l, d ∈ taken) :
    l.length - taken.countP (· ∈ l) = 0 := by
  have hsub : l ⊆ taken.filter (· ∈ l) := fun d hd =>
    List.mem_filter.mpr ⟨h d hd, decide_eq_true hd⟩
  have hle := (List.subperm_of_subset hl hsub).length_le
  rw [← List.countP_eq_length_filter] at hle
  omega

lemma Complete.take (h : Complete key deps nodes taken (k :: queue)) :
    Complete key deps nodes (k :: taken)
      ((freed key deps k (degreesAfter deps (k :: taken) nodes)).reverse ++ queue) := by
  intro a ha hnodup hdeps
  by_cases hbefore : ∀ d ∈ deps a, d ∈ taken
  · have hmem := h a ha hnodup hbefore
    simp only [List.cons_append, List.mem_cons, List.mem_append] at hmem ⊢
    tauto
  · have hwaited : k ∈ deps a := by
      by_contra hnot
      refine hbefore fun d hd => (List.mem_cons.mp (hdeps d hd)).resolve_left ?_
      rintro rfl
      exact hnot hd
    have hfreed : key a ∈ freed key deps k (degreesAfter deps (k :: taken) nodes) :=
      mem_freed.mpr ⟨a, ha, rfl, hwaited, degree_eq_zero hnodup hdeps⟩
    simp [hfreed]

/-- The loop ends with as many nodes as it has taken, in their order. -/
lemma exists_taken (hkeys : (nodes.map key).Nodup) (fuel : Nat)
    (h : Progress key deps nodes taken queue) (hcomplete : Complete key deps nodes taken queue) :
    ∃ taken' queue', Progress key deps nodes taken' queue' ∧
      Complete key deps nodes taken' queue' ∧
      loop key deps fuel (degreesAfter deps taken nodes) queue taken.length =
        (taken'.length, degreesAfter deps taken' nodes) ∧
      (queue' = [] ∨ taken'.length = taken.length + fuel) := by
  induction fuel generalizing taken queue with
  | zero => exact ⟨taken, queue, h, hcomplete, rfl, .inr rfl⟩
  | succ fuel ih =>
    cases queue with
    | nil => exact ⟨taken, [], h, hcomplete, rfl, .inl rfl⟩
    | cons k queue =>
      obtain ⟨taken', queue', hprogress, hcomplete', hloop, hend⟩ :=
        ih (h.take hkeys) hcomplete.take
      refine ⟨taken', queue', hprogress, hcomplete', ?_, ?_⟩
      · rw [loop, relax_degreesAfter]
        exact hloop
      · rcases hend with hnil | hlen
        · exact .inl hnil
        · rw [List.length_cons] at hlen
          exact .inr (by omega)

omit [DecidableEq κ] in
lemma progress_start (hkeys : (nodes.map key).Nodup) :
    Progress key deps nodes []
      (((degrees deps nodes).filter fun (_, n) => n == 0).map fun p => key p.1).reverse := by
  refine ⟨?_, ?_, trivial⟩
  · rw [List.append_nil, List.nodup_reverse]
    refine List.Nodup.sublist ?_ hkeys
    have hsub : ((degrees deps nodes).map fun p => key p.1) = nodes.map key := by
      rw [degrees, List.map_map]
      rfl
    rw [← hsub]
    exact List.filter_sublist.map _
  · intro x hx
    obtain ⟨p, hp, rfl⟩ := List.mem_map.mp (List.mem_reverse.mp hx)
    obtain ⟨hmem, hzero⟩ := List.mem_filter.mp hp
    obtain ⟨a, ha, rfl⟩ := List.mem_map.mp hmem
    refine ⟨a, ha, rfl, fun d hd => ?_⟩
    rw [List.eq_nil_of_length_eq_zero (beq_iff_eq.mp hzero)] at hd
    exact absurd hd List.not_mem_nil

omit [DecidableEq κ] in
lemma complete_start : Complete key deps nodes []
    (((degrees deps nodes).filter fun (_, n) => n == 0).map fun p => key p.1).reverse := by
  intro a ha _ hdeps
  have hnone : deps a = [] := List.eq_nil_iff_forall_not_mem.mpr fun d hd =>
    absurd (hdeps d hd) List.not_mem_nil
  rw [List.append_nil, List.mem_reverse]
  refine List.mem_map.mpr ⟨(a, (deps a).length), List.mem_filter.mpr ⟨?_, ?_⟩, rfl⟩
  · exact List.mem_map_of_mem ha
  · simp [hnone]

omit [DecidableEq κ] in
/-- When as many nodes as there are have been taken, none waits. -/
lemma Progress.queue_eq_nil (h : Progress key deps nodes taken queue)
    (hlen : nodes.length ≤ taken.length) : queue = [] := by
  have hsub : queue ++ taken ⊆ nodes.map key := by
    intro x hx
    rcases List.mem_append.mp hx with hx | hx
    · obtain ⟨a, ha, rfl, -⟩ := h.ready x hx
      exact List.mem_map_of_mem ha
    · obtain ⟨a, ha, rfl, -⟩ := h.ordered.deps_of_mem hx
      exact List.mem_map_of_mem ha
  have hle := (List.subperm_of_subset h.nodup hsub).length_le
  rw [List.length_append, List.length_map] at hle
  exact List.eq_nil_of_length_eq_zero (by omega)

/-- Nothing waits in the end: there are as many turns as nodes. -/
lemma exists_last (hkeys : (nodes.map key).Nodup) :
    ∃ taken, Progress key deps nodes taken [] ∧ Complete key deps nodes taken [] ∧
      kahn key deps nodes = (taken.length, degreesAfter deps taken nodes) := by
  have hstart : Progress key deps nodes [] _ := progress_start hkeys
  obtain ⟨taken, queue, hprogress, hcomplete, hloop, hend⟩ :=
    exists_taken hkeys nodes.length hstart complete_start
  have hqueue : queue = [] := by
    rcases hend with hnil | hlen
    · exact hnil
    · exact hprogress.queue_eq_nil (by rw [hlen]; omega)
  subst hqueue
  exact ⟨taken, hprogress, hcomplete, hloop⟩

/-- In an ordered list every node comes after its dependencies. -/
lemma Ordered.rank (hkeys : (nodes.map key).Nodup) (h : Ordered key deps nodes taken)
    (htaken : taken.Nodup) {a : α} (ha : a ∈ nodes) (hmem : key a ∈ taken) {d : κ}
    (hd : d ∈ deps a) : taken.reverse.idxOf d < taken.reverse.idxOf (key a) := by
  induction taken with
  | nil => exact absurd hmem List.not_mem_nil
  | cons k taken ih =>
    rw [List.reverse_cons]
    by_cases hin : key a ∈ taken
    · obtain ⟨b, hb, hkey, hdeps⟩ := h.2.deps_of_mem hin
      obtain rfl := eq_of_key hkeys hb ha hkey
      rw [List.idxOf_append_of_mem (List.mem_reverse.mpr (hdeps d hd)),
        List.idxOf_append_of_mem (List.mem_reverse.mpr hin)]
      exact ih h.2 (List.nodup_cons.mp htaken).2 hin
    · obtain ⟨b, hb, hkey, hdeps⟩ := h.1
      have heq : key a = k := (List.mem_cons.mp hmem).resolve_right hin
      obtain rfl := eq_of_key hkeys hb ha (hkey.trans heq.symm)
      have hdt := List.mem_reverse.mpr (hdeps d hd)
      rw [List.idxOf_append_of_mem hdt,
        List.idxOf_append_of_notMem fun hmem' => hin (List.mem_reverse.mp hmem')]
      have hlt := List.idxOf_lt_length_of_mem hdt
      omega

/-- When every node was taken, the nodes have ranks above those of their dependencies. -/
theorem exists_rank (hkeys : (nodes.map key).Nodup)
    (h : (kahn key deps nodes).1 = nodes.length) :
    ∃ rank : κ → Nat, ∀ a ∈ nodes, ∀ d ∈ deps a, rank d < rank (key a) := by
  obtain ⟨taken, hprogress, -, hkahn⟩ := @exists_last _ _ _ key deps nodes hkeys
  have hlen : taken.length = nodes.length := by
    rw [← h, hkahn]
  have htaken : taken.Nodup := hprogress.nodup
  have hsub : taken ⊆ nodes.map key := by
    intro x hx
    obtain ⟨a, ha, rfl, -⟩ := hprogress.ordered.deps_of_mem hx
    exact List.mem_map_of_mem ha
  have hperm : taken.Perm (nodes.map key) :=
    (List.subperm_of_subset htaken hsub).perm_of_length_le (Nat.le_of_eq (by rw [List.length_map, hlen]))
  refine ⟨fun x => taken.reverse.idxOf x, fun a ha d hd => ?_⟩
  exact hprogress.ordered.rank hkeys htaken ha (hperm.mem_iff.mpr (List.mem_map_of_mem ha)) hd

omit [DecidableEq κ] in
/-- A ranked node does not depend on itself. -/
lemma not_transGen_self {r : κ → κ → Prop} {rank : κ → Nat} (h : ∀ x y, r x y → rank y < rank x)
    (x : κ) : ¬Relation.TransGen r x x := by
  have hlt : ∀ y, Relation.TransGen r x y → rank y < rank x := by
    intro y hy
    induction hy with
    | single hxy => exact h _ _ hxy
    | tail _ hyz ih => exact Nat.lt_trans (h _ _ hyz) ih
  exact fun hx => Nat.lt_irrefl _ (hlt x hx)

/-! ### What is left -/

/-- The node of the first key names the second as a dependency. -/
def Depends (key : α → κ) (deps : α → List κ) (nodes : List α) (x y : κ) : Prop :=
  ∃ a ∈ nodes, key a = x ∧ y ∈ deps a

/-- A node lies on a cycle or depends, at any distance, on one that does. -/
def AboveCycle (r : κ → κ → Prop) (x : κ) : Prop :=
  ∃ c, Relation.ReflTransGen r x c ∧ Relation.TransGen r c c

omit [DecidableEq κ] in
/-- Among finitely many, whoever can always go on comes to a cycle. -/
lemma aboveCycle_of_forever {r : κ → κ → Prop} {l : List κ} (hnext : ∀ x ∈ l, ∃ y ∈ l, r x y) {x : κ}
    (hx : x ∈ l) : AboveCycle r x := by
  by_contra hnot
  -- what can be reached from this node, with the later before the earlier
  let Reached := {y : κ // y ∈ l ∧ Relation.ReflTransGen r x y}
  let Later : Reached → Reached → Prop := fun y z => Relation.TransGen r z.1 y.1
  have : Finite Reached := (l.finite_toSet.subset fun y hy => hy.1).to_subtype
  have : IsTrans Reached Later := ⟨fun _ _ _ hxy hyz => hyz.trans hxy⟩
  have : Std.Irrefl Later := ⟨fun y hy => hnot ⟨y.1, y.2.2, hy⟩⟩
  have hwf : WellFounded Later := Finite.wellFounded_of_trans_of_irrefl Later
  have hstop : ∀ _ : Reached, False := by
    intro y
    induction y using hwf.induction with
    | _ y ih =>
      obtain ⟨z, hz, hyz⟩ := hnext y.1 y.2.1
      exact ih ⟨z, hz, y.2.2.tail hyz⟩ (Relation.TransGen.single hyz)
  exact hstop ⟨x, hx, .refl⟩

/-- What an order has taken is not above a cycle: the dependencies were taken before. -/
lemma Ordered.not_aboveCycle (hkeys : (nodes.map key).Nodup) (h : Ordered key deps nodes taken)
    (htaken : taken.Nodup) {x : κ} (hx : x ∈ taken) :
    ¬AboveCycle (Depends key deps nodes) x := by
  have hstep : ∀ y z, y ∈ taken → Depends key deps nodes y z →
      z ∈ taken ∧ taken.reverse.idxOf z < taken.reverse.idxOf y := by
    rintro y z hy ⟨a, ha, rfl, hz⟩
    obtain ⟨b, hb, hkey, hdeps⟩ := h.deps_of_mem hy
    obtain rfl := eq_of_key hkeys hb ha hkey
    exact ⟨hdeps z hz, h.rank hkeys htaken hb hy hz⟩
  rintro ⟨c, hxc, hcc⟩
  have hreach : ∀ y, Relation.ReflTransGen (Depends key deps nodes) x y → y ∈ taken := by
    intro y hy
    induction hy with
    | refl => exact hx
    | tail _ hyz ih => exact (hstep _ _ ih hyz).1
  have hc := hreach c hxc
  have hlt : ∀ y, Relation.TransGen (Depends key deps nodes) c y →
      y ∈ taken ∧ taken.reverse.idxOf y < taken.reverse.idxOf c := by
    intro y hy
    induction hy with
    | single hcy => exact hstep c _ hc hcy
    | tail _ hyz ih =>
      obtain ⟨hy', hlow⟩ := ih
      obtain ⟨hz, hlower⟩ := hstep _ _ hy' hyz
      exact ⟨hz, Nat.lt_trans hlower hlow⟩
  exact Nat.lt_irrefl _ (hlt c hcc).2

/-- When nothing waits, what was not taken is what is above a cycle. -/
lemma notMem_taken_iff (hkeys : (nodes.map key).Nodup) (hdeps : ∀ a ∈ nodes, (deps a).Nodup)
    (hknown : ∀ a ∈ nodes, ∀ d ∈ deps a, d ∈ nodes.map key)
    (hprogress : Progress key deps nodes taken []) (hcomplete : Complete key deps nodes taken [])
    {x : κ} (hx : x ∈ nodes.map key) :
    x ∉ taken ↔ AboveCycle (Depends key deps nodes) x := by
  constructor
  · intro hnot
    have hnext : ∀ y ∈ (nodes.map key).filter (· ∉ taken),
        ∃ z ∈ (nodes.map key).filter (· ∉ taken), Depends key deps nodes y z := by
      intro y hy
      obtain ⟨hin, hout⟩ := List.mem_filter.mp hy
      obtain ⟨a, ha, rfl⟩ := List.mem_map.mp hin
      have hwaits : ∃ d ∈ deps a, d ∉ taken := by
        by_contra hall
        refine of_decide_eq_true hout (hcomplete a ha (hdeps a ha) fun d hd => ?_)
        by_contra hd'
        exact hall ⟨d, hd, hd'⟩
      obtain ⟨d, hd, hd'⟩ := hwaits
      exact ⟨d, List.mem_filter.mpr ⟨hknown a ha d hd, decide_eq_true hd'⟩, a, ha, rfl, hd⟩
    exact aboveCycle_of_forever hnext (List.mem_filter.mpr ⟨hx, decide_eq_true hnot⟩)
  · intro habove htaken
    exact hprogress.ordered.not_aboveCycle hkeys hprogress.nodup htaken habove

/-- A degree above zero is left to the nodes that were not taken. -/
lemma degree_pos_iff (hdeps : ∀ a ∈ nodes, (deps a).Nodup) (hkeys : (nodes.map key).Nodup)
    (hprogress : Progress key deps nodes taken []) (hcomplete : Complete key deps nodes taken [])
    {a : α} (ha : a ∈ nodes) :
    0 < (deps a).length - taken.countP (· ∈ deps a) ↔ key a ∉ taken := by
  constructor
  · intro hpos hmem
    obtain ⟨b, hb, hkey, htaken⟩ := hprogress.ordered.deps_of_mem hmem
    obtain rfl := eq_of_key hkeys hb ha hkey
    have hzero := degree_eq_zero (hdeps b hb) htaken
    omega
  · intro hnot
    by_contra hzero
    refine hnot (hcomplete a ha (hdeps a ha) fun d hd => ?_)
    exact mem_taken_of_degree hprogress.nodup (Nat.eq_zero_of_not_pos hzero) hd

end Toposort
