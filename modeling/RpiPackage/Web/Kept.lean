import Mathlib.Data.List.Perm.Subperm
import RpiPackage.Web.ExecutionTrace

/-!
# What a change of the trace keeps

A change keeps the ids apart, and what has ended neither runs again nor is forgotten to have ended.
The changes that stay within the groups also keep which group has which status.
-/

namespace ExecutionTrace

open Js (Value Numeric)

variable {ν : Type*}

/-- The call that a tool node stands for. -/
def Node.toolCall (n : Node ν) : Option String := if n.kind = .tool then n.call else none

namespace ExecutionTraceState

structure Sound (s : ExecutionTraceState ν) : Prop where
  groupIds : (s.groups.map Group.id).Nodup
  groupLe : ∀ g ∈ s.groups, g.id ≤ s.nextId
  nodeIds : (s.nodes.map Node.id).Nodup
  nodeLe : ∀ n ∈ s.nodes, n.id ≤ s.nextId
  calls : (s.nodes.filterMap Node.toolCall).Nodup

/-- What has ended is not running. -/
def Rested (s : ExecutionTraceState ν) : Prop :=
  ∀ n ∈ s.nodes, n.ended = true → n.status ≠ .running

/-- The groups with their statuses. -/
def outline (s : ExecutionTraceState ν) : List (Nat × TraceStatus) :=
  s.groups.map fun g => (g.id, g.status)

lemma outline_ids (s : ExecutionTraceState ν) : s.outline.map Prod.fst = s.groups.map Group.id := by
  rw [outline, List.map_map]
  rfl

end ExecutionTraceState

open ExecutionTraceState

/-- What every change keeps; that nothing runs again is kept under a condition. -/
structure Keeps (C : Prop) (s s' : ExecutionTraceState ν) : Prop where
  nextId : s.nextId ≤ s'.nextId
  lastSeq : s'.lastSeq = s.lastSeq
  sound : Sound s → Sound s'
  ended : ∀ n' ∈ s'.nodes, n'.id ≤ s.nextId →
    ∃ n ∈ s.nodes, n.id = n'.id ∧ (n.ended = true → n'.ended = true)
  rested : C → Rested s → Rested s'

/-- A change within the groups. -/
structure Within (C : Prop) (s s' : ExecutionTraceState ν) : Prop extends Keeps C s s' where
  outline : s'.outline = s.outline
  active : s'.active = s.active

variable {C : Prop} {s s' s'' : ExecutionTraceState ν}

lemma Keeps.refl (C : Prop) (s : ExecutionTraceState ν) : Keeps C s s :=
  ⟨Nat.le_refl _, rfl, id, fun n' hn' _ => ⟨n', hn', rfl, id⟩, fun _ => id⟩

lemma Keeps.trans (h : Keeps C s s') (h' : Keeps C s' s'') : Keeps C s s'' := by
  refine ⟨Nat.le_trans h.nextId h'.nextId, h'.lastSeq.trans h.lastSeq,
    fun hs => h'.sound (h.sound hs), ?_, fun hC hs => h'.rested hC (h.rested hC hs)⟩
  intro n'' hn'' hle
  obtain ⟨n', hn', hid', hended'⟩ := h'.ended n'' hn'' (Nat.le_trans hle h.nextId)
  obtain ⟨n, hn, hid, hended⟩ := h.ended n' hn' (hid' ▸ hle)
  exact ⟨n, hn, hid.trans hid', fun hn => hended' (hended hn)⟩

lemma Within.refl (C : Prop) (s : ExecutionTraceState ν) : Within C s s :=
  ⟨.refl C s, rfl, rfl⟩

lemma Within.trans (h : Within C s s') (h' : Within C s' s'') : Within C s s'' :=
  ⟨h.toKeeps.trans h'.toKeeps, h'.outline.trans h.outline, h'.active.trans h.active⟩

/-! ### Changes in place -/

/-- What a node may become. -/
structure Node.Becomes (C : Prop) (n n' : Node ν) : Prop where
  id : n'.id = n.id
  toolCall : n'.toolCall = n.toolCall
  ended : n.ended = true → n'.ended = true
  rested : C → (n.ended = true → n.status ≠ .running) → n'.ended = true → n'.status ≠ .running

lemma Node.Becomes.refl (C : Prop) (n : Node ν) : n.Becomes C n := 
  ⟨rfl, rfl, fun h => h, fun _ h => h⟩

structure Group.Becomes (C : Prop) (g g' : Group ν) : Prop where
  id : g'.id = g.id
  nodes : List.Forall₂ (Node.Becomes C) g.nodes g'.nodes

lemma Group.Becomes.of_nodes {g g' : Group ν} (hid : g'.id = g.id) (hnodes : g'.nodes = g.nodes) :
    g.Becomes C g' :=
  ⟨hid, hnodes ▸ List.forall₂_same.mpr fun n _ => .refl C n⟩

lemma Keeps.in_place (hnextId : s'.nextId = s.nextId) (hseq : s'.lastSeq = s.lastSeq)
    (h : List.Forall₂ (Group.Becomes C) s.groups s'.groups) : Keeps C s s' := by
  have hnodes : List.Forall₂ (Node.Becomes C) s.nodes s'.nodes :=
    List.rel_flatMap h fun _ _ hg => hg.nodes
  have hcalls : s'.nodes.filterMap Node.toolCall = s.nodes.filterMap Node.toolCall := by
    have hmap := First.map_eq_of_forall₂ (k := Node.toolCall) (fun _ _ hn => hn.toolCall) hnodes
    simpa [List.filterMap_map] using congrArg (List.filterMap id) hmap
  have hgroups := First.map_eq_of_forall₂ (k := Group.id) (fun _ _ hg => hg.id) h
  have hids := First.map_eq_of_forall₂ (k := Node.id) (fun _ _ hn => hn.id) hnodes
  refine ⟨Nat.le_of_eq hnextId.symm, hseq, ?_, ?_, ?_⟩
  · intro hs
    refine ⟨hgroups ▸ hs.groupIds, ?_, hids ▸ hs.nodeIds, ?_, hcalls ▸ hs.calls⟩
    · intro g' hg'
      obtain ⟨g, hg, hgg'⟩ := First.exists_of_forall₂ h hg'
      rw [hgg'.id, hnextId]
      exact hs.groupLe g hg
    · intro n' hn'
      obtain ⟨n, hn, hnn'⟩ := First.exists_of_forall₂ hnodes hn'
      rw [hnn'.id, hnextId]
      exact hs.nodeLe n hn
  · intro n' hn' _
    obtain ⟨n, hn, hnn'⟩ := First.exists_of_forall₂ hnodes hn'
    exact ⟨n, hn, hnn'.id.symm, hnn'.ended⟩
  · intro hC hs n' hn'
    obtain ⟨n, hn, hnn'⟩ := First.exists_of_forall₂ hnodes hn'
    exact hnn'.rested hC (hs n hn)

/-- An edit of a node that leaves alone what it is known by. -/
def Tame (C : Prop) (f : Node ν → Node ν) : Prop :=
  ∀ n, Node.Becomes C n (f n)

lemma Group.becomes_edit {f : Node ν → Node ν} (hf : Tame C f) (id : Nat) (g : Group ν) :
    g.Becomes C { g with nodes := g.nodes.map fun n => if n.id = id then f n else n } := by
  refine ⟨rfl, List.forall₂_map_right_iff.mpr (List.forall₂_same.mpr fun n _ => ?_)⟩
  split
  · exact hf n
  · exact .refl C n

lemma Within.edit {f : Node ν → Node ν} (hf : Tame C f) (s : ExecutionTraceState ν) (id : Nat) :
    Within C s (s.edit id f) := by
  refine ⟨.in_place rfl rfl ?_, ?_, rfl⟩
  · exact List.forall₂_map_right_iff.mpr (List.forall₂_same.mpr fun g _ => g.becomes_edit hf id)
  · simp [ExecutionTraceState.edit, ExecutionTraceState.outline, Function.comp_def]

lemma Keeps.updateGroup {f : Group ν → Group ν} (hf : ∀ g, Group.Becomes C g (f g))
    (s : ExecutionTraceState ν) (id : Nat) : Keeps C s (s.updateGroup id f) :=
  .in_place rfl rfl (First.forall₂_update (fun g _ => .of_nodes rfl rfl) fun g _ _ => hf g)

lemma Within.updateGroup {f : Group ν → Group ν} (hf : ∀ g, Group.Becomes C g (f g))
    (hstatus : ∀ g, (f g).status = g.status) (s : ExecutionTraceState ν) (id : Nat) :
    Within C s (s.updateGroup id f) := by
  refine ⟨.updateGroup hf s id, ?_, rfl⟩
  exact First.map_update fun g _ _ => by rw [(hf g).id, hstatus]

lemma Within.markPartial (s : ExecutionTraceState ν) (id : Nat) :
    Within C s (s.markPartial id) :=
  .updateGroup (f := fun g => { g with isPartial := true }) (fun _ => .of_nodes rfl rfl)
    (fun _ => rfl) s id

/-- The other fields of the state have no part in this. -/
lemma Keeps.of_groups (hgroups : s'.groups = s.groups) (hnextId : s'.nextId = s.nextId)
    (hseq : s'.lastSeq = s.lastSeq) : Keeps C s s' := by
  refine .in_place hnextId hseq ?_
  rw [hgroups]
  exact List.forall₂_same.mpr fun g _ => .of_nodes rfl rfl

lemma Within.of_groups (hgroups : s'.groups = s.groups) (hnextId : s'.nextId = s.nextId)
    (hseq : s'.lastSeq = s.lastSeq) (hactive : s'.active = s.active) : Within C s s' := by
  refine ⟨.of_groups hgroups hnextId hseq, ?_, hactive⟩
  rw [ExecutionTraceState.outline, hgroups, ExecutionTraceState.outline]

/-! ### A new node -/

lemma nodes_push (s : ExecutionTraceState ν) (g : Nat) (n : Node ν) :
    (s.updateGroup g fun g => { g with nodes := g.nodes ++ [n] }).nodes = s.nodes ∨
      (s.updateGroup g fun g => { g with nodes := g.nodes ++ [n] }).nodes.Perm (n :: s.nodes) := by
  rcases First.update_cases (fun item : Group ν => item.id == g)
      (fun g => { g with nodes := g.nodes ++ [n] }) s.groups with
    ⟨-, heq⟩ | ⟨left, x, right, hgroups, -, -, heq⟩
  · left
    rw [nodes, ExecutionTraceState.updateGroup, heq, nodes]
  · right
    rw [nodes, ExecutionTraceState.updateGroup, heq, nodes, hgroups]
    simp only [List.flatMap_append, List.flatMap_cons, List.append_assoc, List.singleton_append]
    rw [← List.append_assoc, ← List.append_assoc]
    exact List.perm_middle

lemma Within.add (s : ExecutionTraceState ν) (g : Nat) (kind : Kind) (initial : TraceStatus)
    (call : Option String)
    (hcall : ∀ c, kind = .tool → call = some c → ∀ n ∈ s.nodes, n.toolCall ≠ some c) :
    Within C s (s.add g kind initial call).1 := by
  set n : Node ν := { id := s.nextId + 1, kind, status := initial, call } with hn
  set s' := (s.add g kind initial call).1 with hs'
  have hpush : s'.nodes = s.nodes ∨ s'.nodes.Perm (n :: s.nodes) :=
    nodes_push { s with nextId := s.nextId + 1 } g n
  have hmem : ∀ n' ∈ s'.nodes, n' = n ∨ n' ∈ s.nodes := by
    intro n' hn'
    rcases hpush with heq | hperm
    · exact .inr (heq ▸ hn')
    · exact List.mem_cons.mp (hperm.mem_iff.mp hn')
  have hgroups : s'.groups.map Group.id = s.groups.map Group.id := First.map_update fun _ _ _ => rfl
  refine ⟨⟨Nat.le_succ _, rfl, ?_, ?_, ?_⟩, First.map_update fun _ _ _ => rfl, rfl⟩
  · intro hs
    refine ⟨hgroups ▸ hs.groupIds, ?_, ?_, ?_, ?_⟩
    · intro g' hg'
      obtain ⟨g, hg, hid⟩ := List.mem_map.mp (hgroups ▸ List.mem_map_of_mem (f := Group.id) hg')
      rw [← hid]
      exact Nat.le_succ_of_le (hs.groupLe g hg)
    · rcases hpush with heq | hperm
      · exact heq ▸ hs.nodeIds
      · rw [(hperm.map Node.id).nodup_iff, List.map_cons, List.nodup_cons]
        refine ⟨fun hmem => ?_, hs.nodeIds⟩
        obtain ⟨n', hn', hid⟩ := List.mem_map.mp hmem
        exact Nat.not_succ_le_self _ (hid ▸ hs.nodeLe n' hn' : n.id ≤ s.nextId)
    · intro n' hn'
      rcases hmem n' hn' with rfl | hold
      · exact Nat.le_refl _
      · exact Nat.le_succ_of_le (hs.nodeLe n' hold)
    · rcases hpush with heq | hperm
      · exact heq ▸ hs.calls
      · rw [(hperm.filterMap Node.toolCall).nodup_iff]
        cases hc : n.toolCall with
        | none => rw [List.filterMap_cons_none hc]; exact hs.calls
        | some c =>
          rw [List.filterMap_cons_some hc, List.nodup_cons]
          refine ⟨fun hmem => ?_, hs.calls⟩
          obtain ⟨n', hn', hc'⟩ := List.mem_filterMap.mp hmem
          obtain ⟨hkind, hcall'⟩ : kind = .tool ∧ call = some c := by
            simpa [Node.toolCall, hn] using hc
          exact hcall c hkind hcall' n' hn' hc'
  · intro n' hn' hle
    rcases hmem n' hn' with rfl | hold
    · exact absurd hle (Nat.not_succ_le_self _)
    · exact ⟨n', hold, rfl, id⟩
  · intro _ hs n' hn'
    rcases hmem n' hn' with rfl | hold
    · intro hended
      cases hended
    · exact hs n' hold

/-! ### New groups and lost ones -/

/-- Nodes may be lost, moved to another group or put in another order. -/
lemma Keeps.of_subperm (hgroups : (s'.groups.map Group.id).Subperm (s.groups.map Group.id))
    (hnodes : s'.nodes.Subperm s.nodes) (hnextId : s'.nextId = s.nextId)
    (hseq : s'.lastSeq = s.lastSeq) : Keeps C s s' := by
  refine ⟨Nat.le_of_eq hnextId.symm, hseq, fun hs => ?_, ?_, fun _ hs n hn => ?_⟩
  · obtain ⟨ids, hperm, hsub⟩ := hgroups
    obtain ⟨kept, hperm', hsub'⟩ := hnodes
    refine ⟨?_, ?_, ?_, ?_, ?_⟩
    · exact hperm.nodup_iff.mp (hsub.nodup hs.groupIds)
    · intro g hg
      have hid := hsub.subset (hperm.symm.subset (List.mem_map_of_mem (f := Group.id) hg))
      obtain ⟨g₀, hg₀, heq⟩ := List.mem_map.mp hid
      rw [hnextId, ← heq]
      exact hs.groupLe g₀ hg₀
    · exact (hperm'.map Node.id).nodup_iff.mp ((hsub'.map Node.id).nodup hs.nodeIds)
    · intro n hn
      rw [hnextId]
      exact hs.nodeLe n (hsub'.subset (hperm'.symm.subset hn))
    · exact (hperm'.filterMap Node.toolCall).nodup_iff.mp
        ((hsub'.filterMap Node.toolCall).nodup hs.calls)
  · intro n hn _
    exact ⟨n, hnodes.subset hn, rfl, id⟩
  · exact hs n (hnodes.subset hn)

lemma Keeps.insert {g : Group ν} (hgroups : s'.groups.Perm (g :: s.groups))
    (hnodes : g.nodes = []) (hid : g.id = s.nextId + 1) (hnextId : s'.nextId = s.nextId + 1)
    (hseq : s'.lastSeq = s.lastSeq) : Keeps C s s' := by
  have hperm : s'.nodes.Perm s.nodes := by
    have h := hgroups.flatMap_right Group.nodes
    rwa [List.flatMap_cons, hnodes, List.nil_append] at h
  refine ⟨by omega, hseq, fun hs => ⟨?_, ?_, ?_, ?_, ?_⟩, ?_, fun _ hs n hn => ?_⟩
  · rw [(hgroups.map Group.id).nodup_iff, List.map_cons, List.nodup_cons]
    refine ⟨fun hmem => ?_, hs.groupIds⟩
    obtain ⟨g₀, hg₀, heq⟩ := List.mem_map.mp hmem
    have hle := hs.groupLe g₀ hg₀
    omega
  · intro g₀ hg₀
    rcases List.mem_cons.mp (hgroups.subset hg₀) with rfl | hold
    · omega
    · have hle := hs.groupLe g₀ hold
      omega
  · exact (hperm.map Node.id).nodup_iff.mpr hs.nodeIds
  · intro n hn
    have hle := hs.nodeLe n (hperm.subset hn)
    omega
  · exact (hperm.filterMap Node.toolCall).nodup_iff.mpr hs.calls
  · intro n hn _
    exact ⟨n, hperm.subset hn, rfl, id⟩
  · exact hs n (hperm.subset hn)

/-! ### Tools and messages -/

variable [Numeric ν] (R : Redaction ν)

lemma Within.tool (s : ExecutionTraceState ν) (g : Nat) (call : Option String)
    (initial : TraceStatus) : Within C s (Redaction.tool s g call initial).1 := by
  unfold Redaction.tool
  split
  · exact .refl C s
  · rename_i hnone
    refine .add s g .tool initial call ?_
    rintro c - rfl n hn hc
    have hn' := List.find?_eq_none.mp hnone n hn
    obtain ⟨hkind, hcall⟩ : n.kind = .tool ∧ n.call = some c := by
      simpa [Node.toolCall] using hc
    simp [hkind, hcall] at hn'

lemma toolTiming_becomes {n n' : Node ν} (h : n.Becomes C n') (value : Value ν) :
    n.Becomes C (toolTiming n' value) := by
  unfold toolTiming
  split
  · split
    · exact h
    · refine ⟨h.id, h.toolCall, h.ended, fun hC hn hended => ?_⟩
      have hrested := h.rested hC hn hended
      simpa [show n'.ended = true from hended] using hrested
  · exact h

lemma tame_withResult (r : Value ν) (slot : Option String) : Tame C (R.withResult r slot) := by
  intro n
  apply toolTiming_becomes
  refine ⟨rfl, rfl, fun _ => rfl, fun _ _ _ => ?_⟩
  show (if (r.get "isError").isTrue then TraceStatus.failed else .completed) ≠ .running
  split <;> decide

lemma tame_withUser (r : Value ν) (slot : Option String) : Tame C (R.withUser r slot) := by
  intro n
  exact ⟨rfl, rfl, fun h => h, fun _ _ _ => by simp [Redaction.withUser]⟩

omit [Numeric ν] in
lemma status_ne_running {value aborted : Value ν} (h : value.isText "running" = false) :
    status value aborted ≠ .running := by
  unfold status
  rw [h]
  repeat' split
  all_goals simp_all

/-- A message that is over may say that it runs, by its stop reason only. -/
lemma tame_withAssistant (r : Value ν) (isEnd : Bool) (slot : Option String)
    (hC : C → isEnd = true → (r.get "stopReason").isText "running" = false) :
    Tame C (R.withAssistant r isEnd slot) := by
  intro n
  refine ⟨rfl, rfl, fun h => by simp [Redaction.withAssistant, h], fun hc hn hended => ?_⟩
  simp only [Redaction.withAssistant] at hended ⊢
  split
  · rename_i hend
    have hstop := hC hc (Bool.and_eq_true_iff.mp hend).1
    split
    · split
      · decide
      · split <;> decide
    · exact status_ne_running hstop
  · rename_i hnot
    have hold : n.ended = true := by
      rw [Bool.not_eq_true] at hnot
      rw [hnot, Bool.or_false] at hended
      exact hended
    simpa [hold] using hn hold

lemma tame_withExecution (event : SeqEvent ν) : Tame C (R.withExecution event) := by
  intro n
  unfold Redaction.withExecution
  dsimp only
  split
  · rename_i hwrite
    apply toolTiming_becomes
    refine ⟨rfl, rfl, fun h => by simp [h], fun _ _ hended => ?_⟩
    have hend : (event.type == "tool_execution_end") = true := by
      simp only [Bool.or_eq_true, Bool.not_eq_true'] at hwrite hended
      rcases hended with hended | hend
      · exact hwrite.resolve_left (by simp [hended])
      · exact hend
    show (if (event.type == "tool_execution_end") = true then
      if (event.get "isError").isTrue then TraceStatus.failed else .completed else .running) ≠ .running
    rw [if_pos hend]
    split <;> decide
  · exact ⟨rfl, rfl, fun h => h, fun _ hn => hn⟩

omit [Numeric ν] in
lemma tame_stop {status : TraceStatus} (hstatus : status ≠ .running) :
    Tame C (Node.stop (ν := ν) status) := by
  intro n
  unfold Node.stop
  split
  · refine ⟨rfl, rfl, fun h => h, fun _ _ _ => ?_⟩
    dsimp only
    split
    · decide
    · exact hstatus
  · exact .refl C n

lemma Within.messageCall (owner parentId : Nat) (s : ExecutionTraceState ν) (c : Value ν) :
    Within C s (R.messageCall owner parentId s c) := by
  unfold Redaction.messageCall
  split
  · exact .refl C s
  · refine (Within.tool s owner _ _).trans (.edit (fun t => ?_) _ _)
    apply toolTiming_becomes
    exact ⟨rfl, rfl, fun h => h, fun _ hn => hn⟩

omit [Numeric ν] in
lemma Within.foldl {α : Type*} {f : ExecutionTraceState ν → α → ExecutionTraceState ν}
    (hf : ∀ s a, Within C s (f s a)) (s : ExecutionTraceState ν) (items : List α) :
    Within C s (items.foldl f s) := by
  induction items generalizing s with
  | nil => exact .refl C s
  | cons a items ih => exact (hf s a).trans (ih (f s a))

/-- The messages that are over do not say that they run. -/
def IsNative (r : Value ν) : Prop :=
  (r.get "role").isText "assistant" → (r.get "stopReason").isText "running" = false

lemma Within.resultNode (s : ExecutionTraceState ν) (r : Value ν) (g : Nat)
    (slot : Option String) : Within C s (R.resultNode s r g slot).1 := by
  unfold Redaction.resultNode
  split
  · exact .tool s g _ _
  · split
    · exact .refl C s
    · exact .add s g _ _ none (by simp)

lemma Within.messageNode (s : ExecutionTraceState ν) (r : Value ν) (g : Nat) (isEnd : Bool)
    (slot : Option String) (current : Option Nat) :
    Within C s (R.messageNode s r g isEnd slot current).1 := by
  unfold Redaction.messageNode
  split
  · exact .refl C s
  · exact .add s g _ _ none (by simp)

lemma Within.markMoved (s : ExecutionTraceState ν) (owner g : Nat) (slot : Option String) :
    Within C s (Redaction.markMoved s owner g slot) := by
  unfold Redaction.markMoved
  split
  · exact (Within.markPartial s owner).trans (.markPartial _ g)
  · exact .refl C s

lemma Within.message (s : ExecutionTraceState ν) (r : Value ν) (g : Nat) (isEnd : Bool)
    (slot : Option String) (current : Option Nat) (hC : C → isEnd = true → IsNative r) :
    Within C s (R.message s r g isEnd slot current).1 := by
  unfold Redaction.message
  split
  · exact (Within.resultNode R s r g slot).trans (.edit (tame_withResult R r slot) _ _)
  · split
    · rename_i hrole
      have hnode := Within.messageNode (C := C) R s r g isEnd slot current
      generalize R.messageNode s r g isEnd slot current = found at hnode ⊢
      obtain ⟨s₀, id⟩ := found
      dsimp -zeta only
      extract_lets owner s₁ s₂ s₃
      have hmoved : Within C s s₁ := hnode.trans (.markMoved s₀ owner g slot)
      split
      · exact hmoved.trans (.edit (tame_withUser R r slot) s₁ id)
      · rename_i huser
        have hassistant : (r.get "role").isText "assistant" = true := by
          simpa [huser] using hrole
        have hedit : Within C s₁ s₂ := .edit (tame_withAssistant R r isEnd slot
          fun hc hend => hC hc hend hassistant) s₁ id
        have hclip : Within C s₂ s₃ := .of_groups rfl rfl rfl rfl
        have hcalls := Within.foldl (fun s c => Within.messageCall (C := C) R owner id s c) s₃ (callsOf r)
        exact ((hmoved.trans hedit).trans hclip).trans hcalls
    · exact .refl C s

end ExecutionTrace
