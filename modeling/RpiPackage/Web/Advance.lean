import Mathlib.Data.List.Flatten
import RpiPackage.Web.Kept

/-!
# Events and snapshots

An event or a snapshot keeps the ids apart and lets no group run but the active one.
-/

namespace ExecutionTrace

open Js (Value Numeric)
open ExecutionTraceState

variable {ν : Type*} {C : Prop} {s s' s'' : ExecutionTraceState ν}

/-- A group that runs is the active one. -/
def Current (s : ExecutionTraceState ν) : Prop :=
  ∀ g ∈ s.groups, g.status = .running → s.active = some g.id

/-- Only this group may run without being active. -/
def CurrentBut (id : Nat) (s : ExecutionTraceState ν) : Prop :=
  ∀ g ∈ s.groups, g.status = .running → g.id ≠ id → s.active = some g.id

def Quiet (s : ExecutionTraceState ν) : Prop := ∀ g ∈ s.groups, g.status ≠ .running

structure Advances (C : Prop) (s s' : ExecutionTraceState ν) : Prop extends Keeps C s s' where
  current : Sound s → Current s → Current s'

lemma current_iff : Current s ↔ ∀ p ∈ s.outline, p.2 = .running → s.active = some p.1 := by
  simp [Current, outline]

lemma Advances.refl (C : Prop) (s : ExecutionTraceState ν) : Advances C s s :=
  ⟨.refl C s, fun _ h => h⟩

lemma Advances.trans (h : Advances C s s') (h' : Advances C s' s'') : Advances C s s'' :=
  ⟨h.toKeeps.trans h'.toKeeps, fun hs hc => h'.current (h.sound hs) (h.current hs hc)⟩

lemma Within.current (h : Within C s s') (hs : Current s) : Current s' := by
  rw [current_iff, h.outline, h.active]
  exact current_iff.mp hs

lemma Within.advances (h : Within C s s') : Advances C s s' := ⟨h.toKeeps, fun _ => h.current⟩

/-- Without a running group that is active, no group runs. -/
lemma Current.quiet (h : Current s) (hnone : s.activeGroup = none) : Quiet s := by
  intro g hg hrun
  have hnot := List.find?_eq_none.mp hnone g hg
  simp [h g hg hrun, hrun] at hnot

lemma activeGroup_eq_some {g : Group ν} (h : s.activeGroup = some g) :
    g ∈ s.groups ∧ s.active = some g.id ∧ g.status = .running := by
  have hp := List.find?_some h
  simp only [Bool.and_eq_true, beq_iff_eq] at hp
  exact ⟨List.mem_of_find?_eq_some h, hp.1.symm, hp.2⟩

/-! ### The limits -/

lemma trim_ids (excess : Nat) (groups : List (Group ν)) :
    (trim excess groups).map (fun g => (g.id, g.status)) = groups.map fun g => (g.id, g.status) := by
  induction groups generalizing excess with
  | nil => rfl
  | cons g groups ih =>
    rw [trim]
    split
    · rfl
    · rw [List.map_cons, ih, List.map_cons]

lemma trim_nodes (excess : Nat) (groups : List (Group ν)) :
    ((trim excess groups).flatMap Group.nodes).Sublist (groups.flatMap Group.nodes) := by
  induction groups generalizing excess with
  | nil => exact .refl _
  | cons g groups ih =>
    rw [trim]
    split
    · exact .refl _
    · rw [List.flatMap_cons, List.flatMap_cons]
      exact (List.drop_sublist _ _).append (ih _)

lemma nodeCount_trim (excess : Nat) (groups : List (Group ν)) :
    nodeCount (trim excess groups) = nodeCount groups - excess := by
  induction groups generalizing excess with
  | nil => simp [trim, nodeCount]
  | cons g groups ih =>
    rw [trim]
    split
    · simp_all
    · have hrest := ih (excess - min excess g.nodes.length)
      simp only [nodeCount, List.map_cons, List.sum_cons, List.length_drop] at hrest ⊢
      omega

lemma nodeCount_eq (groups : List (Group ν)) :
    nodeCount groups = (groups.flatMap Group.nodes).length := List.length_flatMap.symm

lemma length_trim (excess : Nat) (groups : List (Group ν)) :
    (trim excess groups).length = groups.length := by
  simpa using congrArg List.length (trim_ids excess groups)

/-- What the limits leave of the groups. -/
lemma bound_groups (s : ExecutionTraceState ν) :
    ∃ kept excess, kept.Sublist s.groups ∧ kept.length ≤ MAX_GROUPS ∧
      nodeCount kept - excess ≤ MAX_NODES ∧
      s.bound.groups = (trim excess kept).filter s.isRetained := by
  refine ⟨_, _, (List.drop_sublist _ _).trans List.filter_sublist, ?_, ?_, rfl⟩
  · rw [List.length_drop]
    omega
  · omega

lemma bound_outline (s : ExecutionTraceState ν) : s.bound.outline.Sublist s.outline := by
  obtain ⟨kept, excess, hsub, -, -, heq⟩ := bound_groups s
  rw [outline, heq]
  refine (List.filter_sublist.map _).trans ?_
  rw [trim_ids]
  exact hsub.map _

lemma bound_nodes (s : ExecutionTraceState ν) : s.bound.nodes.Sublist s.nodes := by
  obtain ⟨kept, excess, hsub, -, -, heq⟩ := bound_groups s
  rw [nodes, heq]
  exact ((List.filter_sublist.flatMap _).trans (trim_nodes excess kept)).trans (hsub.flatMap _)

lemma length_bound_groups (s : ExecutionTraceState ν) : s.bound.groups.length ≤ MAX_GROUPS := by
  obtain ⟨kept, excess, -, hlength, -, heq⟩ := bound_groups s
  rw [heq]
  refine Nat.le_trans (List.length_filter_le _ _) ?_
  rwa [length_trim]

lemma length_bound_nodes (s : ExecutionTraceState ν) : s.bound.nodes.length ≤ MAX_NODES := by
  obtain ⟨kept, excess, -, -, hcount, heq⟩ := bound_groups s
  rw [nodes, heq]
  refine Nat.le_trans (List.filter_sublist.flatMap _).length_le ?_
  rwa [← nodeCount_eq, nodeCount_trim]

lemma mem_ids_of_outline (hsub : s'.outline.Sublist s.outline) :
    (s'.groups.map Group.id).Sublist (s.groups.map Group.id) := by
  rw [← outline_ids, ← outline_ids]
  exact hsub.map _

lemma Advances.bound (C : Prop) (s : ExecutionTraceState ν) : Advances C s s.bound := by
  refine ⟨.of_subperm (mem_ids_of_outline (bound_outline s)).subperm (bound_nodes s).subperm rfl rfl,
    fun _ hs => ?_⟩
  intro g hg hrun
  have hmem : (g.id, g.status) ∈ s.outline :=
    (bound_outline s).subset (List.mem_map_of_mem (f := fun g => (g.id, g.status)) hg)
  have hactive := current_iff.mp hs _ hmem hrun
  show s.active.filter _ = some g.id
  rw [hactive, Option.filter_some, if_pos]
  exact List.any_eq_true.mpr ⟨g, hg, by simp⟩

/-- What a state refers to is there. -/
structure Refers (s : ExecutionTraceState ν) : Prop where
  active : ∀ id, s.active = some id → ∃ g ∈ s.groups, g.id = id
  user : ∀ id, s.user = some id → ∃ n ∈ s.nodes, n.id = id
  assistant : ∀ id, s.assistant = some id → ∃ n ∈ s.nodes, n.id = id

lemma exists_of_find {id : Nat} (h : (s.find (some id)).isSome = true) : ∃ n ∈ s.nodes, n.id = id := by
  obtain ⟨n, hn⟩ := Option.isSome_iff_exists.mp h
  refine ⟨n, List.mem_of_find?_eq_some hn, ?_⟩
  simpa using List.find?_some hn

lemma refers_bound (s : ExecutionTraceState ν) : Refers s.bound := by
  refine ⟨fun id h => ?_, fun id h => ?_, fun id h => ?_⟩
  · obtain ⟨-, hany⟩ := Option.filter_eq_some_iff.mp h
    obtain ⟨g, hg, hid⟩ := List.any_eq_true.mp hany
    exact ⟨g, hg, by simpa using hid⟩
  · obtain ⟨huser, hfind⟩ := Option.filter_eq_some_iff.mp h
    rw [huser] at hfind
    exact exists_of_find hfind
  · obtain ⟨hassistant, hfind⟩ := Option.filter_eq_some_iff.mp h
    rw [hassistant] at hfind
    exact exists_of_find hfind

/-! ### Groups -/

lemma group_perm (s : ExecutionTraceState ν) (source : Source) (prepend : Bool) :
    ∃ g : Group ν, (s.group source prepend).1.groups.Perm (g :: s.groups) ∧ g.nodes = [] ∧
      g.id = s.nextId + 1 ∧ (g.status = .running → source = .live) ∧
      g.id = (s.group source prepend).2 := by
  refine ⟨⟨s.nextId + 1, source, source == .history, none,
    if source = .live then .running else .unknown, []⟩, ?_, rfl, rfl, ?_, rfl⟩
  · cases prepend
    · exact List.perm_append_comm
    · exact List.Perm.refl _
  · cases source <;> simp

lemma Keeps.group (s : ExecutionTraceState ν) (source : Source) (prepend : Bool) :
    Keeps C s (s.group source prepend).1 := by
  obtain ⟨g, hperm, hnodes, hid, -, -⟩ := group_perm s source prepend
  exact .insert hperm hnodes hid rfl rfl

/-- A new group may run, the others do as before. -/
lemma currentBut_group (hs : Current s) (source : Source) (prepend : Bool) :
    CurrentBut (s.group source prepend).2 (s.group source prepend).1 := by
  obtain ⟨g, hperm, -, -, -, hid⟩ := group_perm s source prepend
  intro g' hg' hrun hne
  rcases List.mem_cons.mp (hperm.subset hg') with rfl | hold
  · exact absurd hid hne
  · exact hs g' hold hrun

lemma currentBut_iff {id : Nat} : CurrentBut id s ↔
    ∀ p ∈ s.outline, p.2 = .running → p.1 ≠ id → s.active = some p.1 := by
  simp [CurrentBut, outline]

lemma CurrentBut.within {id : Nat} (h : CurrentBut id s) (hw : Within C s s') :
    CurrentBut id s' := by
  rw [currentBut_iff, hw.outline, hw.active]
  exact currentBut_iff.mp h

/-- No other group than this one runs. -/
def OnlyRuns (id : Nat) (s : ExecutionTraceState ν) : Prop :=
  ∀ g ∈ s.groups, g.status = .running → g.id = id

variable {id : Nat}

lemma onlyRuns_iff : OnlyRuns id s ↔ ∀ p ∈ s.outline, p.2 = .running → p.1 = id := by
  simp [OnlyRuns, outline]

lemma Quiet.onlyRuns (h : Quiet s) : OnlyRuns id s := fun g hg hrun => absurd hrun (h g hg)

lemma Current.onlyRuns (h : Current s) (hactive : s.active = some id) : OnlyRuns id s := by
  intro g hg hrun
  exact Option.some.inj ((h g hg hrun).symm.trans hactive)

lemma OnlyRuns.activate (h : OnlyRuns id s) (hgroups : s'.groups = s.groups)
    (hactive : s'.active = some id) : Current s' := by
  intro g hg hrun
  rw [h g (hgroups ▸ hg) hrun]
  exact hactive

lemma OnlyRuns.within (h : OnlyRuns id s) (hw : Within C s s') : OnlyRuns id s' := by
  rw [onlyRuns_iff, hw.outline]
  exact onlyRuns_iff.mp h

lemma onlyRuns_group (h : Quiet s) (source : Source) (prepend : Bool) :
    OnlyRuns (s.group source prepend).2 (s.group source prepend).1 := by
  obtain ⟨g, hperm, -, -, -, hid⟩ := group_perm s source prepend
  intro g' hg' hrun
  rcases List.mem_cons.mp (hperm.subset hg') with rfl | hold
  · exact hid
  · exact absurd hrun (h g' hold)

lemma Current.quiet_of_find (h : Current s)
    (hnone : (s.groups.find? fun g => some g.id == s.active) = none) : Quiet s := by
  intro g hg hrun
  have hnot := List.find?_eq_none.mp hnone g hg
  simp [h g hg hrun] at hnot

lemma Advances.liveGroup (C : Prop) (s : ExecutionTraceState ν) : Advances C s s.liveGroup.1 := by
  unfold ExecutionTraceState.liveGroup
  split
  · exact .refl C s
  · rename_i hnone
    have hmark := Within.markPartial (C := C) (s.group .live false).1 (s.group .live false).2
    refine ⟨((Keeps.group s .live false).trans hmark.toKeeps).trans (.of_groups rfl rfl rfl),
      fun _ hs => ?_⟩
    have honly := onlyRuns_group (hs.quiet_of_find hnone) .live false
    exact (honly.within hmark).activate rfl rfl

lemma Advances.contextGroup [Numeric ν] (s : ExecutionTraceState ν) (owner : Option Nat) :
    Advances C s (Redaction.contextGroup s owner).1 := by
  unfold Redaction.contextGroup
  split
  · exact .refl C s
  · exact .liveGroup C s

/-! ### The start of a run -/

lemma Within.setRunId (s : ExecutionTraceState ν) (runId : Option String) (g : Nat) :
    Within C s (s.updateGroup g fun g => { g with runId := runId <|> g.runId }) :=
  .updateGroup (f := fun g => { g with runId := runId <|> g.runId })
    (fun _ => .of_nodes rfl rfl) (fun _ => rfl) s g

lemma Keeps.resume (s : ExecutionTraceState ν) (runId : Option String) (g : Nat) :
    Keeps C s (Redaction.resume s runId g) :=
  (Within.setRunId s runId g).toKeeps.trans (.of_groups rfl rfl rfl)

lemma OnlyRuns.resume (h : OnlyRuns id s) (runId : Option String) :
    Current (Redaction.resume s runId id) :=
  (h.within (Within.setRunId (C := True) s runId id)).activate rfl rfl

lemma Keeps.resumable (s : ExecutionTraceState ν) (runId : Option String) :
    Keeps C s (Redaction.resumable s runId).1 := by
  unfold Redaction.resumable
  split
  · exact .refl C s
  · split
    · exact .updateGroup (f := fun g => { g with isPartial := true, status := .unknown })
        (fun _ => .of_nodes rfl rfl) s _
    · exact .refl C s

lemma mem_of_resumable {runId : Option String} {g : Group ν}
    (h : (Redaction.resumable s runId).2 = some g) : g ∈ (Redaction.resumable s runId).1.groups := by
  unfold Redaction.resumable at h ⊢
  cases hg : s.activeGroup with
  | none =>
    rw [hg] at h
    cases h
  | some g' =>
    rw [hg] at h
    dsimp only at h ⊢
    split at h
    · cases h
    · rename_i hsame
      cases h
      rw [if_neg hsame]
      exact (activeGroup_eq_some hg).1

/-- After it, a group runs only if it is the one to resume. -/
lemma resumable_cases (hs : Sound s) (hc : Current s) (runId : Option String) :
    (Redaction.resumable s runId).2 = none ∧ Quiet (Redaction.resumable s runId).1 ∨
      ∃ g, (Redaction.resumable s runId).2 = some g ∧
        OnlyRuns g.id (Redaction.resumable s runId).1 := by
  unfold Redaction.resumable
  cases hg : s.activeGroup with
  | none => exact .inl ⟨rfl, hc.quiet hg⟩
  | some g =>
    obtain ⟨-, hactive, -⟩ := activeGroup_eq_some hg
    dsimp only
    split
    · refine .inl ⟨rfl, fun g' hg' hrun => ?_⟩
      rcases First.mem_update hs.groupIds hg' with ⟨hold, hne⟩ | ⟨g'', -, -, rfl⟩
      · exact hne (Option.some.inj ((hc g' hold hrun).symm.trans hactive))
      · cases hrun
    · exact .inr ⟨g, rfl, hc.onlyRuns hactive⟩

/-- The nodes of the group that is joined go before those of the group that it joins. -/
lemma Keeps.joinGroup {g : Group ν} (hg : g ∈ s.groups) {known : Nat} (hne : known ≠ g.id) :
    Keeps C s (Redaction.joinGroup s g known) := by
  obtain ⟨left, right, hsplit⟩ := List.append_of_mem hg
  set others := s.groups.filter fun item => item.id != g.id with hothers
  have hgroups : (Redaction.joinGroup s g known).groups =
      First.update (fun item => item.id == known) (fun known => { known with
        nodes := g.nodes ++ known.nodes, isPartial := known.isPartial || g.isPartial }) others := by
    refine First.filter_update (fun _ => rfl) fun item hitem => ?_
    rw [beq_iff_eq.mp hitem]
    exact bne_iff_ne.mpr hne
  have hids : (Redaction.joinGroup s g known).groups.map Group.id = others.map Group.id := by
    rw [hgroups]
    exact First.map_update fun _ _ _ => rfl
  refine .of_subperm ?_ ?_ rfl rfl
  · rw [hids]
    exact (List.filter_sublist.map _).subperm
  · rw [nodes, hgroups]
    rcases First.update_cases (fun item : Group ν => item.id == known) (fun known => { known with
        nodes := g.nodes ++ known.nodes, isPartial := known.isPartial || g.isPartial }) others with
      ⟨-, heq⟩ | ⟨l, x, r, hlr, -, -, heq⟩
    · rw [heq]
      exact (List.filter_sublist.flatMap _).subperm
    · -- the joined nodes come from one group more than the others hold
      have hperm : (l ++ { x with
          nodes := g.nodes ++ x.nodes, isPartial := x.isPartial || g.isPartial } :: r).flatMap Group.nodes
            |>.Perm ((g :: others).flatMap Group.nodes) := by
        rw [hlr]
        simp only [List.flatMap_append, List.flatMap_cons, List.append_assoc]
        exact List.perm_append_comm_assoc _ _ _
      have hsub : (g :: others).Subperm s.groups := by
        refine ⟨left.filter (fun item => item.id != g.id) ++
          g :: right.filter fun item => item.id != g.id, ?_, ?_⟩
        · rw [hothers, hsplit, List.filter_append, List.filter_cons_of_neg (by simp)]
          exact List.perm_middle
        · rw [hsplit]
          exact List.filter_sublist.append (List.filter_sublist.cons_cons g)
      rw [heq]
      obtain ⟨kept, hkept, hsub⟩ := hsub
      exact ⟨kept.flatMap Group.nodes, (hkept.flatMap_right _).trans hperm.symm, hsub.flatMap _⟩

lemma OnlyRuns.joinGroup {g : Group ν} (h : OnlyRuns g.id s) (known : Nat) :
    Quiet (Redaction.joinGroup s g known) := by
  intro g' hg' hrun
  obtain ⟨hmem, hne⟩ := List.mem_filter.mp hg'
  have houtline : (g'.id, g'.status) ∈ s.outline := by
    have hmap : (First.update (fun item => item.id == known) (fun known => { known with
        nodes := g.nodes ++ known.nodes, isPartial := known.isPartial || g.isPartial })
        s.groups).map (fun g => (g.id, g.status)) = s.groups.map fun g => (g.id, g.status) :=
      First.map_update fun _ _ _ => rfl
    rw [outline, ← hmap]
    exact List.mem_map_of_mem (f := fun g => (g.id, g.status)) hmem
  have hid := onlyRuns_iff.mp h _ houtline hrun
  simp [show g'.id = g.id from hid] at hne

lemma Advances.agentStart (s : ExecutionTraceState ν) (runId : Option String) :
    Advances C s (Redaction.agentStart s runId) := by
  have hkeeps := Keeps.resumable (C := C) s runId
  have hmem : ∀ g, (Redaction.resumable s runId).2 = some g →
      g ∈ (Redaction.resumable s runId).1.groups := fun g => mem_of_resumable
  have hcases := fun (hs : Sound s) hc => resumable_cases hs hc runId
  unfold Redaction.agentStart
  generalize Redaction.resumable s runId = r at hkeeps hmem hcases ⊢
  obtain ⟨s₁, g⟩ := r
  dsimp only at hkeeps hmem hcases ⊢
  split
  · rename_i g known _
    split
    · rename_i hjoin
      have hne : known.id ≠ g.id := bne_iff_ne.mp (Bool.and_eq_true_iff.mp hjoin).1
      refine ⟨(hkeeps.trans (.joinGroup (hmem g rfl) hne)).trans (.resume _ runId known.id),
        fun hs hc => ?_⟩
      rcases hcases hs hc with ⟨hnone, -⟩ | ⟨_, heq, honly⟩
      · cases hnone
      · cases heq
        exact (honly.joinGroup known.id).onlyRuns.resume runId
    · refine ⟨hkeeps.trans (.resume s₁ runId g.id), fun hs hc => ?_⟩
      rcases hcases hs hc with ⟨hnone, -⟩ | ⟨_, heq, honly⟩
      · cases hnone
      · cases heq
        exact honly.resume runId
  · rename_i g _
    refine ⟨hkeeps.trans (.resume s₁ runId g.id), fun hs hc => ?_⟩
    rcases hcases hs hc with ⟨hnone, -⟩ | ⟨_, heq, honly⟩
    · cases hnone
    · cases heq
      exact honly.resume runId
  · rename_i known _
    refine ⟨hkeeps.trans (.resume s₁ runId known.id), fun hs hc => ?_⟩
    rcases hcases hs hc with ⟨-, hquiet⟩ | ⟨_, heq, -⟩
    · exact hquiet.onlyRuns.resume runId
    · cases heq
  · have hgroup := Keeps.group (C := C) s₁ .live false
    have hclear : Keeps C (s₁.group .live false).1
        { (s₁.group .live false).1 with user := none, assistant := none } := .of_groups rfl rfl rfl
    refine ⟨((hkeeps.trans hgroup).trans hclear).trans (.resume _ runId _), fun hs hc => ?_⟩
    rcases hcases hs hc with ⟨-, hquiet⟩ | ⟨_, heq, -⟩
    · have honly := onlyRuns_group hquiet .live false
      exact OnlyRuns.resume (s := { (s₁.group .live false).1 with user := none, assistant := none })
        honly runId
    · cases heq

end ExecutionTrace
