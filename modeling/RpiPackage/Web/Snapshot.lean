import RpiPackage.Web.Advance

/-!
# Settlements and snapshots

A settlement and a page of messages advance the trace: ids stay apart, what has ended does not run
again, and no group runs but the active one.
-/

namespace ExecutionTrace

open Js (Value Numeric)
open ExecutionTraceState

variable {ν : Type*} {C : Prop} {s s' : ExecutionTraceState ν} [Numeric ν] (R : Redaction ν)

/-! ### Settlement -/

/-- A run is settled as completed, aborted, failed, declined or in error. -/
def Settles (event : Value ν) : Prop :=
  ∃ outcome ∈ ["completed", "aborted", "failed", "declined", "error"],
    event.get "outcome" = .string outcome

omit [Numeric ν] in
lemma Settles.status_ne {event : Value ν} (h : Settles event) :
    status (event.get "outcome") (event.get "aborted") ≠ .running := by
  obtain ⟨outcome, houtcome, heq⟩ := h
  apply status_ne_running
  rw [heq]
  simp only [List.mem_cons, List.not_mem_nil, or_false] at houtcome
  rcases houtcome with rfl | rfl | rfl | rfl | rfl <;> simp

omit [Numeric ν] in
lemma Within.settlementNode (s : ExecutionTraceState ν) (g : Nat) (status : TraceStatus) :
    Within C s (Redaction.settlementNode s g status).1 := by
  unfold Redaction.settlementNode
  dsimp only
  split
  · exact .refl C s
  · exact .add s g _ _ none (by simp)

/-- The group that is settled, if any, ran; after it no other than the active one does. -/
lemma settle_spec {event : Value ν} (h : Settles event) (s : ExecutionTraceState ν) (g : Nat) :
    Keeps C s (R.settle s g event) ∧
      (Sound s → CurrentBut g s → Current (R.settle s g event)) := by
  unfold Redaction.settle
  dsimp -zeta only
  extract_lets status s₁ runId s₂ s₃
  have hstatus : status ≠ .running := h.status_ne
  have hupdate : Keeps C s s₁ := .updateGroup (f := fun g => { g with status })
    (fun _ => .of_nodes rfl rfl) s g
  have hcurrent : Sound s → CurrentBut g s → Current s₁ ∧ ∀ item ∈ s₁.groups,
      item.status = .running → item.id ≠ g := by
    intro hs hc
    refine ⟨fun item hitem hrun => ?_, fun item hitem hrun => ?_⟩
    · rcases First.mem_update hs.groupIds hitem with ⟨hold, hne⟩ | ⟨_, -, -, rfl⟩
      · exact hc item hold hrun hne
      · exact absurd hrun hstatus
    · rcases First.mem_update hs.groupIds hitem with ⟨-, hne⟩ | ⟨_, -, -, rfl⟩
      · exact hne
      · exact absurd hrun hstatus
  have hnode := Within.settlementNode (C := C) s₁ g status
  have hedit : Within C (Redaction.settlementNode s₁ g status).1 s₂ := by
    apply Within.edit
    intro n
    exact ⟨rfl, rfl, fun h => h, fun _ _ _ => hstatus⟩
  have hstop : Within C s₂ s₃ := by
    refine .updateGroup (f := fun g => { g with nodes := g.nodes.map (Node.stop status) })
      (fun item => ⟨rfl, ?_⟩) (fun _ => rfl) s₂ g
    exact List.forall₂_map_right_iff.mpr (List.forall₂_same.mpr fun n _ => tame_stop hstatus n)
  have hwithin : Within C s₁ s₃ := (hnode.trans hedit).trans hstop
  split
  · rename_i hactive
    refine ⟨(hupdate.trans hwithin.toKeeps).trans (.of_groups rfl rfl rfl), fun hs hc => ?_⟩
    obtain ⟨hc₁, hnot⟩ := hcurrent hs hc
    intro item hitem hrun
    have hitem' : (item.id, item.status) ∈ s₁.outline :=
      hwithin.outline ▸ List.mem_map_of_mem (f := fun g => (g.id, g.status)) hitem
    obtain ⟨item', hmem, heq⟩ := List.mem_map.mp hitem'
    obtain ⟨hid, hst⟩ := Prod.mk.inj heq
    have hrun' : item'.status = .running := hst.trans hrun
    have hactive' : s₁.active = some g := hwithin.active ▸ hactive
    exact absurd (Option.some.inj ((hc₁ item' hmem hrun').symm.trans hactive')) (hnot item' hmem hrun')
  · exact ⟨hupdate.trans hwithin.toKeeps, fun hs hc => hwithin.current (hcurrent hs hc).1⟩

omit [Numeric ν] in
lemma Current.but (h : Current s) (g : Nat) : CurrentBut g s := fun item hitem hrun _ => h item hitem hrun

lemma Advances.settle {event : Value ν} (h : Settles event) (s : ExecutionTraceState ν) (g : Nat) :
    Advances C s (R.settle s g event) :=
  ⟨(settle_spec R h s g).1, fun hs hc => (settle_spec (C := C) R h s g).2 hs (hc.but g)⟩

/-! ### Pages -/

omit [Numeric ν] in
lemma insertBeforeLive_perm (history : Group ν) (groups : List (Group ν)) :
    (Redaction.insertBeforeLive history groups).Perm (history :: groups) := by
  induction groups with
  | nil => exact .refl _
  | cons g groups ih =>
    unfold Redaction.insertBeforeLive
    split
    · exact .refl _
    · exact (ih.cons g).trans (.swap history g groups)

omit [Numeric ν] in
lemma Advances.of_perm (hperm : s'.groups.Perm s.groups) (hnextId : s'.nextId = s.nextId)
    (hseq : s'.lastSeq = s.lastSeq) (hactive : s'.active = s.active) : Advances C s s' := by
  refine ⟨.of_subperm (hperm.map _).subperm (hperm.flatMap_right _).subperm hnextId hseq,
    fun _ hs g hg hrun => ?_⟩
  rw [hactive]
  exact hs g (hperm.subset hg) hrun

omit [Numeric ν] in
lemma Advances.history (s : ExecutionTraceState ν) (prepend : Bool) :
    Advances C s (s.group .history prepend).1 := by
  refine ⟨.group s .history prepend, fun _ hs => ?_⟩
  obtain ⟨g, hperm, -, -, hsource, -⟩ := group_perm s .history prepend
  intro g' hg' hrun
  rcases List.mem_cons.mp (hperm.subset hg') with rfl | hold
  · cases hsource hrun
  · exact hs g' hold hrun

omit [Numeric ν] in
lemma Advances.historyGroup (s : ExecutionTraceState ν) (mode : Mode) :
    Advances C s (Redaction.historyGroup s mode).1 := by
  unfold Redaction.historyGroup
  have hgroup := Advances.history (C := C) s (mode == .older)
  generalize s.group .history (mode == .older) = r at hgroup ⊢
  obtain ⟨s₁, history⟩ := r
  dsimp -zeta only at hgroup ⊢
  extract_lets s₂
  have hmark : Advances C s₁ s₂ := by
    simp only [s₂]
    split
    · exact (Within.markPartial s₁ _).advances
    · exact .refl C s₁
  split
  · exact hgroup.trans hmark
  · split
    · rename_i last hlast
      obtain ⟨before, hbefore⟩ := List.getLast?_eq_some_iff.mp hlast
      refine (hgroup.trans hmark).trans (.of_perm ?_ rfl rfl rfl)
      refine (insertBeforeLive_perm last s₂.groups.dropLast).trans ?_
      rw [hbefore, List.dropLast_concat]
      exact @List.perm_append_comm _ [last] _
    · exact hgroup.trans hmark

lemma Advances.pageMessage (mode : Mode) (scope : String) (acc : ExecutionTraceState ν × Option Nat)
    (item : Value ν × Nat) (hC : C → IsNative item.1) :
    Advances C acc.1 (R.pageMessage mode scope acc item).1 := by
  obtain ⟨s, history⟩ := acc
  unfold Redaction.pageMessage
  dsimp only
  split
  · split
    · exact (Within.message R s item.1 _ true _ none fun hc _ => hC hc).advances.trans (.bound C _)
    · split
      · exact (Within.message R s item.1 _ true _ none fun hc _ => hC hc).advances.trans (.bound C _)
      · have hmessage := Within.message (C := C) R (Redaction.historyGroup s mode).1 item.1
          (Redaction.historyGroup s mode).2 true (some s!"{scope}:{item.2}") none fun hc _ => hC hc
        exact ((Advances.historyGroup s mode).trans hmessage.advances).trans (.bound C _)
  · exact .refl C s

lemma Advances.page (mode : Mode) (scope : String) (acc : ExecutionTraceState ν × Option Nat)
    (items : List (Value ν × Nat)) (hC : C → ∀ item ∈ items, IsNative item.1) :
    Advances C acc.1 (items.foldl (R.pageMessage mode scope) acc).1 := by
  induction items generalizing acc with
  | nil => exact .refl C _
  | cons item items ih =>
    have hitem := Advances.pageMessage (C := C) R mode scope acc item
      fun hc => hC hc item List.mem_cons_self
    exact hitem.trans (ih _ fun hc item' hitem' => hC hc item' (List.mem_cons_of_mem _ hitem'))

omit [Numeric ν] in
lemma Advances.markLatest (s : ExecutionTraceState ν) (g : Nat) :
    Advances C s (s.updateGroup g fun g => { g with
      nodes := First.update (fun n => n.kind == .settlement)
        (fun n => { n with slot := some "latest-settlement" }) g.nodes }) := by
  refine (Within.updateGroup (f := fun g => { g with
    nodes := First.update (fun n => n.kind == .settlement)
      (fun n => { n with slot := some "latest-settlement" }) g.nodes })
    (fun item => ⟨rfl, ?_⟩) (fun _ => rfl) s g).advances
  exact First.forall₂_update (fun n _ => .refl C n) fun n _ _ => ⟨rfl, rfl, fun h => h, fun _ h => h⟩

omit [Numeric ν] in
lemma Advances.latestGroup (s : ExecutionTraceState ν) (runId : Option String) :
    Advances C s (Redaction.latestGroup s runId).1 := by
  unfold Redaction.latestGroup
  extract_lets found
  clear_value found
  cases found with
  | some g => exact .refl C s
  | none =>
    have hrun := Within.updateGroup (C := C) (f := fun g : Group ν => { g with runId })
      (fun _ => .of_nodes rfl rfl) (fun _ => rfl) (s.group .history false).1 (s.group .history false).2
    exact (Advances.history s false).trans hrun.advances

lemma Advances.latestSettlement {latest : Value ν} (h : Settles latest)
    (s : ExecutionTraceState ν) : Advances C s (R.latestSettlement s latest) := by
  unfold Redaction.latestSettlement
  have hsettle := (Advances.latestGroup (C := C) s (R.identity (latest.get "runId"))).trans
    (.settle R h _ (Redaction.latestGroup s (R.identity (latest.get "runId"))).2)
  show Advances C s (if _ then _ else _)
  split
  · exact hsettle.trans (.markLatest _ _)
  · exact hsettle

/-- The messages that a frame brings. -/
def Frame.items (frame : Frame ν) : List (Value ν) := frame.messages.asArray.getD []

/-- What a frame settles, if anything, is settled in one of the known ways. -/
def Frame.Settles (frame : Frame ν) : Prop :=
  ∀ field fields, frame.latestSettlement = .object (field :: fields) →
    ExecutionTrace.Settles frame.latestSettlement

lemma Advances.frameSettlement {frame : Frame ν} (h : frame.Settles) (s : ExecutionTraceState ν)
    (mode : Mode) : Advances C s (R.frameSettlement s frame mode) := by
  unfold Redaction.frameSettlement
  split
  · exact .refl C s
  · rename_i field fields _ heq
    have hsettles := h field fields heq
    rw [heq] at hsettles
    exact .latestSettlement R hsettles s
  · exact .refl C s

lemma Advances.applyTraceSnapshot {frame : Frame ν} (h : frame.Settles)
    (hC : C → ∀ r ∈ frame.items, IsNative r) (s : ExecutionTraceState ν) (mode : Mode) :
    ∃ s', Advances C s s' ∧ R.applyTraceSnapshot s frame mode = s'.bound := by
  unfold Redaction.applyTraceSnapshot
  extract_lets messages start s₁ scope s₂
  refine ⟨R.frameSettlement s₂ frame mode, ?_, rfl⟩
  have hopen : Within C s s₁ := .of_groups rfl rfl rfl rfl
  have hpage : Advances C s₁ s₂ := by
    refine Advances.page R mode scope (s₁, none) _ fun hc item hitem => hC hc item.1 ?_
    exact List.fst_mem_of_mem_zipIdx (List.mem_of_mem_drop hitem)
  exact (hopen.advances.trans hpage).trans (.frameSettlement R h s₂ mode)

end ExecutionTrace
