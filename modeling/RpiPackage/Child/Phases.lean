import RpiPackage.Child.Live

/-!
# The phases of a child

Phases are merged one by one into a bounded window. The window is a lifecycle: its numbers and
indices rise, nothing follows the closing phase and only the closing phase follows the final one.
Since the window forgets its oldest phases, a kind that stands early in a lifecycle can come back
once it has been forgotten.
-/

namespace Child

open Result Service

/-- One phase can stand before another one. -/
structure Before (p q : ChildPhase) : Prop where
  seq : p.seq < q.seq
  index : p.index < q.index
  notClosed : p.phase ≠ .closed
  final : p.phase = .final → q.phase = .closed

lemma outOfOrder_eq_false {p q : ChildPhase} : outOfOrder p q = false ↔ Before p q := by
  unfold outOfOrder
  constructor
  · intro h
    simp only [Bool.or_eq_false_iff, decide_eq_false_iff_not, beq_eq_false_iff_ne,
      Bool.and_eq_false_iff, bne_eq_false_iff_eq, UInt64.not_le] at h
    exact ⟨h.1.1.1, h.1.1.2, h.1.2, fun hfinal => h.2.resolve_left (not_not_intro hfinal)⟩
  · rintro ⟨hseq, hindex, hclosed, hfinal⟩
    simp only [Bool.or_eq_false_iff, decide_eq_false_iff_not, beq_eq_false_iff_ne,
      Bool.and_eq_false_iff, bne_eq_false_iff_eq, UInt64.not_le]
    refine ⟨⟨⟨hseq, hindex⟩, hclosed⟩, ?_⟩
    by_cases h : p.phase = .final
    · exact .inr (hfinal h)
    · exact .inl h

lemma Before.trans {p q r : ChildPhase} (h : Before p q) (h' : Before q r) : Before p r :=
  ⟨UInt64.lt_trans h.seq h'.seq, UInt64.lt_trans h.index h'.index, h.notClosed,
    fun hfinal => absurd (h.final hfinal) h'.notClosed⟩

lemma pairwise_of_ordered {phases : List ChildPhase} (h : anyOutOfOrder phases = false) :
    phases.Pairwise Before := by
  have : Trans Before Before Before := ⟨Before.trans⟩
  rw [← List.isChain_iff_pairwise]
  induction phases with
  | nil => exact .nil
  | cons p phases ih =>
    cases phases with
    | nil => exact .singleton p
    | cons q phases =>
      rw [anyOutOfOrder, Bool.or_eq_false_iff, outOfOrder_eq_false] at h
      exact .cons_cons h.1 (ih h.2)

/-- The oldest of three phases is neither final nor closed. -/
lemma not_terminal_of_three {p q r : ChildPhase} {phases : List ChildPhase}
    (h : (p :: q :: r :: phases).Pairwise Before) : p.phase ≠ .final ∧ p.phase ≠ .closed := by
  obtain ⟨hp, hq⟩ := List.pairwise_cons.mp h
  have hpq := hp q List.mem_cons_self
  have hqr := (List.pairwise_cons.mp hq).1 r List.mem_cons_self
  exact ⟨fun hfinal => hqr.notClosed (hpq.final hfinal), hpq.notClosed⟩

lemma newest_eq_none {phases : List ChildPhase} : newest phases = none ↔ phases = [] := by
  have hsome : ∀ (phases : List ChildPhase) (best : ChildPhase), ∃ p, phases.foldl
      (fun best p => if best.all (fun b => decide (b.seq ≤ p.seq)) then some p else best)
      (some best) = some p := by
    intro phases
    induction phases with
    | nil => exact fun best => ⟨best, rfl⟩
    | cons p phases ih =>
      intro best
      rw [List.foldl_cons]
      split
      · exact ih p
      · exact ih best
  cases phases with
  | nil => exact ⟨fun _ => rfl, fun _ => rfl⟩
  | cons p phases =>
    obtain ⟨q, hq⟩ := hsome phases p
    rw [newest, List.foldl_cons]
    simp [hq]

/-! ### One merge -/

/-- The kinds that a window holds once. -/
def singleKinds : List ChildPhaseKind := [.requested, .prepared, .final, .closed]

def countKind (kind : ChildPhaseKind) (phases : List ChildPhase) : Nat :=
  phases.countP fun p => p.phase == kind

/-- A merge knows the phase already, or puts it into the window and forgets the oldest. -/
lemma merge_spec {phases phases' : List ChildPhase} {p : ChildPhase}
    {disposition : ReplayDisposition} (h : merge phases p = .ok (disposition, phases')) :
    disposition = .duplicate ∧ phases' = phases ∨
      ∃ window, window.Perm (phases ++ [p]) ∧ window.Pairwise Before ∧
        (∀ kind ∈ singleKinds, countKind kind window ≤ 1) ∧
        phases' = (if maxPhases < window.length then window.drop 1 else window) ∧
        (disposition = .applied → phases = [] ∨ ∃ q : ChildPhase, p.index = Rust.saturatingSucc q.index) := by
  unfold merge at h
  split at h
  · split at h
    · obtain ⟨rfl, rfl⟩ := Prod.mk.inj (Except.ok.inj h)
      exact .inl ⟨rfl, rfl⟩
    · cases h
  · dsimp only at h
    split at h
    · cases h
    · rename_i hchecks
      rw [Bool.not_eq_true, Bool.or_eq_false_iff] at hchecks
      obtain ⟨hdisposition, hphases⟩ := Prod.mk.inj (Except.ok.inj h)
      refine .inr ⟨_, List.perm_insertionSort _ _, pairwise_of_ordered hchecks.1, ?_, hphases.symm, ?_⟩
      · intro kind hkind
        have honce := List.any_eq_false.mp hchecks.2 kind hkind
        rw [occursTwice, decide_eq_true_eq, Nat.not_lt] at honce
        exact honce
      · intro happlied
        rw [happlied] at hdisposition
        split at hdisposition
        · cases hdisposition
        · split at hdisposition
          · cases hdisposition
          · rename_i hnext
            cases hnewest : newest phases with
            | none => exact .inl (newest_eq_none.mp hnewest)
            | some q =>
              rw [hnewest] at hnext
              exact .inr ⟨q, by simpa using hnext⟩

/-! ### A sequence of merges -/

/-- The window, and what the merges have reported. -/
structure Merged where
  phases : List ChildPhase
  reported : List (ChildPhase × ReplayDisposition)

def Merged.merge (s : Merged) (incoming : ChildPhase) : Except ServiceError Merged := do
  let (disposition, phases) ← Child.merge s.phases incoming
  return ⟨phases, s.reported ++ [(incoming, disposition)]⟩

/-- The merges into a window that is empty at first. -/
def mergeAll (incoming : List ChildPhase) : Except ServiceError Merged :=
  incoming.foldlM Merged.merge ⟨[], []⟩

/-- How many phases of a kind have been reported as applied. -/
def Merged.applied (s : Merged) (kind : ChildPhaseKind) : Nat :=
  s.reported.countP fun (p, disposition) => p.phase == kind && disposition == .applied

variable {s t : Merged} {p : ChildPhase}

lemma Merged.merge_eq_ok (h : s.merge p = .ok t) : ∃ disposition,
    Child.merge s.phases p = .ok (disposition, t.phases) ∧
      t.reported = s.reported ++ [(p, disposition)] := by
  unfold Merged.merge at h
  simp only [bind_eq_ok, pure_eq_ok] at h
  obtain ⟨⟨disposition, phases⟩, hmerge, h⟩ := h
  obtain rfl := Except.ok.inj h
  exact ⟨disposition, hmerge, rfl⟩

lemma applied_append {disposition : ReplayDisposition}
    (h : t.reported = s.reported ++ [(p, disposition)]) (kind : ChildPhaseKind) :
    t.applied kind = s.applied kind + if p.phase = kind ∧ disposition = .applied then 1 else 0 := by
  rw [Merged.applied, h, List.countP_append, List.countP_singleton, Merged.applied]
  simp only [Bool.and_eq_true, beq_iff_eq]

/-- A phase that can be forgotten is neither final nor closed, so these stay in the window. -/
lemma countKind_drop {phases : List ChildPhase} (h : phases.Pairwise Before)
    (hlength : maxPhases < phases.length) {kind : ChildPhaseKind}
    (hkind : kind = .final ∨ kind = .closed) :
    countKind kind (phases.drop 1) = countKind kind phases := by
  obtain ⟨p, q, r, later, rfl⟩ : ∃ p q r later, phases = p :: q :: r :: later := by
    match phases, hlength with
    | p :: q :: r :: later, _ => exact ⟨p, q, r, later, rfl⟩
  obtain ⟨hfinal, hclosed⟩ := not_terminal_of_three h
  have hne : p.phase ≠ kind := by
    rcases hkind with rfl | rfl
    · exact hfinal
    · exact hclosed
  exact (List.countP_cons_of_neg (by simpa using hne)).symm

/-- The window is a lifecycle, and has what is applied of the kinds that end one. -/
structure Merged.Kept (s : Merged) : Prop where
  ordered : s.phases.Pairwise Before
  length : s.phases.length ≤ maxPhases
  once : ∀ kind ∈ singleKinds, countKind kind s.phases ≤ 1
  terminal : ∀ kind, kind = .final ∨ kind = .closed → s.applied kind ≤ countKind kind s.phases

lemma Merged.Kept.empty : Merged.Kept ⟨[], []⟩ :=
  ⟨.nil, Nat.zero_le _, fun _ _ => Nat.zero_le _, fun _ _ => Nat.le_refl _⟩

lemma Merged.Kept.merge (h : s.Kept) (hmerge : s.merge p = .ok t) : t.Kept := by
  obtain ⟨disposition, hmerge, hreported⟩ := merge_eq_ok hmerge
  rcases merge_spec hmerge with ⟨rfl, hsame⟩ | ⟨window, hperm, hordered, honce, hphases, -⟩
  · refine ⟨hsame ▸ h.ordered, hsame ▸ h.length, hsame ▸ h.once, fun kind hkind => ?_⟩
    rw [applied_append hreported, if_neg (by simp), hsame]
    exact h.terminal kind hkind
  have hlength : window.length = s.phases.length + 1 := by simpa using hperm.length_eq
  have hsub : t.phases.Sublist window := by
    rw [hphases]
    split
    · exact List.drop_sublist 1 window
    · exact .refl window
  refine ⟨hordered.sublist hsub, ?_, fun kind hkind => ?_, fun kind hkind => ?_⟩
  · have hbound := h.length
    rw [hphases]
    split
    · rw [List.length_drop]
      omega
    · omega
  · exact Nat.le_trans (hsub.countP_le) (honce kind hkind)
  · have hwindow : countKind kind window =
        countKind kind s.phases + if p.phase = kind then 1 else 0 := by
      rw [countKind, hperm.countP_eq, List.countP_append, List.countP_singleton, countKind]
      simp only [beq_iff_eq]
    have hkept : countKind kind t.phases = countKind kind window := by
      rw [hphases]
      split
      · rename_i hfull
        exact countKind_drop hordered hfull hkind
      · rfl
    have hold := h.terminal kind hkind
    rw [applied_append hreported, hkept, hwindow]
    by_cases hp : p.phase = kind
    · rw [if_pos hp]
      split <;> omega
    · rw [if_neg hp, if_neg fun hboth => hp hboth.1]
      exact hold

/-- A request has the first index, so it is applied to an empty window only. -/
structure Merged.RequestedOnce (s : Merged) : Prop where
  empty : s.phases = [] → s.applied .requested = 0
  once : s.applied .requested ≤ 1

lemma Merged.RequestedOnce.merge (h : s.RequestedOnce) (hmerge : s.merge p = .ok t)
    (hindex : p.phase = .requested → p.index = 0) : t.RequestedOnce := by
  obtain ⟨disposition, hmerge, hreported⟩ := merge_eq_ok hmerge
  have happlied := applied_append hreported .requested
  rcases merge_spec hmerge with ⟨rfl, hsame⟩ | ⟨window, hperm, -, -, hphases, hnext⟩
  · rw [if_neg (by simp), Nat.add_zero] at happlied
    exact ⟨fun hnil => happlied.trans (h.empty (hsame ▸ hnil)), happlied ▸ h.once⟩
  have hlength : window.length = s.phases.length + 1 := by simpa using hperm.length_eq
  refine ⟨fun hnil => ?_, ?_⟩
  · rw [hnil] at hphases
    have := congrArg List.length hphases
    rw [List.length_nil] at this
    split at this
    · rename_i hfull
      rw [List.length_drop, maxPhases] at *
      omega
    · omega
  · rw [happlied]
    split
    · rename_i hboth
      rcases hnext hboth.2 with hnil | ⟨q, hq⟩
      · rw [h.empty hnil]
      · rw [hindex hboth.1] at hq
        have hpos := congrArg UInt64.toNat hq
        rw [Rust.toNat_saturatingSucc, UInt64.toNat_zero] at hpos
        omega
    · exact h.once

/-! ### Every sequence of merges -/

lemma kept_of_mergeAll {incoming : List ChildPhase} (h : mergeAll incoming = .ok s) : s.Kept :=
  foldlM_keeps (fun _ _ _ _ hs hmerge => Merged.Kept.merge hs hmerge) .empty h

lemma index_eq_zero_of_phase {uuid4 : String → Bool} {child : String}
    (h : phase uuid4 p child = .ok ()) (hrequested : p.phase = .requested) : p.index = 0 := by
  unfold phase at h
  simp only [check_bind_eq_ok, ensure_eq_ok, Bool.and_eq_true] at h
  obtain ⟨⟨⟨⟨⟨⟨⟨-, hindex⟩, -⟩, -⟩, -⟩, -⟩, -⟩, -⟩ := h
  rw [hrequested] at hindex
  simpa using hindex

lemma requestedOnce_of_mergeAll {uuid4 : String → Bool} {incoming : List ChildPhase}
    (h : mergeAll incoming = .ok s)
    (hphases : ∀ p ∈ incoming, ∃ child, phase uuid4 p child = .ok ()) : s.RequestedOnce := by
  refine foldlM_keeps ?_ ⟨fun _ => rfl, Nat.zero_le _⟩ h
  intro p hp s t hs hmerge
  obtain ⟨child, hchild⟩ := hphases p hp
  exact hs.merge hmerge fun hrequested => index_eq_zero_of_phase hchild hrequested

/-- The window is a lifecycle that holds each of its kinds once, and a lifecycle ends once. -/
theorem merges_keep_lifecycle (uuid4 : String → Bool) (incoming : List ChildPhase) (s : Merged)
    (h : mergeAll incoming = .ok s) :
    s.phases.Pairwise (fun p q => p.seq < q.seq ∧ p.index < q.index) ∧
    s.phases.length ≤ 8 ∧
    s.phases.Pairwise (fun p q => p.phase ≠ .closed ∧ (p.phase = .final → q.phase = .closed)) ∧
    (∀ kind ∈ [ChildPhaseKind.requested, .prepared, .final, .closed],
      s.phases.countP (fun p => p.phase == kind) ≤ 1) ∧
    s.applied .final ≤ 1 ∧ s.applied .closed ≤ 1 ∧
    ((∀ p ∈ incoming, ∃ child, phase uuid4 p child = .ok ()) → s.applied .requested ≤ 1) := by
  have hkept := kept_of_mergeAll h
  refine ⟨hkept.ordered.imp fun hpq => ⟨hpq.seq, hpq.index⟩, hkept.length,
    hkept.ordered.imp fun hpq => ⟨hpq.notClosed, hpq.final⟩, hkept.once, ?_, ?_, ?_⟩
  · exact Nat.le_trans (hkept.terminal .final (.inl rfl)) (hkept.once .final (by decide))
  · exact Nat.le_trans (hkept.terminal .closed (.inr rfl)) (hkept.once .closed (by decide))
  · exact fun hphases => (requestedOnce_of_mergeAll h hphases).once

/-- A phase with the number after its index. -/
def phaseAt (entryId : String) (index : UInt64) (kind : ChildPhaseKind) : ChildPhase where
  entryId
  seq := index + 1
  version := 1
  childId := "tpchild-a"
  index
  phase := kind
  descriptor := none
  isError := none
  cancelled := none
  failed := none
  interrupted := none

/-- A window that has forgotten the prepared phase of its lifecycle takes another one. -/
def preparedTwice : List ChildPhase :=
  [phaseAt "tpphase-0" 0 .requested, phaseAt "tpphase-1" 1 .prepared, phaseAt "tpphase-2" 2 .update,
    phaseAt "tpphase-3" 3 .update, phaseAt "tpphase-4" 4 .update, phaseAt "tpphase-5" 5 .update,
    phaseAt "tpphase-6" 6 .update, phaseAt "tpphase-7" 7 .update, phaseAt "tpphase-8" 8 .update,
    phaseAt "tpphase-9" 9 .update, phaseAt "tpphase-10" 10 .prepared]

theorem merges_keep_lifecycle_of_prepared_twice :
    ∃ s, mergeAll preparedTwice = .ok s ∧ s.applied .final ≤ 1 := by
  have hrun : ∃ s, mergeAll preparedTwice = .ok s := ⟨_, rfl⟩
  obtain ⟨s, hs⟩ := hrun
  exact ⟨s, hs, (merges_keep_lifecycle (fun _ => false) preparedTwice s hs).2.2.2.2.1⟩

theorem exists_prepared_applied_twice :
    ∃ s, mergeAll preparedTwice = .ok s ∧ s.applied .prepared = 2 := by
  refine ⟨(mergeAll preparedTwice).toOption.getD ⟨[], []⟩, ?_, ?_⟩
  · rfl
  · decide +kernel

end Child
