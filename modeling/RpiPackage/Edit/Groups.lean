import RpiPackage.Edit.View

/-!
# Groups of spans

Spans that overlap in the original are merged, each with the groups before it. The groups that are
left do not overlap, follow the order of the matches and take in all of them.
-/

namespace Edit

namespace NormalizedView

/-- The span takes in the spans `i` up to `j` (exclusive), and each of its ends is one of theirs.
Each of these spans is linked to the others by overlaps. -/
structure IsMerge (spans : Nat → MappedSpan) (i j : Nat) (s : MappedSpan) : Prop where
  lt : i < j
  start_le : ∀ k, i ≤ k → k < j → s.start ≤ (spans k).start
  le_stop : ∀ k, i ≤ k → k < j → (spans k).stop ≤ s.stop
  normalizedStart_le : ∀ k, i ≤ k → k < j → s.normalizedStart ≤ (spans k).normalizedStart
  le_normalizedStop : ∀ k, i ≤ k → k < j → (spans k).normalizedStop ≤ s.normalizedStop
  start : ∃ k, i ≤ k ∧ k < j ∧ s.start = (spans k).start
  stop : ∃ k, i ≤ k ∧ k < j ∧ s.stop = (spans k).stop
  normalizedStart : ∃ k, i ≤ k ∧ k < j ∧ s.normalizedStart = (spans k).normalizedStart
  normalizedStop : ∃ k, i ≤ k ∧ k < j ∧ s.normalizedStop = (spans k).normalizedStop
  /-- At every place between them, a span before it overlaps one behind it. -/
  linked : ∀ k, i < k → k < j →
    ∃ a b, i ≤ a ∧ a < k ∧ k ≤ b ∧ b < j ∧ (spans b).start < (spans a).stop

section

variable {spans : Nat → MappedSpan} {i j k : Nat} {s s' : MappedSpan}

lemma isMerge_singleton (spans : Nat → MappedSpan) (k : Nat) :
    IsMerge spans k (k + 1) (spans k) := by
  have heq : ∀ l, k ≤ l → l < k + 1 → l = k := fun l hle hlt => by omega
  constructor
  · exact Nat.lt_succ_self k
  · intro l hle hlt
    rw [heq l hle hlt]
  · intro l hle hlt
    rw [heq l hle hlt]
  · intro l hle hlt
    rw [heq l hle hlt]
  · intro l hle hlt
    rw [heq l hle hlt]
  · exact ⟨k, Nat.le_refl k, Nat.lt_succ_self k, rfl⟩
  · exact ⟨k, Nat.le_refl k, Nat.lt_succ_self k, rfl⟩
  · exact ⟨k, Nat.le_refl k, Nat.lt_succ_self k, rfl⟩
  · exact ⟨k, Nat.le_refl k, Nat.lt_succ_self k, rfl⟩
  · intro l hlt hlt'
    omega

/-- A least value of two blocks is the smaller one of theirs. -/
lemma exists_min {f : Nat → Nat} {a b : Nat} (ha : ∃ l, j ≤ l ∧ l < k ∧ a = f l)
    (hb : ∃ l, i ≤ l ∧ l < j ∧ b = f l) (hij : i < j) (hjk : j < k) :
    ∃ l, i ≤ l ∧ l < k ∧ min a b = f l := by
  obtain ⟨l, hl, hl', rfl⟩ := ha
  obtain ⟨m, hm, hm', rfl⟩ := hb
  rcases Nat.le_total (f l) (f m) with hle | hle
  · exact ⟨l, by omega, hl', Nat.min_eq_left hle⟩
  · exact ⟨m, hm, by omega, Nat.min_eq_right hle⟩

lemma exists_max {f : Nat → Nat} {a b : Nat} (ha : ∃ l, j ≤ l ∧ l < k ∧ a = f l)
    (hb : ∃ l, i ≤ l ∧ l < j ∧ b = f l) (hij : i < j) (hjk : j < k) :
    ∃ l, i ≤ l ∧ l < k ∧ max a b = f l := by
  obtain ⟨l, hl, hl', rfl⟩ := ha
  obtain ⟨m, hm, hm', rfl⟩ := hb
  rcases Nat.le_total (f l) (f m) with hle | hle
  · exact ⟨m, hm, by omega, Nat.max_eq_right hle⟩
  · exact ⟨l, by omega, hl', Nat.max_eq_left hle⟩

lemma IsMerge.merge (h : IsMerge spans j k s) (h' : IsMerge spans i j s')
    (hoverlap : s.start < s'.stop) : IsMerge spans i k (s.merge s') := by
  constructor
  · exact h'.lt.trans h.lt
  · intro l hle hlt
    rcases Nat.lt_or_ge l j with hl | hl
    · exact (Nat.min_le_right _ _).trans (h'.start_le l hle hl)
    · exact (Nat.min_le_left _ _).trans (h.start_le l hl hlt)
  · intro l hle hlt
    rcases Nat.lt_or_ge l j with hl | hl
    · exact (h'.le_stop l hle hl).trans (Nat.le_max_right _ _)
    · exact (h.le_stop l hl hlt).trans (Nat.le_max_left _ _)
  · intro l hle hlt
    rcases Nat.lt_or_ge l j with hl | hl
    · exact (Nat.min_le_right _ _).trans (h'.normalizedStart_le l hle hl)
    · exact (Nat.min_le_left _ _).trans (h.normalizedStart_le l hl hlt)
  · intro l hle hlt
    rcases Nat.lt_or_ge l j with hl | hl
    · exact (h'.le_normalizedStop l hle hl).trans (Nat.le_max_right _ _)
    · exact (h.le_normalizedStop l hl hlt).trans (Nat.le_max_left _ _)
  · exact exists_min h.start h'.start h'.lt h.lt
  · exact exists_max h.stop h'.stop h'.lt h.lt
  · exact exists_min h.normalizedStart h'.normalizedStart h'.lt h.lt
  · exact exists_max h.normalizedStop h'.normalizedStop h'.lt h.lt
  · intro l hil hlk
    have hij := h'.lt
    have hjk := h.lt
    rcases Nat.lt_trichotomy l j with hlt | rfl | hgt
    · obtain ⟨a, b, ha, hal, hlb, hb, hlink⟩ := h'.linked l hil hlt
      exact ⟨a, b, ha, hal, hlb, by omega, hlink⟩
    · obtain ⟨a, ha, hal, hstop⟩ := h'.stop
      obtain ⟨b, hlb, hb, hstart⟩ := h.start
      exact ⟨a, b, ha, hal, hlb, hb, by rwa [← hstop, ← hstart]⟩
    · obtain ⟨a, b, ha, hal, hlb, hb, hlink⟩ := h.linked l hgt hlk
      exact ⟨a, b, by omega, hal, hlb, hb, hlink⟩

lemma IsMerge.start_le_stop (h : IsMerge spans i j s)
    (hspans : ∀ k, k < j → (spans k).start ≤ (spans k).stop) : s.start ≤ s.stop :=
  (h.start_le i (Nat.le_refl i) h.lt).trans
    ((hspans i h.lt).trans (h.le_stop i (Nat.le_refl i) h.lt))

/-- Groups that take in the first `n` spans, the last one first. -/
inductive Stacked (spans : Nat → MappedSpan) : Nat → List SpanGroup → Prop where
  | nil : Stacked spans 0 []
  | cons {g : SpanGroup} {gs : List SpanGroup} : IsMerge spans g.first g.next g.span →
      (∀ g' ∈ gs, g'.span.stop ≤ g.span.start) → Stacked spans g.first gs →
      Stacked spans g.next (g :: gs)

variable {n : Nat} {gs : List SpanGroup}

/-- A span takes in the groups it overlaps, and the other groups end before it. -/
lemma Stacked.absorb (h : Stacked spans j gs) (hs : IsMerge spans j k s)
    (hspans : ∀ l, l < k → (spans l).start ≤ (spans l).stop) :
    IsMerge spans (absorb gs s j).2.2 k (absorb gs s j).2.1 ∧
      Stacked spans (absorb gs s j).2.2 (absorb gs s j).1 ∧
      ∀ g ∈ (absorb gs s j).1, g.span.stop ≤ (absorb gs s j).2.1.start := by
  induction h generalizing s with
  | nil => exact ⟨hs, .nil, fun _ hg => absurd hg List.not_mem_nil⟩
  | @cons g gs hmerge hbefore hstack ih =>
    rw [NormalizedView.absorb]
    split
    next hoverlap => exact ih (hs.merge hmerge hoverlap)
    next hapart =>
      have hstop := Nat.le_of_not_lt hapart
      refine ⟨hs, .cons hmerge hbefore hstack, fun g' hg' => ?_⟩
      rcases List.mem_cons.mp hg' with rfl | hg'
      · exact hstop
      · have hlt := hs.lt
        have hle := hmerge.start_le_stop fun l hl => hspans l (by omega)
        exact (hbefore g' hg').trans (hle.trans hstop)

lemma stacked_groupsFrom (v : NormalizedView) (contentLen : Nat) {found : List (Nat × Nat)}
    (h : Stacked spans k gs)
    (hspans : ∀ l, l < k + found.length → (spans l).start ≤ (spans l).stop)
    (hfound : ∀ l span, found[l]? = some span →
      spans (k + l) = v.originalSpan contentLen span.1 span.2) :
    Stacked spans (k + found.length) (v.groupsFrom contentLen gs k found) := by
  induction found generalizing gs k with
  | nil => exact h
  | cons span found ih =>
    rw [List.length_cons] at hspans ⊢
    have hspan := hfound 0 span rfl
    rw [Nat.add_zero] at hspan
    have hsingle := isMerge_singleton spans k
    rw [hspan] at hsingle
    obtain ⟨hmerge, hrest, hbefore⟩ := h.absorb hsingle fun l hl => hspans l (by omega)
    have hstack : Stacked spans (k + 1)
        (⟨(absorb gs (v.originalSpan contentLen span.1 span.2) k).2.1,
          (absorb gs (v.originalSpan contentLen span.1 span.2) k).2.2, k + 1⟩ ::
          (absorb gs (v.originalSpan contentLen span.1 span.2) k).1) :=
      Stacked.cons (g := ⟨_, _, k + 1⟩) hmerge hbefore hrest
    have hnext := ih hstack (fun l hl => hspans l (by omega)) fun l span hl => by
      rw [show k + 1 + l = k + (l + 1) by omega]
      exact hfound (l + 1) span hl
    rw [show k + (found.length + 1) = k + 1 + found.length by omega]
    exact hnext

lemma Stacked.next_le (h : Stacked spans n gs) : ∀ g ∈ gs, g.next ≤ n := by
  induction h with
  | nil => exact fun _ hg => absurd hg List.not_mem_nil
  | cons hmerge _ _ ih =>
    intro g hg
    rcases List.mem_cons.mp hg with rfl | hg
    · exact Nat.le_refl _
    · exact (ih g hg).trans (Nat.le_of_lt hmerge.lt)

lemma Stacked.isMerge (h : Stacked spans n gs) : ∀ g ∈ gs, IsMerge spans g.first g.next g.span := by
  induction h with
  | nil => exact fun _ hg => absurd hg List.not_mem_nil
  | cons hmerge _ _ ih =>
    intro g hg
    rcases List.mem_cons.mp hg with rfl | hg
    · exact hmerge
    · exact ih g hg

lemma Stacked.exists_group (h : Stacked spans n gs) (hk : k < n) :
    ∃ g ∈ gs, g.first ≤ k ∧ k < g.next := by
  induction h with
  | nil => exact absurd hk (Nat.not_lt_zero k)
  | @cons g gs _ _ _ ih =>
    rcases Nat.lt_or_ge k g.first with hlt | hge
    · obtain ⟨g', hg', hbounds⟩ := ih hlt
      exact ⟨g', List.mem_cons_of_mem g hg', hbounds⟩
    · exact ⟨g, List.mem_cons_self, hge, hk⟩

/-- Earlier groups end before later ones. -/
lemma Stacked.pairwise (h : Stacked spans n gs) :
    gs.Pairwise fun g g' => g'.next ≤ g.first ∧ g'.span.stop ≤ g.span.start := by
  induction h with
  | nil => exact List.Pairwise.nil
  | cons _ hbefore hstack ih =>
    exact List.Pairwise.cons (fun g' hg' => ⟨hstack.next_le g' hg', hbefore g' hg'⟩) ih

end

end NormalizedView

end Edit
