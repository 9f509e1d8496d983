import RpiPackage.Child.Live
import RpiPackage.Lib.Rising
import RpiPackage.Lib.Run

/-!
# Events are applied once

What a subscription knows of the entries it has seen: their numbers are up to the watermark, and
whatever it still keeps of them agrees. So an event is applied once, above everything before it,
and a conflicting copy of an entry ends the stream. The exception is a copy of an entry whose event
has been evicted: one that differs from it in what is no part of its identity, or that comes under
a new number once the identity has been evicted too.
-/

namespace Child

open Result Service

/-! ### Facts -/

/-- What has been seen of an entry, and the event that brought it, if one did. -/
structure Fact where
  value : Recorded
  event : Option ChildEvent

namespace Fact

def id (f : Fact) : String := f.value.id

def seq (f : Fact) : UInt64 := f.value.seq

/-- The facts may be copies of one another. -/
def Agrees (f g : Fact) : Prop :=
  f.value = g.value ∧ ∀ e ∈ f.event, ∀ e' ∈ g.event, e = e'

end Fact

def factOf (event : ChildEvent) : Option Fact :=
  match event with
  | .begin c => some ⟨canonical (summaryOf c), some event⟩
  | .phase c => some ⟨.phase (phaseOf c), some event⟩
  | .resyncRequired _ => none

namespace ChildSnapshot

def pageFacts (snapshot : ChildSnapshot) : List Fact :=
  snapshot.children.flatMap (fun child => [⟨canonical child, none⟩]) ++
    snapshot.phases.flatMap fun page => page.phases.reverse.flatMap fun p => [⟨.phase p, none⟩]

def eventFacts (snapshot : ChildSnapshot) : List Fact :=
  snapshot.events.flatMap fun event => (factOf event).toList

def observedFacts (snapshot : ChildSnapshot) : List Fact :=
  snapshot.observations.flatMap fun o =>
    (o.finalPhase.toList ++ o.closedPhase.toList).flatMap fun p => [⟨.phase p, none⟩]

/-- Everything in the snapshot. -/
def facts (snapshot : ChildSnapshot) : List Fact :=
  snapshot.pageFacts ++ snapshot.eventFacts ++ snapshot.observedFacts

/-- A snapshot as it is taken: its events are parsed and repeat only themselves, and its
observations are of its pages and events. -/
structure Consistent (snapshot : ChildSnapshot) : Prop where
  begins : ∀ c, .begin c ∈ snapshot.events → c.entryId = c.data.childId
  repeats : ∀ f ∈ snapshot.eventFacts, ∀ g ∈ snapshot.eventFacts, f.id = g.id → f = g
  observed : ∀ f ∈ snapshot.observedFacts,
    ∃ g ∈ snapshot.pageFacts ++ snapshot.eventFacts, g.value = f.value

end ChildSnapshot

/-! ### Identities -/

namespace Identities

lemma record_eq_ok {i i' : Identities} {value : Recorded} (h : i.record value = .ok i') :
    (∀ old ∈ i.entries.lookup value.id, old = (value.seq, value)) ∧
      i'.entries = Assoc.insert i.entries value.id (value.seq, value) := by
  unfold record at h
  split at h
  · cases h
  · rename_i hconflict
    rw [Bool.or_eq_true, not_or] at hconflict
    refine ⟨?_, by rw [← Except.ok.inj h]⟩
    intro old hold
    have hnot := hconflict.2
    rw [hold] at hnot
    simpa using hnot

lemma lookup_forget {i : Identities} {id : String} {entry : UInt64 × Recorded}
    (h : i.forget.entries.lookup id = some entry) : i.entries.lookup id = some entry := by
  unfold forget at h
  split at h
  · exact h
  · exact Assoc.lookup_of_lookup_erase h

/-- What is retained was there before. -/
lemma lookup_retainRecent {i : Identities} {max : Nat} {id : String} {entry : UInt64 × Recorded}
    (h : (i.retainRecent max).entries.lookup id = some entry) :
    i.entries.lookup id = some entry := by
  have hretain : ∀ fuel (j : Identities), (retain max fuel j).entries.lookup id = some entry →
      j.entries.lookup id = some entry := by
    intro fuel
    induction fuel with
    | zero => exact fun _ h => h
    | succ fuel ih =>
      intro j h
      rw [retain] at h
      split at h
      · exact lookup_forget (ih _ h)
      · exact h
  exact hretain _ i h

end Identities

namespace ChildSubscription

variable {s s' : ChildSubscription} {seen : List Fact}

lemma mem_keepEnvelopes {envelopes : List (String × ChildEvent)} {p : String × ChildEvent}
    (h : p ∈ keepEnvelopes envelopes) : p ∈ envelopes := by
  unfold keepEnvelopes at h
  split at h
  · exact List.mem_of_mem_drop h
  · exact h

/-! ### The snapshot -/

/-- The identities of what has been seeded so far, none of which has been evicted. -/
structure Seeded (s : ChildSubscription) (seen : List Fact) : Prop where
  recorded : ∀ f ∈ seen, s.identities.entries.lookup f.id = some (f.seq, f.value)
  envelopes : ∀ p ∈ s.envelopes, ∃ g ∈ seen, factOf p.2 = some g ∧ g.id = p.1

/-- A value that is recorded is that of every fact of its entry. -/
lemma Seeded.record (h : s.Seeded seen) {value : Recorded} {identities : Identities}
    (hrecord : s.identities.record value = .ok identities) (event : Option ChildEvent) :
    ∀ f ∈ seen ++ [⟨value, event⟩], identities.entries.lookup f.id = some (f.seq, f.value) := by
  obtain ⟨hold, hentries⟩ := Identities.record_eq_ok hrecord
  rw [hentries]
  intro f hf
  rcases List.mem_append.mp hf with hf | hf
  · have hlookup := h.recorded f hf
    by_cases hid : f.id = value.id
    · rw [hid] at hlookup ⊢
      rw [Assoc.lookup_insert_self, hold _ hlookup]
    · rw [Assoc.lookup_insert_of_ne hid]
      exact hlookup
  · rw [List.mem_singleton.mp hf]
    exact Assoc.lookup_insert_self _ _ _

lemma mergePhase_eq_ok {childId : String} {p : ChildPhase} (h : s.mergePhase childId p = .ok s') :
    ∃ identities, s.identities.record (.phase p) = .ok identities ∧
      s'.identities = identities ∧ s'.envelopes = s.envelopes ∧ s'.nativeHigh = s.nativeHigh := by
  simp only [mergePhase, bind_eq_ok, pure_eq_ok, Except.ok.injEq] at h
  obtain ⟨phases, -, identities, hrecord, merged, -, rfl⟩ := h
  exact ⟨identities, hrecord, rfl, rfl, rfl⟩

lemma Seeded.mergePhase (h : s.Seeded seen) {childId : String} {p : ChildPhase}
    (hmerge : s.mergePhase childId p = .ok s') (event : Option ChildEvent) :
    s'.Seeded (seen ++ [⟨.phase p, event⟩]) ∧ s'.nativeHigh = s.nativeHigh := by
  obtain ⟨identities, hrecord, hidentities, henvelopes, hhigh⟩ := mergePhase_eq_ok hmerge
  refine ⟨⟨?_, ?_⟩, hhigh⟩
  · rw [hidentities]
    exact h.record hrecord event
  · rw [henvelopes]
    intro q hq
    obtain ⟨g, hg, hfact⟩ := h.envelopes q hq
    exact ⟨g, List.mem_append_left _ hg, hfact⟩

/-- What has been seeded so far is up to the watermark. -/
def SeededBelow (s : ChildSubscription) (seen : List Fact) : Prop :=
  s.Seeded seen ∧ ∀ f ∈ seen, f.seq ≤ s.nativeHigh

lemma le_max_left (n m : UInt64) : n ≤ max n m := by
  rw [UInt64.le_iff_toNat_le, Rust.toNat_max]
  exact Nat.le_max_left _ _

lemma le_max_right (n m : UInt64) : m ≤ max n m := by
  rw [UInt64.le_iff_toNat_le, Rust.toNat_max]
  exact Nat.le_max_right _ _

lemma le_max_of_mem (hbelow : ∀ f ∈ seen, f.seq ≤ s.nativeHigh) (value : Recorded)
    (event : Option ChildEvent) :
    ∀ f ∈ seen ++ [⟨value, event⟩], f.seq ≤ max s.nativeHigh value.seq := by
  intro f hf
  rcases List.mem_append.mp hf with hf | hf
  · exact UInt64.le_trans (hbelow f hf) (le_max_left _ _)
  · rw [List.mem_singleton.mp hf]
    exact le_max_right _ _

lemma seededBelow_seedChild (child : ChildSummary) (s s' : ChildSubscription) (seen : List Fact)
    (h : s.SeededBelow seen) (hseed : s.seedChild child = .ok s') :
    s'.SeededBelow (seen ++ [⟨canonical child, none⟩]) := by
  simp only [seedChild, bind_eq_ok, pure_eq_ok, Except.ok.injEq] at hseed
  obtain ⟨identities, hrecord, rfl⟩ := hseed
  refine ⟨⟨h.1.record hrecord none, ?_⟩, le_max_of_mem h.2 (canonical child) none⟩
  intro q hq
  obtain ⟨g, hg, hfact⟩ := h.1.envelopes q hq
  exact ⟨g, List.mem_append_left _ hg, hfact⟩

lemma seededBelow_seedPage (page : ChildPhasePage) (s s' : ChildSubscription) (seen : List Fact)
    (h : s.SeededBelow seen) (hseed : s.seedPage page = .ok s') :
    s'.SeededBelow (seen ++ page.phases.reverse.flatMap fun p => [⟨.phase p, none⟩]) := by
  simp only [seedPage, bind_eq_ok] at hseed
  obtain ⟨-, -, hseed⟩ := hseed
  refine foldlM_invariant ?_ h hseed
  intro p _ t t' seen ht hphase
  simp only [seedPhase, bind_eq_ok, pure_eq_ok, Except.ok.injEq] at hphase
  obtain ⟨u, hmerge, rfl⟩ := hphase
  obtain ⟨hseeded, hhigh⟩ := ht.1.mergePhase hmerge none
  refine ⟨⟨hseeded.recorded, hseeded.envelopes⟩, ?_⟩
  show ∀ f : Fact, f ∈ _ → f.seq ≤ max u.nativeHigh p.seq
  rw [hhigh]
  exact le_max_of_mem ht.2 (.phase p) none

/-- An event of the snapshot is kept under its entry. -/
lemma SeededBelow.keep {g : Fact} {event : ChildEvent} (hfact : factOf event = some g)
    (hbelow : ∀ f ∈ seen, f.seq ≤ s.nativeHigh)
    (hrecorded : ∀ f ∈ seen ++ [g], s.identities.entries.lookup f.id = some (f.seq, f.value))
    (henvelopes : ∀ p ∈ s.envelopes, ∃ g ∈ seen, factOf p.2 = some g ∧ g.id = p.1) :
    (s.keep g.id g.seq event).SeededBelow (seen ++ [g]) := by
  refine ⟨⟨hrecorded, ?_⟩, le_max_of_mem hbelow g.value g.event⟩
  intro p hp
  rcases List.mem_append.mp (mem_keepEnvelopes hp) with hp | hp
  · obtain ⟨g', hg', hp⟩ := henvelopes p hp
    exact ⟨g', List.mem_append_left _ hg', hp⟩
  · rw [List.mem_singleton.mp hp]
    exact ⟨g, List.mem_append_right _ (List.mem_singleton_self g), hfact, rfl⟩

lemma seededBelow_seedEvent (event : ChildEvent)
    (hid : ∀ c, event = .begin c → c.entryId = c.data.childId) (s s' : ChildSubscription)
    (seen : List Fact) (h : s.SeededBelow seen) (hseed : s.seedEvent event = .ok s') :
    s'.SeededBelow (seen ++ (factOf event).toList) := by
  cases event with
  | begin c =>
    simp only [seedEvent, bind_eq_ok, pure_eq_ok, Except.ok.injEq] at hseed
    obtain ⟨identities, hrecord, rfl⟩ := hseed
    have hfact : factOf (.begin c) = some ⟨canonical (summaryOf c), some (.begin c)⟩ := rfl
    rw [hid c rfl]
    exact SeededBelow.keep hfact h.2 (h.1.record hrecord _) h.1.envelopes
  | phase c =>
    simp only [seedEvent, bind_eq_ok, pure_eq_ok, Except.ok.injEq] at hseed
    obtain ⟨t, hmerge, rfl⟩ := hseed
    obtain ⟨identities, hrecord, hidentities, henvelopes, hhigh⟩ := mergePhase_eq_ok hmerge
    have hfact : factOf (.phase c) = some ⟨.phase (phaseOf c), some (.phase c)⟩ := rfl
    refine SeededBelow.keep hfact ?_ ?_ ?_
    · rw [hhigh]
      exact h.2
    · rw [hidentities]
      exact h.1.record hrecord _
    · rw [henvelopes]
      exact h.1.envelopes
  | resyncRequired resync =>
    obtain rfl := Except.ok.inj hseed
    rw [show (factOf (.resyncRequired resync)).toList = [] from rfl, List.append_nil]
    exact h

lemma seeded_seedObservation (high : UInt64) (o : ChildObservation) (s s' : ChildSubscription)
    (seen : List Fact) (h : s.Seeded seen ∧ s.nativeHigh = high)
    (hseed : s.seedObservation o = .ok s') :
    s'.Seeded (seen ++ (o.finalPhase.toList ++ o.closedPhase.toList).flatMap
      fun p => [⟨.phase p, none⟩]) ∧ s'.nativeHigh = high := by
  simp only [seedObservation, bind_eq_ok] at hseed
  obtain ⟨-, -, hseed⟩ := hseed
  have hstep : ∀ p ∈ o.finalPhase.toList ++ o.closedPhase.toList, ∀ t t' : ChildSubscription,
      ∀ seen : List Fact, t.Seeded seen ∧ t.nativeHigh = high →
        t.mergePhase o.childId p = .ok t' →
          t'.Seeded (seen ++ [⟨.phase p, none⟩]) ∧ t'.nativeHigh = high := by
    intro p _ t t' seen ht hmerge
    obtain ⟨hseeded, hhigh⟩ := ht.1.mergePhase hmerge none
    exact ⟨hseeded, hhigh.trans ht.2⟩
  exact foldlM_invariant hstep h hseed

/-! ### What a subscription knows -/

/-- What a subscription still keeps agrees with everything it has seen. -/
structure Knows (s : ChildSubscription) (seen : List Fact) : Prop where
  below : ∀ f ∈ seen, f.seq ≤ s.nativeHigh
  entries : ∀ {id : String} {seq : UInt64} {value : Recorded},
    s.identities.entries.lookup id = some (seq, value) → ∀ f ∈ seen, f.id = id → f.value = value
  envelopes : ∀ p ∈ s.envelopes, ∃ g ∈ seen, factOf p.2 = some g ∧ g.id = p.1 ∧
    ∀ f ∈ seen, f.id = p.1 → f.Agrees g

lemma event_of_mem_facts {snapshot : ChildSnapshot} {f : Fact} (hf : f ∈ snapshot.facts)
    {event : ChildEvent} (hevent : f.event = some event) : f ∈ snapshot.eventFacts := by
  simp only [ChildSnapshot.facts, List.mem_append] at hf
  rcases hf with (hf | hf) | hf
  · simp only [ChildSnapshot.pageFacts, List.mem_append, List.mem_flatMap, List.mem_singleton] at hf
    rcases hf with ⟨child, -, rfl⟩ | ⟨page, -, p, -, rfl⟩
    · cases hevent
    · cases hevent
  · exact hf
  · simp only [ChildSnapshot.observedFacts, List.mem_flatMap, List.mem_singleton] at hf
    obtain ⟨o, -, p, -, rfl⟩ := hf
    cases hevent

/-- The subscription of a snapshot knows what is in it. -/
lemma knows_seed {snapshot : ChildSnapshot} (hconsistent : snapshot.Consistent)
    (hseed : seed snapshot = .ok s) : s.Knows snapshot.facts := by
  simp only [seed, bind_eq_ok, pure_eq_ok, Except.ok.injEq] at hseed
  obtain ⟨s₁, hchildren, s₂, hphases, s₃, hevents, s₄, hobserved, rfl⟩ := hseed
  have hstart : SeededBelow ⟨snapshot, 0, [], .default, []⟩ [] :=
    ⟨⟨fun _ hnil => absurd hnil List.not_mem_nil, fun _ hnil => absurd hnil List.not_mem_nil⟩,
      fun _ hnil => absurd hnil List.not_mem_nil⟩
  have hchildren := foldlM_invariant (fun child _ => seededBelow_seedChild child) hstart hchildren
  have hphases := foldlM_invariant (fun page _ => seededBelow_seedPage page) hchildren hphases
  have hevents := foldlM_invariant (fun event hevent => seededBelow_seedEvent event
    fun c hc => hconsistent.begins c (hc ▸ hevent)) hphases hevents
  have hobserved := foldlM_invariant (fun o _ => seeded_seedObservation s₃.nativeHigh o)
    ⟨hevents.1, rfl⟩ hobserved
  rw [List.nil_append] at hevents hobserved
  obtain ⟨hseeded, hhigh⟩ := hobserved
  have hrecorded : ∀ f ∈ snapshot.facts, s₄.identities.entries.lookup f.id = some (f.seq, f.value) :=
    hseeded.recorded
  refine ⟨?_, ?_, ?_⟩
  · intro f hf
    show f.seq ≤ s₄.nativeHigh
    rw [hhigh]
    rcases List.mem_append.mp hf with hf | hf
    · exact hevents.2 f hf
    · obtain ⟨g, hg, hvalue⟩ := hconsistent.observed f hf
      rw [Fact.seq, ← hvalue]
      exact hevents.2 g hg
  · intro id seq value hlookup f hf hid
    have hold := Identities.lookup_retainRecent hlookup
    have hf := hrecorded f hf
    rw [hid, hold] at hf
    exact (Prod.mk.inj (Option.some.inj hf)).2.symm
  · intro p hp
    obtain ⟨g, hg, hfact, hid⟩ := hseeded.envelopes p hp
    refine ⟨g, hg, hfact, hid, ?_⟩
    intro f hf hfid
    have hfid : f.id = g.id := hfid.trans hid.symm
    have hlookup := hrecorded f hf
    rw [hfid, hrecorded g hg] at hlookup
    refine ⟨(Prod.mk.inj (Option.some.inj hlookup)).2.symm, ?_⟩
    intro e he e' he'
    have heq := hconsistent.repeats f (event_of_mem_facts hf he) g (event_of_mem_facts hg he') hfid
    rw [heq] at he
    exact Option.some.inj (he.symm.trans he')

/-! ### Events -/

/-- A conflicting copy of an entry whose event is not kept any more gets past what is kept: it
differs in what is no part of a kept identity, or it comes above the watermark under one that is
not kept either. -/
def Slips (s : ChildSubscription) (seen : List Fact) (g : Fact) : Prop :=
  (∃ f ∈ seen, f.id = g.id ∧ ¬f.Agrees g) ∧ s.envelopes.lookup g.id = none ∧
    match s.identities.entries.lookup g.id with
    | some (_, value) => value = g.value
    | none => s.nativeHigh < g.seq

/-- Everything an event can do to a subscription. -/
inductive Applied (s : ChildSubscription) (event : ChildEvent) (g : Fact) :
    ReplayDisposition → ChildSubscription → Prop where
  | copy (kept : s.envelopes.lookup g.id = some event) : Applied s event g .duplicate s
  | recorded (s' : ChildSubscription) (identities : Identities) (disposition : ReplayDisposition)
      (evicted : s.envelopes.lookup g.id = none)
      (above : s.identities.entries.lookup g.id = none → s.nativeHigh < g.seq)
      (fresh : disposition = .applied → s.identities.entries.lookup g.id = none)
      (record : s.identities.record g.value = .ok identities)
      (high : s'.nativeHigh = max s.nativeHigh g.seq)
      (kept : s'.identities = identities.retainRecent recentIdentities)
      (envelopes : s'.envelopes = keepEnvelopes (s.envelopes ++ [(g.id, event)])) :
      Applied s event g disposition s'

lemma dispose_eq_ok {event : ChildEvent} {g : Fact} (hg : factOf event = some g)
    {known : Bool} {disposition : ReplayDisposition}
    (h : s.dispose event known = .ok (disposition, s')) :
    (∃ identities, s.identities.record g.value = .ok identities ∧ s'.identities = identities) ∧
      s'.nativeHigh = s.nativeHigh ∧ s'.envelopes = s.envelopes ∧
      (disposition = .applied → known = false) := by
  cases event with
  | begin c =>
    obtain rfl := Option.some.inj hg
    simp only [dispose, bind_eq_ok, okOr_eq_ok, failIf_eq_ok, mapError_eq_ok, pure_eq_ok,
      Except.ok.injEq, Prod.mk.injEq] at h
    obtain ⟨original, -, _, -, identities, hrecord, rfl, rfl⟩ := h
    exact ⟨⟨identities, hrecord, rfl⟩, rfl, rfl, fun heq => ReplayDisposition.noConfusion heq⟩
  | phase c =>
    obtain rfl := Option.some.inj hg
    simp only [dispose, bind_eq_ok, okOr_eq_ok, failIf_eq_ok, mapError_eq_ok, pure_eq_ok] at h
    obtain ⟨begun, -, _, -, identities, hrecord, h⟩ := h
    cases known with
    | true =>
      obtain ⟨rfl, rfl⟩ := Prod.mk.inj (Except.ok.inj h)
      exact ⟨⟨identities, hrecord, rfl⟩, rfl, rfl, fun heq => ReplayDisposition.noConfusion heq⟩
    | false =>
      simp only [Bool.false_eq_true, if_false, bind_eq_ok, okOr_eq_ok, mapError_eq_ok,
        Except.ok.injEq] at h
      obtain ⟨phases, -, merged, -, h⟩ := h
      obtain ⟨rfl, rfl⟩ := Prod.mk.inj h
      exact ⟨⟨identities, hrecord, rfl⟩, rfl, rfl, fun _ => rfl⟩
  | resyncRequired resync => cases hg

lemma apply_eq_ok {event : ChildEvent} {g : Fact} (hg : factOf event = some g)
    (hid : ∀ c, event = .begin c → c.entryId = c.data.childId)
    {disposition : ReplayDisposition} {observation : Option ChildObservation}
    (h : s.apply event = .ok ((disposition, observation), s')) :
    s.Applied event g disposition s' := by
  have hentry : ∃ childId, event.entry? = some (g.id, g.seq, childId) := by
    cases event with
    | begin c =>
      obtain rfl := Option.some.inj hg
      refine ⟨c.data.childId, ?_⟩
      rw [ChildEvent.entry?, hid c rfl]
      rfl
    | phase c =>
      obtain rfl := Option.some.inj hg
      exact ⟨c.data.childId, rfl⟩
    | resyncRequired resync => cases hg
  obtain ⟨childId, hentry⟩ := hentry
  simp only [apply, hentry, okOr, ok_bind, bind_eq_ok, failIf_eq_ok] at h
  obtain ⟨_, -, h⟩ := h
  split at h
  · rename_i old hold
    split at h
    · rename_i heq
      subst heq
      obtain ⟨heq, rfl⟩ := Prod.mk.inj (Except.ok.inj h)
      obtain ⟨rfl, -⟩ := Prod.mk.inj heq
      exact .copy hold
    · cases h
  · rename_i hnone
    simp only [bind_eq_ok, failIf_eq_ok, pure_eq_ok, Except.ok.injEq, Prod.mk.injEq] at h
    obtain ⟨_, hknown, ⟨disposition', t⟩, hdispose, _, -, ⟨rfl, -⟩, rfl⟩ := h
    obtain ⟨⟨identities, hrecord, hidentities⟩, hhigh, henvelopes, hfresh⟩ :=
      dispose_eq_ok hg hdispose
    have hunknown : s.identities.entries.lookup g.id = none ↔ s.identities.contains g.id = false := by
      rw [Identities.contains]
      cases s.identities.entries.lookup g.id <;> simp
    refine .recorded _ identities disposition' hnone ?_ ?_ hrecord ?_ ?_ ?_
    · intro hlookup
      rw [not_and, UInt64.not_le] at hknown
      exact hknown (hunknown.mp hlookup)
    · intro happlied
      exact hunknown.mpr (hfresh happlied)
    · rw [← hhigh]
    · rw [← hidentities]
    · rw [← henvelopes]

/-- An event that does not slip through agrees with everything seen, and is applied only if it is
of a new entry above it all. -/
lemma Knows.apply (h : s.Knows seen) {event : ChildEvent} {g : Fact} (hg : factOf event = some g)
    {disposition : ReplayDisposition} (hslips : ¬s.Slips seen g)
    (happlied : s.Applied event g disposition s') :
    s'.Knows (seen ++ [g]) ∧ (∀ f ∈ seen, f.id = g.id → f.Agrees g) ∧
      (disposition = .applied → s.nativeHigh < g.seq ∧ ∀ f ∈ seen, f.id ≠ g.id) := by
  cases happlied with
  | copy hkept =>
    obtain ⟨g', hg', hfact, hid, hagrees⟩ := h.envelopes _ (Assoc.mem_of_lookup hkept)
    obtain rfl := Option.some.inj (hg.symm.trans hfact)
    have hsub : ∀ f ∈ seen ++ [g], f ∈ seen := by
      intro f hf
      rcases List.mem_append.mp hf with hf | hf
      · exact hf
      · rw [List.mem_singleton.mp hf]
        exact hg'
    refine ⟨⟨fun f hf => h.below f (hsub f hf), fun hlookup f hf => h.entries hlookup f (hsub f hf),
      ?_⟩, hagrees, nofun⟩
    intro p hp
    obtain ⟨g'', hg'', hfact, hid, hagrees⟩ := h.envelopes p hp
    exact ⟨g'', List.mem_append_left _ hg'', hfact, hid, fun f hf => hagrees f (hsub f hf)⟩
  | recorded _ identities _ hevicted habove hfresh hrecord hhigh hkept henvelopes =>
    obtain ⟨hold, hentries⟩ := Identities.record_eq_ok hrecord
    have hagrees : ∀ f ∈ seen, f.id = g.id → f.Agrees g := by
      intro f hf hid
      by_contra hnot
      refine hslips ⟨⟨f, hf, hid, hnot⟩, hevicted, ?_⟩
      rcases hlookup : s.identities.entries.lookup g.id with _ | ⟨seq, value⟩
      · exact habove hlookup
      · exact (Prod.mk.inj (hold _ hlookup)).2
    refine ⟨⟨?_, ?_, ?_⟩, hagrees, ?_⟩
    · rw [hhigh]
      exact le_max_of_mem h.below g.value g.event
    · intro id seq value hlookup f hf hid
      rw [hkept] at hlookup
      have hlookup := Identities.lookup_retainRecent hlookup
      rw [hentries] at hlookup
      by_cases heq : id = g.id
      · rw [heq, show g.id = g.value.id from rfl, Assoc.lookup_insert_self] at hlookup
        obtain ⟨-, rfl⟩ := Prod.mk.inj (Option.some.inj hlookup)
        rcases List.mem_append.mp hf with hf | hf
        · exact (hagrees f hf (hid.trans heq)).1
        · rw [List.mem_singleton.mp hf]
      · rw [Assoc.lookup_insert_of_ne (show id ≠ g.value.id from heq)] at hlookup
        rcases List.mem_append.mp hf with hf | hf
        · exact h.entries hlookup f hf hid
        · rw [List.mem_singleton.mp hf] at hid
          exact absurd hid.symm heq
    · rw [henvelopes]
      intro p hp
      rcases List.mem_append.mp (mem_keepEnvelopes hp) with hp | hp
      · obtain ⟨g', hg', hfact, hid, hall⟩ := h.envelopes p hp
        refine ⟨g', List.mem_append_left _ hg', hfact, hid, ?_⟩
        intro f hf hfid
        rcases List.mem_append.mp hf with hf | hf
        · exact hall f hf hfid
        · rw [List.mem_singleton.mp hf] at hfid
          rw [List.lookup_eq_none_iff] at hevicted
          have hne := hevicted p hp
          rw [hfid] at hne
          simp at hne
      · rw [List.mem_singleton.mp hp]
        refine ⟨g, List.mem_append_right _ (List.mem_singleton_self g), hg, rfl, ?_⟩
        intro f hf hfid
        rcases List.mem_append.mp hf with hf | hf
        · exact hagrees f hf hfid
        · rw [List.mem_singleton.mp hf]
          refine ⟨rfl, ?_⟩
          intro e he e' he'
          exact Option.some.inj (he.symm.trans he')
    · intro hd
      have hlt := habove (hfresh hd)
      refine ⟨hlt, ?_⟩
      intro f hf hid
      have hseq : f.seq = g.seq := by
        rw [Fact.seq, (hagrees f hf hid).1]
        rfl
      have hle := h.below f hf
      rw [hseq] at hle
      exact UInt64.not_lt.mpr hle hlt

lemma entry?_of_apply {event : ChildEvent}
    {result : (ReplayDisposition × Option ChildObservation) × ChildSubscription}
    (h : s.apply event = .ok result) : ∃ g, factOf event = some g := by
  cases event with
  | begin c => exact ⟨_, rfl⟩
  | phase c => exact ⟨_, rfl⟩
  | resyncRequired resync => cases h

end ChildSubscription

/-! ### Runs -/

/-- An event that has been parsed. -/
structure ParsedEvent (uuid4 : String → Bool) (context : ChildEventContext) where
  event : ChildEvent
  parsed : checkEvent uuid4 context event = .ok ()

lemma ParsedEvent.entryId_of_begin {uuid4 : String → Bool} {context : ChildEventContext}
    (e : ParsedEvent uuid4 context) (c : ChildCommit ChildBegin) (h : e.event = .begin c) :
    c.entryId = c.data.childId := by
  have hparsed := e.parsed
  rw [h] at hparsed
  simp only [checkEvent, bind_eq_ok, failIf_eq_ok, not_not] at hparsed
  obtain ⟨-, -, -, hid, -⟩ := hparsed
  exact hid.2

namespace ChildStreamItem

/-- What an item brings of an entry. -/
def facts : ChildStreamItem → List Fact
  | .update event _ _ => (factOf event).toList
  | .resyncRequired _ => []

/-- What an item applies. -/
def applied : ChildStreamItem → List Fact
  | .update event _ .applied => (factOf event).toList
  | _ => []

end ChildStreamItem

/-- Entries are applied once, in order and above the snapshot, and what is delivered of an entry
agrees with everything seen of it before. -/
structure AppliedOnce (snapshot : ChildSnapshot) (items : List ChildStreamItem) : Prop where
  once : ((items.flatMap ChildStreamItem.applied).map Fact.id).Nodup
  rising : (items.flatMap ChildStreamItem.applied).Pairwise fun f g => f.seq < g.seq
  above : ∀ f ∈ snapshot.facts, ∀ g ∈ items.flatMap ChildStreamItem.applied, f.seq < g.seq
  ofSnapshot : ∀ f ∈ snapshot.facts, ∀ g ∈ items.flatMap ChildStreamItem.facts,
    f.id = g.id → f.Agrees g
  copies : (items.flatMap ChildStreamItem.facts).Pairwise fun f g => f.id = g.id → f.Agrees g

namespace AppliedOnce

variable {snapshot : ChildSnapshot} {items : List ChildStreamItem}

lemma nil (snapshot : ChildSnapshot) : AppliedOnce snapshot [] where
  once := .nil
  rising := .nil
  above := fun _ _ _ hnil => absurd hnil List.not_mem_nil
  ofSnapshot := fun _ _ _ hnil => absurd hnil List.not_mem_nil
  copies := .nil

lemma mem_facts_of_applied {f : Fact} (hf : f ∈ items.flatMap ChildStreamItem.applied) :
    f ∈ items.flatMap ChildStreamItem.facts := by
  obtain ⟨item, hitem, hf⟩ := List.mem_flatMap.mp hf
  refine List.mem_flatMap.mpr ⟨item, hitem, ?_⟩
  unfold ChildStreamItem.applied at hf
  split at hf
  · exact hf
  · exact absurd hf List.not_mem_nil

lemma resync (h : AppliedOnce snapshot items) (reason : ChildResyncReason) :
    AppliedOnce snapshot (items ++ [.resyncRequired reason]) := by
  have hfacts : (items ++ [ChildStreamItem.resyncRequired reason]).flatMap ChildStreamItem.facts =
      items.flatMap ChildStreamItem.facts := by
    simp [ChildStreamItem.facts]
  have happlied : (items ++ [ChildStreamItem.resyncRequired reason]).flatMap ChildStreamItem.applied =
      items.flatMap ChildStreamItem.applied := by
    simp [ChildStreamItem.applied]
  obtain ⟨honce, hrising, habove, hsnapshot, hcopies⟩ := h
  refine ⟨?_, ?_, ?_, ?_, ?_⟩
  · rwa [happlied]
  · rwa [happlied]
  · rwa [happlied]
  · rwa [hfacts]
  · rwa [hfacts]

/-- An update that agrees with everything seen, and is applied only above it all. -/
lemma update (h : AppliedOnce snapshot items) {event : ChildEvent} {g : Fact}
    (hg : factOf event = some g) (observation : Option ChildObservation)
    (disposition : ReplayDisposition)
    (hagrees : ∀ f ∈ snapshot.facts ++ items.flatMap ChildStreamItem.facts,
      f.id = g.id → f.Agrees g)
    (happlied : disposition = .applied →
      ∀ f ∈ snapshot.facts ++ items.flatMap ChildStreamItem.facts, f.seq < g.seq ∧ f.id ≠ g.id) :
    AppliedOnce snapshot (items ++ [.update event observation disposition]) := by
  have hfacts : (items ++ [ChildStreamItem.update event observation disposition]).flatMap
      ChildStreamItem.facts = items.flatMap ChildStreamItem.facts ++ [g] := by
    simp [ChildStreamItem.facts, hg]
  have hsnapshot : ∀ f ∈ snapshot.facts, ∀ g' ∈ items.flatMap ChildStreamItem.facts ++ [g],
      f.id = g'.id → f.Agrees g' := by
    intro f hf g' hg'
    rcases List.mem_append.mp hg' with hg' | hg'
    · exact h.ofSnapshot f hf g' hg'
    · rw [List.mem_singleton.mp hg']
      exact hagrees f (List.mem_append_left _ hf)
  have hcopies : (items.flatMap ChildStreamItem.facts ++ [g]).Pairwise
      fun f g => f.id = g.id → f.Agrees g := by
    refine List.pairwise_append.mpr ⟨h.copies, List.pairwise_singleton _ _, ?_⟩
    intro f hf g' hg'
    rw [List.mem_singleton.mp hg']
    exact hagrees f (List.mem_append_right _ hf)
  by_cases hdisposition : disposition = .applied
  · subst hdisposition
    have hg' : (items ++ [ChildStreamItem.update event observation .applied]).flatMap
        ChildStreamItem.applied = items.flatMap ChildStreamItem.applied ++ [g] := by
      simp [ChildStreamItem.applied, hg]
    have habove := happlied rfl
    refine ⟨?_, ?_, ?_, ?_, ?_⟩
    · rw [hg', List.map_append, List.nodup_append]
      refine ⟨h.once, List.nodup_singleton _, ?_⟩
      intro id hid id' hid'
      obtain ⟨f, hf, rfl⟩ := List.mem_map.mp hid
      rw [List.mem_singleton.mp hid']
      exact (habove f (List.mem_append_right _ (mem_facts_of_applied hf))).2
    · rw [hg']
      refine List.pairwise_append.mpr ⟨h.rising, List.pairwise_singleton _ _, ?_⟩
      intro f hf g' hmem
      rw [List.mem_singleton.mp hmem]
      exact (habove f (List.mem_append_right _ (mem_facts_of_applied hf))).1
    · rw [hg']
      intro f hf g' hmem
      rcases List.mem_append.mp hmem with hmem | hmem
      · exact h.above f hf g' hmem
      · rw [List.mem_singleton.mp hmem]
        exact (habove f (List.mem_append_left _ hf)).1
    · rwa [hfacts]
    · rwa [hfacts]
  · have hnone : ChildStreamItem.applied (.update event observation disposition) = [] := by
      unfold ChildStreamItem.applied
      split
      · rename_i heq
        exact absurd (ChildStreamItem.update.inj heq).2.2 hdisposition
      · rfl
    have hsame : (items ++ [ChildStreamItem.update event observation disposition]).flatMap
        ChildStreamItem.applied = items.flatMap ChildStreamItem.applied := by
      rw [List.flatMap_append, List.flatMap_singleton, hnone, List.append_nil]
    refine ⟨?_, ?_, ?_, ?_, ?_⟩
    · rw [hsame]
      exact h.once
    · rw [hsame]
      exact h.rising
    · rw [hsame]
      exact h.above
    · rwa [hfacts]
    · rwa [hfacts]

end AppliedOnce

namespace ChildStream

variable {uuid4 : String → Bool} {context : ChildEventContext} {snapshot : ChildSnapshot}

/-- A parsed event is taken from the host, and its branch is read. -/
def step (t : ChildStream) (op : ParsedEvent uuid4 context × Except ChildResyncReason Unit) :
    ChildStream :=
  t.next (op.1.event, op.2)

/-- Everything the stream has seen of entries. -/
def seen (snapshot : ChildSnapshot) (t : ChildStream) : List Fact :=
  snapshot.facts ++ t.items.flatMap ChildStreamItem.facts

/-- While the stream is on, no copy slips through. -/
def Guarded (snapshot : ChildSnapshot) (t : ChildStream)
    (op : ParsedEvent uuid4 context × Except ChildResyncReason Unit) : Prop :=
  t.stopped = false → ∀ g ∈ factOf op.1.event, ¬t.subscription.Slips (t.seen snapshot) g

/-- What holds of a stream along a run. -/
structure Sound (snapshot : ChildSnapshot) (t : ChildStream) : Prop where
  knows : t.subscription.Knows (t.seen snapshot)
  items : AppliedOnce snapshot t.items

lemma Sound.stop {t : ChildStream} (h : t.Sound snapshot) (reason : ChildResyncReason) :
    (t.stop reason).Sound snapshot := by
  refine ⟨?_, h.items.resync reason⟩
  have hseen : (t.stop reason).seen snapshot = t.seen snapshot := by
    simp [seen, ChildStream.stop, ChildStreamItem.facts]
  rw [hseen]
  exact h.knows

lemma Sound.step {t : ChildStream} (h : t.Sound snapshot)
    (op : ParsedEvent uuid4 context × Except ChildResyncReason Unit)
    (hguarded : t.Guarded snapshot op) : (t.step op).Sound snapshot := by
  rw [ChildStream.step, next]
  split
  · exact h
  · rename_i hrunning
    split
    · exact h.stop _
    · exact h.stop _
    · split
      · exact h.stop _
      · rename_i disposition observation s happly
        obtain ⟨g, hg⟩ := ChildSubscription.entry?_of_apply happly
        have hslips := hguarded (Bool.eq_false_of_not_eq_true hrunning) g hg
        obtain ⟨hknows, hagrees, happlied⟩ := h.knows.apply hg hslips
          (ChildSubscription.apply_eq_ok hg op.1.entryId_of_begin happly)
        refine ⟨?_, h.items.update hg observation disposition hagrees ?_⟩
        · have hseen : seen snapshot { t with
              subscription := s
              items := t.items ++ [.update op.1.event observation disposition] } =
              t.seen snapshot ++ [g] := by
            simp [seen, ChildStreamItem.facts, hg]
          rw [hseen]
          exact hknows
        · intro hdisposition f hf
          obtain ⟨hlt, hne⟩ := happlied hdisposition
          exact ⟨UInt64.lt_of_le_of_lt (h.knows.below f hf) hlt, hne f hf⟩

/-- Over a run on a consistent snapshot in which no copy of an entry slips through what has been
evicted, every entry is applied at most once, in order and above the snapshot, and no conflicting
copy of an entry is delivered. -/
theorem run_applies_once {s : ChildSubscription} (hconsistent : snapshot.Consistent)
    (hseed : ChildSubscription.seed snapshot = .ok s)
    (ops : List (ParsedEvent uuid4 context × Except ChildResyncReason Unit))
    (hops : Run.Meets step (Guarded snapshot) (start s) ops) :
    AppliedOnce snapshot (Run.after step (start s) ops).items := by
  have hstart : (start s).Sound snapshot := by
    refine ⟨?_, .nil snapshot⟩
    have hseen : (start s).seen snapshot = snapshot.facts := List.append_nil _
    rw [hseen]
    exact ChildSubscription.knows_seed hconsistent hseed
  exact (hops.invariant (P := Sound snapshot) (fun t op h hguarded => h.step op hguarded) hstart).items

end ChildStream

/-! ### Runs on two children -/

def runUuids : List String :=
  ["00000000-0000-4000-8000-000000000001", "00000000-0000-4000-8000-000000000002",
    "00000000-0000-4000-8000-000000000003"]

def firstChild : String := "tpchild-00000000-0000-4000-8000-000000000001"

def secondChild : String := "tpchild-00000000-0000-4000-8000-000000000002"

def closedPhase : String := "tpphase-00000000-0000-4000-8000-000000000003"

def childAt (id : String) (seq : UInt64) : ChildSummary :=
  ⟨1, id, seq, ⟨"run", "entry", 0⟩, .nativeCheckpoint, "call", "tool", "tool", 0, none⟩

def beginAt (id : String) (seq : UInt64) (parent : String) : ChildEvent :=
  .begin ⟨1, "session", "main", id, some parent, seq, "rpi.tool_program.child_begin.v1",
    ⟨1, id, ⟨"run", "entry", 0⟩, "call", "tool", "tool", 0, none⟩⟩

abbrev RunEvent : Type := ParsedEvent runUuids.contains ⟨"session", "main"⟩

def closedEvent : RunEvent where
  event := .phase ⟨1, "session", "main", closedPhase, some firstChild, 2,
    "rpi.tool_program.child_phase.v1",
    ⟨1, firstChild, 1, .closed, none, none, none, some false, some false⟩⟩
  parsed := by rfl

def firstSnapshot : ChildSnapshot := ⟨[childAt firstChild 1], [], [], []⟩

def firstSubscription : ChildSubscription where
  snapshot := firstSnapshot
  nativeHigh := 1
  working := [(firstChild, [])]
  identities := ⟨[(firstChild, 1, canonical (childAt firstChild 1))], [(1, firstChild)]⟩
  envelopes := []

lemma consistent_firstSnapshot : firstSnapshot.Consistent where
  begins := fun _ hnil => absurd hnil List.not_mem_nil
  repeats := fun _ hnil => absurd hnil List.not_mem_nil
  observed := fun _ hnil => absurd hnil List.not_mem_nil

/-- A phase is applied, and its copy is not. -/
theorem run_applies_once_closed :
    ∃ t : ChildStream,
      t = Run.after ChildStream.step (ChildStream.start firstSubscription)
        [(closedEvent, .ok ()), (closedEvent, .ok ())] ∧
      t.items.map ChildStreamItem.applied = [(factOf closedEvent.event).toList, []] ∧
      AppliedOnce firstSnapshot t.items := by
  refine ⟨_, rfl, by rfl, ChildStream.run_applies_once consistent_firstSnapshot (by rfl) _ ?_⟩
  refine ⟨?_, ?_, trivial⟩
  · rintro - g hg ⟨⟨f, hf, hid, -⟩, -⟩
    obtain rfl := Option.some.inj hg
    rw [List.mem_singleton.mp hf] at hid
    exact absurd hid (by decide)
  · rintro - g hg ⟨-, hevicted, -⟩
    obtain rfl := Option.some.inj hg
    exact absurd hevicted (by decide)

def firstBegin : ChildEvent := beginAt firstChild 1 "parent"

def secondBegin : ChildEvent := beginAt secondChild 2 "parent"

/-- The first child begins, and then the second one, as often as events are kept. -/
def twoSnapshot : ChildSnapshot :=
  ⟨[childAt secondChild 2, childAt firstChild 1], [], [],
    [firstBegin, secondBegin] ++ List.replicate 126 secondBegin ++ [secondBegin]⟩

def twoSubscription (envelopes : List (String × ChildEvent)) : ChildSubscription where
  snapshot := twoSnapshot
  nativeHigh := 2
  working := [(firstChild, []), (secondChild, [])]
  identities := ⟨[(secondChild, 2, canonical (childAt secondChild 2)),
    (firstChild, 1, canonical (childAt firstChild 1))], [(2, secondChild), (1, firstChild)]⟩
  envelopes

/-- The subscription before the events. -/
def twoChildren : ChildSubscription :=
  { twoSubscription [] with
    identities := ⟨[(firstChild, 1, canonical (childAt firstChild 1)),
      (secondChild, 2, canonical (childAt secondChild 2))], [(1, firstChild), (2, secondChild)]⟩ }

lemma seedEvent_twoSubscription (envelopes : List (String × ChildEvent)) :
    (twoSubscription envelopes).seedEvent secondBegin = .ok (twoSubscription
      (ChildSubscription.keepEnvelopes (envelopes ++ [(secondChild, secondBegin)]))) := by
  rfl

/-- The copies leave the first event where it is until there are too many. -/
lemma seed_copies (n m : Nat) (h : m + n < recentIdentities) :
    (List.replicate n secondBegin).foldlM ChildSubscription.seedEvent
        (twoSubscription ((firstChild, firstBegin) :: List.replicate m (secondChild, secondBegin))) =
      .ok (twoSubscription
        ((firstChild, firstBegin) :: List.replicate (m + n) (secondChild, secondBegin))) := by
  induction n generalizing m with
  | zero => rfl
  | succ n ih =>
    have hkeep : ChildSubscription.keepEnvelopes
        ((firstChild, firstBegin) :: List.replicate m (secondChild, secondBegin) ++
          [(secondChild, secondBegin)]) =
        (firstChild, firstBegin) :: List.replicate (m + 1) (secondChild, secondBegin) := by
      rw [List.cons_append, ← List.replicate_succ', ChildSubscription.keepEnvelopes, if_neg]
      rw [List.length_cons, List.length_replicate]
      omega
    rw [List.replicate_succ, List.foldlM_cons, seedEvent_twoSubscription, ok_bind, hkeep,
      ih (m + 1) (by omega), Nat.add_right_comm, Nat.add_assoc]

/-- One copy too many drops the first event. -/
lemma seed_twoSnapshot :
    ChildSubscription.seed twoSnapshot = .ok (twoSubscription
      (List.replicate recentIdentities (secondChild, secondBegin))) := by
  have hbegins : [firstBegin, secondBegin].foldlM ChildSubscription.seedEvent twoChildren =
      .ok (twoSubscription
        ((firstChild, firstBegin) :: List.replicate 1 (secondChild, secondBegin))) := by
    rfl
  have hlast : ChildSubscription.keepEnvelopes ((firstChild, firstBegin) ::
      List.replicate (1 + 126) (secondChild, secondBegin) ++ [(secondChild, secondBegin)]) =
      List.replicate recentIdentities (secondChild, secondBegin) := by
    rw [List.cons_append, ← List.replicate_succ', ChildSubscription.keepEnvelopes, if_pos]
    · rfl
    · rw [List.length_cons, List.length_replicate]
      decide
  have hevents : twoSnapshot.events.foldlM ChildSubscription.seedEvent twoChildren =
      .ok (twoSubscription (List.replicate recentIdentities (secondChild, secondBegin))) := by
    show ([firstBegin, secondBegin] ++ List.replicate 126 secondBegin ++ [secondBegin]).foldlM
      ChildSubscription.seedEvent _ = _
    rw [List.foldlM_append, List.foldlM_append, hbegins, ok_bind,
      seed_copies 126 1 (by decide), ok_bind, List.foldlM_cons, seedEvent_twoSubscription, ok_bind,
      hlast]
    rfl
  have hchildren : twoSnapshot.children.foldlM ChildSubscription.seedChild
      ⟨twoSnapshot, 0, [], .default, []⟩ = .ok twoChildren := by
    rfl
  have hphases : twoSnapshot.phases.foldlM ChildSubscription.seedPage twoChildren =
      .ok twoChildren := by
    rfl
  rw [ChildSubscription.seed, hchildren, ok_bind, hphases, ok_bind, hevents]
  rfl

/-- The first child has another parent here. -/
def otherBegin : RunEvent where
  event := beginAt firstChild 1 "other"
  parsed := by rfl

lemma consistent_twoSnapshot : twoSnapshot.Consistent := by
  have hmem : ∀ e ∈ twoSnapshot.events, e = firstBegin ∨ e = secondBegin := by
    intro e he
    simp only [twoSnapshot, List.mem_append, List.mem_pair, List.mem_replicate,
      List.mem_singleton] at he
    tauto
  refine ⟨?_, ?_, fun _ hnil => absurd hnil List.not_mem_nil⟩
  · intro c hc
    rcases hmem _ hc with h | h
    · obtain rfl := ChildEvent.begin.inj h
      rfl
    · obtain rfl := ChildEvent.begin.inj h
      rfl
  · intro f hf g hg hid
    simp only [ChildSnapshot.eventFacts, List.mem_flatMap, Option.mem_toList] at hf hg
    obtain ⟨e, he, hf⟩ := hf
    obtain ⟨e', he', hg⟩ := hg
    rcases hmem e he with rfl | rfl <;> rcases hmem e' he' with rfl | rfl <;>
      obtain rfl := Option.some.inj hf <;> obtain rfl := Option.some.inj hg
    · rfl
    · exact absurd hid (by decide)
    · exact absurd hid (by decide)
    · rfl

lemma preflight_otherBegin {envelopes : List (String × ChildEvent)}
    (h : ∀ p ∈ envelopes, p.1 = secondChild) :
    (twoSubscription envelopes).preflight otherBegin.event = .ok () := by
  have hany : (envelopes.any fun p => p.1 == firstChild && p.2 != otherBegin.event) =
      false := by
    rw [List.any_eq_false]
    rintro ⟨key, old⟩ hp
    obtain rfl : key = secondChild := h _ hp
    show ¬(secondChild == firstChild && old != otherBegin.event) = true
    rw [show (secondChild == firstChild) = false by decide, Bool.false_and]
    exact Bool.false_ne_true
  have hentry : otherBegin.event.entry? = some (firstChild, 1, firstChild) := rfl
  simp only [ChildSubscription.preflight, hentry, okOr, ok_bind]
  show (do
    failIf (_ = none) _
    failIf ((envelopes.any fun p => p.1 == firstChild && p.2 != otherBegin.event) =
      true) _
    _) = _
  rw [hany]
  rfl

lemma apply_otherBegin {envelopes : List (String × ChildEvent)}
    (h : ∀ p ∈ envelopes, p.1 = secondChild) :
    ∃ s, (twoSubscription envelopes).apply otherBegin.event = .ok ((.duplicate, none), s) := by
  have hlookup : envelopes.lookup firstChild = none := by
    rw [List.lookup_eq_none_iff]
    intro p hp
    rw [h p hp]
    decide
  have hentry : otherBegin.event.entry? = some (firstChild, 1, firstChild) := rfl
  simp only [ChildSubscription.apply, hentry, okOr, ok_bind]
  rw [show (twoSubscription envelopes).envelopes = envelopes from rfl, hlookup]
  exact ⟨_, rfl⟩

/-- The event of the first child is not kept any more, so a begin of it under another parent is
delivered. -/
theorem conflict_delivered :
    twoSnapshot.Consistent ∧ ∃ s, ChildSubscription.seed twoSnapshot = .ok s ∧
      (Run.after ChildStream.step (ChildStream.start s) [(otherBegin, .ok ())]).items =
        [.update otherBegin.event none .duplicate] ∧
      ¬AppliedOnce twoSnapshot
        (Run.after ChildStream.step (ChildStream.start s) [(otherBegin, .ok ())]).items := by
  refine ⟨consistent_twoSnapshot, _, seed_twoSnapshot, ?_⟩
  have hkept : ∀ p ∈ List.replicate recentIdentities (secondChild, secondBegin),
      p.1 = secondChild := by
    intro p hp
    rw [(List.mem_replicate.mp hp).2]
  have hpreflight := preflight_otherBegin hkept
  obtain ⟨s, happly⟩ := apply_otherBegin hkept
  generalize List.replicate recentIdentities (secondChild, secondBegin) = envelopes at *
  have hitems : (Run.after ChildStream.step (ChildStream.start (twoSubscription envelopes))
      [(otherBegin, .ok ())]).items = [.update otherBegin.event none .duplicate] := by
    rw [Run.after_cons, Run.after_nil, ChildStream.step, ChildStream.next]
    simp only [ChildStream.start, hpreflight, happly]
    rfl
  refine ⟨hitems, ?_⟩
  intro hopen
  rw [hitems] at hopen
  have hfirst : (⟨canonical (childAt firstChild 1), some firstBegin⟩ : Fact) ∈
      twoSnapshot.facts :=
    List.mem_append_left _ (List.mem_append_right _ List.mem_cons_self)
  have hother : (⟨canonical (childAt firstChild 1), some otherBegin.event⟩ : Fact) ∈
      [ChildStreamItem.update otherBegin.event none .duplicate].flatMap ChildStreamItem.facts :=
    List.mem_cons_self
  have hagrees := (hopen.ofSnapshot _ hfirst _ hother rfl).2 firstBegin rfl otherBegin.event rfl
  exact absurd hagrees (by decide)

end Child
