import RpiPackage.Timings.Record
import RpiPackage.Lib.Assoc

/-!
# No timing is made up

The timings of a scan are the runs that the records contain: an operation that starts, the last
message that is seen while it is under way, and the record that finishes it.
-/

namespace Timings

open Json Service Result

/-- The record starts an operation on the lane. -/
def Starts (lane : String) (v : Value) : Prop :=
  laneOf v = some lane ∧ (v.index "kind").asStr = some "record" ∧
    (v.index "type").asStr = some "operation_started"

def StartsRun (lane run : String) (start : Int) (v : Value) : Prop :=
  Starts lane v ∧ ((v.index "intent").index "kind").asStr = some "run" ∧
    short (v.index "id") = some run ∧ (v.index "timestamp").asI64 = some start

/-- The record finishes a run of this id on the lane. -/
def Finishes (lane run : String) (v : Value) : Prop :=
  laneOf v = some lane ∧ (v.index "kind").asStr = some "record" ∧
    (v.index "type").asStr = some "operation_finished" ∧ (v.index "runId").asStr = some run

/-- The id of a visible message on the lane. -/
def said (lane : String) (v : Value) : Option String :=
  if laneOf v = some lane ∧ (v.index "kind").asStr = some "entry" ∧
      (v.index "type").asStr = some "message" ∧ visible (v.index "message") = true then
    short (v.index "id")
  else none

/-- After these records the run is under way on the lane. -/
def UnderWay (vs : List Value) (lane : String) (run : Active) : Prop :=
  ∃ before first between, vs = before ++ first :: between ∧ StartsRun lane run.id run.start first ∧
    (∀ v ∈ between, ¬Starts lane v ∧ ¬Finishes lane run.id v) ∧
    run.last = (between.filterMap (said lane)).getLast?

/-- After these records, the record `v` completes a run; `checked` is what the code asks of the
difference of its timestamps. -/
structure Completes (checked : Int → Prop) (vs : List Value) (v : Value) (t : RunTiming) : Prop where
  underWay : UnderWay vs t.lane ⟨t.runId, t.startedAt, some t.finalEntryId⟩
  finishes : Finishes t.lane t.runId v
  finishedAt : (v.index "timestamp").asI64 = some t.finishedAt
  outcome : short (v.index "outcome") = some t.outcome
  ordered : t.startedAt ≤ t.finishedAt
  checked : checked (t.finishedAt - t.startedAt)
  elapsed : (t.elapsedMs : Int) = t.finishedAt - t.startedAt

/-- The records contain the run. -/
def Contains (checked : Int → Prop) (vs : List Value) (t : RunTiming) : Prop :=
  ∃ before v after, vs = before ++ v :: after ∧ Completes checked before v t

/-- The difference of two timestamps does not overflow. -/
def fits (difference : Int) : Prop := difference < 2 ^ 63

variable {vs : List Value} {v : Value} {s s' : Lanes} {lane lane' run : String} {active : Active}
  {t : RunTiming}

/-! ### The records, one after the other -/

lemma underWay_append : UnderWay (vs ++ [v]) lane active ↔
    (StartsRun lane active.id active.start v ∧ active.last = none) ∨
    (∃ last, UnderWay vs lane { active with last } ∧ ¬Starts lane v ∧
      ¬Finishes lane active.id v ∧ active.last = (said lane v).or last) := by
  constructor
  · rintro ⟨before, first, between, hvs, hstarts, hbetween, hlast⟩
    rcases List.eq_nil_or_concat between with rfl | ⟨between, v', rfl⟩
    · obtain ⟨-, hv⟩ := List.append_inj' hvs rfl
      obtain rfl := (List.cons.inj hv).1
      exact .inl ⟨hstarts, hlast⟩
    · rw [List.concat_eq_append] at hvs hbetween hlast
      rw [← List.cons_append, ← List.append_assoc] at hvs
      obtain ⟨hinitial, hv⟩ := List.append_inj' hvs rfl
      obtain rfl := (List.cons.inj hv).1
      obtain ⟨hstart, hfinish⟩ := hbetween v (by simp)
      refine .inr ⟨(between.filterMap (said lane)).getLast?,
        ⟨before, first, between, hinitial, hstarts, ?_, rfl⟩, hstart, hfinish, ?_⟩
      · exact fun u hu => hbetween u (List.mem_append_left _ hu)
      · rw [hlast, List.filterMap_append, List.getLast?_append]
        cases hsaid : said lane v <;> simp [hsaid]
  · rintro (⟨hstarts, hlast⟩ | ⟨last, ⟨before, first, between, rfl, hstarts, hbetween, hlast'⟩,
      hstart, hfinish, hlast⟩)
    · exact ⟨vs, v, [], rfl, hstarts, by simp, hlast⟩
    · refine ⟨before, first, between ++ [v], by simp, hstarts, ?_, ?_⟩
      · intro u hu
        rcases List.mem_append.mp hu with hu | hu
        · exact hbetween u hu
        · obtain rfl := List.mem_singleton.mp hu
          exact ⟨hstart, hfinish⟩
      · rw [hlast, List.filterMap_append, List.getLast?_append, ← hlast']
        cases hsaid : said lane v <;> simp [hsaid]

lemma not_underWay_nil : ¬UnderWay [] lane active := by
  rintro ⟨before, first, between, hvs, -⟩
  simp at hvs

lemma contains_append {checked : Int → Prop} : Contains checked (vs ++ [v]) t ↔
    Contains checked vs t ∨ Completes checked vs v t := by
  constructor
  · rintro ⟨before, last, after, hvs, hcompletes⟩
    rcases List.eq_nil_or_concat after with rfl | ⟨after, v', rfl⟩
    · obtain ⟨rfl, hv⟩ := List.append_inj' hvs rfl
      obtain rfl := (List.cons.inj hv).1
      exact .inr hcompletes
    · rw [List.concat_eq_append, ← List.cons_append, ← List.append_assoc] at hvs
      obtain ⟨rfl, -⟩ := List.append_inj' hvs rfl
      exact .inl ⟨before, last, after, rfl, hcompletes⟩
  · rintro (⟨before, last, after, rfl, hcompletes⟩ | hcompletes)
    · exact ⟨before, last, after ++ [v], by simp, hcompletes⟩
    · exact ⟨vs, v, [], rfl, hcompletes⟩

lemma not_contains_nil {checked : Int → Prop} : ¬Contains checked [] t := by
  rintro ⟨before, last, after, hvs, -⟩
  simp at hvs

/-! ### One record -/

lemma lookup_remove_self (s : Lanes) (lane : String) : (s.remove lane).active.lookup lane = none :=
  Assoc.lookup_erase_self s.active lane

lemma lookup_remove_of_ne (h : lane' ≠ lane) (s : Lanes) :
    (s.remove lane).active.lookup lane' = s.active.lookup lane' :=
  Assoc.lookup_erase_of_ne h s.active

/-- A lane that has just been removed is added at the end. -/
lemma lookup_append (s : Lanes) (lane lane' : String) (active : Active) :
    ((s.remove lane).active ++ [(lane, active)]).lookup lane' =
      if lane' = lane then some active else s.active.lookup lane' := by
  rw [List.lookup_append]
  split
  · rename_i heq
    subst heq
    rw [lookup_remove_self]
    simp
  · rename_i hne
    rw [lookup_remove_of_ne hne, List.lookup_cons, beq_false_of_ne hne]
    simp

lemma lookup_map (m : List (String × Active)) (lane lane' : String) (last : Option String) :
    (m.map fun p => if p.1 = lane then (p.1, { p.2 with last }) else p).lookup lane' =
      (m.lookup lane').map fun a => if lane' = lane then { a with last } else a := by
  induction m with
  | nil => rfl
  | cons p m ih =>
    rw [List.map_cons, List.lookup_cons, List.lookup_cons, ih]
    by_cases hp : p.1 = lane
    · rw [if_pos hp]
      cases hkey : lane' == p.1
      · rfl
      · simp [beq_iff_eq.mp hkey, hp]
    · rw [if_neg hp]
      cases hkey : lane' == p.1
      · rfl
      · simp [beq_iff_eq.mp hkey, hp]

/-- What a record leaves of the runs that are under way. -/
def Keeps (s s' : Lanes) (v : Value) : Prop :=
  ∀ lane active, s'.active.lookup lane = some active ↔
    (StartsRun lane active.id active.start v ∧ active.last = none) ∨
    (∃ last, s.active.lookup lane = some { active with last } ∧ ¬Starts lane v ∧
      ¬Finishes lane active.id v ∧ active.last = (said lane v).or last)

/-- A record that is on another lane, or of no interest, leaves a lane as it was. -/
lemma keeps_iff_of_silent (hstarts : ¬Starts lane v) (hfinishes : ¬Finishes lane active.id v)
    (hsaid : said lane v = none) :
    (StartsRun lane active.id active.start v ∧ active.last = none) ∨
      (∃ last, s.active.lookup lane = some { active with last } ∧ ¬Starts lane v ∧
        ¬Finishes lane active.id v ∧ active.last = (said lane v).or last) ↔
    s.active.lookup lane = some active := by
  constructor
  · rintro (⟨⟨hstart, -⟩, -⟩ | ⟨last, hlookup, -, -, hlast⟩)
    · exact absurd hstart hstarts
    · rw [hsaid, Option.none_or] at hlast
      rw [hlookup, ← hlast]
  · intro hlookup
    exact .inr ⟨active.last, hlookup, hstarts, hfinishes, by rw [hsaid, Option.none_or]⟩

lemma said_eq_none_of_record (h : (v.index "kind").asStr ≠ some "entry") : said lane v = none :=
  if_neg fun hsaid => h hsaid.2.1

/-- Other lanes do not see a record. -/
lemma keeps_iff_of_ne (hv : laneOf v = some lane') (hne : lane ≠ lane') :
    (StartsRun lane active.id active.start v ∧ active.last = none) ∨
      (∃ last, s.active.lookup lane = some { active with last } ∧ ¬Starts lane v ∧
        ¬Finishes lane active.id v ∧ active.last = (said lane v).or last) ↔
    s.active.lookup lane = some active := by
  have hlane : laneOf v ≠ some lane := by
    rw [hv]
    exact fun heq => hne (Option.some.inj heq).symm
  exact keeps_iff_of_silent (fun h => hlane h.1) (fun h => hlane h.1) (if_neg fun h => hlane h.1)

lemma started_spec (hlane : laneOf v = some lane) (hkind : (v.index "kind").asStr = some "record")
    (htype : (v.index "type").asStr = some "operation_started")
    (h : s.started lane v = .ok s') : Keeps s s' v ∧ s'.timings = s.timings := by
  have hstarts : Starts lane v := ⟨hlane, hkind, htype⟩
  have hnone : ∀ active : Active, ¬∃ last, s.active.lookup lane = some { active with last } ∧
      ¬Starts lane v ∧ ¬Finishes lane active.id v ∧ active.last = (said lane v).or last :=
    fun active ⟨_, _, hnot, _⟩ => hnot hstarts
  -- without a run the lane is free
  have hfree : (∀ active : Active, ¬StartsRun lane active.id active.start v) →
      Keeps s (s.remove lane) v := by
    intro hruns lane' active
    by_cases heq : lane' = lane
    · subst heq
      rw [lookup_remove_self]
      refine iff_of_false (by simp) ?_
      exact not_or.mpr ⟨fun h => hruns active h.1, hnone active⟩
    · rw [lookup_remove_of_ne heq]
      exact (keeps_iff_of_ne hlane heq).symm
  unfold Lanes.started at h
  dsimp only at h
  split at h
  · rename_i hintent
    split at h
    · rename_i id start hid hstart
      split at h
      · cases h
      obtain rfl := Except.ok.inj h
      refine ⟨?_, rfl⟩
      intro lane' active
      dsimp only
      rw [lookup_append]
      by_cases heq : lane' = lane
      · subst heq
        rw [if_pos rfl]
        constructor
        · intro hactive
          obtain rfl := Option.some.inj hactive
          exact .inl ⟨⟨hstarts, hintent, hid, hstart⟩, rfl⟩
        · rintro (⟨⟨-, -, hid', hstart'⟩, hlast⟩ | hold)
          · obtain rfl := Option.some.inj (hid.symm.trans hid')
            obtain rfl := Option.some.inj (hstart.symm.trans hstart')
            rw [← hlast]
          · exact absurd hold (hnone active)
      · rw [if_neg heq]
        exact (keeps_iff_of_ne hlane heq).symm
    · rename_i hmissing
      obtain rfl := Except.ok.inj h
      refine ⟨hfree ?_, rfl⟩
      rintro active ⟨-, -, hid, hstart⟩
      exact hmissing _ _ hid hstart
  · rename_i hintent
    obtain rfl := Except.ok.inj h
    exact ⟨hfree fun active hruns => hintent hruns.2.1, rfl⟩

lemma message_spec (hlane : laneOf v = some lane) (hkind : (v.index "kind").asStr = some "entry")
    (htype : (v.index "type").asStr = some "message") :
    Keeps s (s.message lane v) v ∧ (s.message lane v).timings = s.timings := by
  have hstarts : ∀ lane', ¬Starts lane' v := by
    rintro lane' ⟨-, hrecord, -⟩
    simp [hkind] at hrecord
  have hfinishes : ∀ lane' run, ¬Finishes lane' run v := by
    rintro lane' run ⟨-, hrecord, -⟩
    simp [hkind] at hrecord
  have hsilent : said lane v = none → Keeps s s v := by
    intro hsaid lane' active
    by_cases heq : lane' = lane
    · subst heq
      exact (keeps_iff_of_silent (hstarts _) (hfinishes _ _) hsaid).symm
    · exact (keeps_iff_of_ne hlane heq).symm
  unfold Lanes.message
  split
  · rename_i hvisible
    have hsaid : said lane v = short (v.index "id") := if_pos ⟨hlane, hkind, htype, hvisible⟩
    split
    · rename_i id hid
      refine ⟨?_, rfl⟩
      intro lane' active
      dsimp only
      rw [lookup_map]
      by_cases heq : lane' = lane
      · subst heq
        constructor
        · intro hmap
          obtain ⟨old, hold, rfl⟩ := Option.map_eq_some_iff.mp hmap
          rw [if_pos rfl]
          refine .inr ⟨old.last, hold, hstarts _, hfinishes _ _, ?_⟩
          rw [hsaid, hid]
          rfl
        · rintro (⟨⟨hstart, -⟩, -⟩ | ⟨last, hold, -, -, hlast⟩)
          · exact absurd hstart (hstarts _)
          · rw [hold]
            rw [hsaid, hid, Option.some_or] at hlast
            simp [← hlast]
      · rw [keeps_iff_of_ne hlane heq]
        simp [heq]
    · rename_i hid
      exact ⟨hsilent (hsaid.trans hid), rfl⟩
  · rename_i hvisible
    exact ⟨hsilent (if_neg fun h => hvisible h.2.2.2), rfl⟩

/-- The timing that a record completes. -/
structure Finished (s : Lanes) (v : Value) (t : RunTiming) : Prop where
  active : s.active.lookup t.lane = some ⟨t.runId, t.startedAt, some t.finalEntryId⟩
  finishes : Finishes t.lane t.runId v
  finishedAt : (v.index "timestamp").asI64 = some t.finishedAt
  outcome : short (v.index "outcome") = some t.outcome
  elapsed : elapsed t.startedAt t.finishedAt = some t.elapsedMs

lemma finished_spec (hlane : laneOf v = some lane) (hkind : (v.index "kind").asStr = some "record")
    (htype : (v.index "type").asStr = some "operation_finished")
    (h : s.finished lane v = .ok s') : Keeps s s' v ∧
      ((s'.timings = s.timings ∧ ∀ t, ¬Finished s v t) ∨
        ∃ t, s'.timings = s.timings ++ [t] ∧ ∀ t', Finished s v t' ↔ t' = t) := by
  have hstarts : ∀ lane', ¬Starts lane' v := by
    rintro lane' ⟨-, -, hstarted⟩
    simp [htype] at hstarted
  have hsaid : ∀ lane', said lane' v = none :=
    fun _ => said_eq_none_of_record (by simp [hkind])
  have hof : ∀ {t}, Finished s v t → t.lane = lane := by
    intro t ht
    exact (Option.some.inj (hlane.symm.trans ht.finishes.1)).symm
  have hsame : (∀ active : Active, s.active.lookup lane = some active → ¬Finishes lane active.id v) →
      Keeps s s v ∧ ∀ t, ¬Finished s v t := by
    intro hnot
    refine ⟨?_, ?_⟩
    · intro lane' active
      by_cases heq : lane' = lane
      · subst heq
        by_cases hlookup : s.active.lookup lane' = some active
        · exact (keeps_iff_of_silent (hstarts _) (hnot active hlookup) (hsaid _)).symm
        · refine iff_of_false hlookup ?_
          rintro (⟨⟨hstart, -⟩, -⟩ | ⟨last, hold, -, -, hlast⟩)
          · exact hstarts _ hstart
          · rw [hsaid, Option.none_or] at hlast
            rw [← hlast] at hold
            exact hlookup hold
      · exact (keeps_iff_of_ne hlane heq).symm
    · intro t ht
      have hactive := ht.active
      have hfinishes := ht.finishes
      rw [hof ht] at hactive hfinishes
      exact hnot _ hactive hfinishes
  unfold Lanes.finished at h
  split at h
  · rename_i hnone
    obtain rfl := Except.ok.inj h
    obtain ⟨hkeeps, hnot⟩ := hsame fun active hactive => by simp [hnone] at hactive
    exact ⟨hkeeps, .inl ⟨rfl, hnot⟩⟩
  rename_i active hactive
  split at h
  · rename_i hother
    obtain rfl := Except.ok.inj h
    obtain ⟨hkeeps, hnot⟩ := hsame fun active' hactive' hfinishes => by
      obtain rfl := Option.some.inj (hactive.symm.trans hactive')
      exact hother hfinishes.2.2.2
    exact ⟨hkeeps, .inl ⟨rfl, hnot⟩⟩
  rename_i hrun
  rw [ne_eq, not_not] at hrun
  have hfinishes : Finishes lane active.id v := ⟨hlane, hkind, htype, hrun⟩
  -- the lane is free again
  have hkeeps : Keeps s (s.remove lane) v := by
    intro lane' active'
    by_cases heq : lane' = lane
    · subst heq
      rw [lookup_remove_self]
      refine iff_of_false (by simp) ?_
      rintro (⟨⟨hstart, -⟩, -⟩ | ⟨last, hold, -, hnot, -⟩)
      · exact hstarts _ hstart
      · obtain rfl := Option.some.inj (hactive.symm.trans hold)
        exact hnot hfinishes
    · rw [lookup_remove_of_ne heq]
      exact (keeps_iff_of_ne hlane heq).symm
  -- what is finished is the run that was under way
  have hwho : ∀ {t}, Finished s v t →
      active = ⟨t.runId, t.startedAt, some t.finalEntryId⟩ := by
    intro t ht
    have hlookup := ht.active
    rw [hof ht] at hlookup
    exact Option.some.inj (hactive.symm.trans hlookup)
  dsimp only at h
  split at h
  · rename_i last finish outcome hlast hfinish houtcome
    split at h
    · rename_i helapsed
      obtain rfl := Except.ok.inj h
      refine ⟨hkeeps, .inl ⟨rfl, fun t ht => ?_⟩⟩
      have heq := ht.elapsed
      rw [Option.some.inj (ht.finishedAt.symm.trans hfinish)] at heq
      rw [hwho ht] at helapsed
      simp [helapsed] at heq
    · rename_i elapsedMs helapsed
      split at h
      · cases h
      obtain rfl := Except.ok.inj h
      refine ⟨hkeeps, .inr ⟨_, rfl, fun t => ⟨fun ht => ?_, ?_⟩⟩⟩
      · have hlane' := hof ht
        have hactive' := hwho ht
        have hfinish' := Option.some.inj (ht.finishedAt.symm.trans hfinish)
        have houtcome' := Option.some.inj (ht.outcome.symm.trans houtcome)
        have helapsed' := ht.elapsed
        obtain ⟨runId, tlane, finalEntryId, startedAt, finishedAt, elapsedMs', outcome'⟩ := t
        dsimp only at *
        subst hactive' hfinish' houtcome' hlane'
        dsimp only at *
        obtain rfl := Option.some.inj hlast
        obtain rfl := Option.some.inj (helapsed.symm.trans helapsed')
        rfl
      · rintro rfl
        refine ⟨?_, hfinishes, hfinish, houtcome, helapsed⟩
        rw [hactive, ← hlast]
  · rename_i hmissing
    obtain rfl := Except.ok.inj h
    refine ⟨hkeeps, .inl ⟨rfl, fun t ht => ?_⟩⟩
    refine hmissing t.finalEntryId t.finishedAt t.outcome ?_ ht.finishedAt ht.outcome
    rw [hwho ht]

lemma keeps_refl_of_silent (hstarts : ∀ lane, ¬Starts lane v) (hfinishes : ∀ lane run, ¬Finishes lane run v)
    (hsaid : ∀ lane, said lane v = none) : Keeps s s v :=
  fun lane active => (keeps_iff_of_silent (hstarts lane) (hfinishes lane active.id) (hsaid lane)).symm

lemma record_spec (h : s.record v = .ok s') : Keeps s s' v ∧
    ((s'.timings = s.timings ∧ ∀ t, ¬Finished s v t) ∨
      ∃ t, s'.timings = s.timings ++ [t] ∧ ∀ t', Finished s v t' ↔ t' = t) := by
  unfold Lanes.record at h
  split at h
  · -- a record on no lane
    rename_i hlane
    obtain rfl := Except.ok.inj h
    refine ⟨keeps_refl_of_silent ?_ ?_ ?_, .inl ⟨rfl, fun t ht => ?_⟩⟩
    · rintro lane ⟨hsome, -⟩
      simp [hlane] at hsome
    · rintro lane run ⟨hsome, -⟩
      simp [hlane] at hsome
    · exact fun lane => if_neg fun hsaid => by simp [hlane] at hsaid
    · have hsome := ht.finishes.1
      simp [hlane] at hsome
  rename_i lane hlane
  split at h
  · rename_i hkind htype
    obtain ⟨hkeeps, htimings⟩ := started_spec hlane hkind htype h
    refine ⟨hkeeps, .inl ⟨htimings, fun t ht => ?_⟩⟩
    have hfinished := ht.finishes.2.2.1
    simp [htype] at hfinished
  · rename_i hkind htype
    obtain rfl := Except.ok.inj h
    obtain ⟨hkeeps, htimings⟩ := message_spec (s := s) hlane hkind htype
    refine ⟨hkeeps, .inl ⟨htimings, fun t ht => ?_⟩⟩
    have hfinished := ht.finishes.2.2.1
    simp [htype] at hfinished
  · rename_i hkind htype
    exact finished_spec hlane hkind htype h
  · -- a record of another kind
    rename_i hstarted hmessage hfinished
    obtain rfl := Except.ok.inj h
    refine ⟨keeps_refl_of_silent ?_ ?_ ?_, .inl ⟨rfl, fun t ht => ?_⟩⟩
    · exact fun lane hstarts => hstarted hstarts.2.1 hstarts.2.2
    · exact fun lane run hfinishes => hfinished hfinishes.2.1 hfinishes.2.2.1
    · exact fun lane => if_neg fun hsaid => hmessage hsaid.2.1 hsaid.2.2.1
    · exact hfinished ht.finishes.2.1 ht.finishes.2.2.1

/-! ### All records -/

def recordAll (vs : List Value) : Except ServiceError Lanes := vs.foldlM Lanes.record Lanes.empty

/-- The scan knows the runs that are under way and those that are over. -/
structure Knows (s : Lanes) (vs : List Value) : Prop where
  active : ∀ lane active, s.active.lookup lane = some active ↔ UnderWay vs lane active
  timings : ∀ t, t ∈ s.timings ↔ Contains fits vs t

lemma knows_empty : Knows Lanes.empty [] := by
  constructor
  · intro lane active
    exact iff_of_false (by simp [Lanes.empty]) not_underWay_nil
  · intro t
    exact iff_of_false (by simp [Lanes.empty]) not_contains_nil

lemma elapsed_eq_some {start finish : Int} {ms : Nat} : elapsed start finish = some ms ↔
    start ≤ finish ∧ fits (finish - start) ∧ (ms : Int) = finish - start := by
  unfold elapsed fits
  split
  · rename_i h
    rw [Option.some.injEq]
    omega
  · rename_i h
    refine iff_of_false (by simp) ?_
    rintro ⟨horder, hfits, -⟩
    exact h ⟨by omega, hfits⟩

lemma Knows.finished_iff (h : Knows s vs) : Finished s v t ↔ Completes fits vs v t := by
  constructor
  · intro ht
    obtain ⟨hordered, hfits, hms⟩ := elapsed_eq_some.mp ht.elapsed
    exact ⟨(h.active _ _).mp ht.active, ht.finishes, ht.finishedAt, ht.outcome, hordered, hfits, hms⟩
  · intro ht
    exact ⟨(h.active _ _).mpr ht.underWay, ht.finishes, ht.finishedAt, ht.outcome,
      elapsed_eq_some.mpr ⟨ht.ordered, ht.checked, ht.elapsed⟩⟩

/-- One more record. -/
lemma Knows.record (h : Knows s vs) (hrecord : s.record v = .ok s') : Knows s' (vs ++ [v]) := by
  obtain ⟨hkeeps, htimings⟩ := record_spec hrecord
  constructor
  · intro lane active
    rw [hkeeps lane active, underWay_append]
    simp only [h.active]
  · intro t
    rw [contains_append, ← h.timings, ← h.finished_iff]
    rcases htimings with ⟨hsame, hnone⟩ | ⟨t', hnew, hiff⟩
    · rw [hsame]
      simp [hnone t]
    · rw [hnew, hiff]
      simp

lemma knows_recordAll (h : recordAll vs = .ok s) : Knows s vs := by
  have hrecord : ∀ v ∈ vs, ∀ s s' seen, Knows s seen → s.record v = .ok s' →
      Knows s' (seen ++ [v]) := fun v _ s s' seen hs hrecord => hs.record hrecord
  have hall := foldlM_invariant hrecord knows_empty h
  simpa using hall

/-! ### One lane -/

/-- The part of a scan that is about one lane. -/
structure OnLane (lane : String) (s part : Lanes) : Prop where
  active : part.active = s.active.filter fun p => p.1 == lane
  timings : part.timings = s.timings.filter fun t => t.lane == lane

lemma lookup_filter_key (m : List (String × Active)) (lane : String) :
    (m.filter fun p => p.1 == lane).lookup lane = m.lookup lane := by
  induction m with
  | nil => rfl
  | cons p m ih =>
    rw [List.filter_cons, List.lookup_cons]
    by_cases hp : p.1 = lane
    · rw [if_pos (by simpa using hp), List.lookup_cons, hp, beq_self_eq_true]
    · rw [if_neg (by simpa using hp), ih, beq_false_of_ne (Ne.symm hp)]

lemma filter_remove_self (s : Lanes) (lane : String) :
    (s.remove lane).active.filter (fun p => p.1 == lane) = [] := by
  unfold Lanes.remove
  rw [List.filter_filter, List.filter_eq_nil_iff]
  intro p _
  cases h : p.1 == lane <;> simp_all

lemma filter_remove_of_ne (h : lane' ≠ lane) (s : Lanes) :
    (s.remove lane').active.filter (fun p => p.1 == lane) =
      s.active.filter fun p => p.1 == lane := by
  unfold Lanes.remove
  rw [List.filter_filter]
  apply List.filter_congr
  intro p _
  by_cases hp : p.1 = lane
  · simp [hp, h.symm]
  · simp [hp]

variable {part : Lanes}

lemma OnLane.remove (h : OnLane lane s part) : OnLane lane (s.remove lane) (part.remove lane) := by
  refine ⟨?_, h.timings⟩
  rw [filter_remove_self]
  unfold Lanes.remove
  rw [h.active, List.filter_filter, List.filter_eq_nil_iff]
  intro p _
  cases hp : p.1 == lane <;> simp_all

lemma OnLane.lookup (h : OnLane lane s part) : part.active.lookup lane = s.active.lookup lane := by
  rw [h.active, lookup_filter_key]

lemma OnLane.active_remove (h : OnLane lane s part) : (part.remove lane).active = [] := by
  rw [h.remove.active, filter_remove_self]

lemma OnLane.started (h : OnLane lane s part) (hstarted : s.started lane v = .ok s') :
    ∃ part', part.started lane v = .ok part' ∧ OnLane lane s' part' := by
  unfold Lanes.started at hstarted ⊢
  dsimp only at hstarted ⊢
  split at hstarted
  · rename_i hintent
    rw [if_pos hintent]
    split at hstarted
    · rename_i id start hid hstart
      split at hstarted
      · cases hstarted
      obtain rfl := Except.ok.inj hstarted
      refine ⟨_, if_neg ?_, ?_, h.timings⟩
      · rw [h.active_remove]
        decide
      · rw [h.remove.active]
        simp
    · obtain rfl := Except.ok.inj hstarted
      exact ⟨part.remove lane, rfl, h.remove⟩
  · rename_i hintent
    obtain rfl := Except.ok.inj hstarted
    rw [if_neg hintent]
    exact ⟨_, rfl, h.remove⟩

lemma filter_map_last (m : List (String × Active)) (lane lane' : String) (last : Option String) :
    ((m.map fun p => if p.1 = lane' then (p.1, { p.2 with last }) else p).filter
        fun p => p.1 == lane) =
      (m.filter fun p => p.1 == lane).map fun p =>
        if p.1 = lane' then (p.1, { p.2 with last }) else p := by
  rw [List.filter_map]
  congr 1
  apply List.filter_congr
  intro p _
  by_cases hp : p.1 = lane' <;> simp [hp]

lemma OnLane.message (h : OnLane lane s part) (lane' : String) (v : Value) :
    OnLane lane (s.message lane' v) (part.message lane' v) := by
  unfold Lanes.message
  split
  · split
    · rename_i id hid
      refine ⟨?_, h.timings⟩
      dsimp only
      rw [filter_map_last, h.active]
    · exact h
  · exact h

/-- A message on another lane is not for this one. -/
lemma OnLane.message_of_ne (h : OnLane lane s part) (hne : lane' ≠ lane) (v : Value) :
    OnLane lane (s.message lane' v) part := by
  have hsame : part.message lane' v = part := by
    unfold Lanes.message
    split
    · split
      · rename_i id hid
        have hmap : part.active.map (fun p =>
            if p.1 = lane' then (p.1, { p.2 with last := some id }) else p) = part.active := by
          refine (List.map_congr_left ?_).trans (List.map_id _)
          intro p hp
          rw [h.active] at hp
          have hlane := (List.mem_filter.mp hp).2
          refine if_neg ?_
          rintro rfl
          exact hne (beq_iff_eq.mp hlane)
        rw [hmap]
      · rfl
    · rfl
  have hmessage := h.message lane' v
  rwa [hsame] at hmessage

lemma OnLane.finished (h : OnLane lane s part) (hfinished : s.finished lane v = .ok s') :
    ∃ part', part.finished lane v = .ok part' ∧ OnLane lane s' part' := by
  unfold Lanes.finished at hfinished ⊢
  rw [h.lookup]
  split at hfinished
  · obtain rfl := Except.ok.inj hfinished
    exact ⟨part, rfl, h⟩
  rename_i active hactive
  dsimp only at hfinished ⊢
  split at hfinished
  · rename_i hother
    obtain rfl := Except.ok.inj hfinished
    exact ⟨part, if_pos hother, h⟩
  rename_i hrun
  rw [if_neg hrun]
  split at hfinished
  · rename_i last finish outcome hlast hfinish houtcome
    split at hfinished
    · rename_i helapsed
      obtain rfl := Except.ok.inj hfinished
      exact ⟨_, rfl, h.remove⟩
    · rename_i elapsedMs helapsed
      split at hfinished
      · cases hfinished
      rename_i hcapacity
      obtain rfl := Except.ok.inj hfinished
      refine ⟨_, if_neg ?_, h.remove.active, ?_⟩
      · have hle : part.timings.length ≤ s.timings.length := by
          rw [h.timings]
          exact List.length_filter_le _ _
        intro hfull
        exact hcapacity (Nat.le_trans hfull hle)
      · show part.timings ++ _ = List.filter _ (s.timings ++ _)
        rw [List.filter_append, h.timings]
        simp
  · obtain rfl := Except.ok.inj hfinished
    exact ⟨part.remove lane, rfl, h.remove⟩

/-- A record on another lane is not seen. -/
lemma OnLane.record_of_ne (h : OnLane lane s part) (hlane : laneOf v ≠ some lane)
    (hrecord : s.record v = .ok s') : OnLane lane s' part := by
  unfold Lanes.record at hrecord
  split at hrecord
  · obtain rfl := Except.ok.inj hrecord
    exact h
  rename_i lane' hlane'
  have hne : lane' ≠ lane := by
    rintro rfl
    exact hlane hlane'
  have hremove : OnLane lane (s.remove lane') part :=
    ⟨by rw [filter_remove_of_ne hne, h.active], h.timings⟩
  split at hrecord
  · unfold Lanes.started at hrecord
    dsimp only at hrecord
    split at hrecord
    · split at hrecord
      · split at hrecord
        · cases hrecord
        · obtain rfl := Except.ok.inj hrecord
          refine ⟨?_, h.timings⟩
          rw [List.filter_append, ← hremove.active]
          simp [hne]
      · obtain rfl := Except.ok.inj hrecord
        exact hremove
    · obtain rfl := Except.ok.inj hrecord
      exact hremove
  · obtain rfl := Except.ok.inj hrecord
    exact h.message_of_ne hne v
  · unfold Lanes.finished at hrecord
    split at hrecord
    · obtain rfl := Except.ok.inj hrecord
      exact h
    dsimp only at hrecord
    split at hrecord
    · obtain rfl := Except.ok.inj hrecord
      exact h
    split at hrecord
    · split at hrecord
      · obtain rfl := Except.ok.inj hrecord
        exact hremove
      · split at hrecord
        · cases hrecord
        · obtain rfl := Except.ok.inj hrecord
          refine ⟨hremove.active, ?_⟩
          show part.timings = List.filter _ (s.timings ++ _)
          rw [List.filter_append, ← h.timings]
          simp [hne]
    · obtain rfl := Except.ok.inj hrecord
      exact hremove
  · obtain rfl := Except.ok.inj hrecord
    exact h

lemma OnLane.record (h : OnLane lane s part) (hlane : laneOf v = some lane)
    (hrecord : s.record v = .ok s') : ∃ part', part.record v = .ok part' ∧ OnLane lane s' part' := by
  unfold Lanes.record at hrecord ⊢
  rw [hlane] at hrecord ⊢
  dsimp only at hrecord ⊢
  split at hrecord
  · exact h.started hrecord
  · obtain rfl := Except.ok.inj hrecord
    exact ⟨_, rfl, h.message lane v⟩
  · exact h.finished hrecord
  · obtain rfl := Except.ok.inj hrecord
    exact ⟨part, rfl, h⟩

/-- What the records of a lane give does not depend on those of other lanes. -/
lemma onLane_recordAll (h : recordAll vs = .ok s) (lane : String) :
    ∃ part, recordAll (vs.filter fun v => laneOf v == some lane) = .ok part ∧ OnLane lane s part := by
  refine foldlM_filter_follows (f := Lanes.record) (R := OnLane lane) ?_ ?_ ⟨rfl, rfl⟩ h
  · intro v _ hv s part s' hpart hrecord
    exact hpart.record (beq_iff_eq.mp hv) hrecord
  · intro v _ hv s part s' hpart hrecord
    refine hpart.record_of_ne ?_ hrecord
    intro hlane
    simp [hlane] at hv

/-- The timings are the runs that the records contain, and those of a lane are what its own records
give. -/
theorem timings_recordAll (h : recordAll vs = .ok s) :
    (∀ t, t ∈ s.timings ↔ Contains fits vs t) ∧
    ∀ lane, ∃ part, recordAll (vs.filter fun v => laneOf v == some lane) = .ok part ∧
      part.timings = s.timings.filter fun t => t.lane == lane := by
  refine ⟨(knows_recordAll h).timings, ?_⟩
  intro lane
  obtain ⟨part, hpart, hon⟩ := onLane_recordAll h lane
  exact ⟨part, hpart, hon.timings⟩

def runStarted (timestamp : Number) : Value :=
  .object [("kind", .string "record"), ("type", .string "operation_started"), ("id", .string "r"),
    ("timestamp", .number timestamp), ("intent", .object [("kind", .string "run")])]

def runAnswered : Value :=
  .object [("kind", .string "entry"), ("type", .string "message"), ("id", .string "m"),
    ("message", .object [("role", .string "assistant"), ("content", .string "done")])]

def runFinished (timestamp : Number) : Value :=
  .object [("kind", .string "record"), ("type", .string "operation_finished"),
    ("runId", .string "r"), ("timestamp", .number timestamp), ("outcome", .string "completed")]

/-- A run of the main lane that starts, is answered, and finishes. -/
def answeredRun (start finish : Number) : List Value :=
  [runStarted start, runAnswered, runFinished finish]

lemma toOption_eq_some {ε α : Type*} {x : Except ε α} {a : α} (h : x.toOption = some a) :
    x = .ok a := by
  cases x with
  | error => cases h
  | ok => rw [Option.some.inj h]

theorem timings_recordAll_answeredRun :
    recordAll (answeredRun (.posInt 1) (.posInt 5)) =
      .ok ⟨[], [⟨"r", "main", "m", 1, 5, 4, "completed"⟩]⟩ ∧
    Contains fits (answeredRun (.posInt 1) (.posInt 5)) ⟨"r", "main", "m", 1, 5, 4, "completed"⟩ := by
  have h : recordAll (answeredRun (.posInt 1) (.posInt 5)) =
      .ok ⟨[], [⟨"r", "main", "m", 1, 5, 4, "completed"⟩]⟩ :=
    toOption_eq_some (by decide +kernel)
  exact ⟨h, ((timings_recordAll h).1 _).mp List.mem_cons_self⟩

/-- Timestamps whose difference overflows are in order, and give no timing. -/
theorem exists_run_without_timing : ¬∀ vs s, recordAll vs = .ok s →
    ∀ t, t ∈ s.timings ↔ Contains (fun _ => True) vs t := by
  intro hall
  have h : recordAll (answeredRun (.negInt (-1)) (.posInt 9223372036854775807)) = .ok ⟨[], []⟩ :=
    toOption_eq_some (by decide +kernel)
  have hiff := hall _ _ h
    ⟨"r", "main", "m", -1, 9223372036854775807, 9223372036854775808, "completed"⟩
  refine absurd (hiff.mpr ⟨[runStarted (.negInt (-1)), runAnswered],
    runFinished (.posInt 9223372036854775807), [], rfl, ⟨[], runStarted (.negInt (-1)), [runAnswered],
      rfl, ?_, ?_, ?_⟩, ?_, ?_, ?_, ?_, trivial, ?_⟩) List.not_mem_nil
  · unfold StartsRun Starts
    decide +kernel
  · intro v hv
    obtain rfl := List.mem_singleton.mp hv
    unfold Starts Finishes
    decide +kernel
  · decide +kernel
  · unfold Finishes
    decide +kernel
  · decide +kernel
  · decide +kernel
  · decide +kernel
  · decide +kernel

end Timings
