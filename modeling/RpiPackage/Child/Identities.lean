import RpiPackage.Child.Live
import RpiPackage.Lib.Run

/-!
# The table of identities

The two maps of the table are inverse to each other after every sequence of calls. So what the loop
that forgets old identities expects is always there, and the loop ends with the newest identities.
-/

namespace Child.Identities

open Service

/-- The calls of the table. -/
inductive Op where
  | begin (child : ChildSummary)
  | phase (phase : ChildPhase)
  | retainRecent (max : Nat)

/-- The reply of a call and the table after it. -/
def apply (i : Identities) : Op → Except ServiceError Unit × Identities
  | .begin child => recorded (canonical child)
  | .phase phase => recorded (.phase phase)
  | .retainRecent max => (.ok (), i.retainRecent max)
where
  recorded (value : Recorded) : Except ServiceError Unit × Identities :=
    match i.record value with
    | .ok i' => (.ok (), i')
    | .error e => (.error e, i)

def step (i : Identities) (op : Op) : Identities := (i.apply op).2

/-- One turn of the loop; an expectation that fails gives nothing. -/
def evict (i : Identities) : Option Identities := do
  let seq ← (i.sequences.map Prod.fst).min?
  let id ← i.sequences.lookup seq
  return ⟨Assoc.erase i.entries id, Assoc.erase i.sequences seq⟩

/-- How the loop ends, if it does: with a table or with an expectation that fails. -/
inductive Ends (max : Nat) : Identities → Option Identities → Prop
  | done {i : Identities} (h : i.entries.length ≤ max) : Ends max i (some i)
  | panics {i : Identities} (h : max < i.entries.length) (hevict : i.evict = none) : Ends max i none
  | turn {i j : Identities} {result : Option Identities} (h : max < i.entries.length)
    (hevict : i.evict = some j) (hends : Ends max j result) : Ends max i result

/-- The two maps are inverse to each other. -/
structure Inverse (i : Identities) : Prop where
  ids : (i.entries.map Prod.fst).Nodup
  numbers : (i.sequences.map Prod.fst).Nodup
  inverse : ∀ id seq, i.sequences.lookup seq = some id ↔ ∃ value, i.entries.lookup id = some (seq, value)

/-- How many identities have a larger number. -/
def rank (i : Identities) (seq : UInt64) : Nat := (i.entries.filter fun e => seq < e.2.1).length

variable {i j : Identities} {max : Nat} {id : String} {seq : UInt64} {value : Recorded}

/-! ### Recording -/

/-- What is recorded fits both maps. -/
lemma of_record (h : i.record value = .ok j) :
    j = ⟨Assoc.insert i.entries value.id (value.seq, value),
      Assoc.insert i.sequences value.seq value.id⟩ ∧
      (∀ id, i.sequences.lookup value.seq = some id → id = value.id) ∧
      ∀ entry, i.entries.lookup value.id = some entry → entry = (value.seq, value) := by
  rw [record] at h
  split at h
  · cases h
  · rename_i hconflict
    rw [Bool.or_eq_true, not_or] at hconflict
    refine ⟨(Except.ok.inj h).symm, fun id hid => ?_, fun entry hentry => ?_⟩
    · have hnot := hconflict.1
      rw [hid] at hnot
      simpa using hnot
    · have hnot := hconflict.2
      rw [hentry] at hnot
      simpa using hnot

lemma Inverse.record (h : i.Inverse) (hrecord : i.record value = .ok j) : j.Inverse := by
  obtain ⟨rfl, hsequence, hentry⟩ := of_record hrecord
  refine ⟨Assoc.nodup_insert h.ids _ _, Assoc.nodup_insert h.numbers _ _, fun id seq => ?_⟩
  show (Assoc.insert i.sequences value.seq value.id).lookup seq = some id ↔
    ∃ v, (Assoc.insert i.entries value.id (value.seq, value)).lookup id = some (seq, v)
  by_cases hseq : seq = value.seq
  · subst hseq
    rw [Assoc.lookup_insert_self]
    by_cases hid : id = value.id
    · subst hid
      rw [Assoc.lookup_insert_self]
      exact ⟨fun _ => ⟨value, rfl⟩, fun _ => rfl⟩
    · rw [Assoc.lookup_insert_of_ne hid, ← h.inverse]
      exact ⟨fun heq => absurd (Option.some.inj heq).symm hid, fun hlookup => absurd (hsequence id hlookup) hid⟩
  · rw [Assoc.lookup_insert_of_ne hseq]
    by_cases hid : id = value.id
    · subst hid
      rw [Assoc.lookup_insert_self, h.inverse]
      constructor
      · rintro ⟨v, hv⟩
        exact absurd (Prod.mk.inj (hentry _ hv)).1 hseq
      · rintro ⟨v, hv⟩
        exact absurd (Prod.mk.inj (Option.some.inj hv)).1.symm hseq
    · rw [Assoc.lookup_insert_of_ne hid]
      exact h.inverse id seq

/-! ### Forgetting -/

/-- A turn of the loop finds the identity with the smallest number. -/
lemma Inverse.exists_oldest (h : i.Inverse) (hne : i.entries ≠ []) :
    ∃ seq id value, (i.sequences.map Prod.fst).min? = some seq ∧ i.sequences.lookup seq = some id ∧
      i.entries.lookup id = some (seq, value) ∧
      ∀ id' seq' value', i.entries.lookup id' = some (seq', value') → seq ≤ seq' := by
  have hnumber : ∀ {id seq value}, i.entries.lookup id = some (seq, value) →
      seq ∈ i.sequences.map Prod.fst := by
    intro id seq value hlookup
    have hseq := (h.inverse id seq).mpr ⟨value, hlookup⟩
    exact List.mem_map_of_mem (Assoc.mem_of_lookup hseq)
  obtain ⟨⟨id₀, seq₀, value₀⟩, hmem⟩ := List.exists_mem_of_ne_nil _ hne
  have hsequences : i.sequences.map Prod.fst ≠ [] :=
    List.ne_nil_of_mem (hnumber ((Assoc.lookup_eq_some_iff h.ids).mpr hmem))
  obtain ⟨seq, hmin⟩ := Option.isSome_iff_exists.mp (List.isSome_min?_iff.mpr hsequences)
  obtain ⟨hseq, hle⟩ := List.min?_eq_some_iff.mp hmin
  obtain ⟨⟨seq', id⟩, hpair, rfl⟩ := List.mem_map.mp hseq
  have hlookup := (Assoc.lookup_eq_some_iff h.numbers).mpr hpair
  obtain ⟨value, hvalue⟩ := (h.inverse id seq').mp hlookup
  exact ⟨seq', id, value, hmin, hlookup, hvalue, fun _ _ _ h' => hle _ (hnumber h')⟩

/-- A turn of the loop forgets the oldest identity and no other. -/
lemma Inverse.evict (h : i.Inverse) (hne : i.entries ≠ []) :
    ∃ seq id, i.evict = some i.forget ∧ i.forget.Inverse ∧
      i.forget.entries = Assoc.erase i.entries id ∧ i.forget.entries.length + 1 = i.entries.length ∧
      (∃ value, i.entries.lookup id = some (seq, value)) ∧
      ∀ id' seq' value', i.entries.lookup id' = some (seq', value') → id' ≠ id → seq < seq' := by
  obtain ⟨seq, id, value, hmin, hlookup, hvalue, hle⟩ := h.exists_oldest hne
  have hforget : i.forget = ⟨Assoc.erase i.entries id, Assoc.erase i.sequences seq⟩ := by
    rw [forget, hmin]
    simp only [hlookup, Option.getD_some]
  have hevict : i.evict = some i.forget := by
    rw [Identities.evict, hmin, hforget]
    simp only [Option.bind_eq_bind, Option.bind_some, hlookup, Option.pure_def]
  refine ⟨seq, id, hevict, ?_, ?_, ?_, ⟨value, hvalue⟩, ?_⟩
  · rw [hforget]
    refine ⟨Assoc.nodup_erase h.ids _, Assoc.nodup_erase h.numbers _, fun id' seq' => ?_⟩
    show (Assoc.erase i.sequences seq).lookup seq' = some id' ↔
      ∃ v, (Assoc.erase i.entries id).lookup id' = some (seq', v)
    by_cases hid : id' = id
    · subst hid
      rw [Assoc.lookup_erase_self]
      refine ⟨fun hseq => ?_, fun ⟨_, hnone⟩ => (nomatch hnone)⟩
      obtain ⟨v, hv⟩ := (h.inverse _ _).mp (Assoc.lookup_of_lookup_erase hseq)
      obtain ⟨rfl, -⟩ := Prod.mk.inj (Option.some.inj (hvalue.symm.trans hv))
      rw [Assoc.lookup_erase_self] at hseq
      cases hseq
    · rw [Assoc.lookup_erase_of_ne hid, ← h.inverse]
      by_cases hseq : seq' = seq
      · subst hseq
        rw [Assoc.lookup_erase_self, hlookup]
        exact ⟨fun hnone => (nomatch hnone), fun heq => absurd (Option.some.inj heq).symm hid⟩
      · rw [Assoc.lookup_erase_of_ne hseq]
  · rw [hforget]
  · rw [hforget]
    exact Assoc.length_erase h.ids (Assoc.mem_of_lookup hvalue)
  · intro id' seq' value' hlookup' hid
    refine UInt64.lt_of_le_of_ne (hle _ _ _ hlookup') ?_
    rintro rfl
    have hseq := (h.inverse id' seq).mpr ⟨value', hlookup'⟩
    exact hid (Option.some.inj (hseq.symm.trans hlookup))

lemma rank_lt (h : i.entries.lookup id = some (seq, value)) : i.rank seq < i.entries.length := by
  rw [rank, List.length_filter_lt_length_iff_exists]
  refine ⟨(id, seq, value), Assoc.mem_of_lookup h, ?_⟩
  rw [decide_eq_true_eq]
  exact UInt64.lt_irrefl seq

/-- The loop ends without an expectation that fails, and keeps the identities of the largest numbers. -/
lemma Inverse.retain (h : i.Inverse) {fuel : Nat} (hfuel : i.entries.length ≤ fuel) :
    Ends max i (some (retain max fuel i)) ∧ (retain max fuel i).Inverse ∧
      ∀ id seq value, (retain max fuel i).entries.lookup id = some (seq, value) ↔
        i.entries.lookup id = some (seq, value) ∧ i.rank seq < max := by
  have hdone : ∀ i : Identities, i.entries.length ≤ max → ∀ id seq value,
      i.entries.lookup id = some (seq, value) ↔
        i.entries.lookup id = some (seq, value) ∧ i.rank seq < max :=
    fun i hle id seq value => ⟨fun hl => ⟨hl, (rank_lt hl).trans_le hle⟩, And.left⟩
  induction fuel generalizing i with
  | zero =>
    have hle : i.entries.length ≤ max := hfuel.trans (Nat.zero_le max)
    exact ⟨.done hle, h, hdone i hle⟩
  | succ fuel ih =>
    rw [Identities.retain]
    split
    · rename_i hmax
      have hne : i.entries ≠ [] := by
        rintro hnil
        rw [hnil] at hmax
        exact Nat.not_lt_zero max hmax
      obtain ⟨seq, id, hevict, hinverse, hentries, hlength, ⟨value, hvalue⟩, hlarger⟩ := h.evict hne
      obtain ⟨hends, hkept, hspec⟩ := ih hinverse (by omega)
      refine ⟨.turn hmax hevict hends, hkept, fun id' seq' value' => ?_⟩
      -- a binding of another identity has a larger number
      have hother : ∀ e ∈ i.entries, e.1 ≠ id ↔ seq < e.2.1 := by
        rintro ⟨id₁, seq₁, value₁⟩ he
        have hlookup := (Assoc.lookup_eq_some_iff h.ids).mpr he
        refine ⟨hlarger id₁ seq₁ value₁ hlookup, fun hlt => ?_⟩
        rintro rfl
        obtain ⟨rfl, -⟩ := Prod.mk.inj (Option.some.inj (hvalue.symm.trans hlookup))
        exact UInt64.lt_irrefl seq hlt
      rw [hspec id' seq' value', hentries]
      by_cases hid : id' = id
      · subst hid
        rw [Assoc.lookup_erase_self]
        refine ⟨fun hnone => (nomatch hnone.1), fun ⟨hlookup, hrank⟩ => ?_⟩
        obtain ⟨rfl, -⟩ := Prod.mk.inj (Option.some.inj (hvalue.symm.trans hlookup))
        have herase : i.entries.filter (fun e => seq < e.2.1) = Assoc.erase i.entries id' := by
          apply List.filter_congr
          intro e he
          by_cases hkey : e.1 = id'
          · simp [hkey, mt (hother e he).mpr (not_not.mpr hkey)]
          · simp [hkey, (hother e he).mp hkey]
        rw [rank, herase, ← hentries] at hrank
        exact absurd hrank (Nat.not_lt.mpr (by omega))
      · rw [Assoc.lookup_erase_of_ne hid]
        refine and_congr_right fun hlookup => ?_
        have hseq := hlarger id' seq' value' hlookup hid
        have hrank : i.forget.rank seq' = i.rank seq' := by
          rw [rank, rank, hentries, Assoc.erase, List.filter_filter]
          congr 1
          apply List.filter_congr
          intro e he
          by_cases hlt : seq' < e.2.1
          · have hkeep : e.1 ≠ id := (hother e he).mpr (UInt64.lt_trans hseq hlt)
            simp [hlt, hkeep]
          · simp [hlt]
        rw [hrank]
    · rename_i hmax
      have hle : i.entries.length ≤ max := Nat.not_lt.mp hmax
      exact ⟨.done hle, h, hdone i hle⟩

lemma Ends.deterministic {result result' : Option Identities} (h : Ends max i result)
    (h' : Ends max i result') : result = result' := by
  induction h with
  | done hle =>
    cases h' with
    | done => rfl
    | panics hlt => exact absurd hle (Nat.not_le.mpr hlt)
    | turn hlt => exact absurd hle (Nat.not_le.mpr hlt)
  | panics hlt hevict =>
    cases h' with
    | done hle => exact absurd hle (Nat.not_le.mpr hlt)
    | panics => rfl
    | turn _ hevict' => cases hevict.symm.trans hevict'
  | turn hlt hevict _ ih =>
    cases h' with
    | done hle => exact absurd hle (Nat.not_le.mpr hlt)
    | panics _ hevict' => cases hevict.symm.trans hevict'
    | turn _ hevict' hends' =>
      obtain rfl := Option.some.inj (hevict.symm.trans hevict')
      exact ih hends'

/-! ### Every sequence of calls -/

lemma Inverse.step (h : i.Inverse) (op : Op) : (i.step op).Inverse := by
  have hrecorded : ∀ value, (apply.recorded i value).2.Inverse := by
    intro value
    rw [apply.recorded]
    split
    · rename_i hrecord
      exact h.record hrecord
    · exact h
  cases op with
  | begin child => exact hrecorded (canonical child)
  | phase phase => exact hrecorded (.phase phase)
  | retainRecent max => exact (h.retain le_rfl).2.1

lemma inverse_default : default.Inverse :=
  ⟨List.nodup_nil, List.nodup_nil, fun _ _ => ⟨fun h => (nomatch h), fun ⟨_, h⟩ => (nomatch h)⟩⟩

lemma apply_error (i : Identities) (op : Op) {e : ServiceError} (h : (i.apply op).1 = .error e) :
    (i.apply op).2 = i := by
  have hrecorded : ∀ value, (apply.recorded i value).1 = .error e → (apply.recorded i value).2 = i := by
    intro value hvalue
    rw [apply.recorded] at hvalue ⊢
    split at hvalue
    · cases hvalue
    · rfl
  cases op with
  | begin child => exact hrecorded _ h
  | phase phase => exact hrecorded _ h
  | retainRecent max => cases h

/-- After every sequence of calls the maps are inverse to each other, a failing call changes nothing,
and forgetting ends with the identities of the largest numbers. -/
theorem inverse_after (ops : List Op) :
    let i := Run.after step default ops
    i.Inverse ∧
      (∀ op e, (i.apply op).1 = .error e → (i.apply op).2 = i) ∧
      ∀ max, Ends max i (some (i.retainRecent max)) ∧
        (∀ result, Ends max i result → result = some (i.retainRecent max)) ∧
        (i.retainRecent max).Inverse ∧
        ∀ id seq value, (i.retainRecent max).entries.lookup id = some (seq, value) ↔
          i.entries.lookup id = some (seq, value) ∧ i.rank seq < max := by
  intro i
  have h : i.Inverse := Run.invariant (fun _ op h => h.step op) inverse_default ops
  refine ⟨h, fun op e => apply_error i op, fun max => ?_⟩
  obtain ⟨hends, hinverse, hkept⟩ := @Inverse.retain i max h _ (le_refl i.entries.length)
  exact ⟨hends, fun result hresult => hresult.deterministic hends, hinverse, hkept⟩

end Child.Identities
