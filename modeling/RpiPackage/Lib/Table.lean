import Mathlib.Data.List.Basic
import Mathlib.Data.List.Nodup
import Mathlib.Tactic.Common

/-!
# Tables

Finite maps, as lists of bindings with each key once. A binding stays where it is when its value is
replaced, and a new one goes last.
-/

structure Table (κ α : Type*) where
  entries : List (κ × α)
  nodup : (entries.map Prod.fst).Nodup

namespace Table

variable {κ α : Type*}

@[ext] lemma ext {m n : Table κ α} (h : m.entries = n.entries) : m = n := by
  cases m
  cases n
  congr

variable [DecidableEq κ]

def empty : Table κ α := ⟨[], .nil⟩

def keys (m : Table κ α) : List κ := m.entries.map Prod.fst

def size (m : Table κ α) : Nat := m.entries.length

def get (m : Table κ α) (k : κ) : Option α := m.entries.lookup k

def contains (m : Table κ α) (k : κ) : Bool := (m.get k).isSome

def putEntries (k : κ) (a : α) : List (κ × α) → List (κ × α)
  | [] => [(k, a)]
  | p :: ps => if p.1 = k then (k, a) :: ps else p :: putEntries k a ps

def eraseEntries (k : κ) (ps : List (κ × α)) : List (κ × α) := ps.filter fun p => p.1 != k

variable {k k' : κ} {a : α} {ps : List (κ × α)} {m : Table κ α}

lemma mem_keys_putEntries :
    k' ∈ (putEntries k a ps).map Prod.fst ↔ k' = k ∨ k' ∈ ps.map Prod.fst := by
  induction ps with
  | nil => simp [putEntries]
  | cons p ps ih =>
    rw [putEntries]
    split
    · rename_i hp
      rw [List.map_cons, List.map_cons, List.mem_cons, List.mem_cons, hp]
      tauto
    · rw [List.map_cons, List.map_cons, List.mem_cons, List.mem_cons, ih]
      tauto

lemma nodup_putEntries (h : (ps.map Prod.fst).Nodup) :
    ((putEntries k a ps).map Prod.fst).Nodup := by
  induction ps with
  | nil => exact List.nodup_singleton k
  | cons p ps ih =>
    rw [List.map_cons, List.nodup_cons] at h
    rw [putEntries]
    split
    · rename_i hp
      rw [List.map_cons, List.nodup_cons, ← hp]
      exact h
    · rename_i hp
      rw [List.map_cons, List.nodup_cons, mem_keys_putEntries]
      exact ⟨not_or.mpr ⟨hp, h.1⟩, ih h.2⟩

lemma nodup_eraseEntries (h : (ps.map Prod.fst).Nodup) :
    ((eraseEntries k ps).map Prod.fst).Nodup :=
  h.sublist (List.filter_sublist.map Prod.fst)

def put (m : Table κ α) (k : κ) (a : α) : Table κ α :=
  ⟨putEntries k a m.entries, nodup_putEntries m.nodup⟩

def erase (m : Table κ α) (k : κ) : Table κ α :=
  ⟨eraseEntries k m.entries, nodup_eraseEntries m.nodup⟩

/-- The bindings that pass a test. -/
def filter (m : Table κ α) (p : κ × α → Bool) : Table κ α :=
  ⟨m.entries.filter p, m.nodup.sublist (List.filter_sublist.map Prod.fst)⟩

/-! ### Lookup -/

lemma contains_eq_false : m.contains k = false ↔ m.get k = none := by
  rw [contains, Option.isSome_eq_false_iff, Option.isNone_iff_eq_none]

lemma get_eq_none : m.get k = none ↔ k ∉ m.keys := by
  rw [get, keys, List.lookup_eq_none_iff, List.mem_map]
  constructor
  · rintro h ⟨p, hp, rfl⟩
    simpa using h p hp
  · intro h p hp
    exact bne_iff_ne.mpr fun heq => h ⟨p, hp, heq.symm⟩

lemma mem_entries_of_get (h : m.get k = some a) : (k, a) ∈ m.entries := by
  obtain ⟨l₁, l₂, heq, -⟩ := List.lookup_eq_some_iff.mp h
  rw [heq]
  exact List.mem_append_right _ List.mem_cons_self

lemma get_of_mem_entries (h : (k, a) ∈ m.entries) : m.get k = some a := by
  have hnodup := m.nodup
  show m.entries.lookup k = some a
  generalize m.entries = ps at h hnodup ⊢
  induction ps with
  | nil => exact absurd h List.not_mem_nil
  | cons p ps ih =>
    rw [List.map_cons, List.nodup_cons] at hnodup
    rcases List.mem_cons.mp h with rfl | h
    · exact List.lookup_cons_self
    · have hne : k ≠ p.1 := by
        rintro rfl
        exact hnodup.1 (List.mem_map.mpr ⟨_, h, rfl⟩)
      rw [List.lookup_cons, beq_false_of_ne hne]
      exact ih h hnodup.2

lemma get_filter {p : κ × α → Bool} (h : (m.filter p).get k = some a) :
    m.get k = some a ∧ p (k, a) = true := by
  obtain ⟨hmem, hp⟩ := List.mem_filter.mp (mem_entries_of_get h)
  exact ⟨get_of_mem_entries hmem, hp⟩

lemma get_put_self (m : Table κ α) (k : κ) (a : α) : (m.put k a).get k = some a := by
  show (putEntries k a m.entries).lookup k = some a
  induction m.entries with
  | nil => exact List.lookup_cons_self
  | cons p ps ih =>
    rw [putEntries]
    split
    · exact List.lookup_cons_self
    · rename_i hp
      rw [List.lookup_cons, beq_false_of_ne (Ne.symm hp)]
      exact ih

lemma mem_putEntries {p : κ × α} (h : p ∈ putEntries k a ps) : p = (k, a) ∨ p ∈ ps := by
  induction ps with
  | nil => exact .inl (List.mem_singleton.mp h)
  | cons q ps ih =>
    rw [putEntries] at h
    split at h
    · rcases List.mem_cons.mp h with h | h
      · exact .inl h
      · exact .inr (List.mem_cons_of_mem q h)
    · rcases List.mem_cons.mp h with rfl | h
      · exact .inr List.mem_cons_self
      · rcases ih h with h | h
        · exact .inl h
        · exact .inr (List.mem_cons_of_mem q h)

lemma mem_erase {p : κ × α} : p ∈ (m.erase k).entries ↔ p ∈ m.entries ∧ p.1 ≠ k := by
  show p ∈ eraseEntries k m.entries ↔ _
  rw [eraseEntries, List.mem_filter, bne_iff_ne]

lemma get_erase_self (m : Table κ α) (k : κ) : (m.erase k).get k = none := by
  rw [get_eq_none, keys, List.mem_map]
  rintro ⟨p, hp, rfl⟩
  exact (mem_erase.mp hp).2 rfl

lemma get_of_get_erase (h : (m.erase k).get k' = some a) : k' ≠ k ∧ m.get k' = some a := by
  obtain ⟨hmem, hne⟩ := mem_erase.mp (mem_entries_of_get h)
  exact ⟨hne, get_of_mem_entries hmem⟩

lemma get_erase_of_ne (h : k' ≠ k) (m : Table κ α) : (m.erase k).get k' = m.get k' := by
  show (eraseEntries k m.entries).lookup k' = m.entries.lookup k'
  induction m.entries with
  | nil => rfl
  | cons p ps ih =>
    unfold eraseEntries at ih ⊢
    by_cases hp : p.1 = k
    · rw [List.filter_cons_of_neg (by simpa using hp), ih, List.lookup_cons,
        beq_false_of_ne (hp ▸ h)]
    · rw [List.filter_cons_of_pos (by simpa using hp), List.lookup_cons, List.lookup_cons, ih]

lemma keys_erase (m : Table κ α) (k : κ) : (m.erase k).keys = m.keys.filter (· != k) := by
  show (m.entries.filter fun p => p.1 != k).map Prod.fst = _
  rw [keys, List.filter_map]
  rfl

/-- What an insertion adds is all that it changes. -/
lemma get_put_of_ne (h : k' ≠ k) (m : Table κ α) (a : α) : (m.put k a).get k' = m.get k' := by
  show (putEntries k a m.entries).lookup k' = m.entries.lookup k'
  induction m.entries with
  | nil => rw [putEntries, List.lookup_cons, beq_false_of_ne h]
  | cons p ps ih =>
    rw [putEntries]
    split
    · rename_i hp
      rw [List.lookup_cons, List.lookup_cons, beq_false_of_ne h, beq_false_of_ne (hp ▸ h)]
    · rw [List.lookup_cons, List.lookup_cons, ih]

/-! ### Restoring -/

lemma putEntries_of_not_mem (h : k ∉ ps.map Prod.fst) : putEntries k a ps = ps ++ [(k, a)] := by
  induction ps with
  | nil => rfl
  | cons p ps ih =>
    rw [List.map_cons, List.mem_cons, not_or] at h
    rw [putEntries, if_neg (Ne.symm h.1), ih h.2, List.cons_append]

/-- Taking a new binding back. -/
lemma erase_put (h : k ∉ m.keys) (a : α) : (m.put k a).erase k = m := by
  refine ext ?_
  show eraseEntries k (putEntries k a m.entries) = m.entries
  rw [putEntries_of_not_mem h, eraseEntries, List.filter_append, List.filter_eq_self.mpr]
  · simp
  · intro p hp
    exact bne_iff_ne.mpr fun heq => h (List.mem_map.mpr ⟨p, hp, heq⟩)

lemma putEntries_putEntries {b : α} (h : ps.lookup k = some b) :
    putEntries k b (putEntries k a ps) = ps := by
  induction ps with
  | nil => cases h
  | cons p ps ih =>
    rw [List.lookup_cons] at h
    by_cases hp : p.1 = k
    · rw [show (k == p.1) = true from beq_iff_eq.mpr hp.symm] at h
      obtain rfl := Option.some.inj h
      rw [putEntries, if_pos hp, putEntries, if_pos rfl, ← hp]
    · rw [beq_false_of_ne (Ne.symm hp)] at h
      rw [putEntries, if_neg hp, putEntries, if_neg hp, ih h]

/-- Putting back the value that was replaced. -/
lemma put_put {b : α} (h : m.get k = some b) (a : α) : (m.put k a).put k b = m :=
  ext (putEntries_putEntries h)

lemma size_put (h : k ∉ m.keys) (a : α) : (m.put k a).size = m.size + 1 := by
  show (putEntries k a m.entries).length = _
  rw [putEntries_of_not_mem h, List.length_append, List.length_singleton, size]

lemma size_erase_le (m : Table κ α) (k : κ) : (m.erase k).size ≤ m.size :=
  List.length_filter_le _ _

lemma size_erase_lt (h : k ∈ m.keys) : (m.erase k).size < m.size := by
  obtain ⟨p, hp, rfl⟩ := List.mem_map.mp h
  exact List.length_filter_lt_length_iff_exists.mpr ⟨p, hp, by simp⟩

/-- A binding apart from the others. -/
lemma perm_erase (h : m.get k = some a) : m.entries.Perm ((k, a) :: (m.erase k).entries) := by
  have hmem := mem_entries_of_get h
  have hnodup := m.nodup
  show m.entries.Perm ((k, a) :: eraseEntries k m.entries)
  generalize m.entries = ps at hmem hnodup ⊢
  induction ps with
  | nil => exact absurd hmem List.not_mem_nil
  | cons p ps ih =>
    rw [List.map_cons, List.nodup_cons] at hnodup
    rcases List.mem_cons.mp hmem with rfl | hmem
    · have hkeep : eraseEntries k ((k, a) :: ps) = ps := by
        rw [eraseEntries, List.filter_cons_of_neg (by simp), List.filter_eq_self]
        intro q hq
        exact bne_iff_ne.mpr fun heq => hnodup.1 (List.mem_map.mpr ⟨q, hq, heq⟩)
      rw [hkeep]
    · have hne : p.1 ≠ k := fun heq => hnodup.1 (heq ▸ List.mem_map.mpr ⟨_, hmem, rfl⟩)
      have hkeep : eraseEntries k (p :: ps) = p :: eraseEntries k ps :=
        List.filter_cons_of_pos (bne_iff_ne.mpr hne)
      rw [hkeep]
      exact ((ih hmem hnodup.2).cons p).trans (.swap _ _ _)

lemma size_put_of_mem (h : k ∈ m.keys) (a : α) : (m.put k a).size = m.size := by
  show (putEntries k a m.entries).length = m.entries.length
  rw [keys] at h
  generalize m.entries = ps at h
  induction ps with
  | nil => exact absurd h List.not_mem_nil
  | cons p ps ih =>
    rw [putEntries]
    split
    · rfl
    · rename_i hne
      rw [List.map_cons, List.mem_cons] at h
      rw [List.length_cons, List.length_cons, ih (h.resolve_left (Ne.symm hne))]

lemma mem_keys_put_self (m : Table κ α) (k : κ) (a : α) : k ∈ (m.put k a).keys :=
  mem_keys_putEntries.mpr (.inl rfl)

end Table
